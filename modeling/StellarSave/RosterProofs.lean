import StellarSave.SeatingProofs
import StellarSave.CallProofs

/-! # The roster — one seating, five copies

    Count, roster map, profiles, eligibility positions and position index
    should all describe ONE seating of the members.  Six operations change
    some of the five; for each of them the exact condition is given under
    which a seating is left behind. -/

namespace SaveRoster

open HostProg Footprint TokenLedger SaveData SaveMembership SaveRefund SaveCall Seating

/-! ## The roster map as a list -/

section MapLemmas

variable {m : MemberMap} {k : Nat} {a b : Address}

/-- The members are the values of the map. -/
theorem mem_members : a ∈ m.members ↔ ∃ k : Nat, m[k]? = some a := by
  rw [MemberMap.members, List.mem_map]
  constructor
  · rintro ⟨⟨k, b⟩, hkb, rfl⟩
    exact ⟨k, Std.TreeMap.mem_toList_iff_getElem?_eq_some.mp hkb⟩
  · rintro ⟨k, hk⟩
    exact ⟨(k, a), Std.TreeMap.mem_toList_iff_getElem?_eq_some.mpr hk, rfl⟩

/-- As many as it has entries. -/
theorem length_members : m.members.length = m.size := by
  rw [MemberMap.members, List.length_map, Std.TreeMap.length_toList]

/-- A key is contained if something is found under it. -/
theorem contains_iff : m.contains k = true ↔ m[k]? ≠ none := by
  rw [Std.TreeMap.contains_eq_isSome_getElem?, Option.isSome_iff_ne_none]

/-- In a roster without repetitions a member has one slot. -/
theorem slot_unique (h : m.members.Nodup) {k' : Nat} (hk : m[k]? = some a)
    (hk' : m[k']? = some a) : k = k' := by
  have hinj := List.inj_on_of_nodup_map h
    (Std.TreeMap.mem_toList_iff_getElem?_eq_some.mpr hk)
    (Std.TreeMap.mem_toList_iff_getElem?_eq_some.mpr hk') rfl
  exact congrArg Prod.fst hinj

/-- An insertion under a new key adds one member. -/
theorem mem_members_insert (h : m[k]? = none) :
    b ∈ MemberMap.members (m.insert k a) ↔ b = a ∨ b ∈ m.members := by
  rw [mem_members, mem_members]
  constructor
  · rintro ⟨j, hj⟩
    rw [Std.TreeMap.getElem?_insert] at hj
    by_cases hkj : compare k j = .eq
    · rw [if_pos hkj] at hj
      exact Or.inl (Option.some.inj hj).symm
    · rw [if_neg hkj] at hj
      exact Or.inr ⟨j, hj⟩
  · rintro (rfl | ⟨j, hj⟩)
    · exact ⟨k, by rw [Std.TreeMap.getElem?_insert, if_pos (compare_eq_iff_eq.mpr rfl)]⟩
    · refine ⟨j, ?_⟩
      have hne : ¬ compare k j = .eq := by
        intro he
        rw [← compare_eq_iff_eq.mp he, h] at hj
        cases hj
      rw [Std.TreeMap.getElem?_insert, if_neg hne, hj]

/-- A removal takes the one under its key. -/
theorem mem_members_erase :
    b ∈ MemberMap.members (m.erase k) ↔ ∃ j : Nat, j ≠ k ∧ m[j]? = some b := by
  rw [mem_members]
  constructor
  · rintro ⟨j, hj⟩
    rw [Std.TreeMap.getElem?_erase] at hj
    by_cases hkj : compare k j = .eq
    · rw [if_pos hkj] at hj
      cases hj
    · rw [if_neg hkj] at hj
      exact ⟨j, fun he => hkj (compare_eq_iff_eq.mpr he.symm), hj⟩
  · rintro ⟨j, hne, hj⟩
    refine ⟨j, ?_⟩
    rw [Std.TreeMap.getElem?_erase, if_neg fun he => hne (compare_eq_iff_eq.mp he).symm, hj]

end MapLemmas

/-! ## Well-formed groups -/

/-- A member's seat, as the profile has it. -/
def seatOf (s : State) (g : Nat) (a : Address) : Option Nat :=
  (profileAt s g a).map MemberProfile.payoutPosition

/-- The five copies describe one bijection between the members and the first
    `member_count` positions. -/
structure WellFormed (s : State) (g : Nat) : Prop where
  count : ∃ grp, groupAt s g = some grp ∧ grp.memberCount = (rosterAt s g).size
  profiles : ∀ a, s.persistent (.mbrProf g a) ≠ none →
    ∃ profile, profileAt s g a = some profile ∧ profile.address = a
  seated : Seated (rosterAt s g).members (seatOf s g) (posIxAt s g)
  eligible : ∀ a, eligAt s g a = (seatOf s g a).map U32.mk

/-- Nothing is stored about the members of a group. -/
structure Unused (s : State) (g : Nat) : Prop where
  profile : ∀ a, s.persistent (.mbrProf g a) = none
  eligible : ∀ a, s.persistent (.mbrPElig g a) = none
  index : ∀ p, s.persistent (.grpPosIx g p) = none

/-- The entries, beside the group record, that say who sits where. -/
def seatKinds : List Kind := [.grpMbrs, .mbrProf, .mbrPElig, .grpPosIx]

/-- A group is as well formed as its five copies: other entries, and the rest
    of the record, do not matter. -/
theorem WellFormed.congr {s t : State} {g : Nat} (hwf : WellFormed s g)
    (hcount : (groupAt t g).map Group.memberCount = (groupAt s g).map Group.memberCount)
    (h : ∀ k : Key, k.group = g → k.kind ∈ seatKinds → t.persistent k = s.persistent k) :
    WellFormed t g := by
  have hroster : rosterAt t g = rosterAt s g :=
    congrArg (Option.getD · ∅) (readAt_congr (h (.grpMbrs g) rfl (by simp [seatKinds])))
  have hseat : seatOf t g = seatOf s g := funext fun a =>
    congrArg (Option.map _) (readAt_congr (h (.mbrProf g a) rfl (by simp [seatKinds])))
  have hindex : posIxAt t g = posIxAt s g :=
    funext fun p => readAt_congr (h (.grpPosIx g p) rfl (by simp [seatKinds]))
  constructor
  · obtain ⟨grp, hgrp, hsize⟩ := hwf.count
    rw [hgrp, Option.map_some, Option.map_eq_some_iff] at hcount
    obtain ⟨grp', hgrp', hsame⟩ := hcount
    exact ⟨grp', hgrp', by rw [hroster, hsame, hsize]⟩
  · intro a ha
    rw [h (.mbrProf g a) rfl (by simp [seatKinds])] at ha
    rw [profileAt, readAt_congr (h (.mbrProf g a) rfl (by simp [seatKinds]))]
    exact hwf.profiles a ha
  · rw [hroster, hseat, hindex]
    exact hwf.seated
  · intro a
    rw [hseat, eligAt, readAt_congr (h (.mbrPElig g a) rfl (by simp [seatKinds]))]
    exact hwf.eligible a

section Joining

variable {env : Env} {s t : State} {g : Nat} {member : Address} {u : Unit}

/-- Without a profile there is no seat. -/
theorem seatOf_none {a : Address} (h : s.persistent (.mbrProf g a) = none) :
    seatOf s g a = none := by
  have hnone : profileAt s g a = none := (readAt_eq_none (typedAt_of_none h)).mpr h
  rw [seatOf, hnone]
  rfl

/-- The seat is the position in it. -/
theorem seatOf_of_profile {s : State} {g : Nat} {a : Address} {profile : MemberProfile}
    (h : profileAt s g a = some profile) : seatOf s g a = some profile.payoutPosition := by
  rw [seatOf, h]
  rfl

/-- The five views after a newcomer joined. -/
theorem joined_views (m : Address) (grp : Group) (time : Nat) (referrer : Option Address) :
    groupAt (joined s g grp m time referrer) g
        = some { grp with memberCount := grp.memberCount + 1 } ∧
      rosterAt (joined s g grp m time referrer) g
        = (rosterAt s g).insert grp.memberCount m ∧
      (∀ a, profileAt (joined s g grp m time referrer) g a
        = if a = m then some (MemberProfile.mk m g grp.memberCount time false)
          else profileAt s g a) ∧
      (∀ a, eligAt (joined s g grp m time referrer) g a
        = if a = m then some ⟨grp.memberCount⟩ else eligAt s g a) ∧
      (∀ p, posIxAt (joined s g grp m time referrer) g p
        = if p = grp.memberCount then some m else posIxAt s g p) := by
  refine ⟨by simp [joined], by simp [joined, rosterAt], fun a => ?_, fun a => ?_, fun p => ?_⟩
  · simp [joined]
  · simp [joined]
  · simp [joined]

/-- **JOINING** keeps the seating exactly when the slot after the last is free
    in the roster map. -/
theorem join_wellFormed_iff {referrer : Option Address} (hwf : WellFormed s g)
    (h : joinGroup g member referrer env s = .ok u t) :
    WellFormed t g ↔ (rosterAt s g)[(rosterAt s g).size]? = none := by
  obtain ⟨grp, hopen, rfl⟩ := joinGroup_ok h
  obtain ⟨grp', hgrp', hcount⟩ := hwf.count
  rw [hopen.group] at hgrp'
  obtain rfl := Option.some.inj hgrp'
  obtain ⟨hgroup, hroster, hprofile, helig, hindex⟩ :=
    joined_views (s := s) (g := g) member grp env.timestamp referrer
  rw [hcount] at hroster hprofile helig hindex
  constructor
  · intro hwf'
    by_contra hslot
    -- an occupied slot is overwritten: the map does not grow, the count does
    obtain ⟨grp', hgrp', hcount'⟩ := hwf'.count
    rw [hgroup] at hgrp'
    obtain rfl := Option.some.inj hgrp'
    rw [hroster, Std.TreeMap.size_insert, if_pos (contains_iff.mpr hslot)] at hcount'
    exact absurd (hcount ▸ hcount' : (rosterAt s g).size + 1 = (rosterAt s g).size)
      (Nat.succ_ne_self _)
  · intro hslot
    have hsize : ((rosterAt s g).insert (rosterAt s g).size member).size
        = (rosterAt s g).size + 1 := by
      rw [Std.TreeMap.size_insert, if_neg fun hc => contains_iff.mp hc hslot]
    have hfree := seatOf_none hopen.newcomer
    have hseat : ∀ a, seatOf (joined s g grp member env.timestamp referrer) g a
        = if a = member then some (rosterAt s g).size else seatOf s g a := by
      intro a
      rw [seatOf, seatOf, hprofile]
      by_cases ha : a = member
      · rw [if_pos ha, if_pos ha]
        rfl
      · rw [if_neg ha, if_neg ha]
    constructor
    · exact ⟨_, hgroup, by rw [hroster, hsize, ← hcount]⟩
    · intro a ha
      by_cases he : a = member
      · exact ⟨_, (hprofile a).trans (if_pos he), he.symm⟩
      · obtain ⟨profile, hp, haddr⟩ := hwf.profiles a (by
          intro hn
          refine ha ?_
          simpa [joined, noteReferrer_persistent, he] using hn)
        exact ⟨profile, by rw [hprofile, if_neg he, hp], haddr⟩
    · rw [hroster]
      have hnew : member ∉ (rosterAt s g).members := by
        intro hmem
        obtain ⟨p, hp⟩ := (hwf.seated.only member).mp hmem
        rw [hfree] at hp
        cases hp
      refine hwf.seated.join hnew (fun a => mem_members_insert hslot) ?_ ?_ ?_
      · rw [length_members, length_members, hsize]
      · intro a
        rw [hseat, length_members]
      · intro p
        rw [hindex, length_members]
    · intro a
      rw [helig, hseat]
      by_cases ha : a = member
      · rw [if_pos ha, if_pos ha]
        rfl
      · rw [if_neg ha, if_neg ha]
        exact hwf.eligible a

end Joining

section Leaving

variable {env : Env} {s t : State} {g : Nat} {member : Address} {u : Unit}

/-- The five views after a member was removed. -/
theorem removed_views (m : Address) (grp : Group) (position : Nat) :
    groupAt (removed s g grp m position) g
        = some { grp with memberCount := grp.memberCount - 1 } ∧
      rosterAt (removed s g grp m position) g = (rosterAt s g).erase position ∧
      (∀ a, profileAt (removed s g grp m position) g a
        = if a = m then none else profileAt s g a) ∧
      (∀ a, eligAt (removed s g grp m position) g a = if a = m then none else eligAt s g a) ∧
      (∀ p, posIxAt (removed s g grp m position) g p
        = if p = position then none else posIxAt s g p) := by
  refine ⟨by simp [removed], by simp [removed, rosterAt], fun a => ?_, fun a => ?_, fun p => ?_⟩
  · simp [removed]
  · simp [removed]
  · simp [removed]

/-- The member of the last seat, filed under that seat in the roster map. -/
def IsLast (s : State) (g : Nat) (member : Address) : Prop :=
  ∃ p, seatOf s g member = some p ∧ p + 1 = (rosterAt s g).size ∧ (rosterAt s g)[p]? = some member

/-- **REMOVING** keeps the seating exactly for the member in the last seat, and
    only if the roster map files that member under that seat. -/
theorem remove_wellFormed_iff (hwf : WellFormed s g)
    (h : removeMember g member env s = .ok u t) : WellFormed t g ↔ IsLast s g member := by
  obtain ⟨grp, profile, hopen, rfl⟩ := removeMember_ok h
  obtain ⟨grp', hgrp', hcount⟩ := hwf.count
  rw [hopen.group] at hgrp'
  obtain rfl := Option.some.inj hgrp'
  obtain ⟨hgroup, hroster, hprofile, helig, hindex⟩ :=
    removed_views (s := s) (g := g) member grp profile.payoutPosition
  have hne := hopen.nonempty
  have hp : seatOf s g member = some profile.payoutPosition := seatOf_of_profile hopen.profile
  have hnodup := hwf.seated.nodup
  have hseat : ∀ a, seatOf (removed s g grp member profile.payoutPosition) g a
      = if a = member then none else seatOf s g a := by
    intro a
    rw [seatOf, seatOf, hprofile]
    by_cases ha : a = member
    · rw [if_pos ha, if_pos ha]
      rfl
    · rw [if_neg ha, if_neg ha]
  -- the size of the map after the erasure, when the slot was in use
  have hlen : (rosterAt s g)[profile.payoutPosition]? ≠ none →
      ((rosterAt s g).erase profile.payoutPosition).size + 1 = (rosterAt s g).size := by
    intro hslot
    rw [Std.TreeMap.size_erase, if_pos (contains_iff.mpr hslot)]
    omega
  have hiff : (rosterAt s g)[profile.payoutPosition]? ≠ none →
      (Seated (rosterAt (removed s g grp member profile.payoutPosition) g).members
        (seatOf (removed s g grp member profile.payoutPosition) g)
        (posIxAt (removed s g grp member profile.payoutPosition) g) ↔
      profile.payoutPosition + 1 = (rosterAt s g).members.length ∧
        ∀ a, a ∈ MemberMap.members ((rosterAt s g).erase profile.payoutPosition) ↔
          a ≠ member ∧ a ∈ (rosterAt s g).members) := by
    intro hslot
    rw [hroster]
    exact hwf.seated.leave_iff hp (by rw [length_members, length_members, hlen hslot]) hseat hindex
  constructor
  · intro hwf'
    obtain ⟨grp', hgrp', hcount'⟩ := hwf'.count
    rw [hgroup] at hgrp'
    obtain rfl := Option.some.inj hgrp'
    have hslot : (rosterAt s g)[profile.payoutPosition]? ≠ none := by
      intro hn
      rw [hroster, Std.TreeMap.size_erase, if_neg fun hc => contains_iff.mp hc hn] at hcount'
      have : grp.memberCount - 1 = (rosterAt s g).size := hcount'
      omega
    obtain ⟨hlast, hmem⟩ := (hiff hslot).mp hwf'.seated
    obtain ⟨b, hb⟩ := Option.ne_none_iff_exists'.mp hslot
    have hbm : b = member := by
      by_contra hbne
      obtain ⟨j, hj, hjb⟩ := mem_members_erase.mp ((hmem b).mpr ⟨hbne, mem_members.mpr ⟨_, hb⟩⟩)
      exact hj (slot_unique hnodup hjb hb)
    rw [length_members] at hlast
    exact ⟨_, hp, hlast, hbm ▸ hb⟩
  · rintro ⟨p, hp', hlast, hslot⟩
    rw [hp] at hp'
    obtain rfl := Option.some.inj hp'
    have hsome : (rosterAt s g)[profile.payoutPosition]? ≠ none := by
      rw [hslot]
      exact Option.some_ne_none _
    constructor
    · refine ⟨_, hgroup, ?_⟩
      have := hlen hsome
      rw [hroster]
      show grp.memberCount - 1 = _
      omega
    · intro a ha
      have he : a ≠ member := by
        rintro rfl
        exact ha (by simp [removed])
      obtain ⟨profile', hp', haddr⟩ := hwf.profiles a (by
        intro hn
        refine ha ?_
        simpa [removed, he] using hn)
      exact ⟨profile', by rw [hprofile, if_neg he, hp'], haddr⟩
    · refine (hiff hsome).mpr ⟨by rw [length_members, hlast], fun a => ?_⟩
      rw [mem_members_erase, mem_members]
      constructor
      · rintro ⟨j, hj, hja⟩
        refine ⟨?_, j, hja⟩
        rintro rfl
        exact hj (slot_unique hnodup hja hslot)
      · rintro ⟨hane, j, hja⟩
        refine ⟨j, ?_, hja⟩
        rintro rfl
        rw [hslot] at hja
        exact hane (Option.some.inj hja).symm
    · intro a
      rw [helig, hseat]
      by_cases ha : a = member
      · rw [if_pos ha, if_pos ha]
        rfl
      · rw [if_neg ha, if_neg ha]
        exact hwf.eligible a

end Leaving

/-! ## Assigning positions -/

section Shuffling

/-- An exchange loses nobody. -/
theorem swap_perm {xs ys : List Nat} {i j : Nat} (h : swap xs i j = some ys) : ys.Perm xs := by
  simp only [swap, Option.bind_eq_bind, Option.bind_eq_some_iff, Option.pure_def,
    Option.some.injEq] at h
  obtain ⟨x, hx, y, hy, rfl⟩ := h
  obtain ⟨hi, rfl⟩ := List.getElem?_eq_some_iff.mp hx
  obtain ⟨hj, rfl⟩ := List.getElem?_eq_some_iff.mp hy
  exact List.set_set_perm hi hj

/-- A shuffle loses and invents nothing. -/
theorem shuffle_perm {seed n : Nat} {xs ys : List Nat} (h : shuffle seed n xs = some ys) :
    ys.Perm xs := by
  induction n generalizing xs with
  | zero =>
      obtain rfl := Option.some.inj h
      exact List.Perm.refl _
  | succ n ih =>
      cases n with
      | zero =>
          obtain rfl := Option.some.inj h
          exact List.Perm.refl _
      | succ n =>
          simp only [shuffle, Option.bind_eq_bind, Option.bind_eq_some_iff] at h
          obtain ⟨zs, hswap, hrest⟩ := h
          exact (ih hrest).trans (swap_perm hswap)

end Shuffling

section Assigning

variable {env : Env} {s t : State} {g : Nat} {member : Address} {u : Unit}

/-- What drawing an order leaves behind: a sequence, and a permutation of the
    slots in hand. -/
theorem randomizePayoutOrder_ok {seed : Nat} {positions : List Nat}
    (h : randomizePayoutOrder g seed env s = .ok positions t) :
    positions.Perm (List.range (rosterAt s g).size) ∧
      ∃ sequence : List Address, s.set (.grpSeq g) (Codec.encode sequence) = t := by
  simp only [randomizePayoutOrder, getOr_bind_ok, has_bind_ok, failIf_bind_ok, ask_bind_ok,
    unwrap_bind_ok, put_bind_ok, pure_ok] at h
  obtain ⟨_, -, -, roster, hroster, positions', hshuffle, sequence, -, rfl, rfl⟩ := h
  refine ⟨?_, sequence, rfl⟩
  rw [rosterAt_eq hroster, ← length_members]
  exact shuffle_perm hshuffle

/-- The positions a mode hands out are a permutation of the seats. -/
def Permutes (n : Nat) : AssignmentMode → Prop
  | .manual positions => positions.Perm (List.range n)
  | _ => True

/-- The positions handed out: as many as members, and a permutation unless the
    creator lists them by hand. -/
theorem chosenPositions_ok {roster : MemberMap} {mode : AssignmentMode} {positions : List Nat}
    (hroster : rosterAt s g = roster) (h : chosenPositions g roster mode env s = .ok positions t) :
    positions.length = roster.size ∧
      (positions.Perm (List.range roster.size) ↔ Permutes roster.size mode) ∧
      (∀ k, k.kind ≠ .grpSeq → t.persistent k = s.persistent k) := by
  cases mode with
  | sequential =>
      obtain ⟨rfl, rfl⟩ := pure_ok.mp h
      exact ⟨List.length_range, iff_of_true (List.Perm.refl _) trivial, fun _ _ => rfl⟩
  | randomized =>
      obtain ⟨hperm, sequence, rfl⟩ := randomizePayoutOrder_ok (now_bind_ok.mp h)
      rw [hroster] at hperm
      refine ⟨by rw [hperm.length_eq, List.length_range], iff_of_true hperm trivial, fun k hk => ?_⟩
      rw [HostState.set_persistent, if_neg]
      rintro rfl
      exact hk rfl
  | manual ps =>
      obtain ⟨hlen, h⟩ := failIf_bind_ok.mp h
      obtain ⟨rfl, rfl⟩ := pure_ok.mp h
      exact ⟨not_not.mp hlen, Iff.rfl, fun _ _ => rfl⟩

/-- One member of the assignment loop. -/
theorem assignPosition_ok {positions : List Nat} {i n : Nat} :
    assignPosition g positions i member env s = .ok n t ↔
      ∃ p, positions[i]? = some p ∧ ∃ profile, profileAt s g member = some profile ∧
        i + 1 = n ∧
        ((s.set (.mbrProf g member) (Codec.encode { profile with payoutPosition := p })).set
          (.mbrPElig g member) (Codec.encode (U32.mk p))).set
          (.grpPosIx g p) (Codec.encode member) = t := by
  simp [assignPosition]

/-- What the assignment loop leaves behind: the listed members sit where the
    list says, every listed position points at one of those it was given to,
    everything else is as before. -/
structure Reseated (g : Nat) (xs : List Address) (ps : List Nat) (s t : State) : Prop where
  seat : ∀ (i : Nat) (a : Address) (p : Nat), xs[i]? = some a → ps[i]? = some p →
    ∃ profile, profileAt s g a = some profile ∧
      profileAt t g a = some { profile with payoutPosition := p } ∧ eligAt t g a = some ⟨p⟩
  other : ∀ a, a ∉ xs → t.persistent (.mbrProf g a) = s.persistent (.mbrProf g a) ∧
    t.persistent (.mbrPElig g a) = s.persistent (.mbrPElig g a)
  held : ∀ p ∈ ps.take xs.length, ∃ (i : Nat) (a : Address), ps[i]? = some p ∧
    xs[i]? = some a ∧ posIxAt t g p = some a
  free : ∀ p, p ∉ ps.take xs.length →
    t.persistent (.grpPosIx g p) = s.persistent (.grpPosIx g p)

/-- **THE ASSIGNMENT LOOP**, by induction along the members. -/
theorem assign_reseated {positions : List Nat} {xs : List Address} (hnodup : xs.Nodup) {i n : Nat}
    (h : foldEach (assignPosition g positions) i xs env s = .ok n t) :
    Reseated g xs (positions.drop i) s t := by
  -- the head is seated, and no later position takes its seat
  induction xs generalizing i s with
  | nil =>
      obtain ⟨-, rfl⟩ := pure_ok.mp h
      exact ⟨nofun, fun _ _ => ⟨rfl, rfl⟩, nofun, fun _ _ => rfl⟩
  | cons a xs ih =>
      obtain ⟨_, v, hstep, hrest⟩ := bind_ok.mp h
      obtain ⟨p, hp, profile, hprofile, rfl, rfl⟩ := assignPosition_ok.mp hstep
      obtain ⟨hfirst, hnodup'⟩ := List.nodup_cons.mp hnodup
      have hr := ih hnodup' hrest
      obtain ⟨hlt, hget⟩ := List.getElem?_eq_some_iff.mp hp
      have hdrop : positions.drop i = p :: positions.drop (i + 1) := by
        rw [List.drop_eq_getElem_cons hlt, hget]
      rw [hdrop]
      constructor
      · intro j b q hb hq
        cases j with
        | zero =>
            obtain rfl := Option.some.inj hb
            obtain rfl := Option.some.inj hq
            refine ⟨profile, hprofile, ?_, ?_⟩
            · rw [profileAt, readAt_congr (hr.other _ hfirst).1]
              simp
            · rw [eligAt, readAt_congr (hr.other _ hfirst).2]
              simp
        | succ j =>
            obtain ⟨profile', hp', hseat, helig⟩ := hr.seat j b q hb hq
            have hne : b ≠ a := by
              rintro rfl
              exact hfirst (List.mem_of_getElem? hb)
            refine ⟨profile', ?_, hseat, helig⟩
            simpa [hne] using hp'
      · intro b hb
        obtain ⟨hne, hb'⟩ := not_or.mp (mt List.mem_cons.mpr hb)
        obtain ⟨h₁, h₂⟩ := hr.other b hb'
        exact ⟨h₁.trans (by simp [hne]), h₂.trans (by simp [hne])⟩
      · intro q hq
        by_cases hlater : q ∈ (positions.drop (i + 1)).take xs.length
        · obtain ⟨j, b, hj, hb, hheld⟩ := hr.held q hlater
          exact ⟨j + 1, b, hj, hb, hheld⟩
        · -- nobody later was given the position, so the entry written here stands
          have hqp : q = p := by
            rw [List.length_cons, List.take_succ_cons] at hq
            exact (List.mem_cons.mp hq).resolve_right hlater
          subst hqp
          refine ⟨0, a, rfl, rfl, ?_⟩
          rw [posIxAt, readAt_congr (hr.free q hlater)]
          simp
      · intro q hq
        rw [List.length_cons, List.take_succ_cons] at hq
        obtain ⟨hne, hq'⟩ := not_or.mp (mt List.mem_cons.mpr hq)
        exact (hr.free q hq').trans (by simp [hne])

/-- Everybody on the list is dealt a position. -/
theorem Reseated.dealt {xs : List Address} {ps : List Nat} {a : Address}
    (h : Reseated g xs ps s t) (hlen : ps.length = xs.length) (ha : a ∈ xs) :
    ∃ profile p, profileAt s g a = some profile ∧
      profileAt t g a = some { profile with payoutPosition := p } ∧ eligAt t g a = some ⟨p⟩ := by
  obtain ⟨i, hi⟩ := List.mem_iff_getElem?.mp ha
  have hlt : i < ps.length := by
    rw [hlen]
    exact (List.getElem?_eq_some_iff.mp hi).1
  obtain ⟨profile, hold, hnew, helig⟩ := h.seat i a _ hi (List.getElem?_eq_getElem hlt)
  exact ⟨profile, _, hold, hnew, helig⟩

/-- A seated roster stays seated exactly when the positions dealt out are all
    of them, each once. -/
theorem Reseated.seated_iff {xs : List Address} {ps : List Nat} (h : Reseated g xs ps s t)
    (hseated : Seated xs (seatOf s g) (posIxAt s g)) (hlen : ps.length = xs.length) :
    Seated xs (seatOf t g) (posIxAt t g) ↔ ps.Perm (List.range xs.length) := by
  have htake : ps.take xs.length = ps := List.take_of_length_le hlen.le
  refine hseated.assign_iff hlen ?_ ?_ ?_ ?_
  · intro i a p ha hp
    obtain ⟨profile, -, hprofile, -⟩ := h.seat i a p ha hp
    exact seatOf_of_profile hprofile
  · intro a ha
    have hnone : seatOf s g a = none := by
      cases hs : seatOf s g a with
      | none => rfl
      | some p => exact absurd ((hseated.only a).mpr ⟨p, hs⟩) ha
    exact (congrArg (Option.map _) (readAt_congr (h.other a ha).1)).trans hnone
  · intro p hp
    exact h.held p (htake.symm ▸ hp)
  · intro p hp
    exact readAt_congr (h.free p (htake.symm ▸ hp))

/-- `assign_payout_positions` taken apart: the key is `Pending`, positions are
    chosen, then dealt out along the roster. -/
theorem assignPayoutPositions_ok {caller : Address} {mode : AssignmentMode}
    (h : assignPayoutPositions g caller mode env s = .ok u t) :
    (statusAt s g).getD .pending = .pending ∧ ∃ (positions : List Nat) (v : State) (n : Nat),
      positions.length = (rosterAt s g).size ∧
      (positions.Perm (List.range (rosterAt s g).size) ↔ Permutes (rosterAt s g).size mode) ∧
      (∀ k : Key, k.kind ≠ .grpSeq → v.persistent k = s.persistent k) ∧
      foldEach (assignPosition g positions) 0 (rosterAt s g).members env v = .ok n t := by
  obtain ⟨grp, roster, positions, v, n, h⟩ := assignPayoutPositions_iff.mp h
  obtain rfl := rosterAt_eq h.listed
  obtain ⟨hlen, hmode, hsame⟩ := chosenPositions_ok rfl h.chosen
  exact ⟨h.pending, positions, v, n, hlen, hmode, hsame, h.dealt⟩

/-- **ASSIGNING** keeps the seating always in the sequential and the random mode,
    and exactly for permutations in the manual one. -/
theorem assign_wellFormed_iff {caller : Address} {mode : AssignmentMode} (hwf : WellFormed s g)
    (h : assignPayoutPositions g caller mode env s = .ok u t) :
    WellFormed t g ↔ Permutes (rosterAt s g).size mode := by
  have hframe := (Within.agree_ok (w := scope [.of .mbrProf g, .of .mbrPElig g,
    .of .grpPosIx g, .of .grpSeq g] False False) h).persistent
  have hgrp : groupAt t g = groupAt s g := readAt_congr (hframe (.grp g) (by simp))
  have hroster : rosterAt t g = rosterAt s g :=
    congrArg (Option.getD · ∅) (readAt_congr (hframe (.grpMbrs g) (by simp)))
  obtain ⟨-, positions, v, n, hlen, hmode, hsame, hloop⟩ := assignPayoutPositions_ok h
  -- to choose the positions writes none of the seats
  have hsame' : ∀ k : Key, k.kind ∈ seatKinds → v.persistent k = s.persistent k := by
    intro k hk
    refine hsame k fun he => ?_
    rw [he] at hk
    exact absurd hk (by decide)
  have hwf' := hwf.congr (congrArg _ (readAt_congr (hsame (.grp g) (by simp)))) fun k _ => hsame' k
  have hrosterv : rosterAt v g = rosterAt s g :=
    congrArg (Option.getD · ∅) (readAt_congr (hsame (.grpMbrs g) (by simp)))
  have hseated := hwf'.seated
  rw [hrosterv] at hseated
  have hre := assign_reseated hwf.seated.nodup hloop
  rw [List.drop_zero] at hre
  have hlen' : positions.length = (rosterAt s g).members.length := by
    rw [hlen, length_members]
  have hkept := hre.seated_iff hseated hlen'
  rw [length_members] at hkept
  rw [← hmode, ← hkept]
  -- seats are well formed exactly if the positions permute the members' numbers
  constructor
  · intro hwft
    rw [← hroster]
    exact hwft.seated
  · intro hs
    constructor
    · obtain ⟨grp, hg, hcount⟩ := hwf.count
      exact ⟨grp, hgrp.trans hg, by rw [hroster, hcount]⟩
    · intro a ha
      by_cases hmem : a ∈ (rosterAt s g).members
      · -- dealt: the profile keeps its address under the new position
        obtain ⟨profile, p, hold, hnew, -⟩ := hre.dealt hlen' hmem
        obtain ⟨profile', hold', haddr⟩ := hwf'.profiles a (by
          rw [(readAt_eq_some _ _ _).mp hold]
          exact Option.some_ne_none _)
        rw [hold] at hold'
        obtain rfl := Option.some.inj hold'
        exact ⟨_, hnew, haddr⟩
      · -- not on the roster: nothing of theirs was written
        rw [(hre.other a hmem).1] at ha
        rw [profileAt, readAt_congr (hre.other a hmem).1]
        exact hwf'.profiles a ha
    · rw [hroster]
      exact hs
    · intro a
      by_cases hmem : a ∈ (rosterAt s g).members
      · obtain ⟨profile, p, -, hnew, helig⟩ := hre.dealt hlen' hmem
        rw [helig, seatOf_of_profile hnew]
        rfl
      · rw [seatOf, eligAt, profileAt, readAt_congr (hre.other a hmem).1,
          readAt_congr (hre.other a hmem).2]
        exact hwf'.eligible a

end Assigning

/-! ## Merging and withdrawing -/

section Merging

variable {env : Env} {s t : State} {g g₁ g₂ n : Nat} {member : Address} {u : Unit}

/-- Nobody to combine, nobody on the roster. -/
theorem size_combineMembers_eq_zero {xs : List Address} :
    (combineMembers xs).size = 0 ↔ xs = [] := by
  rcases List.eq_nil_or_concat xs with rfl | ⟨ys, y, rfl⟩
  · exact iff_of_true rfl rfl
  · refine iff_of_false (fun h => ?_) (by simp)
    rw [combineMembers, List.concat_eq_append, List.zipIdx_append, List.foldl_append] at h
    have hempty := Std.TreeMap.isEmpty_eq_size_eq_zero.trans (decide_eq_true h)
    rw [List.zipIdx_singleton, List.foldl_cons, List.foldl_nil, Std.TreeMap.isEmpty_insert]
      at hempty
    cases hempty

/-- **MERGING** writes no position index, so it leaves a seating exactly when
    there is nobody to seat. -/
theorem merge_wellFormed_iff (hunused : Unused s (lastId s + 1))
    (h : mergeGroups g₁ g₂ env s = .ok n t) :
    WellFormed t n ↔ (rosterAt s g₁).size = 0 ∧ (rosterAt s g₂).size = 0 := by
  have hempty : (mergedRoster s g₁ g₂).size = 0 ↔
      (rosterAt s g₁).size = 0 ∧ (rosterAt s g₂).size = 0 := by
    rw [mergedRoster, size_combineMembers_eq_zero, List.append_eq_nil_iff, ← length_members,
      ← length_members, List.length_eq_zero_iff, List.length_eq_zero_iff]
  have hroster : rosterAt t (lastId s + 1) = mergedRoster s g₁ g₂ :=
    rosterAt_eq (mergeGroups_roster h)
  have hindex : ∀ p, posIxAt t (lastId s + 1) p = none := by
    intro p
    obtain ⟨grp₁, grp₂, -, hbase⟩ := mergeGroups_base h
    rw [posIxAt, readAt_congr (hbase _ (by simp) (by simp) (by simp))]
    have hnone : posIxAt s (lastId s + 1) p = none :=
      (readAt_eq_none (typedAt_of_none (hunused.index p))).mpr (hunused.index p)
    simpa [mergeBase] using hnone
  obtain ⟨rfl, grp₁, grp₂, v, hopen, hloop, rfl⟩ := mergeGroups_ok h
  rw [← hempty]
  constructor
  · intro hwf
    by_contra hne
    obtain ⟨a, ha⟩ := hwf.seated.full 0 (by
      rw [hroster, length_members]
      exact Nat.pos_of_ne_zero hne)
    have hheld := (hwf.seated.inverse a 0).mp ha
    rw [hindex] at hheld
    cases hheld
  · intro hzero
    -- nobody to write a profile for: the loop runs over the empty range
    rw [hzero, List.range_zero] at hloop
    obtain ⟨-, rfl⟩ := pure_ok.mp hloop
    have hseat : ∀ a, seatOf (((mergeBase s g₁ g₂ grp₁ grp₂ env.timestamp).set (.grpStat g₁)
        (Codec.encode GroupStatus.cancelled)).set (.grpStat g₂)
        (Codec.encode GroupStatus.cancelled)) (lastId s + 1) a = none := by
      intro a
      refine seatOf_none ?_
      simpa [mergeBase] using hunused.profile a
    constructor
    · refine ⟨mergedGroup s g₁ g₂ grp₁ grp₂ env.timestamp, ?_, ?_⟩
      · simp [mergeBase, groupAt]
      · rw [hroster]
        rfl
    · intro a ha
      refine absurd ?_ ha
      simpa [mergeBase] using hunused.profile a
    · have hnil : (mergedRoster s g₁ g₂).members = [] := by
        rw [← List.length_eq_zero_iff, length_members, hzero]
      rw [hroster, hnil, funext hseat, funext hindex]
      exact seated_nil
    · intro a
      rw [hseat]
      have hnone : eligAt s (lastId s + 1) a = none :=
        (readAt_eq_none (typedAt_of_none (hunused.eligible a))).mpr (hunused.eligible a)
      simpa [mergeBase, eligAt] using hnone

/-- **WITHDRAWING** never keeps the seating: only the profile goes. -/
theorem withdraw_not_wellFormed (hwf : WellFormed s g)
    (h : emergencyWithdraw g member env s = .ok u t) : ¬ WellFormed t g := by
  obtain ⟨grp, total, received, hopen, hend⟩ := emergencyWithdraw_ok h
  obtain ⟨profile, hprofile, -⟩ := hwf.profiles member hopen.profile
  have hseat : seatOf s g member = some profile.payoutPosition := seatOf_of_profile hprofile
  have hmem := (hwf.seated.only member).mpr ⟨_, hseat⟩
  have hgone : t.persistent (.mbrProf g member) = none := by
    rcases hend with ⟨-, -, config, l, -, -, rfl⟩ | ⟨-, rfl⟩
    · simp
    · simp
  have hroster : rosterAt t g = rosterAt s g := by
    rcases hend with ⟨-, -, config, l, -, -, rfl⟩ | ⟨-, rfl⟩
    · simp [rosterAt, membersAt]
    · simp [rosterAt, membersAt]
  intro hwf'
  rw [← hroster] at hmem
  obtain ⟨p, hp⟩ := (hwf'.seated.only member).mp hmem
  rw [seatOf_none hgone] at hp
  cases hp

end Merging

/-! ## All six -/

/-- An operation that changes who is in a group or when they are paid. -/
inductive Change where
  | join (g : Nat) (member : Address) (referrer : Option Address)
  | remove (g : Nat) (member : Address)
  | assign (g : Nat) (caller : Address) (mode : AssignmentMode)
  | randomize (g seed : Nat)
  | merge (g₁ g₂ : Nat)
  | withdraw (g : Nat) (member : Address)

namespace Change

/-- The entry point. -/
def call : Change → Call
  | join g member referrer => .joinGroup g member referrer
  | remove g member => .removeMember g member
  | assign g caller mode => .assignPayoutPositions g caller mode
  | randomize g seed => .randomizePayoutOrder g seed
  | merge g₁ g₂ => .mergeGroups g₁ g₂
  | withdraw g member => .emergencyWithdraw g member

/-- The group whose members change; a merge makes a new one. -/
def group (s : State) : Change → Nat
  | join g _ _ | remove g _ | assign g _ _ | randomize g _ | withdraw g _ => g
  | merge _ _ => lastId s + 1

/-- Well formed before: the group itself, or both groups to merge while nothing
    is stored yet under the new id. -/
def WellFormedBefore (s : State) : Change → Prop
  | merge g₁ g₂ => WellFormed s g₁ ∧ WellFormed s g₂ ∧ Unused s (lastId s + 1)
  | join g _ _ | remove g _ | assign g _ _ | randomize g _ | withdraw g _ => WellFormed s g

/-- When the operation leaves a seating behind. -/
def Keeps (s : State) : Change → Prop
  | join g _ _ => (rosterAt s g)[(rosterAt s g).size]? = none
  | remove g member => IsLast s g member
  | assign g _ mode => Permutes (rosterAt s g).size mode
  | randomize _ _ => True
  | merge g₁ g₂ => (rosterAt s g₁).size = 0 ∧ (rosterAt s g₂).size = 0
  | withdraw _ _ => False

end Change

/-- **WHICH OPERATIONS KEEP THE SEATING**: from a well-formed state, an accepted
    operation leaves a well-formed group exactly under its own condition. -/
theorem change_wellFormed_iff (c : Change) (env : Env) (s t : State)
    (hwf : c.WellFormedBefore s) (hrun : c.call.body env s = .ok () t) :
    WellFormed t (c.group s) ↔ c.Keeps s := by
  cases c with
  | join g member referrer => exact join_wellFormed_iff hwf hrun
  | remove g member => exact remove_wellFormed_iff hwf hrun
  | assign g caller mode => exact assign_wellFormed_iff hwf hrun
  | randomize g seed =>
      obtain ⟨positions, hdrawn⟩ := quietly_ok.mp hrun
      obtain ⟨-, sequence, rfl⟩ := randomizePayoutOrder_ok hdrawn
      refine iff_of_true (hwf.congr (congrArg _ (by simp)) fun k _ hk => ?_) trivial
      exact persistent_set_of_mem hk (by simp [seatKinds])
  | merge g₁ g₂ =>
      obtain ⟨n, hmerged⟩ := quietly_ok.mp hrun
      obtain ⟨rfl, -⟩ := mergeGroups_ok hmerged
      exact merge_wellFormed_iff hwf.2.2 hmerged
  | withdraw g member => exact iff_of_false (withdraw_not_wellFormed hwf hrun) not_false

/-! Three members join an open group in turn. -/

/-- Group `1`, open for up to three. -/
def openGroup : Group := { Group.fresh 1 ⟨1⟩ 100 1000 3 2 0 0 false 0 with status := .pending }

/-- Nobody in it yet. -/
def openState : State := (deployed fun _ => none).set (.grp 1) (Codec.encode openGroup)

/-- The three of the examples are not the contract. -/
theorem trio_signs : contractAddress ∉ [Address.mk 1, Address.mk 2, Address.mk 3] := by decide

/-- All three sign. -/
def trioEnv : Env := .plain 10 [⟨1⟩, ⟨2⟩, ⟨3⟩] (by decide)

/-- After the first, the second and the third have joined. -/
def soloState : State := commit (joinGroup 1 ⟨1⟩ none) trioEnv openState
def duoState : State := commit (joinGroup 1 ⟨2⟩ none) trioEnv soloState
def trioState : State := commit (joinGroup 1 ⟨3⟩ none) trioEnv duoState

/-- An open group without members is well formed. -/
theorem openState_wellFormed : WellFormed openState 1 where
  count := ⟨openGroup, rfl, rfl⟩
  profiles _ ha := absurd rfl ha
  seated := seated_nil
  eligible _ := rfl

/-- So is one with two. -/
theorem duoState_wellFormed : WellFormed duoState 1 := by
  have hsolo : joinGroup 1 ⟨1⟩ none trioEnv openState = .ok () soloState := rfl
  have hduo : joinGroup 1 ⟨2⟩ none trioEnv soloState = .ok () duoState := rfl
  have hwf : WellFormed soloState 1 := (join_wellFormed_iff openState_wellFormed hsolo).mpr rfl
  exact (join_wellFormed_iff hwf hduo).mpr rfl

/-- And with three. -/
theorem trioState_wellFormed : WellFormed trioState 1 := by
  have htrio : joinGroup 1 ⟨3⟩ none trioEnv duoState = .ok () trioState := rfl
  exact (join_wellFormed_iff duoState_wellFormed htrio).mpr rfl

/-- **A GAP IN THE SEATS**: removing the second of three accepted members is
    accepted, and leaves positions `0` and `2` for two members. -/
theorem remove_middle_not_wellFormed :
    WellFormed trioState 1 ∧
      ∃ t, (Change.remove 1 ⟨2⟩).call.body trioEnv trioState = .ok () t ∧
        ¬ WellFormed t ((Change.remove 1 ⟨2⟩).group trioState) := by
  have hrun : ∃ t, removeMember 1 ⟨2⟩ trioEnv trioState = .ok () t := ⟨_, rfl⟩
  obtain ⟨t, ht⟩ := hrun
  refine ⟨trioState_wellFormed, t, ht, fun hwf => ?_⟩
  obtain ⟨p, hp, hlast, -⟩ := (remove_wellFormed_iff trioState_wellFormed ht).mp hwf
  have hseat : seatOf trioState 1 ⟨2⟩ = some 1 := rfl
  rw [hseat] at hp
  obtain rfl := Option.some.inj hp
  exact absurd hlast (by decide)

/-- The theorem at the removal of the last of the three. -/
theorem change_wellFormed_iff_instance :
    ∃ t, (Change.remove 1 ⟨3⟩).call.body trioEnv trioState = .ok () t ∧ WellFormed t 1 := by
  have hrun : ∃ t, removeMember 1 ⟨3⟩ trioEnv trioState = .ok () t := ⟨_, rfl⟩
  obtain ⟨t, ht⟩ := hrun
  refine ⟨t, ht, ?_⟩
  exact (change_wellFormed_iff (.remove 1 ⟨3⟩) trioEnv trioState t trioState_wellFormed ht).mpr
    ⟨2, rfl, rfl, rfl⟩

end SaveRoster
