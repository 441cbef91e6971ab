import StellarSave.RotationProofs

/-! # Leaving and coming back — what a removal forgets

    `remove_member` takes away the profile, the position and the index of a member;
    `join_group` gives the next seat, by the count.  What other features wrote under
    the member's name stays, and the next seat may be somebody's. -/

namespace SaveRejoin

open HostProg Footprint TokenLedger SaveData SaveMembership SaveCall
open SaveRoster (trioEnv trioState removed_views joined_views)

/-- A member's entries in a group. -/
structure MemberView where
  profile : Option MemberProfile
  position : Option U32
  autoContribute : Option Val
  disputeVote : Option Val
  dissolveVote : Option Val
  changeVote : Option Val
  invited : Bool

def memberView (s : State) (g : Nat) (m : Address) : MemberView where
  profile := profileAt s g m
  position := eligAt s g m
  autoContribute := s.persistent (.mbrAuto g m)
  disputeVote := s.persistent (.grpDspV g m)
  dissolveVote := s.persistent (.cDisVote g m)
  changeVote := s.persistent (.cMbrVote g m)
  invited := decide (m ∈ (readAt (List Address) s.persistent (.grpInv g)).getD [])

/-- What other features wrote under the member's name is gone. -/
structure Forgotten (s : State) (g : Nat) (m : Address) : Prop where
  autoContribute : s.persistent (.mbrAuto g m) = none
  disputeVote : s.persistent (.grpDspV g m) = none
  dissolveVote : s.persistent (.cDisVote g m) = none
  changeVote : s.persistent (.cMbrVote g m) = none

/-- The entries of one who joins for the first time. -/
def newcomerView (s : State) (g : Nat) (grp : SaveData.Group) (m : Address) (time : Nat) : MemberView where
  profile := some (MemberProfile.mk m g grp.memberCount time false)
  position := some ⟨grp.memberCount⟩
  autoContribute := none
  disputeVote := none
  dissolveVote := none
  changeVote := none
  invited := (memberView s g m).invited

/-- Everybody else has the same entries, slots of the roster and places in the index. -/
structure OthersKept (s t : State) (g : Nat) (m : Address) : Prop where
  view : ∀ a, a ≠ m → memberView t g a = memberView s g a
  slot : ∀ a, a ≠ m → ∀ i : Nat, (rosterAt t g)[i]? = some a ↔ (rosterAt s g)[i]? = some a
  index : ∀ a, a ≠ m → ∀ i, posIxAt t g i = some a ↔ posIxAt s g i = some a

/-- Nobody else has that slot of the roster or that place in the index. -/
def Alone (s : State) (g : Nat) (m : Address) (p : Nat) : Prop :=
  ∀ a, a ≠ m → (rosterAt s g)[p]? ≠ some a ∧ posIxAt s g p ≠ some a

/-- One seat is given away or cleared: the others keep theirs exactly where it was
    nobody else's. -/
theorem othersKept_iff_alone {s t : State} {g p : Nat} {m : Address}
    (hview : ∀ a, a ≠ m → memberView t g a = memberView s g a)
    (hslot : ∀ a, a ≠ m → ∀ i : Nat,
      (rosterAt t g)[i]? = some a ↔ i ≠ p ∧ (rosterAt s g)[i]? = some a)
    (hindex : ∀ a, a ≠ m → ∀ i, posIxAt t g i = some a ↔ i ≠ p ∧ posIxAt s g i = some a) :
    OthersKept s t g m ↔ Alone s g m p := by
  constructor
  · intro h a ha
    constructor
    · intro hmem
      exact ((hslot a ha _).mp ((h.slot a ha _).mpr hmem)).1 rfl
    · intro hmem
      exact ((hindex a ha _).mp ((h.index a ha _).mpr hmem)).1 rfl
  · intro h
    refine ⟨hview, fun a ha i => ?_, fun a ha i => ?_⟩
    · rw [hslot a ha]
      refine ⟨fun hi => hi.2, fun hi => ⟨?_, hi⟩⟩
      rintro rfl
      exact (h a ha).1 hi
    · rw [hindex a ha]
      refine ⟨fun hi => hi.2, fun hi => ⟨?_, hi⟩⟩
      rintro rfl
      exact (h a ha).2 hi

section Join

variable {env : Env} {s t : State} {g : Nat} {m : Address} {u : Unit} {grp : SaveData.Group}
  {referrer : Option Address}

/-- What joining leaves under the member's name. -/
theorem joined_view (s : State) (g : Nat) (grp : SaveData.Group) (m : Address) (time : Nat)
    (referrer : Option Address) :
    memberView (joined s g grp m time referrer) g m =
      { newcomerView s g grp m time with
        autoContribute := s.persistent (.mbrAuto g m), disputeVote := s.persistent (.grpDspV g m),
        dissolveVote := s.persistent (.cDisVote g m), changeVote := s.persistent (.cMbrVote g m) } := by
  simp [memberView, newcomerView, joined, noteReferrer_persistent]

/-- **A NEWCOMER'S ENTRIES** are those of one about whom nothing was kept. -/
theorem joined_as_newcomer_iff (time : Nat) :
    memberView (joined s g grp m time referrer) g m = newcomerView s g grp m time ↔
      Forgotten s g m := by
  rw [joined_view]
  constructor
  · intro h
    have hfields := MemberView.mk.inj h
    exact ⟨hfields.2.2.1, hfields.2.2.2.1, hfields.2.2.2.2.1, hfields.2.2.2.2.2.1⟩
  · intro h
    rw [h.autoContribute, h.disputeVote, h.dissolveVote, h.changeVote]
    rfl

theorem joined_other_view {a : Address} (ha : a ≠ m) (time : Nat) :
    memberView (joined s g grp m time referrer) g a = memberView s g a := by
  simp [memberView, joined, noteReferrer_persistent, ha]

/-- **A SEAT TAKEN**: joining leaves the others theirs exactly where the next seat is
    nobody's. -/
theorem joined_othersKept_iff (time : Nat) :
    OthersKept s (joined s g grp m time referrer) g m ↔ Alone s g m grp.memberCount := by
  obtain ⟨-, hroster, -, -, hindex⟩ := joined_views (s := s) (g := g) m grp time referrer
  refine othersKept_iff_alone (fun a ha => joined_other_view ha time) (fun a ha i => ?_)
    fun a ha i => ?_
  · rw [hroster, Std.TreeMap.getElem?_insert]
    by_cases hi : i = grp.memberCount
    · rw [if_pos (compare_eq_iff_eq.mpr hi.symm)]
      simp [hi, Ne.symm ha]
    · rw [if_neg fun he => hi (compare_eq_iff_eq.mp he).symm]
      simp [hi]
  · rw [hindex]
    by_cases hi : i = grp.memberCount
    · simp [hi, Ne.symm ha]
    · simp [hi]

end Join

section Remove

variable {s : State} {g p : Nat} {m : Address} {grp : SaveData.Group}

theorem removed_other_view {a : Address} (ha : a ≠ m) :
    memberView (removed s g grp m p) g a = memberView s g a := by
  simp [memberView, removed, ha]

/-- **A SEAT CLEARED**: removing leaves the others theirs exactly where the seat is
    nobody else's. -/
theorem removed_othersKept_iff : OthersKept s (removed s g grp m p) g m ↔ Alone s g m p := by
  obtain ⟨-, hroster, -, -, hindex⟩ := removed_views (s := s) (g := g) m grp p
  refine othersKept_iff_alone (fun a ha => removed_other_view ha) (fun a _ i => ?_) fun a _ i => ?_
  · rw [hroster, Std.TreeMap.getElem?_erase]
    by_cases hi : i = p
    · rw [if_pos (compare_eq_iff_eq.mpr hi.symm)]
      simp [hi]
    · rw [if_neg fun he => hi (compare_eq_iff_eq.mp he).symm]
      simp [hi]
  · rw [hindex]
    by_cases hi : i = p
    · simp [hi]
    · simp [hi]

/-- Removing forgets nothing of what other features wrote. -/
theorem forgotten_removed_iff : Forgotten (removed s g grp m p) g m ↔ Forgotten s g m := by
  have hkeys : ∀ k, k ∈ [Key.mbrAuto g m, .grpDspV g m, .cDisVote g m, .cMbrVote g m] →
      (removed s g grp m p).persistent k = s.persistent k := by
    intro k hk
    simp only [List.mem_cons, List.not_mem_nil, or_false] at hk
    rcases hk with rfl | rfl | rfl | rfl <;> simp [removed]
  constructor
  · intro h
    exact ⟨(hkeys _ (by simp)).symm.trans h.autoContribute, (hkeys _ (by simp)).symm.trans h.disputeVote,
      (hkeys _ (by simp)).symm.trans h.dissolveVote, (hkeys _ (by simp)).symm.trans h.changeVote⟩
  · intro h
    exact ⟨(hkeys _ (by simp)).trans h.autoContribute, (hkeys _ (by simp)).trans h.disputeVote,
      (hkeys _ (by simp)).trans h.dissolveVote, (hkeys _ (by simp)).trans h.changeVote⟩

/-- Once the seat is cleared it is nobody's. -/
theorem alone_removed_iff {n : Nat} : Alone (removed s g grp m p) g m n ↔ n = p ∨ Alone s g m n := by
  obtain ⟨-, hroster, -, -, hindex⟩ := removed_views (s := s) (g := g) m grp p
  by_cases hn : n = p
  · refine iff_of_true (fun a _ => ?_) (.inl hn)
    rw [hroster, hindex, Std.TreeMap.getElem?_erase, if_pos (compare_eq_iff_eq.mpr hn.symm), if_pos hn]
    exact ⟨nofun, nofun⟩
  · have hslot : (rosterAt (removed s g grp m p) g)[n]? = (rosterAt s g)[n]? := by
      rw [hroster, Std.TreeMap.getElem?_erase, if_neg fun he => hn (compare_eq_iff_eq.mp he).symm]
    have hplace : posIxAt (removed s g grp m p) g n = posIxAt s g n := by
      rw [hindex, if_neg hn]
    rw [Alone, hslot, hplace, or_iff_right hn]
    exact Iff.rfl

end Remove

/-! ## Removed and back -/

/-- The removal at `s` left nothing behind for the one who comes back at `t'`, and
    neither took anything from anybody else. -/
structure NoTrace (s t t' v : State) (g : Nat) (m : Address) (time : Nat) : Prop where
  newcomer : ∀ grp, groupAt t' g = some grp → memberView v g m = newcomerView t' g grp m time
  leaving : OthersKept s t g m
  joining : OthersKept t' v g m

/-- What it takes: nothing kept under the member's name, and both seats its own. -/
structure Traceless (s t' : State) (g : Nat) (m : Address) : Prop where
  seat : ∀ profile, profileAt s g m = some profile → Alone s g m profile.payoutPosition
  forgotten : Forgotten t' g m
  next : ∀ grp, groupAt t' g = some grp → Alone t' g m grp.memberCount

section Rejoin

variable {env env' : Env} {s t v : State} {g : Nat} {m : Address} {u u' : Unit}
  {referrer : Option Address}

/-- **WHEN A REMOVAL LEAVES NO TRACE**: a member is removed and, after any other steps,
    joins again: it comes back as a newcomer, and the others keep what is theirs,
    exactly where nothing is kept under its name by then, where it did not share the
    seat it left, and where the seat it gets, by the count, is nobody's. -/
theorem rejoin_without_trace_iff (steps : List Step) (hremove : removeMember g m env s = .ok u t)
    (hjoin : joinGroup g m referrer env' (run steps t) = .ok u' v) :
    NoTrace s t (run steps t) v g m env'.timestamp ↔ Traceless s (run steps t) g m := by
  obtain ⟨grp, profile, hopen, rfl⟩ := removeMember_ok hremove
  obtain ⟨grp', hopen', rfl⟩ := joinGroup_ok hjoin
  constructor
  · intro h
    refine ⟨fun profile' hprofile => ?_, (joined_as_newcomer_iff _).mp (h.newcomer grp' hopen'.group),
      fun grp'' hgrp => ?_⟩
    · obtain rfl := Option.some.inj (hopen.profile.symm.trans hprofile)
      exact removed_othersKept_iff.mp h.leaving
    · obtain rfl := Option.some.inj (hopen'.group.symm.trans hgrp)
      exact (joined_othersKept_iff _).mp h.joining
  · intro h
    refine ⟨fun grp'' hgrp => ?_, removed_othersKept_iff.mpr (h.seat profile hopen.profile),
      (joined_othersKept_iff _).mpr (h.next grp' hopen'.group)⟩
    obtain rfl := Option.some.inj (hopen'.group.symm.trans hgrp)
    exact (joined_as_newcomer_iff _).mpr h.forgotten

/-- **AT ONCE**: who comes back before anything else happens leaves no trace exactly
    where nothing was kept under its name and its seat, its own, was the last, or the
    last is nobody's. -/
theorem traceless_at_once_iff {grp : SaveData.Group} {profile : MemberProfile}
    (hremove : removeMember g m env s = .ok u t) (hgrp : groupAt s g = some grp)
    (hprofile : profileAt s g m = some profile) :
    Traceless s t g m ↔ Alone s g m profile.payoutPosition ∧ Forgotten s g m ∧
      (grp.memberCount - 1 = profile.payoutPosition ∨ Alone s g m (grp.memberCount - 1)) := by
  obtain ⟨grp', profile', hopen, rfl⟩ := removeMember_ok hremove
  obtain rfl := Option.some.inj (hopen.group.symm.trans hgrp)
  obtain rfl := Option.some.inj (hopen.profile.symm.trans hprofile)
  have hafter := (removed_views (s := s) (g := g) m grp' profile'.payoutPosition).1
  constructor
  · intro h
    exact ⟨h.seat profile' hprofile, forgotten_removed_iff.mp h.forgotten,
      alone_removed_iff.mp (h.next _ hafter)⟩
  · rintro ⟨hseat, hforgotten, hnext⟩
    refine ⟨fun profile'' h => ?_, forgotten_removed_iff.mpr hforgotten, fun grp'' h => ?_⟩
    · obtain rfl := Option.some.inj (hprofile.symm.trans h)
      exact hseat
    · obtain rfl := Option.some.inj (hafter.symm.trans h)
      exact alone_removed_iff.mpr hnext

end Rejoin

/-! Three members, in the order in which they joined. -/

/-- The second member is removed, and joins again. -/
def trioWithout : State := commit (removeMember 1 ⟨2⟩) trioEnv trioState
def trioAgain : State := commit (joinGroup 1 ⟨2⟩ none) trioEnv trioWithout

theorem second_removed : removeMember 1 ⟨2⟩ trioEnv trioState = .ok () trioWithout := rfl

theorem second_rejoins : joinGroup 1 ⟨2⟩ none trioEnv trioWithout = .ok () trioAgain := rfl

/-- The second member comes back in the seat of the third, who is listed no more. -/
theorem third_member_overwritten :
    removeMember 1 ⟨2⟩ trioEnv trioState = .ok () trioWithout ∧
      joinGroup 1 ⟨2⟩ none trioEnv trioWithout = .ok () trioAgain ∧
      (rosterAt trioState 1).members = [⟨1⟩, ⟨2⟩, ⟨3⟩] ∧ (rosterAt trioAgain 1).members = [⟨1⟩, ⟨2⟩] ∧
      posIxAt trioState 1 2 = some ⟨3⟩ ∧ posIxAt trioAgain 1 2 = some ⟨2⟩ ∧
      ¬ NoTrace trioState trioWithout trioWithout trioAgain 1 ⟨2⟩ trioEnv.timestamp := by
  have hbefore : posIxAt trioWithout 1 2 = some ⟨3⟩ := rfl
  have hafter : posIxAt trioAgain 1 2 = some ⟨2⟩ := rfl
  refine ⟨second_removed, second_rejoins, rfl, rfl, rfl, hafter, fun h => ?_⟩
  have hkept := (h.joining.index ⟨3⟩ (by decide) 2).mpr hbefore
  rw [hafter] at hkept
  cases hkept

/-- The third is removed, and joins again. -/
def pairLeft : State := commit (removeMember 1 ⟨3⟩) trioEnv trioState
def trioBack : State := commit (joinGroup 1 ⟨3⟩ none) trioEnv pairLeft

theorem third_removed : removeMember 1 ⟨3⟩ trioEnv trioState = .ok () pairLeft := rfl

theorem third_rejoins : joinGroup 1 ⟨3⟩ none trioEnv pairLeft = .ok () trioBack := rfl

/-- The third leaves the last seat, and comes back to it. -/
theorem third_rejoins_without_trace :
    NoTrace trioState pairLeft pairLeft trioBack 1 ⟨3⟩ trioEnv.timestamp := by
  refine (rejoin_without_trace_iff [] third_removed third_rejoins).mpr ?_
  have hslot : (rosterAt trioState 1)[2]? = some ⟨3⟩ := rfl
  have hplace : posIxAt trioState 1 2 = some ⟨3⟩ := rfl
  refine (traceless_at_once_iff third_removed rfl rfl).mpr ⟨fun a ha => ?_, ⟨rfl, rfl, rfl, rfl⟩, .inl rfl⟩
  show (rosterAt trioState 1)[2]? ≠ some a ∧ posIxAt trioState 1 2 ≠ some a
  rw [hslot, hplace]
  exact ⟨fun h => ha (Option.some.inj h).symm, fun h => ha (Option.some.inj h).symm⟩

end SaveRejoin
