import StellarSave.RosterProofs
import StellarSave.StatusProofs
import Mathlib.Algebra.BigOperators.Group.Finset.Basic

/-! # Merging — two groups into a third

    `merge_groups` copies the two rosters one after the other, adds up the
    sizes and the balances, and cancels the sources.  It does not ask whether
    the two are one and the same, whether somebody sits in both, or whether the
    new size is allowed; it leaves the balances of the sources where they were;
    and it gives the new group NO token.

    Each of the things a merge should conserve is settled by its own exact
    condition.  The last has none. -/

namespace SaveMerge

open HostProg Footprint TokenLedger SaveData SaveMembership SaveLifecycle SaveCall SaveRoster
open SaveStatus Trace

/-! ## The combined roster -/

section Combining

variable {m : MemberMap} {xs : List Address} {x : Address}

/-- The members are numbered in their order. -/
theorem combineMembers_concat :
    combineMembers (xs ++ [x]) = (combineMembers xs).insert xs.length x := by
  simp [combineMembers, List.zipIdx_append]

/-- So each is found at its place. -/
theorem combineMembers_get (i : Nat) : (combineMembers xs)[i]? = xs[i]? := by
  induction xs using List.reverseRecOn with
  | nil => exact Std.TreeMap.getElem?_emptyc
  | append_singleton xs x ih =>
      rw [combineMembers_concat, Std.TreeMap.getElem?_insert]
      by_cases he : compare xs.length i = .eq
      · obtain rfl := compare_eq_iff_eq.mp he
        simp
      · have hne : i ≠ xs.length := fun hi => he (compare_eq_iff_eq.mpr hi.symm)
        rw [if_neg he, ih, List.getElem?_append]
        by_cases hlt : i < xs.length
        · rw [if_pos hlt]
        · rw [if_neg hlt, List.getElem?_eq_none (by omega), List.getElem?_eq_none (by simp; omega)]

/-- A map that files a list under its own indices lists it in order. -/
theorem members_of_slots (h : ∀ i : Nat, m[i]? = xs[i]?) : m.members = xs := by
  have hsorted : m.toList.Pairwise fun p q => p.1 < q.1 := by
    refine (Std.TreeMap.ordered_keys_toList (t := m)).imp ?_
    intro p q hpq
    exact Nat.compare_eq_lt.mp hpq
  have hsorted' : (xs.zipIdx.map Prod.swap).Pairwise fun p q => p.1 < q.1 := by
    have hkeys : (xs.zipIdx.map Prod.swap).map Prod.fst = List.range' 0 xs.length := by
      rw [List.map_map, ← List.zipIdx_map_snd 0 xs]
      rfl
    refine List.pairwise_map.mp ?_
    rw [hkeys]
    exact List.pairwise_lt_range'
  -- both are sorted by slot and have the same entries, so they are one list
  have hnodup : ∀ {l : List (Nat × Address)}, (l.Pairwise fun p q => p.1 < q.1) → l.Nodup := by
    intro l hl
    refine hl.imp ?_
    rintro p q hpq rfl
    exact Nat.lt_irrefl _ hpq
  have hperm : m.toList.Perm (xs.zipIdx.map Prod.swap) := by
    refine (List.perm_ext_iff_of_nodup (hnodup hsorted) (hnodup hsorted')).mpr ?_
    rintro ⟨i, a⟩
    rw [Std.TreeMap.mem_toList_iff_getElem?_eq_some, h, ← List.mk_mem_zipIdx_iff_getElem?,
      List.mem_map]
    constructor
    · intro hmem
      exact ⟨(a, i), hmem, rfl⟩
    · rintro ⟨⟨b, j⟩, hmem, he⟩
      cases he
      exact hmem
  have heq : m.toList = xs.zipIdx.map Prod.swap :=
    hperm.eq_of_pairwise (fun p q _ _ hpq hqp => absurd hpq (Nat.lt_asymm hqp)) hsorted hsorted'
  rw [MemberMap.members, heq, List.map_map]
  exact List.zipIdx_map_fst 0 xs

/-- And they are the members of the list. -/
theorem combineMembers_members (xs : List Address) : (combineMembers xs).members = xs :=
  members_of_slots combineMembers_get

end Combining

/-! ## What a merge should conserve -/

/-- `MAX_MEMBERS`. -/
def maxMembersCap : Nat := 20

/-- The group is no larger than the protocol and the stored configuration allow. -/
def WithinMaximum (s : State) (n : Nat) : Prop :=
  ∀ grp, groupAt s n = some grp → grp.maxMembers ≤ maxMembersCap ∧
    ∀ config, readAt ContractConfig s.persistent .config = some config →
      grp.maxMembers ≤ config.maxMembers

/-- The members of `n` in `t` are those of `g₁` and `g₂` in `s`, each once, and
    each at the position of its place in the list. -/
structure Enlisted (s t : State) (g₁ g₂ n : Nat) : Prop where
  once : (rosterAt t n).members.Nodup
  union : ∀ a, a ∈ (rosterAt t n).members ↔
    a ∈ (rosterAt s g₁).members ∨ a ∈ (rosterAt s g₂).members
  disjoint : ∀ a ∈ (rosterAt s g₁).members, a ∉ (rosterAt s g₂).members
  positions : ∀ i a, (rosterAt t n).members[i]? = some a →
    eligAt t n a = some ⟨i⟩ ∧ seatOf t n a = some i

/-- What is recorded as held for all the groups there are. -/
def recordedTotal (s : State) : Int := ∑ g ∈ Finset.range (lastId s + 1), grpBalAt s g

/-- Members and money are conserved. -/
structure Conserved (s t : State) (g₁ g₂ n : Nat) : Prop where
  distinct : g₁ ≠ g₂
  members : Enlisted s t g₁ g₂ n
  capacity : WithinMaximum t n
  token : ∃ config, tokenAt t n = some config ∧ tokenAt s g₁ = some config ∧
    tokenAt s g₂ = some config
  balance : recordedTotal t = recordedTotal s

/-- An id that was not handed out yet has no token. -/
def TokensIssued (s : State) : Prop := ∀ g, lastId s < g → s.persistent (.grpTok g) = none

section Merge

variable {env : Env} {s t : State} {g₁ g₂ n : Nat}

/-- The new roster is that of the first group, then that of the second. -/
theorem merge_roster (h : mergeGroups g₁ g₂ env s = .ok n t) :
    (rosterAt t n).members = (rosterAt s g₁).members ++ (rosterAt s g₂).members := by
  have hid := (mergeGroups_ok h).1
  rw [rosterAt_eq (hid ▸ mergeGroups_roster h), mergedRoster, combineMembers_members]

/-- Every member of the new roster is filed under its place in the list. -/
theorem merge_positions (h : mergeGroups g₁ g₂ env s = .ok n t)
    (hnodup : ((rosterAt s g₁).members ++ (rosterAt s g₂).members).Nodup) {i : Nat} {a : Address}
    (ha : ((rosterAt s g₁).members ++ (rosterAt s g₂).members)[i]? = some a) :
    eligAt t n a = some ⟨i⟩ ∧ seatOf t n a = some i := by
  obtain ⟨rfl, grp₁, grp₂, v, -, hloop, rfl⟩ := mergeGroups_ok h
  have hmembers : (mergedRoster s g₁ g₂).members
      = (rosterAt s g₁).members ++ (rosterAt s g₂).members := combineMembers_members _
  have hlisted : (mergedRoster s g₁ g₂).members.Nodup := hmembers ▸ hnodup
  -- each round files one member, and no other round files it elsewhere
  have hall := forEach_establishes
    (Q := fun i v => ∀ a, (mergedRoster s g₁ g₂)[i]? = some a →
      eligAt v (lastId s + 1) a = some ⟨i⟩ ∧ seatOf v (lastId s + 1) a = some i) ?_ ?_ hloop
  · have hv := hall i (List.mem_range.mpr ?_) a ((combineMembers_get i).trans ha)
    · simpa [seatOf] using hv
    · rw [← length_members, hmembers]
      exact (List.getElem?_eq_some_iff.mp ha).1
  · intro i u v hstep a ha
    simp [mergeMember] at hstep
    obtain ⟨b, hb, rfl⟩ := hstep
    obtain rfl := Option.some.inj (hb.symm.trans ha)
    simp [seatOf]
  · intro i j u v hu hstep a ha
    simp [mergeMember] at hstep
    obtain ⟨b, hb, rfl⟩ := hstep
    by_cases hab : a = b
    · -- the same member is filed under one position only
      subst hab
      obtain rfl := slot_unique hlisted ha hb
      simp [seatOf]
    · simpa [seatOf, hab] using hu a ha

/-- Everybody is enlisted exactly if nobody was in both. -/
theorem merge_enlisted_iff (h : mergeGroups g₁ g₂ env s = .ok n t) :
    Enlisted s t g₁ g₂ n ↔ ((rosterAt s g₁).members ++ (rosterAt s g₂).members).Nodup := by
  have hroster := merge_roster h
  constructor
  · intro hmembers
    rw [← hroster]
    exact hmembers.once
  · intro hnodup
    refine ⟨hroster ▸ hnodup, ?_, ?_, ?_⟩
    · intro a
      rw [hroster, List.mem_append]
    · intro a ha₁ ha₂
      exact (List.nodup_append.mp hnodup).2.2 a ha₁ a ha₂ rfl
    · intro i a ha
      rw [hroster] at ha
      exact merge_positions h hnodup ha

/-- The new record, and what the two sources were. -/
theorem merge_group (h : mergeGroups g₁ g₂ env s = .ok n t) :
    ∃ grp₁ grp₂, groupAt s g₁ = some grp₁ ∧ groupAt s g₂ = some grp₂ ∧
      groupAt t n = some (mergedGroup s g₁ g₂ grp₁ grp₂ env.timestamp) := by
  obtain ⟨grp₁, grp₂, hopen, hbase⟩ := mergeGroups_base h
  refine ⟨grp₁, grp₂, hopen.first, hopen.second, ?_⟩
  rw [(mergeGroups_ok h).1, groupAt, readAt_congr (hbase _ (by simp) (by simp) (by simp))]
  simp [mergeBase]

/-- A merge leaves the configuration alone. -/
theorem merge_config (h : mergeGroups g₁ g₂ env s = .ok n t) :
    t.persistent .config = s.persistent .config :=
  (Within.agree_ok (w := Call.footprint (.mergeGroups g₁ g₂)) h).persistent _ (by simp)

/-- **CAPACITY**: the new maximum is the sum of the two. -/
theorem merge_capacity_iff (h : mergeGroups g₁ g₂ env s = .ok n t) {grp₁ grp₂ : SaveData.Group}
    (h₁ : groupAt s g₁ = some grp₁) (h₂ : groupAt s g₂ = some grp₂) :
    WithinMaximum t n ↔ grp₁.maxMembers + grp₂.maxMembers ≤ maxMembersCap ∧
      ∀ config, readAt ContractConfig s.persistent .config = some config →
        grp₁.maxMembers + grp₂.maxMembers ≤ config.maxMembers := by
  have hconfig := merge_config h
  obtain ⟨grp₁', grp₂', h₁', h₂', hgrp⟩ := merge_group h
  obtain rfl := Option.some.inj (h₁.symm.trans h₁')
  obtain rfl := Option.some.inj (h₂.symm.trans h₂')
  simp only [WithinMaximum, hgrp, readAt_congr hconfig, Option.some.injEq]
  constructor
  · intro hmax
    exact hmax _ rfl
  · rintro hmax grp rfl
    exact hmax

/-- **NO TOKEN**: the new id has none, and none is written. -/
theorem merge_token (hissued : TokensIssued s) (h : mergeGroups g₁ g₂ env s = .ok n t) :
    tokenAt t n = none := by
  have hnone : t.persistent (.grpTok n) = none := by
    rw [(Within.agree_ok (w := Call.footprint (.mergeGroups g₁ g₂)) h).persistent _ (by simp),
      (mergeGroups_ok h).1]
    exact hissued _ (Nat.lt_succ_self _)
  exact (readAt_eq_none (typedAt_of_none hnone)).mpr hnone

/-- **TWICE ON RECORD**: the balances of the sources are added, not moved. -/
theorem merge_total (h : mergeGroups g₁ g₂ env s = .ok n t) :
    recordedTotal t = recordedTotal s + (grpBalAt s g₁ + grpBalAt s g₂) := by
  have hold : ∀ g ∈ Finset.range (lastId s + 1), grpBalAt t g = grpBalAt s g := by
    intro g hg
    have hne : g ≠ lastId s + 1 := Nat.ne_of_lt (Finset.mem_range.mp hg)
    rw [grpBalAt, readAt_congr (mergeGroups_frame h (.grpBal g) hne (by simp))]
  -- the old ids keep what they had, the new one adds both balances
  rw [recordedTotal, mergeGroups_lastId h, Finset.sum_range_succ, Finset.sum_congr rfl hold,
    mergeGroups_balance h]
  rfl

end Merge

/-! ## Tokens go to ids that were handed out -/

section Issued

variable {env : Env} {s t : State} {c : Call}

/-- A new group comes with its token. -/
theorem created_issued (hs : TokensIssued s) (grp : SaveData.Group) (config : TokenConfig) :
    TokensIssued (created s grp config) := by
  intro g hg
  rw [lastId_created] at hg
  have hne : g ≠ lastId s + 1 := by omega
  simpa [created, hne] using hs g (by omega)

/-- Every group with a token keeps it in every call. -/
theorem issued_step (hreg : Registry s) (hs : TokensIssued s) (h : c.body env s = .ok () t) :
    TokensIssued t := by
  have hagree := (Within.agree_ok (w := c.footprint) h).persistent
  have hlast := (grows_step hreg h).last
  cases c with
  | createGroup creator amount duration maxMembers tok grace order =>
      obtain ⟨n, hn⟩ := quietly_ok.mp h
      obtain ⟨-, rounded, decimals, l, rfl⟩ := createGroup_ok hn
      exact created_issued hs _ _
  | cloneGroup caller g o =>
      obtain ⟨n, hn⟩ := quietly_ok.mp h
      obtain ⟨rfl, amount, duration, maxMembers, minMembers, grace, config, rfl⟩ := cloneGroup_ok hn
      exact created_issued hs _ _
  | _ =>
      intro g hg
      rw [hagree (.grpTok g) (Place.other_kind rfl)]
      exact hs g (Nat.lt_of_le_of_lt hlast hg)

/-- And along every run. -/
theorem issued_run (hreg : Registry s) (hs : TokensIssued s) (steps : List Step) :
    TokensIssued (run steps s) := by
  refine (exec_invariant_always (I := fun t => Registry t ∧ TokensIssued t) ?_ ⟨hreg, hs⟩ steps).2
  intro x s hs
  refine ⟨registry_apply x s hs.1, ?_⟩
  refine apply_invariant (C := fun _ _ => True) (I := fun t => Registry t ∧ TokensIssued t)
    ?_ (fun _ hs => ⟨⟨hs.1.own, hs.1.below⟩, hs.2⟩) (fun _ _ hs => ⟨⟨hs.1.own, hs.1.below⟩, hs.2⟩)
    x s trivial hs |>.2
  intro env c s t _ hs h
  exact ⟨registry_step hs.1 h, issued_step hs.1 hs.2 h⟩

end Issued

/-- **NEVER CONSERVED**: after every run, whatever two groups are merged, the
    new one has no token.  The members are conserved exactly when nobody is
    listed twice, the size is allowed exactly when the two sizes together are,
    and the recorded total stays exactly when there was nothing to move. -/
theorem merge_never_conserves (s : State) (hreg : Registry s) (hissued : TokensIssued s)
    (steps : List Step) (env : Env) (g₁ g₂ n : Nat) (t : State)
    (h : mergeGroups g₁ g₂ env (run steps s) = .ok n t) :
    ¬ Conserved (run steps s) t g₁ g₂ n ∧ tokenAt t n = none ∧
    (Enlisted (run steps s) t g₁ g₂ n ↔
      ((rosterAt (run steps s) g₁).members ++ (rosterAt (run steps s) g₂).members).Nodup) ∧
    (∃ grp₁ grp₂, groupAt (run steps s) g₁ = some grp₁ ∧ groupAt (run steps s) g₂ = some grp₂ ∧
      (WithinMaximum t n ↔ grp₁.maxMembers + grp₂.maxMembers ≤ maxMembersCap ∧
        ∀ config, readAt ContractConfig (run steps s).persistent .config = some config →
          grp₁.maxMembers + grp₂.maxMembers ≤ config.maxMembers)) ∧
    (recordedTotal t = recordedTotal (run steps s) ↔
      grpBalAt (run steps s) g₁ + grpBalAt (run steps s) g₂ = 0) := by
  have htoken := merge_token (issued_run hreg hissued steps) h
  obtain ⟨grp₁, grp₂, h₁, h₂, -⟩ := merge_group h
  refine ⟨?_, htoken, merge_enlisted_iff h, ⟨grp₁, grp₂, h₁, h₂, merge_capacity_iff h h₁ h₂⟩, ?_⟩
  · intro hconserved
    obtain ⟨config, hconfig, -⟩ := hconserved.token
    rw [htoken] at hconfig
    cases hconfig
  · rw [merge_total h]
    omega

/-! Two groups that have everything a merge could ask for. -/

def twinGroup (g : Nat) : SaveData.Group :=
  { Group.fresh g ⟨1⟩ 100 1000 3 2 0 0 false 0 with status := .pending, memberCount := 1 }

/-- Group `g`, open, with one member and a token. -/
def withTwin (s : State) (g : Nat) (member : Address) : State :=
  ((s.set (.grp g) (Codec.encode (twinGroup g))).set
    (.grpMbrs g) (Codec.encode ((∅ : MemberMap).insert 0 member))).set
    (.grpTok g) (Codec.encode (TokenConfig.mk ⟨9⟩ 7))

def twins : State :=
  withTwin (withTwin ((deployed fun _ => none).set .cntNextG (Codec.encode (U64.mk 2))) 1 ⟨1⟩) 2 ⟨2⟩

def mergedTwins : State := commit (mergeGroups 1 2) trioEnv twins

/-- Two groups of the same members can be merged. -/
theorem twins_merge : mergeGroups 1 2 trioEnv twins = .ok 3 mergedTwins := rfl

/-- The two of the example. -/
theorem twins_group (g : Nat) : groupAt twins g
    = if g = 2 then some (twinGroup 2) else if g = 1 then some (twinGroup 1) else none := by
  by_cases h₂ : g = 2
  · simp [twins, withTwin, h₂]
  · by_cases h₁ : g = 1
    · simp [twins, withTwin, h₁]
    · simp [twins, withTwin, h₁, h₂, deployed, readAt]

/-- They are registered. -/
theorem twins_registry : Registry twins where
  own g grp h := by
    rw [twins_group] at h
    by_cases h₂ : g = 2
    · rw [if_pos h₂] at h
      obtain rfl := Option.some.inj h
      exact h₂.symm
    · by_cases h₁ : g = 1
      · rw [if_neg h₂, if_pos h₁] at h
        obtain rfl := Option.some.inj h
        exact h₁.symm
      · rw [if_neg h₂, if_neg h₁] at h
        cases h
  below g hg := by
    have hlast : lastId twins = 2 := rfl
    rw [twins_group, if_neg (by omega), if_neg (by omega)]
    exact ⟨rfl, rfl⟩

/-- And have their tokens. -/
theorem twins_issued : TokensIssued twins := by
  intro g hg
  have hlast : lastId twins = 2 := rfl
  have h₁ : g ≠ 1 := by omega
  have h₂ : g ≠ 2 := by omega
  simp [twins, withTwin, h₁, h₂, deployed]

/-- **NOTHING LEFT TO PAY WITH**: different ids, different members, the same
    token, room enough and no money yet; and still no token afterwards. -/
theorem twins_lose_token :
    mergeGroups 1 2 trioEnv twins = .ok 3 mergedTwins ∧
      tokenAt twins 1 = some ⟨⟨9⟩, 7⟩ ∧ tokenAt twins 2 = some ⟨⟨9⟩, 7⟩ ∧
      ¬ Conserved twins mergedTwins 1 2 3 := by
  refine ⟨twins_merge, rfl, rfl, fun h => ?_⟩
  obtain ⟨config, hconfig, -⟩ := h.token
  have hnone : tokenAt mergedTwins 3 = none := rfl
  rw [hnone] at hconfig
  cases hconfig

/-- The theorem there: the members, the size and the recorded total are in
    order. -/
theorem merge_never_conserves_instance :
    (Registry twins ∧ TokensIssued twins) ∧ ¬ Conserved twins mergedTwins 1 2 3 ∧
      Enlisted twins mergedTwins 1 2 3 ∧ recordedTotal mergedTwins = recordedTotal twins := by
  obtain ⟨hnot, -, hmembers, -, htotal⟩ :=
    merge_never_conserves twins twins_registry twins_issued [] trioEnv 1 2 3 mergedTwins twins_merge
  refine ⟨⟨twins_registry, twins_issued⟩, hnot, hmembers.mpr ?_, htotal.mpr rfl⟩
  have hnodup : ([⟨1⟩, ⟨2⟩] : List Address).Nodup := by decide
  exact hnodup

end SaveMerge
