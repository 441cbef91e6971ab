import StellarSave.BallotProofs
import StellarSave.MergeProofs

/-! # Limits — six writers of the group record

    A group should have a positive amount and duration, between two and its
    maximum of members, and terms inside the stored configuration.  Creating
    and joining check all they need.  The other four each leave something out:
    updating forgets who is in the group already, cloning and a vote forget the
    configuration, merging forgets the maximum. -/

namespace SaveLimits

open HostProg Footprint TokenLedger SaveData SaveMembership SaveLifecycle SaveRefund SaveCall
open SaveRoster SaveStatus SaveBallot SaveMerge

/-- The stored configuration. -/
abbrev configAt (s : State) : Option ContractConfig := readAt ContractConfig s.persistent .config

/-- One group within its limits. -/
structure GroupLimits (config : Option ContractConfig) (grp : SaveData.Group) : Prop where
  amount : 0 < grp.contributionAmount
  duration : 0 < grp.cycleDuration
  floor : 2 ≤ grp.minMembers
  range : grp.minMembers ≤ grp.maxMembers
  seats : grp.memberCount ≤ grp.maxMembers
  bounds : ∀ c, config = some c →
    Bounded c grp.contributionAmount grp.cycleDuration grp.maxMembers

/-- Every stored group within its limits. -/
def WithinLimits (s : State) : Prop :=
  ∀ g grp, groupAt s g = some grp → GroupLimits (configAt s) grp

/-- The six calls that write the terms of a group. -/
def WritesTerms : Call → Prop
  | .createGroup _ _ _ _ _ _ _ | .updateGroup _ _ _ _ | .cloneGroup _ _ _ | .mergeGroups _ _
  | .voteContributionChange _ _ | .joinGroup _ _ _ => True
  | _ => False

/-- What each of them leaves unchecked, holding. -/
def LeftUnchecked (c : Call) (s : State) : Prop :=
  match c with
  | .updateGroup g amount duration maxMembers => 0 < amount ∧ 0 < duration ∧
      ∀ grp, groupAt s g = some grp → grp.minMembers ≤ maxMembers ∧ grp.memberCount ≤ maxMembers
  | .cloneGroup _ g o => ∀ src config, groupAt s g = some src → configAt s = some config →
      Bounded config (o.contributionAmount.getD src.contributionAmount)
        (o.cycleDuration.getD src.cycleDuration) (o.maxMembers.getD src.maxMembers)
  | .mergeGroups g₁ g₂ => ∀ grp₁ grp₂, groupAt s g₁ = some grp₁ → groupAt s g₂ = some grp₂ →
      (rosterAt s g₁).size + (rosterAt s g₂).size ≤ grp₁.maxMembers + grp₂.maxMembers ∧
        ∀ config, configAt s = some config →
          grp₁.maxMembers + grp₂.maxMembers ≤ config.maxMembers
  | .voteContributionChange g _ => ∀ grp amount, groupAt s g = some grp →
      pendingAt s g = some ⟨amount⟩ → grp.memberCount < 2 * (tallyAt s g + 1) →
        0 < amount ∧ ∀ config, configAt s = some config →
          config.minContribution ≤ amount ∧ amount ≤ config.maxContribution
  | _ => True

section Step

variable {env : Env} {s t : State} {g n : Nat}

/-- One record is rewritten: the limits are kept exactly when it is within
    them. -/
theorem limits_iff_of_rewrite (hs : WithinLimits s) {grp : SaveData.Group}
    (hconfig : t.persistent .config = s.persistent .config) (hg : groupAt t g = some grp)
    (hother : ∀ j, j ≠ g → groupAt t j = groupAt s j) :
    WithinLimits t ↔ GroupLimits (configAt s) grp := by
  have hsame : configAt t = configAt s := readAt_congr hconfig
  constructor
  · intro ht
    exact hsame ▸ ht g grp hg
  · intro hgrp j grp' hj
    rw [hsame]
    by_cases he : j = g
    · subst he
      obtain rfl := Option.some.inj (hg.symm.trans hj)
      exact hgrp
    · exact hs j grp' (hother j he ▸ hj)

theorem created_other (grp : SaveData.Group) (config : TokenConfig) {j : Nat}
    (hj : j ≠ lastId s + 1) : groupAt (created s grp config) j = groupAt s j := by
  simp [created, groupAt, hj]

theorem created_group (grp : SaveData.Group) (config : TokenConfig) :
    groupAt (created s grp config) (lastId s + 1) = some grp := by
  simp [created, groupAt]

theorem created_config (grp : SaveData.Group) (config : TokenConfig) :
    (created s grp config).persistent .config = s.persistent .config := by
  simp [created]

/-- **CREATING** checks everything. -/
theorem create_limits (hs : WithinLimits s) {creator tok : Address} {amount : Int}
    {duration maxMembers grace : Nat} {order : PayoutOrder}
    (h : createGroup creator amount duration maxMembers tok grace order env s = .ok n t) :
    WithinLimits t := by
  obtain ⟨-, rounded, decimals, l, ⟨hamount, hduration, hmembers, hbounds⟩, -, rfl⟩ :=
    createGroup_terms h
  refine (limits_iff_of_rewrite hs (created_config _ _) (created_group _ _)
    fun j hj => created_other _ _ hj).mpr ?_
  exact ⟨hamount, hduration, Nat.le_refl 2, hmembers, Nat.zero_le _, hbounds⟩

/-- **JOINING** checks that there is room. -/
theorem join_limits (hs : WithinLimits s) {member : Address} {referrer : Option Address}
    (h : joinGroup g member referrer env s = .ok () t) : WithinLimits t := by
  have hframe := (Within.agree_ok (w := Call.footprint (.joinGroup g member referrer)) h).persistent
  obtain ⟨grp, hopen, rfl⟩ := joinGroup_ok h
  have hold := hs g grp hopen.group
  refine (limits_iff_of_rewrite hs (hframe _ (by simp))
    (joined_views member grp env.timestamp referrer).1 fun j hj => ?_).mpr ?_
  · exact readAt_congr (hframe (.grp j) (by simp [hj]))
  · exact ⟨hold.amount, hold.duration, hold.floor, hold.range, hopen.room, hold.bounds⟩

/-- **UPDATING** forgets who is there already, and everything without a
    configuration. -/
theorem update_limits_iff (hs : WithinLimits s) {amount : Int} {duration maxMembers : Nat}
    (h : updateGroup g amount duration maxMembers env s = .ok () t) :
    WithinLimits t ↔ LeftUnchecked (.updateGroup g amount duration maxMembers) s := by
  simp only [updateGroup, getOr_bind_ok, requireAuth_bind_ok, getD_bind_ok, failIf_bind_ok,
    getOpt_bind_ok] at h
  obtain ⟨grp, hgrp, -, -, -, -, h⟩ := h
  obtain ⟨⟨⟩, v, hcheck, hput⟩ := bind_ok.mp h
  rw [Within.eq_of_ok hcheck] at hput hcheck
  obtain rfl := put_ok.mp hput
  -- the bounds are checked against a configuration that is stored, and only then
  have hbounds : ∀ config, configAt s = some config → Bounded config amount duration maxMembers := by
    intro config hconfig
    rw [configAt] at hconfig
    rw [hconfig] at hcheck
    simpa [onOption, Bounded, and_assoc] using hcheck
  have hold := hs g grp hgrp
  rw [limits_iff_of_rewrite hs (by simp) (g := g) (by simp [groupAt]; rfl)
    fun j hj => by simp [groupAt, hj]]
  constructor
  · intro hlimits
    refine ⟨hlimits.amount, hlimits.duration, ?_⟩
    intro grp' hgrp'
    obtain rfl := Option.some.inj (hgrp.symm.trans hgrp')
    exact ⟨hlimits.range, hlimits.seats⟩
  · rintro ⟨hamount, hduration, hmembers⟩
    obtain ⟨hrange, hseats⟩ := hmembers grp hgrp
    exact ⟨hamount, hduration, hold.floor, hrange, hseats, hbounds⟩

/-- **CLONING** forgets the configuration. -/
theorem clone_limits_iff (hs : WithinLimits s) {caller : Address} {o : CloneOverrides}
    (h : cloneGroup caller g o env s = .ok n t) :
    WithinLimits t ↔ LeftUnchecked (.cloneGroup caller g o) s := by
  obtain ⟨rfl, src, config, ⟨hsrc, -⟩, ⟨hamount, hduration, hfloor, hrange⟩, rfl⟩ :=
    cloneGroup_terms h
  rw [limits_iff_of_rewrite hs (created_config _ _) (created_group _ _)
    fun j hj => created_other _ _ hj]
  constructor
  · intro hlimits src' config' hsrc' hconfig
    obtain rfl := Option.some.inj (hsrc.symm.trans hsrc')
    exact hlimits.bounds config' hconfig
  · intro hbounds
    exact ⟨hamount, hduration, hfloor, hrange, Nat.zero_le _, fun config' => hbounds src config' hsrc⟩

/-- **MERGING** forgets the maximum, and trusts the rosters. -/
theorem merge_limits_iff (hs : WithinLimits s) {g₁ g₂ : Nat}
    (h : mergeGroups g₁ g₂ env s = .ok n t) :
    WithinLimits t ↔ LeftUnchecked (.mergeGroups g₁ g₂) s := by
  obtain ⟨grp₁, grp₂, h₁, h₂, hgrp⟩ := merge_group h
  have hid := (mergeGroups_ok h).1
  have hold₁ := hs g₁ grp₁ h₁
  have hold₂ := hs g₂ grp₂ h₂
  have hsize : (mergedRoster s g₁ g₂).size = (rosterAt s g₁).size + (rosterAt s g₂).size := by
    rw [← length_members, mergedRoster, combineMembers_members, List.length_append, length_members,
      length_members]
  rw [limits_iff_of_rewrite hs (merge_config h) hgrp fun j hj =>
    readAt_congr (mergeGroups_frame h (.grp j) (hid ▸ hj) (by simp))]
  -- the new maximum is the sum of the two, which no check bounds
  constructor
  · intro hlimits grp₁' grp₂' h₁' h₂'
    obtain rfl := Option.some.inj (h₁.symm.trans h₁')
    obtain rfl := Option.some.inj (h₂.symm.trans h₂')
    have hseats : (mergedRoster s g₁ g₂).size ≤ grp₁.maxMembers + grp₂.maxMembers := hlimits.seats
    refine ⟨hsize ▸ hseats, ?_⟩
    intro config hc
    exact (hlimits.bounds config hc).2.1.2
  · intro hrest
    obtain ⟨hseats, hmax⟩ := hrest grp₁ grp₂ h₁ h₂
    -- amounts and durations are those of the first group
    refine ⟨hold₁.amount, hold₁.duration, ?_, ?_, ?_, ?_⟩
    · exact Nat.le_min.mpr ⟨hold₁.floor, hold₂.floor⟩
    · -- the smaller minimum is below either maximum, so below their sum
      exact (Nat.min_le_left _ _).trans (hold₁.range.trans (Nat.le_add_right _ _))
    · show (mergedRoster s g₁ g₂).size ≤ _
      rw [hsize]
      exact hseats
    · intro config hc
      obtain ⟨hamount, hmembers, hduration⟩ := hold₁.bounds config hc
      exact ⟨hamount, ⟨hmembers.1.trans (Nat.le_add_right _ _), hmax config hc⟩, hduration⟩

/-- **A VOTE** that carries forgets the configuration, and that the proposal
    was checked long ago. -/
theorem vote_limits_iff (hs : WithinLimits s) {member : Address}
    (h : voteContributionChange g member env s = .ok () t) :
    WithinLimits t ↔ LeftUnchecked (.voteContributionChange g member) s := by
  obtain ⟨grp, amount, hopen, ⟨hmajority, -, rfl⟩ | ⟨hminority, rfl⟩⟩ :=
    voteContributionChange_ok.mp h
  · have hold := hs g grp hopen.group
    rw [limits_iff_of_rewrite hs (by simp [changed, tallied]) (g := g)
      (by simp [changed, groupAt]; rfl) fun j hj => by simp [changed, tallied, groupAt, hj]]
    -- the amount voted for is checked against nothing
    constructor
    · intro hlimits grp' amount' hgrp' hpending _
      obtain rfl := Option.some.inj (hopen.group.symm.trans hgrp')
      cases hopen.pending.symm.trans hpending
      exact ⟨hlimits.amount, fun config hc => (hlimits.bounds config hc).1⟩
    · intro hrest
      obtain ⟨hamount, hbounds⟩ := hrest grp amount hopen.group hopen.pending hmajority
      refine ⟨hamount, hold.duration, hold.floor, hold.range, hold.seats, ?_⟩
      intro config hc
      exact ⟨hbounds config hc, (hold.bounds config hc).2⟩
  · -- counted and not carried: no record is written
    refine iff_of_true ?_ ?_
    · intro j grp' hj
      have hconfig : configAt (tallied s g member) = configAt s := by simp [configAt, tallied]
      rw [hconfig]
      exact hs j grp' (by simpa [tallied, groupAt] using hj)
    · intro grp' amount' hgrp' _ hmajority
      obtain rfl := Option.some.inj (hopen.group.symm.trans hgrp')
      exact absurd hmajority hminority

end Step

/-- **WHO KEEPS THE LIMITS**: from a state where every group is within its
    limits, a call that writes terms leaves every group within its limits exactly
    when what it leaves unchecked holds. -/
theorem limits_kept_iff (c : Call) (hc : WritesTerms c) (env : Env) (s t : State)
    (hs : WithinLimits s) (h : c.body env s = .ok () t) : WithinLimits t ↔ LeftUnchecked c s := by
  cases c with
  | createGroup creator amount duration maxMembers tok grace order =>
      obtain ⟨n, hn⟩ := quietly_ok.mp h
      exact iff_of_true (create_limits hs hn) trivial
  | cloneGroup caller g o =>
      obtain ⟨n, hn⟩ := quietly_ok.mp h
      exact clone_limits_iff hs hn
  | updateGroup g amount duration maxMembers => exact update_limits_iff hs h
  | mergeGroups g₁ g₂ =>
      obtain ⟨n, hn⟩ := quietly_ok.mp h
      exact merge_limits_iff hs hn
  | voteContributionChange g member => exact vote_limits_iff hs h
  | joinGroup g member referrer => exact iff_of_true (join_limits hs h) trivial
  | _ => exact hc.elim

/-! Three members, and a maximum of two. -/

theorem trioState_limits : WithinLimits trioState := by
  intro g grp h
  by_cases hg : g = 1
  · subst hg
    obtain rfl := Option.some.inj
      (h.symm.trans (rfl : groupAt trioState 1 = some { openGroup with memberCount := 3 }))
    refine ⟨by decide, by decide, by decide, by decide, by decide, ?_⟩
    intro config hc
    cases hc
  · have hjoins : trioState.persistent (.grp g) = openState.persistent (.grp g) :=
      (persistent_commit (c := .joinGroup 1 ⟨3⟩ none) (by simp [hg])).trans
        ((persistent_commit (c := .joinGroup 1 ⟨2⟩ none) (by simp [hg])).trans
          (persistent_commit (c := .joinGroup 1 ⟨1⟩ none) (by simp [hg])))
    have hnone : groupAt trioState g = none := by
      rw [groupAt, readAt_congr hjoins]
      simp [openState, hg, deployed, readAt]
    rw [hnone] at h
    cases h

def crowded : State := commit (updateGroup 1 100 1000 2) trioEnv trioState

theorem trio_updates : updateGroup 1 100 1000 2 trioEnv trioState = .ok () crowded := rfl

/-- **CROWDED**: the maximum goes below the number of members. -/
theorem update_crowds :
    WithinLimits trioState ∧ updateGroup 1 100 1000 2 trioEnv trioState = .ok () crowded ∧
      ¬ WithinLimits crowded := by
  refine ⟨trioState_limits, trio_updates, fun h => ?_⟩
  have hseats := (h 1 _ rfl).seats
  exact absurd hseats (by decide)

/-- The theorem for a maximum that leaves room. -/
theorem limits_kept_iff_instance :
    WithinLimits trioState ∧
      WithinLimits (commit (Call.updateGroup 1 100 1000 5).body trioEnv trioState) := by
  refine ⟨trioState_limits, (limits_kept_iff (.updateGroup 1 100 1000 5) trivial trioEnv trioState _
    trioState_limits rfl).mpr ⟨by decide, by decide, ?_⟩⟩
  intro grp hgrp
  obtain rfl := Option.some.inj
    (hgrp.symm.trans (rfl : groupAt trioState 1 = some { openGroup with memberCount := 3 }))
  exact ⟨by decide, by decide⟩

end SaveLimits
