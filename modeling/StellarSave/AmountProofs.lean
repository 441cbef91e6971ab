import StellarSave.CompletionProofs
import StellarSave.BallotProofs
import StellarSave.TickProofs

/-! # Amounts — a vote in the middle of a cycle

    The pool check multiplies TODAY's contribution amount by the number of
    members and compares it with what was paid in.  A vote that carries changes
    the amount at once, whoever has paid the old one, for this cycle or ahead.

    Along runs of contributions, votes and payouts the two agree as long as a
    vote that carries finds no contribution to the current or a later cycle:
    then all of them were filed for today's amount. -/

namespace SaveAmount

open HostProg Footprint TokenLedger SaveData SaveContribution SavePayout SaveRefund SaveMembership
open SaveCall SaveBacking SaveFiling SaveStatus SaveStanding SaveRoster SaveRotation SaveCompletion
open SaveBallot SaveTick Tally Trace

/-- Contributions, votes on the amount and payouts, and what the world does
    around them. -/
def PaymentOrVote : Step → Prop
  | .call _ (.contribute _ _ _) | .call _ (.contributeBatch _ _ _)
  | .call _ (.executeAutoContributions _) | .call _ (.contributeWithProof _ _ _)
  | .call _ (.proposeContributionChange _ _) | .call _ (.voteContributionChange _ _)
  | .call _ (.executePayout _) | .call _ (.tick _) | .expire | .external _ => True
  | _ => False

/-- Nobody has contributed to the current or a later cycle. -/
def NothingAhead (s : State) (g : Nat) (grp : SaveData.Group) : Prop :=
  ∀ c a, grp.currentCycle ≤ c → s.persistent (.contrib g c a) = none

/-- A vote that carries a different amount finds nothing ahead. -/
def BetweenCycles (g : Nat) (x : Step) (s : State) : Prop :=
  match x with
  | .call env (.voteContributionChange g' member) => g' = g →
      Succeeds (voteContributionChange g member) env s →
      ∀ grp amount, groupAt s g = some grp → pendingAt s g = some ⟨amount⟩ →
        grp.memberCount < 2 * (tallyAt s g + 1) → amount ≠ grp.contributionAmount →
        NothingAhead s g grp
  | _ => True

/-- Every contribution to the current or a later cycle was for today's amount. -/
def Priced (s : State) (g : Nat) : Prop :=
  ∀ grp, groupAt s g = some grp → ∀ c a record, grp.currentCycle ≤ c →
    contribAt s g c a = some record → record.amount = grp.contributionAmount

/-- Once all members have contributed, the total is what the pool check asks
    for, and the check passes. -/
def Payable (s : State) (g : Nat) (roster : MemberMap) : Prop :=
  ∀ grp, groupAt s g = some grp →
    (∀ a ∈ roster.members, s.persistent (.contrib g grp.currentCycle a) ≠ none) →
    cycTotalAt s g grp.currentCycle = grp.contributionAmount * grp.memberCount ∧
      ∀ env pool, getPoolInfoForGroup grp grp.currentCycle env s = .ok pool s →
        validatePoolReadyForPayout pool env s = .ok () s

section Step

variable {env : Env} {s t : State} {g : Nat} {roster : MemberMap} {c : Call}

/-- The record keeps its amount and does not fall back, or a vote carried. -/
def KeepsTerms (s t : State) (g : Nat) (c : Call) : Prop :=
  ∀ grp', groupAt t g = some grp' → ∃ grp, groupAt s g = some grp ∧
    grp.currentCycle ≤ grp'.currentCycle ∧
    (grp'.contributionAmount = grp.contributionAmount ∨
      ∃ member, c = .voteContributionChange g member ∧ grp.memberCount < 2 * (tallyAt s g + 1) ∧
        pendingAt s g = some ⟨grp'.contributionAmount⟩)

theorem KeepsTerms.of_same (h : t.persistent (.grp g) = s.persistent (.grp g)) :
    KeepsTerms s t g c := by
  intro grp' hgrp'
  rw [groupAt, readAt_congr h] at hgrp'
  exact ⟨grp', hgrp', Nat.le_refl _, Or.inl rfl⟩

/-- A cycle was closed. -/
theorem KeepsTerms.of_closed {grp grp₁ : SaveData.Group} (hgrp : groupAt s g = some grp)
    (ht : groupAt t g = some grp₁) (hcycle : grp₁.currentCycle = grp.currentCycle + 1)
    (hamount : grp₁.contributionAmount = grp.contributionAmount) : KeepsTerms s t g c := by
  intro grp' hgrp'
  obtain rfl := Option.some.inj (ht.symm.trans hgrp')
  exact ⟨grp, hgrp, by omega, Or.inl hamount⟩

theorem advanced_amount (grp : SaveData.Group) :
    grp.advanced.contributionAmount = grp.contributionAmount := by
  obtain ⟨status, active, he⟩ := advanced_closed grp
  rw [he]

theorem executePayout_terms (hreg : Registry s) {g' : Nat} (h : executePayout g' env s = .ok () t) :
    KeepsTerms s t g c := by
  by_cases hg : g = g'
  · subst hg
    obtain ⟨grp, recipient, amount, v, config, l, hp, rfl⟩ := executePayout_ok.mp h
    refine KeepsTerms.of_closed hp.group (by simp [groupAt, paidState]; rfl) ?_ ?_
    · exact Group.advanced_currentCycle (marked grp)
    · exact advanced_amount (marked grp)
  · exact KeepsTerms.of_same (executePayout_groups (hreg.own g') (Or.inl ⟨(), h⟩) hg)

theorem tick_terms (hreg : Registry s) {g' : Nat} (h : tick g' env s = .ok () t) :
    KeepsTerms s t g c := by
  by_cases hg : g = g'
  · subst hg
    obtain ⟨grp, v, hgrp, -, -, -, rfl⟩ := tick_ok h
    exact KeepsTerms.of_closed hgrp (by simp [groupAt]) (Group.advanced_currentCycle grp)
      (advanced_amount grp)
  · exact KeepsTerms.of_same (tick_groups hreg h hg)

theorem vote_terms {g' : Nat} {member : Address}
    (h : voteContributionChange g' member env s = .ok () t) :
    KeepsTerms s t g (.voteContributionChange g' member) := by
  by_cases hg : g = g'
  · subst hg
    obtain ⟨grp, n, hopen, ⟨hmajority, -, rfl⟩ | ⟨-, rfl⟩⟩ := voteContributionChange_ok.mp h
    · intro grp' hgrp'
      have he : { grp with contributionAmount := n } = grp' := by
        simpa [groupAt, changed] using hgrp'
      subst he
      exact ⟨grp, hopen.group, Nat.le_refl _, Or.inr ⟨member, rfl, hmajority, hopen.pending⟩⟩
    · exact KeepsTerms.of_same (by simp [tallied])
  · exact KeepsTerms.of_same ((Within.agree_ok
      (w := Call.footprint (.voteContributionChange g' member)) h).persistent _
      (by simp [hg]))

theorem terms_step (hreg : Registry s) (hc : PaymentOrVote (.call env c))
    (h : c.body env s = .ok () t) : KeepsTerms s t g c := by
  have hagree := Within.agree_ok (w := c.footprint) h
  cases c with
  | executePayout g' => exact executePayout_terms hreg h
  | tick g' => exact tick_terms hreg h
  | voteContributionChange g' member => exact vote_terms h
  | contribute g' m n | contributeBatch g' m cycles | executeAutoContributions g'
  | contributeWithProof g' m n | proposeContributionChange g' n =>
      exact KeepsTerms.of_same (hagree.persistent _ (by simp))
  | _ => exact hc.elim

/-- A contribution that is there afterwards was there before, or is one of the
    group's own amount. -/
theorem records_step (hs : Underway s g roster) (h : c.body env s = .ok () t) {grp : SaveData.Group}
    (hgrp : groupAt s g = some grp) {cycle : Nat} {a : Address} {record : ContributionRecord}
    (hrec : contribAt t g cycle a = some record) :
    contribAt s g cycle a = some record ∨
      (contributesTo c = some g ∧ record.amount = grp.contributionAmount) := by
  cases hc : contributesTo c with
  | none =>
      rw [contribAt, readAt_congr
        (call_sameBooks hs.books.rosters hc h (.contrib g cycle a) (by simp [bookKinds]))] at hrec
      exact Or.inl hrec
  | some g' =>
      obtain ⟨grp', hgrp', -, hfiled⟩ := contribution_filed hc h
      by_cases hg : g' = g
      · subst hg
        obtain rfl := Option.some.inj (hgrp.symm.trans hgrp')
        rcases hfiled.amounts hrec with hold | ⟨hamount, -⟩
        · exact Or.inl hold
        · exact Or.inr ⟨rfl, hamount⟩
      · rw [contribAt, readAt_congr (hfiled.elsewhere (Ne.symm hg) cycle a)] at hrec
        exact Or.inl hrec

/-- **ONE STEP** keeps the price. -/
theorem priced_step (hs : Underway s g roster) (hprice : Priced s g)
    (hc : PaymentOrVote (.call env c)) (hvote : BetweenCycles g (.call env c) s)
    (h : c.body env s = .ok () t) : Priced t g := by
  intro grp' hgrp' cycle a record hle hrec
  obtain ⟨grp, hgrp, hcycle, hamount⟩ := terms_step hs.registry hc h grp' hgrp'
  have hle' : grp.currentCycle ≤ cycle := hcycle.trans hle
  rcases hamount with hsame | ⟨member, rfl, hmajority, hpending⟩
  · rw [hsame]
    rcases records_step hs h hgrp hrec with hold | ⟨-, hnew⟩
    · exact hprice grp hgrp cycle a record hle' hold
    · exact hnew
  · -- the vote carried: either to the same amount, or with nothing ahead
    have hold : contribAt s g cycle a = some record := by
      rcases records_step hs h hgrp hrec with hold | ⟨hcontributes, -⟩
      · exact hold
      · cases hcontributes
    by_cases hsame : grp'.contributionAmount = grp.contributionAmount
    · rw [hsame]
      exact hprice grp hgrp cycle a record hle' hold
    · have hnone := hvote rfl ⟨(), t, h⟩ grp _ hgrp hpending hmajority hsame cycle a hle'
      rw [(readAt_eq_some _ _ _).mp hold] at hnone
      cases hnone

/-- **PAYABLE**: where the price was kept and only members have filed, a full
    cycle is a full pool. -/
theorem payable_of_priced (hs : Underway s g roster) (hnodup : roster.members.Nodup)
    (honly : ∀ cycle a, ¬ Departed s g cycle roster a) (hprice : Priced s g) :
    Payable s g roster := by
  intro grp hgrp hall
  have hb := hs.books.balanced g grp.currentCycle
  have hfull := (hs.agree hnodup hgrp (honly grp.currentCycle)).mpr (withoutRecord_eq_nil.mpr hall)
  -- a full count is exactly the members
  have hcount : cycCountAt s g grp.currentCycle = grp.memberCount := by
    refine Nat.le_antisymm (hb.tallied.counted.le (hs.counted hnodup hgrp) ?_) hfull
    intro a ha
    by_contra hout
    exact honly grp.currentCycle a ⟨(filedAmount_eq_none hb).not.mp ha, hout⟩
  have htotal : cycTotalAt s g grp.currentCycle
      = grp.contributionAmount * cycCountAt s g grp.currentCycle := by
    refine hb.tallied.const ?_
    intro a y hy
    obtain ⟨record, hrecord, rfl⟩ := Option.map_eq_some_iff.mp hy
    exact hprice grp hgrp grp.currentCycle a record (Nat.le_refl _) hrecord
  rw [hcount] at htotal
  refine ⟨htotal, ?_⟩
  -- the pool read back: today's amount times the members, and the counter
  intro env pool hpool
  have hid := hs.registry.own g grp hgrp
  have hread := (getPoolInfoForGroup_bind_ok (f := pure)).mp
    (bind_ok.mpr ⟨pool, s, hpool, pure_ok.mpr ⟨rfl, rfl⟩⟩)
  obtain ⟨-, -, hread⟩ := hread
  obtain ⟨rfl, -⟩ := pure_ok.mp hread
  simp [validatePoolReadyForPayout, hid, hcount, htotal]

end Step

/-- Along a run. -/
theorem priced_run {s : State} {g : Nat} {roster : MemberMap} {steps : List Step}
    (hs : Underway s g roster) (hprice : Priced s g)
    (hrun : Along apply (fun x t => PaymentOrVote x ∧ BetweenCycles g x t) steps s) :
    Underway (run steps s) g roster ∧ Priced (run steps s) g := by
  refine exec_invariant (I := fun t => Underway t g roster ∧ Priced t g) ?_ ⟨hs, hprice⟩ hrun
  refine apply_invariant ?_ ?_ ?_
  · intro env c s t hx hs h
    exact ⟨hs.1.step h, priced_step hs.1 hs.2 hx.1 hx.2 h⟩
  · intro s hs
    exact ⟨hs.1.run [.expire], hs.2⟩
  · intro s l hs
    exact ⟨hs.1.run [.external l], hs.2⟩

/-- **NEVER IN THE MIDDLE**: along every run of contributions, votes and payouts
    of a started group in which no vote carries while somebody has contributed
    to the current or a later cycle, a full cycle stays payable. -/
theorem full_cycle_payable (s : State) (g : Nat) (hs : Started s g) (hprice : Priced s g)
    (steps : List Step)
    (hrun : Along apply (fun x t => PaymentOrVote x ∧ BetweenCycles g x t) steps s) :
    Payable (run steps s) g (rosterAt (run steps s) g) := by
  obtain ⟨hunder, hpriced⟩ := priced_run hs.underway hprice hrun
  rw [rosterAt_eq hunder.listed]
  refine payable_of_priced hunder hs.seated.seated.nodup ?_ hpriced
  intro cycle a hout
  obtain ⟨hrec, hout⟩ := ((hs.underway.run_departed steps).2 cycle a).mp hout
  exact hout (hs.filers cycle a hrec)

/-! The pair, with dynamic contributions. -/

/-- The creator allows them, then starts the group. -/
def dynamicDuo : State := commit (Call.setDynamicContributions 1 true).body trioEnv fundedDuo
def votingDuo : State := commit (Call.activateGroup 1 ⟨1⟩).body trioEnv dynamicDuo

theorem votingDuo_started : Started votingDuo 1 := by
  have hallow : SaveAdmin.setDynamicContributions 1 true trioEnv fundedDuo = .ok () dynamicDuo := rfl
  have hstart : SaveLifecycle.activateGroup 1 ⟨1⟩ trioEnv dynamicDuo = .ok () votingDuo := rfl
  refine activated_started ?_ ?_ ?_ ⟨_, rfl⟩ (fun _ _ => rfl) hstart
  · exact registry_step (c := .setDynamicContributions 1 true) fundedDuo_registry hallow
  · exact (inOrder_step (c := .setDynamicContributions 1 true) fundedDuo_inOrder hallow).1
  · refine fundedDuo_wellFormed.congr rfl fun k hg hk => ?_
    exact (Within.agree_ok (w := Call.footprint (.setDynamicContributions 1 true))
      hallow).persistent k (Place.not_covered (Place.spares_of_kinds rfl) k hg hk)

theorem votingDuo_priced : Priced votingDuo 1 := by
  intro grp _ c a record _ hrec
  cases hrec

/-- The first member pays the old amount, then both vote for twice as much. -/
def midCycleVote : List Step :=
  [.call trioEnv (.proposeContributionChange 1 200),
    .call trioEnv (.contributeWithProof 1 ⟨1⟩ 100),
    .call trioEnv (.voteContributionChange 1 ⟨1⟩), .call trioEnv (.voteContributionChange 1 ⟨2⟩),
    .call trioEnv (.contributeWithProof 1 ⟨2⟩ 200)]

def stuckDuo : State := run midCycleVote votingDuo

theorem stuckDuo_members : (rosterAt stuckDuo 1).members = [⟨1⟩, ⟨2⟩] := rfl

theorem stuckDuo_paid :
    (stuckDuo.persistent (.contrib 1 0 ⟨1⟩)).isSome ∧
      (stuckDuo.persistent (.contrib 1 0 ⟨2⟩)).isSome ∧ cycTotalAt stuckDuo 1 0 = 300 :=
  ⟨rfl, rfl, rfl⟩

theorem stuckDuo_group : ∃ grp, groupAt stuckDuo 1 = some grp ∧ grp.currentCycle = 0 ∧
    grp.contributionAmount * grp.memberCount = 400 :=
  ⟨_, rfl, rfl, rfl⟩

/-- **STUCK**: both have contributed, the total is `300`, the pool check asks
    for `400`. -/
theorem mid_cycle_vote_sticks :
    Started votingDuo 1 ∧ Priced votingDuo 1 ∧
      ¬ Payable (run midCycleVote votingDuo) 1 (rosterAt (run midCycleVote votingDuo) 1) := by
  refine ⟨votingDuo_started, votingDuo_priced, ?_⟩
  show ¬ Payable stuckDuo 1 (rosterAt stuckDuo 1)
  intro h
  obtain ⟨hfirst, hsecond, hpaid⟩ := stuckDuo_paid
  obtain ⟨grp, hgrp, hcycle, hneeded⟩ := stuckDuo_group
  have hall : ∀ a ∈ (rosterAt stuckDuo 1).members,
      stuckDuo.persistent (.contrib 1 grp.currentCycle a) ≠ none := by
    intro a ha
    rw [stuckDuo_members, List.mem_pair] at ha
    rw [hcycle]
    rcases ha with rfl | rfl
    · exact Option.isSome_iff_ne_none.mp hfirst
    · exact Option.isSome_iff_ne_none.mp hsecond
  have htotal := (h grp hgrp hall).1
  rw [hcycle, hpaid, hneeded] at htotal
  omega

/-- The vote carries before anybody has contributed, then both pay the new amount. -/
def voteFirst : List Step :=
  [.call trioEnv (.proposeContributionChange 1 200),
    .call trioEnv (.voteContributionChange 1 ⟨1⟩), .call trioEnv (.voteContributionChange 1 ⟨2⟩),
    .call trioEnv (.contributeWithProof 1 ⟨1⟩ 200), .call trioEnv (.contributeWithProof 1 ⟨2⟩ 200)]

/-- The theorem there: the cycle is full, and its total is twice the new amount. -/
theorem full_cycle_payable_instance :
    Started votingDuo 1 ∧ (rosterAt (run voteFirst votingDuo) 1).members = [⟨1⟩, ⟨2⟩] ∧
      (∀ a ∈ (rosterAt (run voteFirst votingDuo) 1).members,
        (run voteFirst votingDuo).persistent (.contrib 1 0 a) ≠ none) ∧
      cycTotalAt (run voteFirst votingDuo) 1 0 = 400 ∧
      Payable (run voteFirst votingDuo) 1 (rosterAt (run voteFirst votingDuo) 1) := by
  have hmembers : (rosterAt (run voteFirst votingDuo) 1).members = [⟨1⟩, ⟨2⟩] := rfl
  refine ⟨votingDuo_started, hmembers, ?_, rfl,
    full_cycle_payable votingDuo 1 votingDuo_started votingDuo_priced voteFirst
      ⟨⟨trivial, trivial⟩, ⟨trivial, ?_⟩, ⟨trivial, ?_⟩, ⟨trivial, trivial⟩, ⟨trivial, trivial⟩, trivial⟩⟩
  · have hfirst : ((run voteFirst votingDuo).persistent (.contrib 1 0 ⟨1⟩)).isSome := rfl
    have hsecond : ((run voteFirst votingDuo).persistent (.contrib 1 0 ⟨2⟩)).isSome := rfl
    intro a ha
    rw [hmembers, List.mem_pair] at ha
    rcases ha with rfl | rfl
    · exact Option.isSome_iff_ne_none.mp hfirst
    · exact Option.isSome_iff_ne_none.mp hsecond
  · intro _ _ grp amount _ _ _ _ c a _
    rfl
  · intro _ _ grp amount _ _ _ _ c a _
    rfl

end SaveAmount
