import StellarSave.EscrowProofs
import StellarSave.CompletionProofs
import StellarSave.RecordProofs

/-! # Completion rewards — a pool that nobody feeds

    One percent of every contribution is to go into the group's reward pool, for
    the members who never miss a cycle to share at the end.  The pool is a field
    of the record, written as ZERO when the record is made and by no call after
    that, so the shares are zero too and every claim is turned away. -/

namespace SaveReward

open HostProg Footprint TokenLedger SaveData SaveContribution SavePayout SaveRefund SaveMembership
open SaveAdmin SaveCall SaveStatus SaveRecord SaveEscrow SaveBacking SaveRoster SaveRotation
open SaveFiling SaveCompletion Tally Trace

/-! ## The pool -/

/-- Every pool is empty. -/
def Unfed (s : State) : Prop := ∀ g grp, groupAt s g = some grp → grp.rewardPool = 0

section Pool

variable {env : Env} {s t : State} {c : Call} {g : Nat} {grp grp' : SaveData.Group}

/-- A new cycle leaves the pool. -/
theorem advanced_pool (grp : SaveData.Group) : grp.advanced.rewardPool = grp.rewardPool := by
  rw [Group.advanced]
  by_cases h : ({ grp with currentCycle := grp.currentCycle + 1 } : SaveData.Group).isComplete
  · rw [if_pos h]
  · rw [if_neg h]

/-- The table has no line that writes a pool. -/
theorem rewrites_pool (h : Rewrites g grp c grp') : grp'.rewardPool = grp.rewardPool := by
  cases h with
  | payout | tick | advance => exact advanced_pool grp
  | _ => rfl

/-- **NOBODY FEEDS A POOL**. -/
theorem unfed_step (hreg : Registry s) (hs : Unfed s) (h : c.body env s = .ok () t) : Unfed t := by
  intro g grp' hgrp'
  rcases record_rewritten hreg h g grp' hgrp' with ⟨grp, hgrp, rfl | hrewrites⟩ | ⟨-, hborn⟩
  · exact hs g grp' hgrp
  · exact (rewrites_pool hrewrites).trans (hs g grp hgrp)
  · obtain ⟨_, _, _, _, _, _, _, _, _, rfl⟩ := hborn
    rfl

/-- No step feeds it. -/
theorem unfed_apply (x : Step) (s : State) (hs : Registry s ∧ Unfed s) :
    Registry (apply x s) ∧ Unfed (apply x s) :=
  apply_invariant (C := fun _ _ => True) (I := fun t => Registry t ∧ Unfed t)
    (fun _ _ _ _ _ hs h => ⟨registry_step hs.1 h, unfed_step hs.1 hs.2 h⟩)
    (fun _ hs => ⟨⟨hs.1.own, hs.1.below⟩, hs.2⟩) (fun _ _ hs => ⟨⟨hs.1.own, hs.1.below⟩, hs.2⟩)
    x s trivial hs

/-- **NO CLAIM GOES THROUGH** on an empty pool. -/
theorem claim_refused (hs : Unfed s) (member : Address) :
    ¬ Succeeds (claimCompletionReward member g) env s := by
  rintro ⟨⟨⟩, t, h⟩
  simp only [claimCompletionReward, requireAuth_bind_ok, getOr_bind_ok, failIf_bind_ok,
    has_bind_ok] at h
  obtain ⟨-, grp, hgrp, -, -, -, h⟩ := h
  obtain ⟨⟨⟩, v, hcheck, h₁⟩ := bind_ok.mp h
  obtain ⟨hshare, -⟩ := failIf_bind_ok.mp h₁
  rw [hs g grp hgrp, Int.zero_tdiv] at hshare
  exact hshare le_rfl

end Pool

/-! ## Contributions are positive -/

/-- Every contribution on record is one. -/
def Positive (s : State) : Prop :=
  ∀ g c a record, contribAt s g c a = some record → 0 < record.amount

section Positive

variable {env : Env} {s t : State} {c : Call}

/-- The amounts are in the records. -/
theorem Positive.congr (hs : Positive s)
    (h : ∀ g c a, t.persistent (.contrib g c a) = s.persistent (.contrib g c a)) : Positive t := by
  intro g c a record hrecord
  exact hs g c a record ((readAt_congr (h g c a)).symm.trans hrecord)

/-- What is filed is positive. -/
theorem filed_positive {g : Nat} {amount : Int} {ok : Nat → Address → Prop} (hs : Positive s)
    (h : Filed g amount ok s t) : Positive t := by
  induction h with
  | idle hsame => exact hs.congr fun g c a => hsame _ (by simp [bookKinds])
  | one hfiled hok hfree hcan hsame ih =>
      refine Positive.congr ?_ fun g c a => hsame _ (by simp [bookKinds])
      intro g' c' a' record hrecord
      rw [contribAt_recorded] at hrecord
      split_ifs at hrecord with hkey
      · obtain rfl := Option.some.inj hrecord
        exact hcan.amount_pos
      · exact ih g' c' a' record hrecord

/-- So every call keeps the records positive. -/
theorem positive_step (horder : InOrder s) (hs : Positive s) (h : c.body env s = .ok () t) :
    Positive t := by
  cases hc : contributesTo c with
  | none =>
      have hsame := call_sameBooks horder.rosters hc h
      exact hs.congr fun g c a => hsame _ (by simp [bookKinds])
  | some g =>
      obtain ⟨grp, -, -, hfiled⟩ := contribution_filed hc h
      exact filed_positive hs hfiled

/-- And every run. -/
theorem positive_run (horder : InOrder s) (hs : Positive s) (steps : List Step) :
    Positive (run steps s) := by
  refine (exec_invariant_always (I := fun t => InOrder t ∧ Positive t) ?_ ⟨horder, hs⟩ steps).2
  intro x u hu
  exact apply_invariant (C := fun _ _ => True) (I := fun t => InOrder t ∧ Positive t)
    (fun _ _ _ _ _ hv h => ⟨(inOrder_step hv.1 h).1, positive_step hv.1 hv.2 h⟩)
    (fun _ h => ⟨h.1.congr rfl, h.2⟩) (fun _ _ h => ⟨h.1.congr rfl, h.2⟩) x u trivial hu

end Positive

/-! ## What leaves while nobody has paid -/

/-- The group whose members a call pays: a payout, a refund or a reward. -/
def returnsTo : Call → Option Nat
  | .executePayout g | .tick g | .requestRefund g _ _ | .emergencyWithdraw g _
  | .voteDissolve g _ | .claimCompletionReward _ g => some g
  | _ => none

/-- Nobody has contributed to the group. -/
def Bare (g : Nat) (s : State) : Prop := ∀ c a, s.persistent (.contrib g c a) = none

section Bare

variable {env : Env} {s t : State} {c : Call} {g : Nat} {member : Address}

/-- Records stay, so a group without any never had one. -/
theorem bare_of_run (hs : InOrder s) {steps : List Step} (h : Bare g (run steps s)) : Bare g s := by
  intro c a
  by_contra hne
  refine (exec_invariant_always (I := fun t => InOrder t ∧ t.persistent (.contrib g c a) ≠ none)
    ?_ ⟨hs, hne⟩ steps).2 (h c a)
  intro x u hu
  refine apply_invariant (C := fun _ _ => True)
    (I := fun t => InOrder t ∧ t.persistent (.contrib g c a) ≠ none) ?_
    (fun _ h => ⟨h.1.congr rfl, h.2⟩) (fun _ _ h => ⟨h.1.congr rfl, h.2⟩) x u trivial hu
  rintro env d v w - ⟨hv, hkept⟩ h
  obtain ⟨hw, hsame⟩ := inOrder_step hv h
  exact ⟨hw, by rwa [hsame g c a hkept]⟩

/-- A group that is bare in the end was so all along. -/
theorem bare_along (hs : InOrder s) {steps : List Step} (h : Bare g (run steps s)) :
    Along apply (fun _ u => Bare g u) steps s := by
  induction steps generalizing s with
  | nil => trivial
  | cons x xs ih => exact ⟨bare_of_run hs h, ih (inOrder_apply x s hs) h⟩

/-- A bare group has no record. -/
theorem bare_contribAt (h : Bare g s) (c : Nat) (a : Address) : contribAt s g c a = none := by
  rw [contribAt, readAt, h c a]
  rfl

/-- No records, no count. -/
theorem bare_count (hs : InOrder s) (h : Bare g s) (c : Nat) : cycCountAt s g c = 0 := by
  obtain ⟨P, hP, -, hcard⟩ := (hs.balanced g c).tallied
  have hempty : P = ∅ := by
    refine Finset.eq_empty_of_forall_notMem fun a ha => (hP a).mp ha ?_
    rw [filedAmount, bare_contribAt h]
    rfl
  rw [← hcard, hempty, Finset.card_empty]

/-- A payout needs a full count, and a seat to fill. -/
theorem bare_notPaid {v : State} (hreg : Registry s) (hs : InOrder s) (h : Bare g s)
    (hends : EndsIn (executePayout g) env s v) : v.ledger = s.ledger := by
  rcases executePayout_notes (hs.rosters g) hends with hnot | ⟨grp, recipient, amount, hpays⟩
  · exact hnot.ledger
  · have hfull := hpays.full
    rw [hreg.own g grp hpays.group, bare_count hs h] at hfull
    have hseat := hpays.seat.2
    omega

/-- So nobody has a total in it. -/
theorem bare_total {total : Int} (h : Bare g s)
    (ht : getMemberTotalContributions g member env s = .ok total t) : total = 0 := by
  obtain ⟨grp, -, hloop⟩ := getOr_bind_ok.mp ht
  refine (foldEach_invariant (I := fun (n : Int) v => n = 0 ∧ v = s) ?_ ⟨rfl, rfl⟩ hloop).1
  rintro cycle - n v n' v' ⟨rfl, rfl⟩ hstep
  obtain ⟨-, hrecord⟩ := getOpt_bind_ok.mp hstep
  rw [show readAt ContributionRecord v.persistent (.contrib g cycle member) = none from
    bare_contribAt h cycle member] at hrecord
  obtain ⟨rfl, rfl⟩ := pure_ok.mp hrecord
  exact ⟨rfl, rfl⟩

/-- **NOTHING IN, NOTHING OUT**: what pays members back pays nothing to a group
    that nobody has paid into. -/
theorem bare_ledger (hreg : Registry s) (hs : InOrder s) (hpools : Unfed s) (hbare : Bare g s)
    (hc : returnsTo c = some g)
    (h : c.body env s = .ok () t) : t.ledger = s.ledger := by
  -- each way out needs a record, or a pool, and there is none
  cases c with
  | executePayout g' =>
      obtain rfl := Option.some.inj hc
      exact bare_notPaid hreg hs hbare (Or.inl ⟨(), h⟩)
  | tick g' =>
      obtain rfl := Option.some.inj hc
      obtain ⟨grp, v, -, -, -, hpay, rfl⟩ := tick_ok h
      show v.ledger = s.ledger
      rcases hpay with ⟨-, rfl⟩ | ⟨-, hends⟩
      · rfl
      · exact bare_notPaid hreg hs hbare hends
  | requestRefund g' cycle m =>
      obtain rfl := Option.some.inj hc
      obtain ⟨out, hout⟩ := quietly_ok.mp h
      obtain ⟨record, -, hrecord, -⟩ := requestRefund_change hout
      rw [bare_contribAt hbare] at hrecord
      cases hrecord
  | emergencyWithdraw g' m =>
      obtain rfl := Option.some.inj hc
      obtain ⟨grp, total, received, hopen, ⟨-, hpos, -⟩ | ⟨-, rfl⟩⟩ := emergencyWithdraw_ok h
      · rw [bare_total hbare hopen.total] at hpos
        exact absurd hpos (lt_irrefl 0)
      · rfl
  | voteDissolve g' m =>
      obtain rfl := Option.some.inj hc
      obtain ⟨grp, -, -, ⟨-, config, -, hloop⟩ | ⟨-, rfl⟩⟩ := voteDissolve_ok h
      · -- the sweep finds no record to refund
        have hbase : Bare g' (dissolved (voted s g' m (dissolveVotes s g')) g' grp) := by
          intro cycle a
          simpa [dissolved, voted] using hbare cycle a
        refine (forEach_invariant (I := fun v => Bare g' v ∧ v.ledger = s.ledger) ?_ ⟨hbase, rfl⟩
          hloop).2
        rintro a - v w ⟨hv, hledger⟩ hstep
        rcases refundOnDissolution_ok hstep with rfl | ⟨record, l, hrecord, -⟩
        · exact ⟨hv, hledger⟩
        · rw [bare_contribAt hv] at hrecord
          cases hrecord
      · rfl
  | claimCompletionReward m g' => exact absurd ⟨(), t, h⟩ (claim_refused hpools m)
  | _ => cases hc

end Bare

/-! ## The promise -/

/-- What the group's payouts, refunds and reward claims send out in a step. -/
def paidBack (g : Nat) (x : Step) (s : State) : Int :=
  match x with
  | .call _ c => if returnsTo c = some g then outflow g x s else 0
  | _ => 0

/-- What its reward claims send out. -/
def claimed (g : Nat) (x : Step) (s : State) : Int :=
  match x with
  | .call _ (.claimCompletionReward _ g') => if g' = g then outflow g x s else 0
  | _ => 0

/-- The contributions of the group, one by one. -/
def Contributions (s : State) (g : Nat) (P : Finset (Nat × Address)) : Prop :=
  ∀ p : Nat × Address, p ∈ P ↔ contribAt s g p.1 p.2 ≠ none

/-- A member of the complete group who contributed in every one of its cycles. -/
structure Eligible (s : State) (g : Nat) (member : Address) : Prop where
  complete : ∃ grp, groupAt s g = some grp ∧ grp.isComplete = true ∧ 0 < grp.maxMembers ∧
    ∀ c < grp.maxMembers, s.persistent (.contrib g c member) ≠ none
  member : s.persistent (.mbrProf g member) ≠ none

/-- Along the run of `steps` from `s` the rewards of the group do what they are
    documented to do. -/
structure RewardsWork (g : Nat) (s : State) (steps : List Step) : Prop where
  pool : ∀ grp, groupAt (run steps s) g = some grp → ∃ P, Contributions (run steps s) g P ∧
    grp.rewardPool = ∑ p ∈ P, paidIn (run steps s) g p.1 p.2 / 100
  claim : ∀ (env : Env) (member : Address), member ∈ env.signers →
    Eligible (run steps s) g member → (run steps s).persistent (.mbrRwdC g member) = none →
    Succeeds (claimCompletionReward member g) env (run steps s)
  once : ∀ (env : Env) (member : Address), (run steps s).persistent (.mbrRwdC g member) ≠ none →
    ¬ Succeeds (claimCompletionReward member g) env (run steps s)
  claims : ∀ grp, groupAt (run steps s) g = some grp →
    total apply (claimed g) steps s ≤ grp.rewardPool
  covered : ∃ P, Contributions (run steps s) g P ∧
    total apply (paidBack g) steps s ≤ ∑ p ∈ P, paidIn (run steps s) g p.1 p.2

section Promise

variable {s : State} {g : Nat} {steps : List Step}

/-- A step of a bare group sends nothing out. -/
theorem bare_outflow (hreg : Registry s) (hs : InOrder s) (hpools : Unfed s) (hbare : Bare g s)
    (env : Env) {c : Call} (hc : returnsTo c = some g) : outflow g (.call env c) s = 0 := by
  rcases commit_eq_or c env s with ⟨t, ht, he⟩ | ⟨-, he⟩
  · have htoken : t.persistent (.grpTok g) = s.persistent (.grpTok g) := by
      refine (Within.agree_ok (w := c.footprint) ht).persistent _ ?_
      cases c with
      | executePayout g' | tick g' | requestRefund g' cycle m | emergencyWithdraw g' m
      | voteDissolve g' m | claimCompletionReward m g' => simp
      | _ => cases hc
    rw [outflow, apply, he, groupEscrow_congr (readAt_congr htoken)
      (bare_ledger hreg hs hpools hbare hc ht), Int.sub_self]
  · rw [outflow, apply, he, Int.sub_self]

/-- **A BARE RUN IS FREE**. -/
theorem bare_run (hreg : Registry s) (hs : InOrder s) (hpools : Unfed s)
    (h : Bare g (run steps s)) :
    total apply (paidBack g) steps s = 0 ∧ total apply (claimed g) steps s = 0 := by
  -- what holds of the storage along the run
  have hinv : ∀ x u, Registry u ∧ InOrder u ∧ Unfed u →
      Registry (apply x u) ∧ InOrder (apply x u) ∧ Unfed (apply x u) := by
    rintro x u ⟨h₁, h₂, h₃⟩
    have hnext := unfed_apply x u ⟨h₁, h₃⟩
    exact ⟨hnext.1, inOrder_apply x u h₂, hnext.2⟩
  -- one step pays nothing back and rewards nobody
  have hstep : ∀ x u, Registry u ∧ InOrder u ∧ Unfed u → Bare g u →
      paidBack g x u = 0 ∧ claimed g x u = 0 := by
    rintro x u ⟨h₁, h₂, h₃⟩ hu
    cases x with
    | call env c =>
        constructor
        · by_cases hc : returnsTo c = some g
          · rw [paidBack, if_pos hc]
            exact bare_outflow h₁ h₂ h₃ hu env hc
          · rw [paidBack, if_neg hc]
        · cases c with
          | claimCompletionReward m g' =>
              by_cases hg : g' = g
              · rw [claimed, if_pos hg]
                exact bare_outflow h₁ h₂ h₃ hu env (congrArg some hg)
              · rw [claimed, if_neg hg]
          | _ => rfl
    | _ => exact ⟨rfl, rfl⟩
  -- a group that is bare in the end was bare all along
  have hrun := bare_along hs h
  have hpaid := total_invariant (C := fun _ u => Bare g u) (f := paidBack g)
    (I := fun u n => (Registry u ∧ InOrder u ∧ Unfed u) ∧ n = 0)
    (fun x u n hu hn => ⟨hinv x u hn.1, by rw [hn.2, (hstep x u hn.1 hu).1, Int.add_zero]⟩)
    ⟨⟨hreg, hs, hpools⟩, rfl⟩ hrun
  have hclaimed := total_invariant (C := fun _ u => Bare g u) (f := claimed g)
    (I := fun u n => (Registry u ∧ InOrder u ∧ Unfed u) ∧ n = 0)
    (fun x u n hu hn => ⟨hinv x u hn.1, by rw [hn.2, (hstep x u hn.1 hu).2, Int.add_zero]⟩)
    ⟨⟨hreg, hs, hpools⟩, rfl⟩ hrun
  exact ⟨(Int.zero_add _).symm.trans hpaid.2, (Int.zero_add _).symm.trans hclaimed.2⟩

/-- And its contributions are none. -/
theorem bare_contributions (h : Bare g s) : Contributions s g ∅ := by
  intro p
  exact iff_of_false (Finset.notMem_empty p) fun hp => hp (bare_contribAt h p.1 p.2)

/-- One percent of nothing but small contributions is nothing. -/
theorem small_of_pool {P : Finset (Nat × Address)} (hpos : Positive s) (hP : Contributions s g P)
    (hsum : 0 = ∑ p ∈ P, paidIn s g p.1 p.2 / 100) {c : Nat} {a : Address}
    {record : ContributionRecord} (hrecord : contribAt s g c a = some record) :
    record.amount < 100 := by
  have hmem : (c, a) ∈ P := (hP (c, a)).mpr (by rw [hrecord]; exact Option.some_ne_none _)
  have hterm : ∀ p ∈ P, 0 ≤ paidIn s g p.1 p.2 / 100 := by
    intro p hp
    obtain ⟨r, hr⟩ := Option.ne_none_iff_exists'.mp ((hP p).mp hp)
    rw [paidIn_of_record hr]
    have := hpos g p.1 p.2 r hr
    omega
  have hzero := (Finset.sum_eq_zero_iff_of_nonneg hterm).mp hsum.symm (c, a) hmem
  rw [paidIn_of_record hrecord] at hzero
  omega

end Promise

/-- **REWARDS WORK WHILE NOBODY HAS PAID**: take any run from a state with empty
    pools and books in order, as after deployment.  If the group has no
    contribution at the end, its rewards have worked all along.  If they have
    worked, every contribution is below a hundred, whose hundredth is nothing, and
    nobody is left who contributed in every cycle of the complete group and has
    not claimed. -/
theorem rewards_work (s : State) (hreg : Registry s) (hs : InOrder s) (hpos : Positive s)
    (hpools : Unfed s) (g : Nat) (steps : List Step) :
    (Bare g (run steps s) → RewardsWork g s steps) ∧
      (RewardsWork g s steps →
        (∀ grp, groupAt (run steps s) g = some grp → ∀ c a record,
          contribAt (run steps s) g c a = some record → record.amount < 100) ∧
        ∀ (env : Env) (member : Address), member ∈ env.signers →
          (run steps s).persistent (.mbrRwdC g member) = none →
          ¬ Eligible (run steps s) g member) := by
  have hend : Unfed (run steps s) :=
    (exec_invariant_always (I := fun t => Registry t ∧ Unfed t) unfed_apply ⟨hreg, hpools⟩ steps).2
  constructor
  -- without a record there is nothing to reward
  · intro hbare
    obtain ⟨hpaid, hclaimed⟩ := bare_run hreg hs hpools hbare
    constructor
    case pool =>
      intro grp hgrp
      exact ⟨∅, bare_contributions hbare, hend g grp hgrp⟩
    case claim =>
      rintro env member - ⟨⟨grp, -, -, hcycles, hall⟩, -⟩ -
      exact absurd (hbare 0 member) (hall 0 hcycles)
    case once => exact fun env member _ => claim_refused hend member
    case claims =>
      intro grp hgrp
      rw [hclaimed, hend g grp hgrp]
    case covered =>
      refine ⟨∅, bare_contributions hbare, ?_⟩
      rw [hpaid, Finset.sum_empty]
  -- a record is positive, and would have to feed a pool
  · intro hwork
    constructor
    · intro grp hgrp c a record hrecord
      obtain ⟨P, hP, hsum⟩ := hwork.pool grp hgrp
      rw [hend g grp hgrp] at hsum
      exact small_of_pool (positive_run hs hpos steps) hP hsum hrecord
    · intro env member hsigned hfree heligible
      exact claim_refused hend member (hwork.claim env member hsigned heligible hfree)

/-! A pair that pays. -/

/-- Two members join, the group starts, the members come into money. -/
def readyToPay : List Step :=
  [.call trioEnv (.joinGroup 1 ⟨1⟩ none), .call trioEnv (.joinGroup 1 ⟨2⟩ none),
    .call trioEnv (.activateGroup 1 ⟨1⟩),
    .external fun tok => if tok = ⟨9⟩ then some richToken else none]

/-- The first of them contributes. -/
def firstPays : List Step := readyToPay ++ [.call trioEnv (.contribute 1 ⟨1⟩ 100)]

/-- No pool of the example is fed. -/
theorem fundedOpen_unfed : Unfed fundedOpen := by
  intro g grp hgrp
  obtain ⟨rfl, rfl⟩ := fundedOpen_group hgrp
  rfl

/-- And no record of it is without money. -/
theorem fundedOpen_positive : Positive fundedOpen := by
  intro g c a record hrecord
  have hnone : contribAt fundedOpen g c a = none := rfl
  rw [hnone] at hrecord
  cases hrecord

/-- **ONE PERCENT OF A HUNDRED IS NOT ZERO**: a contribution of `100` goes through
    and the pool stays empty. -/
theorem contribution_feeds_nothing :
    (∃ record, contribAt (run firstPays fundedOpen) 1 0 ⟨1⟩ = some record ∧ record.amount = 100) ∧
      (∃ grp, groupAt (run firstPays fundedOpen) 1 = some grp ∧ grp.rewardPool = 0) ∧
      ¬ RewardsWork 1 fundedOpen firstPays := by
  have hrecord : contribAt (run firstPays fundedOpen) 1 0 ⟨1⟩
      = some ⟨⟨1⟩, 1, 0, 100, 10⟩ := rfl
  have hgrp : ∃ grp, groupAt (run firstPays fundedOpen) 1 = some grp ∧ grp.rewardPool = 0 :=
    ⟨_, rfl, rfl⟩
  refine ⟨⟨_, hrecord, rfl⟩, hgrp, fun hwork => ?_⟩
  obtain ⟨grp, hgrp, hpool⟩ := hgrp
  obtain ⟨P, hP, hsum⟩ := hwork.pool grp hgrp
  rw [hpool] at hsum
  have hsmall := small_of_pool (positive_run fundedOpen_inOrder fundedOpen_positive firstPays) hP hsum
    hrecord
  exact absurd hsmall (lt_irrefl 100)

/-- The theorem while the two have only joined. -/
theorem rewards_work_instance :
    Bare 1 (run readyToPay fundedOpen) ∧ RewardsWork 1 fundedOpen readyToPay := by
  have hbare : Bare 1 (run readyToPay fundedOpen) := fun _ _ => rfl
  exact ⟨hbare, (rewards_work fundedOpen fundedOpen_registry fundedOpen_inOrder fundedOpen_positive
    fundedOpen_unfed 1 readyToPay).1 hbare⟩

end SaveReward
