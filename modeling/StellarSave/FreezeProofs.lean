import StellarSave.StandingProofs
import StellarSave.FilingProofs
import StellarSave.RefundGateProofs

/-! # Paused and disputed groups — what still moves

    Pausing sets one flag, a dispute two, and both set the status of the
    record to `Paused`.  Every entry point tests for itself.  `execute_payout`
    tests all three; the contributions and `try_advance_cycle` test the status;
    the three ways back out of escrow accept a paused group ON PURPOSE.

    So a halted group takes no payout, its cycle and its books stand still as
    long as the status says so too, and the only tokens that move go from the
    contract to members.  About `tick`, which tests none of the three, nothing
    is said. -/

namespace SaveFreeze

open HostProg Footprint TokenLedger SaveData SaveContribution SavePayout SaveRefund SaveMembership
open SaveLifecycle SaveAdmin SaveCall SaveBacking SaveFiling SaveRefundGate SaveStatus
open SaveStanding

/-- Paused by its creator, or by a dispute. -/
def Halted (grp : SaveData.Group) : Prop := grp.paused = true ∨ grp.disputeActive = true

/-- The calls on `g` that look at neither flag: `tick` at all, the others once
    the status is `Active`. -/
def LooksElsewhere (g : Nat) (grp : SaveData.Group) : Call → Prop
  | .tick g' => g' = g
  | .tryAdvanceCycle g' | .contribute g' _ _ | .contributeBatch g' _ _
  | .executeAutoContributions g' | .contributeWithProof g' _ _ => g' = g ∧ grp.status = .active
  | _ => False

/-- The calls that pay out of the escrow of `g` without a payout: three give
    money back, one pays the reward of a complete group. -/
def PaysBack (g : Nat) : Call → Prop
  | .requestRefund g' _ _ | .emergencyWithdraw g' _ | .voteDissolve g' _
  | .claimCompletionReward _ g' => g' = g
  | _ => False

/-- The calls that move tokens, but not of `g`. -/
def MovesElsewhere (g : Nat) : Call → Prop
  | .createGroup _ _ _ _ _ _ _ => True
  | .executePayout g' | .tick g' | .requestRefund g' _ _ | .emergencyWithdraw g' _
  | .voteDissolve g' _ | .claimCompletionReward _ g' | .contribute g' _ _
  | .contributeBatch g' _ _ | .executeAutoContributions g' => g' ≠ g
  | _ => False

/-- Nobody but the contract lost anything. -/
def OnlyEscrowPays (s t : State) : Prop :=
  ∀ tok a, a ≠ contractAddress → Book.holding s.ledger tok a ≤ Book.holding t.ledger tok a

/-! ## Who is turned away -/

section Refused

variable {env : Env} {s t : State} {g : Nat} {grp : SaveData.Group} {c : Call}

/-- **NO PAYOUT** from a halted group. -/
theorem executePayout_refused (hgrp : groupAt s g = some grp) (hhalt : Halted grp) :
    ¬ Succeeds (executePayout g) env s := by
  rintro ⟨x, t, h⟩
  obtain ⟨grp', recipient, amount, v, config, l, hp, -⟩ := executePayout_ok.mp h
  obtain rfl := Option.some.inj (hgrp.symm.trans hp.group)
  obtain ⟨hpaused, -, hdispute⟩ := hp.valid.running
  rcases hhalt with hhalt | hhalt
  · rw [show grp.paused = false from hpaused] at hhalt
    cases hhalt
  · rw [show grp.disputeActive = false from hdispute] at hhalt
    cases hhalt

/-- No contribution while the status is not `Active`. -/
theorem contribution_refused (hgrp : groupAt s g = some grp) (hc : contributesTo c = some g)
    (hstatus : grp.status ≠ .active) : ¬ Succeeds c.body env s := by
  rintro ⟨⟨⟩, t, h⟩
  obtain ⟨grp', hgrp', hactive, -⟩ := contribution_filed hc h
  obtain rfl := Option.some.inj (hgrp.symm.trans hgrp')
  exact hstatus hactive

/-- A group that is not active does not advance. -/
theorem tryAdvanceCycle_refused (hgrp : groupAt s g = some grp) (hstatus : grp.status ≠ .active) :
    ¬ Succeeds (tryAdvanceCycle g) env s := by
  rintro ⟨b, t, h⟩
  obtain ⟨grp', hgrp', hactive, -⟩ := tryAdvanceCycle_ok h
  obtain rfl := Option.some.inj (hgrp.symm.trans hgrp')
  exact hstatus hactive

/-- The calls that are turned away at a halted group. -/
def TurnedAway (g : Nat) : Call → Prop
  | .executePayout g' | .tryAdvanceCycle g' | .contribute g' _ _ | .contributeBatch g' _ _
  | .executeAutoContributions g' | .contributeWithProof g' _ _ => g' = g
  | _ => False

/-- A halted group turns the listed calls away. -/
theorem refused (hgrp : groupAt s g = some grp) (hhalt : Halted grp)
    (hc : TurnedAway g c) (hlook : ¬ LooksElsewhere g grp c) : ¬ Succeeds c.body env s := by
  cases c with
  | executePayout g' =>
      obtain rfl : g' = g := hc
      exact executePayout_refused hgrp hhalt
  | tryAdvanceCycle g' =>
      obtain rfl : g' = g := hc
      rintro ⟨⟨⟩, t, h⟩
      obtain ⟨b, hb⟩ := quietly_ok.mp h
      exact tryAdvanceCycle_refused hgrp (fun he => hlook ⟨rfl, he⟩) ⟨b, t, hb⟩
  | contribute g' m n | contributeBatch g' m cycles | executeAutoContributions g'
  | contributeWithProof g' m n =>
      obtain rfl : g' = g := hc
      exact contribution_refused hgrp rfl fun he => hlook ⟨rfl, he⟩
  | _ => exact hc.elim

end Refused

/-! ## What money moves -/

section Tokens

variable {env : Env} {s t : State} {g : Nat} {u : Unit} {member : Address}

/-- Nothing paid. -/
theorem OnlyEscrowPays.refl (s : State) : OnlyEscrowPays s s := fun _ _ _ => Int.le_refl _

/-- Payments of the contract's own money, one after the other. -/
theorem OnlyEscrowPays.trans {v : State} (h : OnlyEscrowPays s v) (h' : OnlyEscrowPays v t) :
    OnlyEscrowPays s t := fun tok a ha => (h tok a ha).trans (h' tok a ha)

/-- A transfer out of escrow. -/
theorem onlyEscrowPays_of_transfer {l : Ledger} {tok dst : Address} {n : Int}
    (h : Book.transfer s.ledger tok contractAddress dst n = some l) (ht : t.ledger = l) :
    OnlyEscrowPays s t := by
  intro tok' a ha
  obtain ⟨-, -, hn, -⟩ := Book.transfer_isSome_iff.mp (Option.isSome_of_eq_some h)
  rw [ht, Book.holding_transfer h]
  by_cases htok : tok' = tok
  · rw [if_pos htok, htok]
    simp only [moved, if_neg ha]
    by_cases hdst : a = dst
    · rw [if_pos hdst]
      omega
    · rw [if_neg hdst]
      omega
  · rw [if_neg htok]

/-- A refund is paid by the contract. -/
theorem requestRefund_pays {cycle : Nat} {out : RefundRecord}
    (h : requestRefund g cycle member env s = .ok out t) : OnlyEscrowPays s t := by
  obtain ⟨-, grp, record, config, l, -, hl, -, rfl⟩ := requestRefund_ok.mp h
  exact onlyEscrowPays_of_transfer hl rfl

/-- So is a withdrawal. -/
theorem emergencyWithdraw_pays (h : emergencyWithdraw g member env s = .ok u t) :
    OnlyEscrowPays s t := by
  obtain ⟨grp, total, received, -, ⟨-, -, config, l, -, hl, rfl⟩ | ⟨-, rfl⟩⟩ :=
    emergencyWithdraw_ok h
  · exact onlyEscrowPays_of_transfer hl rfl
  · exact OnlyEscrowPays.refl s

/-- So is a dissolution. -/
theorem voteDissolve_pays (h : voteDissolve g member env s = .ok u t) : OnlyEscrowPays s t := by
  obtain ⟨grp, -, -, ⟨-, config, -, hloop⟩ | ⟨-, rfl⟩⟩ := voteDissolve_ok h
  · have hstart : OnlyEscrowPays s (dissolved (voted s g member (dissolveVotes s g)) g grp) :=
      OnlyEscrowPays.refl s
    refine forEach_invariant (I := OnlyEscrowPays s) ?_ hstart hloop
    intro a _ v w hv hstep
    rcases refundOnDissolution_ok hstep with rfl | ⟨record, l, -, -, hl, rfl⟩
    · exact hv
    · exact hv.trans (onlyEscrowPays_of_transfer hl rfl)
  · exact OnlyEscrowPays.refl s

/-- So is a reward. -/
theorem claimCompletionReward_pays (h : claimCompletionReward member g env s = .ok u t) :
    OnlyEscrowPays s t := by
  simp only [claimCompletionReward, requireAuth_bind_ok, getOr_bind_ok, failIf_bind_ok,
    has_bind_ok] at h
  obtain ⟨-, grp, -, -, -, -, h⟩ := h
  obtain ⟨⟨⟩, v, hcheck, h₁⟩ := bind_ok.mp h
  -- looking for a contribution to every cycle only reads
  obtain rfl := Within.eq_of_ok hcheck
  simp at h₁
  obtain ⟨-, -, ⟨-, rfl⟩ | ⟨config, -, l, hl, rfl⟩⟩ := h₁
  · exact OnlyEscrowPays.refl v
  · exact onlyEscrowPays_of_transfer hl rfl

/-- All the calls that pay back, together. -/
theorem paysBack_pays {c : Call} (h : c.body env s = .ok () t) (hc : PaysBack g c) :
    OnlyEscrowPays s t := by
  cases c with
  | requestRefund g' cycle a =>
      obtain ⟨out, hout⟩ := quietly_ok.mp h
      exact requestRefund_pays hout
  | emergencyWithdraw g' a => exact emergencyWithdraw_pays h
  | voteDissolve g' a => exact voteDissolve_pays h
  | claimCompletionReward a g' => exact claimCompletionReward_pays h
  | _ => exact hc.elim

end Tokens

/-! ## The freeze -/

/-- The group is in the same cycle with the same books and the same payouts. -/
structure Frozen (s t : State) (g : Nat) : Prop where
  cycle : SameCycleAt s t g
  contributions : ∀ c a, t.persistent (.contrib g c a) = s.persistent (.contrib g c a)
  payouts : ∀ c, t.persistent (.payout g c) = s.persistent (.payout g c) ∧
    t.persistent (.payRecip g c) = s.persistent (.payRecip g c)

section Freeze

variable {env : Env} {s t : State} {g : Nat} {grp : SaveData.Group} {c : Call}

/-- Nothing moved. -/
theorem Frozen.refl (s : State) (g : Nat) : Frozen s s g :=
  ⟨rfl, fun _ _ => rfl, fun _ => ⟨rfl, rfl⟩⟩

/-- The entries a freeze is about. -/
def frozenKinds : List Kind := [.contrib, .payout, .payRecip]

/-- A call that ends well and is not turned away. -/
theorem frozen_step (hreg : Registry s) (hgrp : groupAt s g = some grp)
    (hc : ¬ TurnedAway g c) (hlook : ¬ LooksElsewhere g grp c) (hkeep : c ≠ .deleteGroup g)
    (h : c.body env s = .ok () t) : Frozen s t g := by
  have hissued : g ≤ lastId s := by
    by_contra hlt
    rw [(hreg.below g (Nat.lt_of_not_le hlt)).1] at hgrp
    cases hgrp
  have hcycle : SameCycleAt s t g := by
    refine cycle_step hreg hissued h ?_
    -- the calls that end a cycle of `g` are the ones excluded
    intro hadv
    cases c with
    | executePayout g' | tryAdvanceCycle g' => exact hc hadv
    | tick g' => exact hlook hadv
    | deleteGroup g' => exact hkeep (congrArg Call.deleteGroup hadv)
    | _ => exact hadv
  -- the footprints do the rest: what may write these entries was turned away
  have hframe : ∀ k : Key, k.group = g → k.kind ∈ frozenKinds →
      t.persistent k = s.persistent k := by
    have hagree := Within.agree_ok (w := c.footprint) h
    intro k hk hkind
    refine hagree.persistent k ?_
    cases c with
    | executePayout g' | contribute g' m n | contributeBatch g' m cycles
    | executeAutoContributions g' | contributeWithProof g' m n =>
        have hg : g' ≠ g := hc
        exact Place.not_covered (by simp [Place.Spares, frozenKinds, hg]) k hk hkind
    | tick g' =>
        have hg : g' ≠ g := hlook
        exact Place.not_covered (by simp [Place.Spares, frozenKinds, hg]) k hk hkind
    | _ => exact Place.not_covered (Place.spares_of_kinds rfl) k hk hkind
  refine ⟨hcycle, fun c a => hframe _ rfl (by simp [frozenKinds]), fun c => ⟨?_, ?_⟩⟩
  · exact hframe _ rfl (by simp [frozenKinds])
  · exact hframe _ rfl (by simp [frozenKinds])

/-- No other call moves tokens of the group. -/
theorem tokens_step (hc : ¬ TurnedAway g c) (hlook : ¬ LooksElsewhere g grp c)
    (h : c.body env s = .ok () t) :
    MovesElsewhere g c ∨ t.ledger = s.ledger ∨ (PaysBack g c ∧ OnlyEscrowPays s t) := by
  have hagree := Within.agree_ok (w := c.footprint) h
  cases c with
  | createGroup creator amount duration maxMembers tok grace order => exact Or.inl trivial
  | executePayout g' | contribute g' m n | contributeBatch g' m cycles
  | executeAutoContributions g' => exact Or.inl hc
  | tick g' => exact Or.inl hlook
  | requestRefund g' cycle a | emergencyWithdraw g' a | voteDissolve g' a
  | claimCompletionReward a g' =>
      by_cases hg : g' = g
      · exact Or.inr (Or.inr ⟨hg, paysBack_pays h hg⟩)
      · exact Or.inl hg
  | _ => exact Or.inr (Or.inl (hagree.ledger not_false))

end Freeze

/-- **A HALTED GROUP STANDS STILL**: whatever is called, its cycle, its
    contributions and its payouts stay as they are, and of its tokens only what
    is paid back to members moves.  `tick` aside, and aside the calls that test
    the status when the status is still `Active`. -/
theorem halted_group_frozen (env : Env) (s : State) (g : Nat) (grp : SaveData.Group) (c : Call)
    (hreg : Registry s) (hgrp : groupAt s g = some grp) (hhalt : Halted grp)
    (hlook : ¬ LooksElsewhere g grp c) :
    (c = .deleteGroup g ∨ Frozen s (commit c.body env s) g) ∧
      (MovesElsewhere g c ∨ (commit c.body env s).ledger = s.ledger ∨
        (PaysBack g c ∧ OnlyEscrowPays s (commit c.body env s))) := by
  rcases commit_eq_or c env s with ⟨t, ht, he⟩ | ⟨-, he⟩
  · have hc : ¬ TurnedAway g c := fun hc => refused hgrp hhalt hc hlook ⟨(), t, ht⟩
    rw [he]
    refine ⟨?_, tokens_step hc hlook ht⟩
    by_cases hdel : c = .deleteGroup g
    · exact Or.inl hdel
    · exact Or.inr (frozen_step hreg hgrp hc hlook hdel ht)
  · rw [he]
    exact ⟨Or.inr (Frozen.refl s g), Or.inr (Or.inl rfl)⟩

/-! The funded pair, paused. -/

/-- The creator pauses the pair. -/
def pausedPair : State := commit (Call.pauseGroup 1 ⟨1⟩).body signedEnv (pairState 3 200)

/-- The group of the example can be paused. -/
theorem pair_pauses : pauseGroup 1 ⟨1⟩ signedEnv (pairState 3 200) = .ok () pausedPair := rfl

/-- And is registered as before. -/
theorem pausedPair_registry : Registry pausedPair :=
  registry_step (c := .pauseGroup 1 ⟨1⟩) (pairState_registry 3 200) pair_pauses

/-- **REFUNDS GO ON**: a member of the paused pair takes a contribution back. -/
theorem refund_from_paused_group :
    (∃ grp, groupAt pausedPair 1 = some grp ∧ grp.paused = true) ∧ Registry pausedPair ∧
      groupEscrow pausedPair 1 = 200 ∧
      groupEscrow (commit (Call.requestRefund 1 0 ⟨1⟩).body signedEnv pausedPair) 1 = 100 :=
  ⟨⟨_, rfl, rfl⟩, pausedPair_registry, rfl, rfl⟩

/-- The theorem at a contribution to the paused pair. -/
theorem halted_group_frozen_instance :
    Registry pausedPair ∧ (∃ grp, groupAt pausedPair 1 = some grp ∧ Halted grp) ∧
      (Call.contribute 1 ⟨1⟩ 100 = .deleteGroup 1 ∨
        Frozen pausedPair (commit (Call.contribute 1 ⟨1⟩ 100).body signedEnv pausedPair) 1) := by
  have hhalt : Halted { pairGroup 3 with paused := true, status := .paused } := Or.inl rfl
  refine ⟨pausedPair_registry, ⟨_, rfl, hhalt⟩, ?_⟩
  refine (halted_group_frozen signedEnv pausedPair 1 _ (.contribute 1 ⟨1⟩ 100) pausedPair_registry
    rfl hhalt ?_).1
  rintro ⟨-, hactive⟩
  cases hactive

end SaveFreeze
