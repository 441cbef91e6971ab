import StellarSave.TraceProofs
import StellarSave.ContributionProofs
import StellarSave.PayoutProofs
import StellarSave.RefundProofs
import StellarSave.LifecycleProofs
import StellarSave.AdminProofs

/-! # The contract as a system — calls, steps, runs

    A `Call` is one top-level invocation with its arguments.  A run interleaves
    calls in any order, by anyone, at any time, with two things the contract
    does not control: the host dropping temporary entries, and tokens moving
    on the ledger between other people.

    A call that errs or traps leaves the state as it found it (`commit`); a
    call that ends well touches only its footprint. -/

namespace SaveCall

open HostProg Footprint TokenLedger SaveData SaveContribution SavePayout SaveRefund
open SaveMembership SaveLifecycle SaveAdmin Trace

/-- Every mutating entry point, and the three cycle, clone and deadline
    operations that sit beside the exported ones. -/
inductive Call where
  | updateConfig (c : ContractConfig)
  | migrateStorage (caller : Address)
  | updateContributionLimits (admin : Address) (lo hi : Int)
  | createGroup (creator : Address) (amount : Int) (duration maxMembers : Nat)
      (tok : Address) (grace : Nat) (order : PayoutOrder)
  | cloneGroup (caller : Address) (g : Nat) (o : CloneOverrides)
  | updateGroup (g : Nat) (amount : Int) (duration maxMembers : Nat)
  | addAllowedToken (admin tok : Address)
  | removeAllowedToken (admin tok : Address)
  | updateGroupMetadata (g : Nat) (caller : Address) (name description imageUrl : String)
  | voteDissolve (g : Nat) (caller : Address)
  | proposeContributionChange (g : Nat) (amount : Int)
  | voteContributionChange (g : Nat) (member : Address)
  | assignPayoutPositions (g : Nat) (caller : Address) (mode : AssignmentMode)
  | randomizePayoutOrder (g seed : Nat)
  | executePayout (g : Nat)
  | tick (g : Nat)
  | bidForPayout (g : Nat) (bidder : Address) (amount : Int)
  | pauseGroup (g : Nat) (caller : Address)
  | resumeGroup (g : Nat) (caller : Address)
  | raiseDispute (g : Nat) (caller : Address) (reason : String)
  | resolveDispute (g : Nat) (caller : Address)
  | cancelGroup (g : Nat) (caller : Address)
  | setInvitationOnly (g : Nat) (enabled : Bool)
  | inviteMember (g : Nat) (invitee : Address)
  | revokeInvitation (g : Nat) (invitee : Address)
  | mergeGroups (g₁ g₂ : Nat)
  | deleteGroup (g : Nat)
  | archiveGroup (caller : Address) (g : Nat)
  | tryAdvanceCycle (g : Nat)
  | rateGroup (caller : Address) (g stars : Nat) (comment : String)
  | requestRefund (g cycle : Nat) (caller : Address)
  | emitContributionReminders (g cycle : Nat)
  | joinGroup (g : Nat) (member : Address) (referrer : Option Address)
  | removeMember (g : Nat) (member : Address)
  | emergencyWithdraw (g : Nat) (member : Address)
  | claimCompletionReward (member : Address) (g : Nat)
  | activateGroup (g : Nat) (creator : Address)
  | contribute (g : Nat) (member : Address) (amount : Int)
  | contributeBatch (g : Nat) (member : Address) (cycles : List Nat)
  | executeAutoContributions (g : Nat)
  | contributeWithProof (g : Nat) (member : Address) (amount : Int)
  | enableAutoContribute (g : Nat) (member : Address)
  | disableAutoContribute (g : Nat) (member : Address)
  | setContributionProofRequired (g : Nat) (required : Bool)
  | verifyContributionProof (g : Nat) (member : Address) (cycle : Nat) (proof : List Nat)
  | setDynamicContributions (g : Nat) (allowed : Bool)
  | applyPenalty (g : Nat) (member : Address) (cycle : Nat)
  | recoverPenalty (g : Nat) (member : Address) (cycle : Nat) (amountPaid : Int)
  | setPenaltyConfig (g : Nat) (caller : Address) (config : PenaltyConfig)
  | extendDeadline (caller : Address) (g cycle extension : Nat)

/-- Drop the returned value. -/
def quietly {α : Type} (m : SaveM α) : SaveM Unit := do
  let _ ← m
  pure ()

instance {α : Type} {w : Scope Key} (m : SaveM α) [Within w m] : Within w (quietly m) := by
  rw [quietly]
  infer_instance

@[simp] theorem quietly_ok {α : Type} {m : SaveM α} {env : Env} {s t : State} {u : Unit} :
    quietly m env s = .ok u t ↔ ∃ a, m env s = .ok a t := by
  simp [quietly, bind_ok]

namespace Call

/-- The program a call runs. -/
def body : Call → SaveM Unit
  | updateConfig c => SaveAdmin.updateConfig c
  | migrateStorage caller => SaveAdmin.migrateStorage caller
  | updateContributionLimits admin lo hi => SaveAdmin.updateContributionLimits admin lo hi
  | createGroup creator amount duration maxMembers tok grace order =>
      quietly (SaveLifecycle.createGroup creator amount duration maxMembers tok grace order)
  | cloneGroup caller g o => quietly (SaveLifecycle.cloneGroup caller g o)
  | updateGroup g amount duration maxMembers =>
      SaveLifecycle.updateGroup g amount duration maxMembers
  | addAllowedToken admin tok => SaveAdmin.addAllowedToken admin tok
  | removeAllowedToken admin tok => SaveAdmin.removeAllowedToken admin tok
  | updateGroupMetadata g caller name description imageUrl =>
      SaveLifecycle.updateGroupMetadata g caller name description imageUrl
  | voteDissolve g caller => SaveRefund.voteDissolve g caller
  | proposeContributionChange g amount => SaveRefund.proposeContributionChange g amount
  | voteContributionChange g member => SaveRefund.voteContributionChange g member
  | assignPayoutPositions g caller mode => SaveMembership.assignPayoutPositions g caller mode
  | randomizePayoutOrder g seed => quietly (SaveMembership.randomizePayoutOrder g seed)
  | executePayout g => SavePayout.executePayout g
  | tick g => SavePayout.tick g
  | bidForPayout g bidder amount => SavePayout.bidForPayout g bidder amount
  | pauseGroup g caller => SaveLifecycle.pauseGroup g caller
  | resumeGroup g caller => SaveLifecycle.resumeGroup g caller
  | raiseDispute g caller reason => SaveLifecycle.raiseDispute g caller reason
  | resolveDispute g caller => SaveLifecycle.resolveDispute g caller
  | cancelGroup g caller => SaveLifecycle.cancelGroup g caller
  | setInvitationOnly g enabled => SaveAdmin.setInvitationOnly g enabled
  | inviteMember g invitee => SaveAdmin.inviteMember g invitee
  | revokeInvitation g invitee => SaveAdmin.revokeInvitation g invitee
  | mergeGroups g₁ g₂ => quietly (SaveMembership.mergeGroups g₁ g₂)
  | deleteGroup g => SaveLifecycle.deleteGroup g
  | archiveGroup caller g => SaveLifecycle.archiveGroup caller g
  | tryAdvanceCycle g => quietly (SaveLifecycle.tryAdvanceCycle g)
  | rateGroup caller g stars comment => SaveAdmin.rateGroup caller g stars comment
  | requestRefund g cycle caller => quietly (SaveRefund.requestRefund g cycle caller)
  | emitContributionReminders g cycle =>
      quietly (SaveAdmin.emitContributionReminders g cycle)
  | joinGroup g member referrer => SaveMembership.joinGroup g member referrer
  | removeMember g member => SaveMembership.removeMember g member
  | emergencyWithdraw g member => SaveRefund.emergencyWithdraw g member
  | claimCompletionReward member g => SaveAdmin.claimCompletionReward member g
  | activateGroup g creator => SaveLifecycle.activateGroup g creator
  | contribute g member amount => SaveContribution.contribute g member amount
  | contributeBatch g member cycles => SaveContribution.contributeBatch g member cycles
  | executeAutoContributions g => quietly (SaveContribution.executeAutoContributions g)
  | contributeWithProof g member amount => SaveContribution.contributeWithProof g member amount
  | enableAutoContribute g member => SaveAdmin.enableAutoContribute g member
  | disableAutoContribute g member => SaveAdmin.disableAutoContribute g member
  | setContributionProofRequired g required =>
      SaveAdmin.setContributionProofRequired g required
  | verifyContributionProof g member cycle proof =>
      SaveAdmin.verifyContributionProof g member cycle proof
  | setDynamicContributions g allowed => SaveAdmin.setDynamicContributions g allowed
  | applyPenalty g member cycle => quietly (SaveAdmin.applyPenalty g member cycle)
  | recoverPenalty g member cycle amountPaid =>
      SaveAdmin.recoverPenalty g member cycle amountPaid
  | setPenaltyConfig g caller config => SaveAdmin.setPenaltyConfig g caller config
  | extendDeadline caller g cycle extension => SaveAdmin.extendDeadline caller g cycle extension

/-- The entries a call may touch. -/
@[reducible] def footprint : Call → Scope Key
  | updateConfig _ | migrateStorage _ => scope migrationPlaces False False
  | updateContributionLimits _ _ _ => scope [.anywhere .config] False False
  | createGroup _ _ _ _ _ _ _ =>
      scope [.anywhere .cntNextG, .anywhere .grp, .anywhere .grpStat, .anywhere .grpTok]
        False True
  | cloneGroup _ _ _ =>
      scope [.anywhere .cntNextG, .anywhere .grp, .anywhere .grpStat, .anywhere .grpTok]
        False False
  | addAllowedToken _ _ | removeAllowedToken _ _ => scope [.anywhere .alwdToks] False False
  | updateGroup g _ _ _ | updateGroupMetadata g _ _ _ _ | tryAdvanceCycle g
  | setInvitationOnly g _ | setContributionProofRequired g _ | setDynamicContributions g _ =>
      scope [.of .grp g] False False
  | voteDissolve g _ =>
      scope [.of .grp g, .of .grpStat g, .of .refund g, .of .cDisVote g, .of .cDisCnt g]
        False True
  | proposeContributionChange g _ => scope [.of .cPendAmt g, .of .cAmtVote g] False False
  | voteContributionChange g _ =>
      scope [.of .grp g, .of .cPendAmt g, .of .cAmtVote g, .of .cMbrVote g] False False
  | assignPayoutPositions g _ _ =>
      scope [.of .mbrProf g, .of .mbrPElig g, .of .grpPosIx g, .of .grpSeq g] False False
  | randomizePayoutOrder g _ => scope [.of .grpSeq g] False False
  | executePayout g | tick g => scope (payoutPlaces g) True True
  | bidForPayout g _ _ => scope [.of .grpBid g] False False
  | pauseGroup g _ | resumeGroup g _ => scope [.anywhere .grp, .of .grpStat g] False False
  | raiseDispute g _ _ | resolveDispute g _ =>
      scope [.of .grp g, .of .grpStat g, .of .grpDspV g, .of .grpDspR g, .of .dspCount g]
        False False
  | cancelGroup g _ => scope [.of .grpStat g] False False
  | inviteMember g _ | revokeInvitation g _ => scope [.of .grpInv g] False False
  | mergeGroups _ _ =>
      scope [.anywhere .cntNextG, .anywhere .grp, .anywhere .grpStat, .anywhere .grpMbrs,
        .anywhere .grpBal, .anywhere .grpMrgF, .anywhere .mbrProf, .anywhere .mbrPElig]
        False False
  | deleteGroup g | activateGroup g _ => scope [.of .grp g, .of .grpStat g] False False
  | archiveGroup _ g => scope [.of .grp g, .of .grpArch g] False False
  | rateGroup _ g _ _ => scope [.of .grpRate g, .of .grpRateA g] False False
  | requestRefund g _ _ => scope [.of .refund g] False True
  | emitContributionReminders g _ => scope [.of .cRemind g] False False
  | joinGroup g _ _ =>
      scope [.of .mbrProf g, .of .grpMbrs g, .of .mbrPElig g, .of .grpPosIx g, .of .grp g,
        .of .mbrRef g] False False
  | removeMember g _ =>
      scope [.of .mbrProf g, .of .grpMbrs g, .of .mbrPElig g, .of .grpPosIx g, .of .grp g]
        False False
  | emergencyWithdraw g _ => scope [.of .grpBal g, .of .mbrProf g] False True
  | claimCompletionReward _ g => scope [.of .mbrRwdC g] False True
  | contribute g _ _ => scope (contributionPlaces g) True True
  | contributeBatch g _ _ | executeAutoContributions g =>
      scope (contributionPlaces g) False True
  | contributeWithProof g _ _ => scope (contributionPlaces g) False False
  | enableAutoContribute g _ | disableAutoContribute g _ =>
      scope [.of .mbrProf g, .of .mbrAuto g] False False
  | verifyContributionProof g _ _ _ => scope [.of .cProof g] False False
  | applyPenalty g _ _ | recoverPenalty g _ _ _ => scope (penaltyPlaces g) False False
  | setPenaltyConfig g _ _ => scope [.of .penCfg g] False False
  | extendDeadline _ g _ _ => scope [.of .dlExt g] False False

/-- **EVERY CALL STAYS IN ITS FOOTPRINT**. -/
instance within (c : Call) : Within c.footprint c.body := by
  cases c <;> (unfold body; infer_instance)

end Call

/-! ## Steps and runs -/

/-- One step of the world around the contract. -/
inductive Step where
  | call (env : Env) (c : Call)
  | expire
  | external (l : Ledger)

/-- What a step does to the state. -/
def apply : Step → State → State
  | .call env c, s => commit c.body env s
  | .expire, s => { s with temporary := fun _ => none }
  | .external l, s => s.setLedger l

/-- The state after a run. -/
abbrev run (steps : List Step) (s : State) : State := exec apply steps s

section Frames

variable {env : Env} {c : Call} {s t : State} {k : Key}

/-- An entry outside a call's footprint survives the call. -/
theorem persistent_commit (h : ¬ c.footprint.persistent k) :
    (commit c.body env s).persistent k = s.persistent k :=
  (Within.agree_commit (w := c.footprint)).persistent k h

/-- An entry outside every call's footprint is never written at all. -/
theorem persistent_apply (h : ∀ c : Call, ¬ c.footprint.persistent k) (x : Step) (s : State) :
    (apply x s).persistent k = s.persistent k := by
  cases x with
  | call env c => exact persistent_commit (h c)
  | expire => rfl
  | external l => rfl

theorem commit_eq_or (c : Call) (env : Env) (s : State) :
    (∃ t, c.body env s = .ok () t ∧ commit c.body env s = t) ∨
      (¬ Succeeds c.body env s ∧ commit c.body env s = s) := by
  by_cases h : Succeeds c.body env s
  · obtain ⟨a, t, ht⟩ := h
    exact Or.inl ⟨t, ht, commit_of_ok ht⟩
  · exact Or.inr ⟨h, commit_of_not_succeeds h⟩

/-- Step rule for an invariant: calls that end well, dropped temporaries and
    ledger moves are all there is. -/
theorem apply_invariant {C : Step → State → Prop} {I : State → Prop}
    (hcall : ∀ env c s t, C (.call env c) s → I s → c.body env s = .ok () t → I t)
    (hexpire : ∀ s, I s → I { s with temporary := fun _ => none })
    (hledger : ∀ s l, I s → I (s.setLedger l)) (x : Step) (s : State) (hC : C x s)
    (hs : I s) : I (apply x s) := by
  cases x with
  | call env c =>
      rcases commit_eq_or c env s with ⟨t, ht, he⟩ | ⟨-, he⟩
      · show I (commit c.body env s)
        rw [he]
        exact hcall env c s t hC hs ht
      · show I (commit c.body env s)
        rw [he]
        exact hs
  | expire => exact hexpire s hs
  | external l => exact hledger s l hs

end Frames

end SaveCall
