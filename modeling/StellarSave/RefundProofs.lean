import StellarSave.DataProofs

/-! # Money back — refunds, emergency withdrawals, dissolution, votes

    Three ways out of escrow besides a payout: `request_refund`
    (`refund.rs`), `emergency_withdraw` (`contract.rs`) and the refunds of a
    unanimous dissolution (`governance/`).  Each decides what is still owed
    from DIFFERENT entries: the refund record and the payout status, the
    member's contribution records and payout slot, the current cycle's
    contributions. -/

namespace SaveRefund

open HostProg Footprint TokenLedger SaveData

/-! ## Refunds -/

/-- The status branch of `request_refund`. -/
def refundEligible (status : GroupStatus) (payoutProcessed : Bool) : Bool :=
  match status with
  | .pending | .cancelled => true
  | .active | .paused => !payoutProcessed
  | .completed => false

/-- `request_refund`. -/
def requestRefund (g cycle : Nat) (caller : Address) : SaveM RefundRecord := do
  requireAuth caller
  let grp : Group ← getOr (.grp g) .groupNotFound
  let status : GroupStatus ← getD (.grpStat g) .pending
  let contribution : ContributionRecord ←
    getOr (.contrib g cycle caller) .contributionNotFound
  failIf (caller ≠ contribution.memberAddress ∧ caller ≠ grp.creator) .unauthorized
  let refunded ← has (.refund g cycle contribution.memberAddress)
  failIf (refunded = true) .alreadyRefunded
  let payoutProcessed : Bool ← getD (.payStat g cycle) false
  failIf (refundEligible status payoutProcessed = false) .refundNotEligible
  let time ← now
  let config : TokenConfig ← getOr (.grpTok g) .groupNotFound
  put (.refund g cycle contribution.memberAddress)
    (RefundRecord.mk g contribution.memberAddress cycle contribution.amount time)
  tokenTransfer config.tokenAddress contractAddress contribution.memberAddress
    contribution.amount
  pure (RefundRecord.mk g contribution.memberAddress cycle contribution.amount time)

/-! ## Emergency withdrawal -/

/-- `get_member_total_contributions`: cycles `0` to the current one. -/
def getMemberTotalContributions (g : Nat) (member : Address) : SaveM Int := do
  let grp : Group ← getOr (.grp g) .groupNotFound
  foldEach (fun (total : Int) cycle => do
    let record : Option ContributionRecord ← getOpt (.contrib g cycle member)
    onOption record (pure total) fun record =>
      okOr (checkedI128 (total + record.amount)) .overflow)
    0 (List.range (grp.currentCycle + 1))

/-- `has_received_payout`: only the member's own slot is looked at. -/
def hasReceivedPayout (g : Nat) (member : Address) : SaveM Bool := do
  let position : Option U32 ← getOpt (.mbrPElig g member)
  onOption position
    (do
      let exists_ ← has (.grp g)
      failIf (exists_ = false) .groupNotFound
      pure false)
    fun position => do
      let recipient : Option Address ← getOpt (.payRecip g position.val)
      pure (decide (recipient = some member))

/-- `emergency_withdraw`: the last activity is read, at `u64`, from the entry
    that holds the cycle total. -/
def emergencyWithdraw (g : Nat) (member : Address) : SaveM Unit := do
  requireAuth member
  let grp : Group ← getOr (.grp g) .groupNotFound
  let isMember ← has (.mbrProf g member)
  failIf (isMember = false) .notMember
  failIf (grp.isComplete = true) .invalidState
  let time ← now
  let lastActivity : U64 ← getD (.cycTotal g grp.currentCycle) ⟨grp.startedAt⟩
  failIf (time - lastActivity.val < saturatingU64 (grp.cycleDuration * 2)) .invalidState
  let total ← getMemberTotalContributions g member
  let received ← hasReceivedPayout g member
  if (if received = true then 0 else total) > 0 then do
    let config : TokenConfig ← getOr (.grpTok g) .groupNotFound
    let balance : I128 ← getD (.grpBal g) ⟨0⟩
    let newBalance ← okOr (checkedI128 (balance.val - total)) .overflow
    put (.grpBal g) (I128.mk newBalance)
    del (.mbrProf g member)
    tokenTransfer config.tokenAddress contractAddress member total
  else del (.mbrProf g member)

/-! ## Governance -/

/-- One member of the dissolution sweep. -/
def refundOnDissolution (g currentCycle : Nat) (tok : Address) (time : Nat)
    (member : Address) : SaveM Unit := do
  let position : Option U32 ← getOpt (.mbrPElig g member)
  onOption position (pure ()) fun position => do
    let recipient : Option Address ← getOpt (.payRecip g position.val)
    runIf (recipient ≠ some member) (do
      let record : Option ContributionRecord ← getOpt (.contrib g currentCycle member)
      onOption record (pure ()) fun record => do
        let refunded ← has (.refund g currentCycle member)
        runIf (refunded = false) (do
          put (.refund g currentCycle member)
            (RefundRecord.mk g member currentCycle record.amount time)
          tokenTransfer tok contractAddress member record.amount))

/-- `execute_dissolution`. -/
def executeDissolution (g : Nat) (grp : Group) : SaveM Unit := do
  put (.grp g) { grp with status := .cancelled, isActive := false }
  put (.grpStat g) GroupStatus.cancelled
  let config : TokenConfig ← getOr (.grpTok g) .groupNotFound
  let time ← now
  let roster : MemberMap ← getD (.grpMbrs g) ∅
  forEach (refundOnDissolution g grp.currentCycle config.tokenAddress time) roster.members

/-- `vote_dissolve`. -/
def voteDissolve (g : Nat) (caller : Address) : SaveM Unit := do
  requireAuth caller
  let grp : Group ← getOr (.grp g) .groupNotFound
  let status : GroupStatus ← getD (.grpStat g) .pending
  failIf (status = .cancelled ∨ status = .completed) .groupAlreadyDissolved
  failIf (status = .pending) .invalidState
  let isMember ← has (.mbrProf g caller)
  failIf (isMember = false) .notMember
  let voted ← has (.cDisVote g caller)
  failIf (voted = true) .alreadyVotedDissolve
  put (.cDisVote g caller) true
  let voteCount : U32 ← getD (.cDisCnt g) ⟨0⟩
  let newCount ← okOr (checkedU32 (voteCount.val + 1)) .overflow
  put (.cDisCnt g) (U32.mk newCount)
  runIf (grp.memberCount ≤ newCount) (executeDissolution g grp)

/-- `propose_contribution_change`. -/
def proposeContributionChange (g : Nat) (newAmount : Int) : SaveM Unit := do
  let grp : Group ← getOr (.grp g) .groupNotFound
  requireAuth grp.creator
  failIf (grp.allowDynamicContributions = false) .invalidState
  failIf (grp.status ≠ .active) .invalidState
  failIf (newAmount ≤ 0) .invalidAmount
  put (.cPendAmt g) (I128.mk newAmount)
  put (.cAmtVote g) (U32.mk 0)

/-- `execute_contribution_change`; the event's `current_cycle + 1` can trap. -/
def executeContributionChange (g : Nat) (grp : Group) (newAmount : Int) : SaveM Unit := do
  put (.grp g) { grp with contributionAmount := newAmount }
  del (.cPendAmt g)
  del (.cAmtVote g)
  let _ ← unwrap (checkedU32 (grp.currentCycle + 1))
  pure ()

/-- `vote_contribution_change`. -/
def voteContributionChange (g : Nat) (member : Address) : SaveM Unit := do
  requireAuth member
  let grp : Group ← getOr (.grp g) .groupNotFound
  failIf (grp.allowDynamicContributions = false) .invalidState
  let isMember ← has (.mbrProf g member)
  failIf (isMember = false) .notMember
  let newAmount : I128 ← getOr (.cPendAmt g) .invalidState
  let voted ← has (.cMbrVote g member)
  failIf (voted = true) .alreadyContributed
  put (.cMbrVote g member) true
  let voteCount : U32 ← getD (.cAmtVote g) ⟨0⟩
  let newCount ← okOr (checkedU32 (voteCount.val + 1)) .overflow
  put (.cAmtVote g) (U32.mk newCount)
  runIf (grp.memberCount / 2 + 1 ≤ newCount) (executeContributionChange g grp newAmount.val)

/-! ## Footprints -/

section Footprints

variable {w : Scope Key}

set_option synthInstance.maxSize 2048 in
instance (g cycle : Nat) (a : Address) :
    Within (scope [.of .refund g] False True) (requestRefund g cycle a) := by
  rw [requestRefund]
  infer_instance

instance (g : Nat) (a : Address) : Within w (getMemberTotalContributions g a) := by
  rw [getMemberTotalContributions]
  infer_instance

instance (g : Nat) (a : Address) : Within w (hasReceivedPayout g a) := by
  rw [hasReceivedPayout]
  infer_instance

set_option synthInstance.maxSize 8192 in
instance (g : Nat) (a : Address) :
    Within (scope [.of .grpBal g, .of .mbrProf g] False True) (emergencyWithdraw g a) := by
  rw [emergencyWithdraw]
  infer_instance

set_option synthInstance.maxSize 512 in
instance (g cycle : Nat) (tok : Address) (time : Nat) (a : Address)
    [Allows w.persistent (.refund g cycle a)] [Granted w.ledger] :
    Within w (refundOnDissolution g cycle tok time a) := by
  rw [refundOnDissolution]
  infer_instance

instance (g : Nat) (grp : Group) [Allows w.persistent (.grp g)]
    [Allows w.persistent (.grpStat g)] [∀ c a, Allows w.persistent (.refund g c a)]
    [Granted w.ledger] : Within w (executeDissolution g grp) := by
  rw [executeDissolution]
  infer_instance

set_option synthInstance.maxSize 65536 in
instance (g : Nat) (a : Address) :
    Within (scope [.of .grp g, .of .grpStat g, .of .refund g, .of .cDisVote g, .of .cDisCnt g]
      False True) (voteDissolve g a) := by
  rw [voteDissolve]
  infer_instance

set_option synthInstance.maxSize 512 in
instance (g : Nat) (n : Int) :
    Within (scope [.of .cPendAmt g, .of .cAmtVote g] False False)
      (proposeContributionChange g n) := by
  rw [proposeContributionChange]
  infer_instance

instance (g : Nat) (grp : Group) (n : Int) [Allows w.persistent (.grp g)]
    [Allows w.persistent (.cPendAmt g)] [Allows w.persistent (.cAmtVote g)] :
    Within w (executeContributionChange g grp n) := by
  rw [executeContributionChange]
  infer_instance

set_option synthInstance.maxSize 65536 in
instance (g : Nat) (a : Address) :
    Within (scope [.of .grp g, .of .cPendAmt g, .of .cAmtVote g, .of .cMbrVote g] False False)
      (voteContributionChange g a) := by
  rw [voteContributionChange]
  infer_instance

end Footprints

/-! ## What an emergency withdrawal does -/

/-- What `emergency_withdraw` asks, and what it adds up. -/
structure WithdrawOpen (env : Env) (s : State) (g : Nat) (grp : Group) (member : Address)
    (total : Int) (received : Bool) : Prop where
  signed : member ∈ env.signers
  group : groupAt s g = some grp
  profile : s.persistent (.mbrProf g member) ≠ none
  running : grp.isComplete = false
  idle : TypedAt U64 s.persistent (.cycTotal g grp.currentCycle)
  total : getMemberTotalContributions g member env s = .ok total s
  received : hasReceivedPayout g member env s = .ok received s

section Withdrawing

variable {env : Env} {s t : State} {g : Nat} {member : Address} {u : Unit}

/-- Either the whole total is paid out, or only the profile goes. -/
theorem emergencyWithdraw_ok (h : emergencyWithdraw g member env s = .ok u t) :
    ∃ grp total received, WithdrawOpen env s g grp member total received ∧
      ((received = false ∧ 0 < total ∧ ∃ config l, tokenAt s g = some config ∧
          Book.transfer s.ledger config.tokenAddress contractAddress member total = some l ∧
          ((s.set (.grpBal g) (Codec.encode (I128.mk (grpBalAt s g - total)))).remove
            (.mbrProf g member)).setLedger l = t) ∨
        ((received = true ∨ total ≤ 0) ∧ s.remove (.mbrProf g member) = t)) := by
  rw [emergencyWithdraw] at h
  simp only [requireAuth_bind_ok, getOr_bind_ok, has_bind_ok, failIf_bind_ok, now_bind_ok,
    getD_bind_ok] at h
  obtain ⟨hsig, grp, hgrp, hmember, hrunning, hidle, -, h⟩ := h
  obtain ⟨total, v, htotal, hrest⟩ := bind_ok.mp h
  obtain rfl := Within.eq_of_ok htotal
  obtain ⟨received, v', hreceived, hend⟩ := bind_ok.mp hrest
  obtain rfl := Within.eq_of_ok hreceived
  refine ⟨grp, total, received, ⟨hsig, hgrp, ?_, ?_, hidle, htotal, hreceived⟩, ?_⟩
  · simpa using hmember
  · simpa using hrunning
  -- the money goes back, or there is none to go
  · rcases ite_ok.mp hend with ⟨hpos, hpaid⟩ | ⟨hpos, hunpaid⟩
    · simp at hpaid
      obtain ⟨config, hconfig, -, -, l, hl, rfl⟩ := hpaid
      cases received with
      | true => exact absurd hpos (lt_irrefl (0 : Int))
      | false => exact Or.inl ⟨rfl, hpos, config, l, hconfig, hl, rfl⟩
    · obtain rfl := del_ok.mp hunpaid
      refine Or.inr ⟨?_, rfl⟩
      cases received with
      | true => exact Or.inl rfl
      | false => exact Or.inr (not_lt.mp hpos)

end Withdrawing

/-! ## What a vote to dissolve does -/

/-- The state once the vote is counted. -/
def voted (s : State) (g : Nat) (caller : Address) (count : Nat) : State :=
  (s.set (.cDisVote g caller) (Codec.encode true)).set (.cDisCnt g) (Codec.encode (U32.mk count))

/-- The state the dissolution sweep starts from. -/
def dissolved (s : State) (g : Nat) (grp : Group) : State :=
  (s.set (.grp g) (Codec.encode { grp with status := .cancelled, isActive := false })).set
    (.grpStat g) (Codec.encode GroupStatus.cancelled)

/-- The dissolution votes of a group, with one more. -/
def dissolveVotes (s : State) (g : Nat) : Nat :=
  ((readAt U32 s.persistent (.cDisCnt g)).getD ⟨0⟩).val + 1

section Voting

variable {env : Env} {s t : State} {g : Nat} {caller : Address} {u : Unit}

/-- One member of the sweep: passed over, or refunded. -/
theorem refundOnDissolution_ok {cycle time : Nat} {tok member : Address}
    (h : refundOnDissolution g cycle tok time member env s = .ok u t) :
    s = t ∨ ∃ record l, contribAt s g cycle member = some record ∧
      s.persistent (.refund g cycle member) = none ∧
      Book.transfer s.ledger tok contractAddress member record.amount = some l ∧
      (s.set (.refund g cycle member)
        (Codec.encode (RefundRecord.mk g member cycle record.amount time))).setLedger l = t := by
  simp [refundOnDissolution] at h
  obtain ⟨-, ⟨-, rfl⟩ | ⟨position, -, -, ⟨-, -, h⟩ | ⟨-, rfl⟩⟩⟩ := h
  · exact Or.inl rfl
  · rcases h with ⟨-, rfl⟩ | ⟨record, hrecord, ⟨hfree, l, hl, rfl⟩ | ⟨-, rfl⟩⟩
    · exact Or.inl rfl
    · exact Or.inr ⟨record, l, hrecord, hfree, hl, rfl⟩
    · exact Or.inl rfl
  · exact Or.inl rfl

/-- What `vote_dissolve` asks of the voter and the tally. -/
structure DissolveOpen (env : Env) (s : State) (g : Nat) (caller : Address) : Prop where
  signed : caller ∈ env.signers
  member : s.persistent (.mbrProf g caller) ≠ none
  fresh : s.persistent (.cDisVote g caller) = none
  counted : TypedAt U32 s.persistent (.cDisCnt g)

/-- **WHAT A VOTE TO DISSOLVE CAN DO**: count, and go on to the sweep if it is the last one needed. -/
theorem voteDissolve_steps (h : voteDissolve g caller env s = .ok u t) :
    DissolveOpen env s g caller ∧ ∃ grp, groupAt s g = some grp ∧
      ((statusAt s g).getD .pending = .active ∨ (statusAt s g).getD .pending = .paused) ∧
      ((grp.memberCount ≤ dissolveVotes s g ∧
          executeDissolution g grp env (voted s g caller (dissolveVotes s g)) = .ok u t) ∨
        (dissolveVotes s g < grp.memberCount ∧ voted s g caller (dissolveVotes s g) = t)) := by
  simp [voteDissolve, typedAt_set_of_ne] at h
  obtain ⟨hsigned, grp, hgrp, -, ⟨hc, hd⟩, hp, hmember, hfresh, hcounted, -, h⟩ := h
  refine ⟨⟨hsigned, hmember, hfresh, hcounted⟩, grp, hgrp, ?_, h⟩
  revert hc hd hp
  cases (statusAt s g).getD .pending <;> simp

theorem voteDissolve_open (h : voteDissolve g caller env s = .ok u t) : DissolveOpen env s g caller :=
  (voteDissolve_steps h).1

/-- The vote is counted, and the last one needed sweeps the current cycle. -/
theorem voteDissolve_ok (h : voteDissolve g caller env s = .ok u t) :
    ∃ grp, groupAt s g = some grp ∧
      ((statusAt s g).getD .pending = .active ∨ (statusAt s g).getD .pending = .paused) ∧
      ((grp.memberCount ≤ dissolveVotes s g ∧ ∃ config, tokenAt s g = some config ∧
          forEach (refundOnDissolution g grp.currentCycle config.tokenAddress env.timestamp)
            ((membersAt s g).getD ∅).members env
            (dissolved (voted s g caller (dissolveVotes s g)) g grp) = .ok u t) ∨
        (dissolveVotes s g < grp.memberCount ∧ voted s g caller (dissolveVotes s g) = t)) := by
  obtain ⟨-, grp, hgrp, hstatus, ⟨hle, h⟩ | ⟨hlt, ht⟩⟩ := voteDissolve_steps h
  · rw [executeDissolution] at h
    simp only [put_bind_ok, getOr_bind_ok, now_bind_ok, getD_bind_ok] at h
    obtain ⟨config, hconfig, -, hloop⟩ := h
    refine ⟨grp, hgrp, hstatus, Or.inl ⟨hle, config, by simpa [voted] using hconfig, ?_⟩⟩
    simpa [dissolved, voted, dissolveVotes] using hloop
  · exact ⟨grp, hgrp, hstatus, Or.inr ⟨hlt, ht⟩⟩

/-- A sweep touches the refund records of its own cycle only. -/
theorem sweep_frame {v w : State} {tok : Address} {c' time : Nat} {members : List Address}
    (hrun : forEach (refundOnDissolution g c' tok time) members env v = .ok u w) (k : Key)
    (hk : ∀ a, k ≠ .refund g c' a) : w.persistent k = v.persistent k := by
  refine forEach_invariant (I := fun w => w.persistent k = v.persistent k)
    (fun a _ w w' hw hstep => ?_) rfl hrun
  rcases refundOnDissolution_ok hstep with rfl | ⟨record, l, -, -, -, rfl⟩
  · exact hw
  · simpa [hk a] using hw

/-- A sweep takes no refund record away. -/
theorem sweep_kept {v w : State} {tok : Address} {c c' time : Nat} {members : List Address}
    (hrun : forEach (refundOnDissolution g c' tok time) members env v = .ok u w) (a : Address)
    (ha : v.persistent (.refund g c a) ≠ none) : w.persistent (.refund g c a) ≠ none := by
  refine forEach_invariant (I := fun w => w.persistent (.refund g c a) ≠ none)
    (fun b _ w w' hw hstep => ?_) ha hrun
  rcases refundOnDissolution_ok hstep with rfl | ⟨record, l, -, -, -, rfl⟩
  · exact hw
  · by_cases he : Key.refund g c a = .refund g c' b
    · rw [he]
      simp
    · simpa [he] using hw

end Voting

end SaveRefund
