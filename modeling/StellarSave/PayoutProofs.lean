import StellarSave.DataProofs

/-! # Payouts — the executor, the tick that swallows its errors, bids

    `execute_payout` (`payout_executor.rs`) takes the guard, checks the cycle
    against the pool calculator (`pool.rs`), picks a recipient, settles the
    books, then pays.  It is cut here along its own phases, so that an ERROR
    can be located: `tick` (`contract.rs`) runs the executor, keeps whatever
    was written before an error, and advances the cycle anyway.

    Two host-level facts shape what follows.  The guard is taken with an
    untyped literal, an `i32`, and never given back.  And the recipient scans
    and the penalty pass read the roster as a vector, while every writer
    stores it as a map. -/

namespace SavePayout

open HostProg Footprint TokenLedger SaveData

/-! ## The pool -/

/-- `PoolInfo`, less the fields it copies from the group. -/
structure PoolInfo where
  totalPoolAmount : Int
  currentContributions : Int
  contributorsCount : Nat
  isCycleComplete : Bool

/-- `PoolCalculator::calculate_total_pool`. -/
def calculateTotalPool (contributionAmount : Int) (memberCount : Nat) : SaveM Int := do
  failIf (contributionAmount ≤ 0) .invalidAmount
  failIf (memberCount = 0) .invalidState
  okOr (checkedI128 (contributionAmount * memberCount)) .internalError

/-- `PoolCalculator::get_pool_info_for_group`: the counters are read under the
    record's own id. -/
def getPoolInfoForGroup (grp : Group) (cycle : Nat) : SaveM PoolInfo := do
  let total ← calculateTotalPool grp.contributionAmount grp.memberCount
  let current : I128 ← getD (.cycTotal grp.id cycle) ⟨0⟩
  let count : U32 ← getD (.cycCount grp.id cycle) ⟨0⟩
  pure ⟨total, current.val, count.val, decide (count.val ≥ grp.memberCount)⟩

/-- `PoolCalculator::validate_pool_ready_for_payout`. -/
def validatePoolReadyForPayout (pool : PoolInfo) : SaveM Unit := do
  failIf (pool.isCycleComplete = false) .cycleNotComplete
  failIf (pool.currentContributions ≠ pool.totalPoolAmount) .invalidAmount

/-- `PoolCalculator::calculate_payout_amount`: no fees. -/
def calculatePayoutAmount (totalPool : Int) : SaveM Int := do
  failIf (totalPool < 0) .invalidAmount
  okOr (checkedI128 (totalPool - 0)) .internalError

/-! ## The recipient -/

/-- The fallback scan: exactly one listed member holds the position. -/
def scanForPosition (g currentCycle memberCount : Nat) : SaveM Address := do
  let members : List Address ← getOr (.grpMbrs g) .groupNotFound
  failIf (members.length ≠ memberCount) .invalidState
  let found ← foldEach (fun (acc : Option Address × Nat) member => do
    let position : Option U32 ← getOpt (.mbrPElig g member)
    pure (if position = some ⟨currentCycle⟩ then (some member, acc.2 + 1) else acc))
    (none, 0) members
  failIf (found.2 ≠ 1) .invalidState
  unwrap found.1

/-- `identify_recipient_sequential`. -/
def identifyRecipientSequential (g currentCycle memberCount : Nat) : SaveM Address := do
  let indexed : Option Address ← getOpt (.grpPosIx g currentCycle)
  onOption indexed (scanForPosition g currentCycle memberCount) fun recipient =>
    if currentCycle < memberCount then pure recipient
    else scanForPosition g currentCycle memberCount

/-- Whether a member's eligibility entry points at an earlier cycle. -/
def paidEarlier (g currentCycle : Nat) (member : Address) : SaveM Bool := do
  let paidCycle : Option U32 ← getOpt (.mbrPElig g member)
  pure (match paidCycle with
    | some c => decide (c.val < currentCycle)
    | none => false)

/-- `identify_recipient_random`. -/
def identifyRecipientRandom (g currentCycle : Nat) : SaveM Address := do
  let members : List Address ← getOr (.grpMbrs g) .groupNotFound
  let eligible ← foldEach (fun (acc : List Address) member => do
    let paid ← paidEarlier g currentCycle member
    pure (if paid = true then acc else acc ++ [member])) [] members
  failIf (eligible = []) .invalidState
  let env ← ask
  unwrap eligible[(env.prng + env.timestamp + g) % (u64Max + 1) % eligible.length]?

/-- `identify_recipient_bid`: the first highest bid wins. -/
def identifyRecipientBid (g currentCycle : Nat) : SaveM Address := do
  let members : List Address ← getOr (.grpMbrs g) .groupNotFound
  let best ← foldEach (fun (acc : Option Address × Int) member => do
    let paid ← paidEarlier g currentCycle member
    if paid = true then pure acc else do
      let bid : I128 ← getD (.grpBid g currentCycle member) ⟨0⟩
      pure (if bid.val > acc.2 then (some member, bid.val) else acc)) (none, -1) members
  okOr best.1 .invalidState

/-- `identify_recipient`. -/
def identifyRecipient (g currentCycle memberCount : Nat) (order : PayoutOrder) :
    SaveM Address :=
  if order = .random then identifyRecipientRandom g currentCycle
  else if order = .bid then identifyRecipientBid g currentCycle
  else identifyRecipientSequential g currentCycle memberCount

/-- `verify_recipient_eligibility`. -/
def verifyRecipientEligibility (g : Nat) (recipient : Address) (currentCycle : Nat) :
    SaveM Unit := do
  let isMember ← has (.mbrProf g recipient)
  failIf (isMember = false) .notMember
  let paid ← has (.payRecip g currentCycle)
  failIf (paid = true) .invalidRecipient

/-! ## The executor, phase by phase -/

/-- `calculate_and_validate_payout_amount`. -/
def calculateAndValidatePayoutAmount (pool : PoolInfo) : SaveM Int := do
  let amount ← calculatePayoutAmount pool.totalPoolAmount
  failIf (amount ≤ 0) .invalidAmount
  pure amount

/-- `verify_contract_balance`. -/
def verifyContractBalance (g : Nat) (amount : Int) : SaveM Unit := do
  let config : TokenConfig ← getOr (.grpTok g) .groupNotFound
  let balance ← tokenBalance config.tokenAddress contractAddress
  failIf (balance < amount) .payoutFailed

/-- One member of the penalty pass. -/
def penalizeIfMissed (g cycle : Nat) (penalty : Int) (member : Address) : SaveM Unit := do
  let contributed ← has (.contrib g cycle member)
  runIf (contributed = false) (do
    let current : I128 ← getD (.mbrPen g member) ⟨0⟩
    let newTotal ← okOr (checkedI128 (current.val + penalty)) .overflow
    put (.mbrPen g member) (I128.mk newTotal)
    let pool : I128 ← getD (.cycTotal g cycle) ⟨0⟩
    let newPool ← okOr (checkedI128 (pool.val + penalty)) .overflow
    put (.cycTotal g cycle) (I128.mk newPool))

/-- `apply_missed_contribution_penalties`. -/
def applyMissedContributionPenalties (g cycle : Nat) (grp : Group) : SaveM Unit := do
  let members : List Address ← getOr (.grpMbrs g) .groupNotFound
  forEach (penalizeIfMissed g cycle grp.penaltyAmount) members

/-- `record_payout`: the record's own validation can only repeat the
    constructor's assertion. -/
def recordPayout (g cycle : Nat) (recipient : Address) (amount : Int) (timestamp : Nat) :
    SaveM Unit := do
  demand (amount > 0)
  failIf (¬ amount > 0) .internalError
  put (.payout g cycle) (PayoutRecord.mk recipient g cycle amount timestamp)
  put (.payRecip g cycle) recipient

/-- `update_member_status`: only checks that the profile is there. -/
def updateMemberStatus (g : Nat) (recipient : Address) : SaveM Unit := do
  let _profile : MemberProfile ← getOr (.mbrProf g recipient) .internalError
  pure ()

/-- `advance_cycle_or_complete`: the record is saved under its own id. -/
def advanceCycleOrComplete (grp : Group) : SaveM Group := do
  let grp' ← grp.advanceCycle
  put (.grp grp.id) grp'
  pure grp'

/-- `execute_transfer`. -/
def executeTransfer (g : Nat) (recipient : Address) (amount : Int) : SaveM Unit := do
  failIf (amount ≤ 0) .payoutFailed
  let config : TokenConfig ← getOr (.grpTok g) .groupNotFound
  tokenTransfer config.tokenAddress contractAddress recipient amount

/-- Entry of `execute_payout`: both reentrancy marks are set. -/
def lockPayout (g : Nat) : SaveM Group := do
  let guardValue : U64 ← tempGetD .guard ⟨0⟩
  failIf (guardValue.val ≠ 0) .internalError
  tempPut .guard (I32.mk 1)
  let grp : Group ← getOr (.grp g) .groupNotFound
  failIf (grp.payoutInProgress = true) .reentrancyDetected
  put (.grp g) { grp with payoutInProgress := true }
  pure { grp with payoutInProgress := true }

/-- Steps 2 to 8 of `execute_payout`: validation, penalties, recipient and
    amount. -/
def validatePayout (g : Nat) (grp : Group) : SaveM (Address × Int) := do
  failIf (grp.paused = true) .invalidState
  failIf (grp.status ≠ .active) .invalidState
  failIf (grp.disputeActive = true) .disputeActive
  let paid ← has (.payRecip g grp.currentCycle)
  failIf (paid = true) .invalidState
  let pool ← getPoolInfoForGroup grp grp.currentCycle
  validatePoolReadyForPayout pool
  runIf (grp.penaltyEnabled = true ∧ grp.penaltyAmount > 0)
    (applyMissedContributionPenalties g grp.currentCycle grp)
  let recipient ← identifyRecipient g grp.currentCycle grp.memberCount grp.payoutOrder
  verifyRecipientEligibility g recipient grp.currentCycle
  let amount ← calculateAndValidatePayoutAmount pool
  verifyContractBalance g amount
  pure (recipient, amount)

/-- Steps 9 to 12 of `execute_payout`: the books are settled before money
    moves. -/
def settlePayout (g : Nat) (grp : Group) (recipient : Address) (amount : Int) :
    SaveM Group := do
  let timestamp ← now
  recordPayout g grp.currentCycle recipient amount timestamp
  let paidOut : I128 ← getD (.grpPaid g) ⟨0⟩
  let newPaid ← okOr (checkedI128 (paidOut.val + amount)) .overflow
  put (.grpPaid g) (I128.mk newPaid)
  updateMemberStatus g recipient
  advanceCycleOrComplete grp

/-- `execute_payout`. -/
def executePayout (g : Nat) : SaveM Unit := do
  let grp ← lockPayout g
  let plan ← validatePayout g grp
  let grp' ← settlePayout g grp plan.1 plan.2
  executeTransfer g plan.1 plan.2
  put (.grp g) { grp' with payoutInProgress := false }

/-! ## Tick and bids -/

/-- `helpers::is_cycle_deadline_passed`: plain arithmetic, so overflow traps. -/
def isCycleDeadlinePassed (grp : Group) (time : Nat) : SaveM Bool :=
  if grp.started = false then pure false else do
    let span ← unwrap (checkedU64 (grp.cycleDuration * (grp.currentCycle + 1)))
    let deadline ← unwrap (checkedU64 (grp.startedAt + span))
    let limit ← unwrap (checkedU64 (deadline + grp.gracePeriodSeconds))
    pure (decide (time > limit))

/-- `get_total_paid_out`. -/
def getTotalPaidOut (g : Nat) : SaveM Int := do
  let exists_ ← has (.grp g)
  failIf (exists_ = false) .groupNotFound
  let total : I128 ← getD (.grpPaid g) ⟨0⟩
  pure total.val

/-- `tick`: the copy of the group read at the start is the one advanced and
    saved, whatever the payout did to the stored one. -/
def tick (g : Nat) : SaveM Unit := do
  let grp : Group ← getOr (.grp g) .groupNotFound
  failIf (grp.isActive = false ∨ grp.isComplete = true) .invalidState
  let time ← now
  let passed ← isCycleDeadlinePassed grp time
  failIf (passed = false) .deadlineNotReached
  let count : U32 ← getD (.cycCount g grp.currentCycle) ⟨0⟩
  runIf (count.val ≥ grp.memberCount) (do
    let _ ← attempt (executePayout g)
    pure ())
  let grp' ← grp.advanceCycle
  put (.grp g) grp'
  runIf (grp'.isComplete = true) (do
    let _ ← attempt (getTotalPaidOut g)
    pure ())

/-- `bid_for_payout`. -/
def bidForPayout (g : Nat) (bidder : Address) (bidAmount : Int) : SaveM Unit := do
  requireAuth bidder
  failIf (bidAmount < 0) .invalidAmount
  let grp : Group ← getOr (.grp g) .groupNotFound
  failIf (grp.payoutOrder ≠ .bid) .invalidState
  failIf (grp.status ≠ .active) .invalidState
  let isMember ← has (.mbrProf g bidder)
  failIf (isMember = false) .notMember
  put (.grpBid g grp.currentCycle bidder) (I128.mk bidAmount)

/-! ## Footprints -/

section Footprints

variable {w : Scope Key}

instance (amount : Int) (n : Nat) : Within w (calculateTotalPool amount n) := by
  rw [calculateTotalPool]
  infer_instance

instance (grp : Group) (cycle : Nat) : Within w (getPoolInfoForGroup grp cycle) := by
  rw [getPoolInfoForGroup]
  infer_instance

instance (pool : PoolInfo) : Within w (validatePoolReadyForPayout pool) := by
  rw [validatePoolReadyForPayout]
  infer_instance

instance (n : Int) : Within w (calculatePayoutAmount n) := by
  rw [calculatePayoutAmount]
  infer_instance

instance (g c n : Nat) : Within w (scanForPosition g c n) := by
  rw [scanForPosition]
  infer_instance

instance (g c n : Nat) : Within w (identifyRecipientSequential g c n) := by
  rw [identifyRecipientSequential]
  infer_instance

instance (g c : Nat) (a : Address) : Within w (paidEarlier g c a) := by
  rw [paidEarlier]
  infer_instance

instance (g c : Nat) : Within w (identifyRecipientRandom g c) := by
  rw [identifyRecipientRandom]
  infer_instance

instance (g c : Nat) : Within w (identifyRecipientBid g c) := by
  rw [identifyRecipientBid]
  infer_instance

instance (g c n : Nat) (order : PayoutOrder) : Within w (identifyRecipient g c n order) := by
  rw [identifyRecipient]
  infer_instance

instance (g : Nat) (a : Address) (c : Nat) : Within w (verifyRecipientEligibility g a c) := by
  rw [verifyRecipientEligibility]
  infer_instance

instance (pool : PoolInfo) : Within w (calculateAndValidatePayoutAmount pool) := by
  rw [calculateAndValidatePayoutAmount]
  infer_instance

instance (g : Nat) (n : Int) : Within w (verifyContractBalance g n) := by
  rw [verifyContractBalance]
  infer_instance

instance (g cycle : Nat) (penalty : Int) (a : Address) [Allows w.persistent (.mbrPen g a)]
    [Allows w.persistent (.cycTotal g cycle)] : Within w (penalizeIfMissed g cycle penalty a) := by
  rw [penalizeIfMissed]
  infer_instance

instance (g cycle : Nat) (grp : Group) [∀ a, Allows w.persistent (.mbrPen g a)]
    [Allows w.persistent (.cycTotal g cycle)] :
    Within w (applyMissedContributionPenalties g cycle grp) := by
  rw [applyMissedContributionPenalties]
  infer_instance

instance (g cycle : Nat) (a : Address) (n : Int) (ts : Nat)
    [Allows w.persistent (.payout g cycle)] [Allows w.persistent (.payRecip g cycle)] :
    Within w (recordPayout g cycle a n ts) := by
  rw [recordPayout]
  infer_instance

instance (g : Nat) (a : Address) : Within w (updateMemberStatus g a) := by
  rw [updateMemberStatus]
  infer_instance

instance (grp : Group) [Allows w.persistent (.grp grp.id)] :
    Within w (advanceCycleOrComplete grp) := by
  rw [advanceCycleOrComplete]
  infer_instance

instance (g : Nat) (a : Address) (n : Int) [Granted w.ledger] :
    Within w (executeTransfer g a n) := by
  rw [executeTransfer]
  infer_instance

instance (g : Nat) [Allows w.persistent (.grp g)] [Allows w.temporary .guard] :
    Within w (lockPayout g) := by
  rw [lockPayout]
  infer_instance

set_option synthInstance.maxSize 8192 in
instance (g : Nat) (grp : Group) [∀ a, Allows w.persistent (.mbrPen g a)]
    [∀ c, Allows w.persistent (.cycTotal g c)] : Within w (validatePayout g grp) := by
  rw [validatePayout]
  infer_instance

instance (g : Nat) (grp : Group) (a : Address) (n : Int)
    [Allows w.persistent (.payout g grp.currentCycle)]
    [Allows w.persistent (.payRecip g grp.currentCycle)] [Allows w.persistent (.grpPaid g)]
    [Allows w.persistent (.grp grp.id)] : Within w (settlePayout g grp a n) := by
  rw [settlePayout]
  infer_instance

/-- What a payout may touch.  The advanced record is saved under the id it
    carries, hence `anywhere`. -/
@[reducible] def payoutPlaces (g : Nat) : List Place :=
  [.anywhere .grp, .of .mbrPen g, .of .cycTotal g, .of .payout g, .of .payRecip g,
    .of .grpPaid g]

instance (g : Nat) : Within (scope (payoutPlaces g) True True) (executePayout g) := by
  rw [executePayout]
  infer_instance

instance (grp : Group) (time : Nat) : Within w (isCycleDeadlinePassed grp time) := by
  rw [isCycleDeadlinePassed]
  infer_instance

instance (g : Nat) : Within w (getTotalPaidOut g) := by
  rw [getTotalPaidOut]
  infer_instance

set_option synthInstance.maxSize 2048 in
instance (g : Nat) : Within (scope (payoutPlaces g) True True) (tick g) := by
  rw [tick]
  infer_instance

set_option synthInstance.maxSize 512 in
instance (g : Nat) (a : Address) (n : Int) :
    Within (scope [.of .grpBid g] False False) (bidForPayout g a n) := by
  rw [bidForPayout]
  infer_instance

end Footprints

end SavePayout
