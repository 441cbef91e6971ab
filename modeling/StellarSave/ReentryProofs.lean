import StellarSave.HandoverProofs
import StellarSave.StatusProofs

/-! # Reentrancy — the token's transfer calls back

    The token of a group is code its creator chose.  Every `transfer` and
    `transfer_from` hands control to it, and it may call any entry point of
    the contract before it returns (`CEI_AUDIT.md`).

    Each entry point that moves money is cut at that point: a program of the
    model for what comes BEFORE the token call, the call, and what is left to
    do AFTER it.  Over the honest token the pieces are the entry point they
    were cut from (`reentrant_erases`); over any other token they say what a
    nest of calls can do.

    The journal lists the contribution records, refund records and payout
    recipients that were written, by the key they went to. -/

namespace SaveReentry

open HostProg Footprint Handover TokenLedger SaveData SaveContribution SavePayout SaveRefund
open SaveMembership SaveLifecycle SaveAdmin SaveCall SaveStatus

/-! ## The token call -/

/-- The two calls that hand control to a token. -/
inductive TokenCall where
  | transfer (tok src dst : Address) (n : Int)
  | transferFrom (tok src dst : Address) (n : Int)

/-- The storage of the contract, beside the journal. -/
abbrev World := State × List Key

/-- An entry point over tokens that call back. -/
abbrev CallbackM := Prog Env World SaveError

/-- The code of the tokens. -/
abbrev Tokens := Foreign TokenCall Env World

/-- What the call does on the honest ledger. -/
def TokenCall.plain : TokenCall → SaveM Unit
  | transfer tok src dst n => tokenTransfer tok src dst n
  | transferFrom tok src dst n => tokenTransferFrom tok src dst n

/-- Honest tokens call nobody back. -/
def honest : Tokens := fun q env a =>
  match q.plain env a.1 with
  | .ok _ t => some (t, a.2)
  | .err _ _ => none
  | .trap => none
  | .mistyped => none

/-! ## Contributions -/

/-- `contribute`, to the token call: the token and the cycle recorded. -/
def contributeBefore (g : Nat) (member : Address) (amount : Int) : SaveM (Address × Nat) := do
  requireAuth member
  let grp : Group ← getOr (.grp g) .groupNotFound
  failIf (grp.status ≠ .active) .invalidState
  let time ← now
  failIf (grp.started = true ∧
    time > saturatingU64 (cycleDeadline grp + grp.gracePeriodSeconds)) .cycleDeadlineExpired
  let isMember ← has (.mbrProf g member)
  failIf (isMember = false) .notMember
  failIf (amount ≠ grp.contributionAmount) .invalidAmount
  let guardValue : U64 ← tempGetD .guard ⟨0⟩
  failIf (guardValue.val ≠ 0) .internalError
  tempPut .guard (U64.mk 1)
  let config ← loadTokenOrRelease g
  let _ ← recordContribution g grp.currentCycle member amount time
  pure (config.tokenAddress, grp.currentCycle)

/-- `contribute_batch`, to the token call: the token and the total. -/
def contributeBatchBefore (g : Nat) (member : Address) (cycles : List Nat) :
    SaveM (Address × Int) := do
  requireAuth member
  failIf (cycles = []) .invalidAmount
  let grp : Group ← getOr (.grp g) .groupNotFound
  failIf (grp.status ≠ .active) .invalidState
  let isMember ← has (.mbrProf g member)
  failIf (isMember = false) .notMember
  let _ ← foldEach (checkBatchCycle g member grp.currentCycle) [] cycles
  let config : TokenConfig ← getOr (.grpTok g) .groupNotFound
  let time ← now
  let total ← okOr (checkedI128 (grp.contributionAmount * cycles.length)) .overflow
  forEach (fun cycle => do
    let _ ← recordContributionUnchecked g cycle member grp.contributionAmount time
    pure ()) cycles
  pure (config.tokenAddress, total)

/-- One member of the automatic sweep, to the token call: whether there is
    one. -/
def autoContributeBefore (g cycle : Nat) (tok : Address) (amount : Int) (time : Nat)
    (member : Address) : SaveM Bool := do
  let enabled : Bool ← getD (.mbrAuto g member) false
  let paid ← has (.contrib g cycle member)
  if enabled = false ∨ paid = true then pure false else do
    let balance ← tokenBalance tok member
    if balance < amount then pure false else do
      let allowance ← tokenAllowance tok member
      if allowance < amount then pure false else do
        let _ ← recordContributionUnchecked g cycle member amount time
        pure true

/-- One member of the automatic sweep. -/
def autoContributeMember (x : Tokens) (g cycle : Nat) (tok : Address) (amount : Int)
    (time : Nat) (executed : Nat) (member : Address) : CallbackM Nat := do
  let due ← lift (autoContributeBefore g cycle tok amount time member)
  if due = true then do
    note [Key.contrib g cycle member]
    handOver x (.transferFrom tok member contractAddress amount)
    lift (unwrap (checkedU32 (executed + 1)))
  else pure executed

/-- `execute_auto_contributions`. -/
def executeAutoContributions (x : Tokens) (g : Nat) : CallbackM Nat := do
  let grp : Group ← lift (getOr (.grp g) .groupNotFound)
  lift (failIf (grp.status ≠ .active) .invalidState)
  let config : TokenConfig ← lift (getOr (.grpTok g) .groupNotFound)
  let roster : MemberMap ← lift (getOr (.grpMbrs g) .groupNotFound)
  let time ← lift now
  foldEach (autoContributeMember x g grp.currentCycle config.tokenAddress
    grp.contributionAmount time) 0 roster.members

/-- `contribute_with_proof` makes no token call; the cycle recorded. -/
def contributeWithProofBefore (g : Nat) (member : Address) (amount : Int) : SaveM Nat := do
  requireAuth member
  let grp : Group ← getOr (.grp g) .groupNotFound
  failIf (grp.status ≠ .active) .invalidState
  failIf (amount ≠ grp.contributionAmount) .invalidAmount
  let isMember ← has (.mbrProf g member)
  failIf (isMember = false) .notMember
  runIf (grp.requireContributionProof = true) (do
    let verified : Bool ← getD (.cProof g grp.currentCycle member) false
    failIf (verified = false) .unauthorized)
  let time ← now
  let _ ← recordContribution g grp.currentCycle member amount time
  let _cycleTotal : I128 ← getD (.cycTotal g grp.currentCycle) ⟨0⟩
  pure grp.currentCycle

/-! ## Money out -/

/-- `request_refund`, to the token call: the token and the refund. -/
def requestRefundBefore (g cycle : Nat) (caller : Address) :
    SaveM (Address × RefundRecord) := do
  requireAuth caller
  let grp : Group ← getOr (.grp g) .groupNotFound
  let status : GroupStatus ← getD (.grpStat g) .pending
  let contribution : ContributionRecord ←
    getOr (.contrib g cycle caller) .contributionNotFound
  failIf (caller ≠ contribution.memberAddress ∧ caller ≠ grp.creator) .unauthorized
  let refunded ← has (.refund g cycle contribution.memberAddress)
  failIf (refunded = true) .alreadyRefunded
  let payoutProcessed : Bool ← getD (.payStat g cycle) false
  failIf (refundEligible status payoutProcessed = false) .refundNotEligible
  let time ← now
  let config : TokenConfig ← getOr (.grpTok g) .groupNotFound
  put (.refund g cycle contribution.memberAddress)
    (RefundRecord.mk g contribution.memberAddress cycle contribution.amount time)
  pure (config.tokenAddress,
    RefundRecord.mk g contribution.memberAddress cycle contribution.amount time)

/-- `emergency_withdraw`, to the token call: the token and what it moves. -/
def emergencyWithdrawBefore (g : Nat) (member : Address) : SaveM (Option (Address × Int)) := do
  requireAuth member
  let grp : Group ← getOr (.grp g) .groupNotFound
  let isMember ← has (.mbrProf g member)
  failIf (isMember = false) .notMember
  failIf (grp.isComplete = true) .invalidState
  let time ← now
  let lastActivity : U64 ← getD (.cycTotal g grp.currentCycle) ⟨grp.startedAt⟩
  failIf (time - lastActivity.val < saturatingU64 (grp.cycleDuration * 2)) .invalidState
  let total ← getMemberTotalContributions g member
  let received ← hasReceivedPayout g member
  if (if received = true then 0 else total) > 0 then do
    let config : TokenConfig ← getOr (.grpTok g) .groupNotFound
    let balance : I128 ← getD (.grpBal g) ⟨0⟩
    let newBalance ← okOr (checkedI128 (balance.val - total)) .overflow
    put (.grpBal g) (I128.mk newBalance)
    del (.mbrProf g member)
    pure (some (config.tokenAddress, total))
  else do
    del (.mbrProf g member)
    pure none

/-- `emergency_withdraw`. -/
def emergencyWithdraw (x : Tokens) (g : Nat) (member : Address) : CallbackM Unit := do
  let sent ← lift (emergencyWithdrawBefore g member)
  onOption sent (pure ()) fun sent =>
    handOver x (.transfer sent.1 contractAddress member sent.2)

/-- `claim_completion_reward`, to the token call: the token and the reward. -/
def claimCompletionRewardBefore (member : Address) (g : Nat) :
    SaveM (Option (Address × Int)) := do
  requireAuth member
  let grp : Group ← getOr (.grp g) .groupNotFound
  failIf (grp.isComplete = false) .invalidState
  let isMember ← has (.mbrProf g member)
  failIf (isMember = false) .notMember
  let claimed ← has (.mbrRwdC g member)
  failIf (claimed = true) .rewardAlreadyClaimed
  forEach (fun cycle => do
    let contributed ← has (.contrib g cycle member)
    failIf (contributed = false) .rewardNotEligible) (List.range grp.maxMembers)
  failIf (grp.rewardPool.tdiv grp.maxMembers ≤ 0) .rewardNotEligible
  put (.mbrRwdC g member) true
  let config : Option TokenConfig ← getOpt (.grpTok g)
  pure (config.map fun config => (config.tokenAddress, grp.rewardPool.tdiv grp.maxMembers))

/-- `claim_completion_reward`. -/
def claimCompletionReward (x : Tokens) (member : Address) (g : Nat) : CallbackM Unit := do
  let sent ← lift (claimCompletionRewardBefore member g)
  onOption sent (pure ()) fun sent =>
    handOver x (.transfer sent.1 contractAddress member sent.2)

/-- One member of the dissolution sweep, to the token call: what is sent. -/
def refundOnDissolutionBefore (g currentCycle time : Nat) (member : Address) :
    SaveM (Option Int) := do
  let position : Option U32 ← getOpt (.mbrPElig g member)
  onOption position (pure none) fun position => do
    let recipient : Option Address ← getOpt (.payRecip g position.val)
    if recipient ≠ some member then do
      let record : Option ContributionRecord ← getOpt (.contrib g currentCycle member)
      onOption record (pure none) fun record => do
        let refunded ← has (.refund g currentCycle member)
        if refunded = false then do
          put (.refund g currentCycle member)
            (RefundRecord.mk g member currentCycle record.amount time)
          pure (some record.amount)
        else pure none
    else pure none

/-- One member of the dissolution sweep. -/
def refundOnDissolution (x : Tokens) (g currentCycle : Nat) (tok : Address) (time : Nat)
    (member : Address) : CallbackM Unit := do
  let sent ← lift (refundOnDissolutionBefore g currentCycle time member)
  onOption sent (pure ()) fun amount => do
    note [Key.refund g currentCycle member]
    handOver x (.transfer tok contractAddress member amount)

/-- `execute_dissolution`. -/
def executeDissolution (x : Tokens) (g : Nat) (grp : Group) : CallbackM Unit := do
  lift (put (.grp g) { grp with status := .cancelled, isActive := false })
  lift (put (.grpStat g) GroupStatus.cancelled)
  let config : TokenConfig ← lift (getOr (.grpTok g) .groupNotFound)
  let time ← lift now
  let roster : MemberMap ← lift (getD (.grpMbrs g) ∅)
  forEach (refundOnDissolution x g grp.currentCycle config.tokenAddress time) roster.members

/-- `vote_dissolve`, to the count: the group as it was read and the votes. -/
def voteDissolveBefore (g : Nat) (caller : Address) : SaveM (Group × Nat) := do
  requireAuth caller
  let grp : Group ← getOr (.grp g) .groupNotFound
  let status : GroupStatus ← getD (.grpStat g) .pending
  failIf (status = .cancelled ∨ status = .completed) .groupAlreadyDissolved
  failIf (status = .pending) .invalidState
  let isMember ← has (.mbrProf g caller)
  failIf (isMember = false) .notMember
  let voted ← has (.cDisVote g caller)
  failIf (voted = true) .alreadyVotedDissolve
  put (.cDisVote g caller) true
  let voteCount : U32 ← getD (.cDisCnt g) ⟨0⟩
  let newCount ← okOr (checkedU32 (voteCount.val + 1)) .overflow
  put (.cDisCnt g) (U32.mk newCount)
  pure (grp, newCount)

/-- `vote_dissolve`. -/
def voteDissolve (x : Tokens) (g : Nat) (caller : Address) : CallbackM Unit := do
  let voted ← lift (voteDissolveBefore g caller)
  runIf (voted.1.memberCount ≤ voted.2) (executeDissolution x g voted.1)

/-- `create_group`, to the token call: the new id, and the treasury and the
    fee where one is charged. -/
def createGroupBefore (creator : Address) (contributionAmount : Int)
    (cycleDuration maxMembers : Nat) (tok : Address) (gracePeriodSeconds : Nat)
    (order : PayoutOrder) : SaveM (Option (Address × Int)) := do
  requireAuth creator
  failIf (maxMembers > 20) .maxMembersExceeded
  let amount ← roundContributionAmount contributionAmount
  failIf (amount ≤ 0) .invalidAmount
  let config : Option ContractConfig ← getOpt .config
  onOption config (pure ()) fun config =>
    checkCreateLimits config amount cycleDuration maxMembers
  let allowed : Option (List Address) ← getOpt .alwdToks
  onOption allowed (pure ()) fun allowed => failIf (tok ∉ allowed) .invalidToken
  let decimals ← validateToken tok
  let g ← generateNextGroupId
  let time ← now
  let grp ← Group.new g creator amount cycleDuration maxMembers 2 time gracePeriodSeconds
  put (.grp grp.id) { grp with payoutOrder := order }
  put (.grpStat g) GroupStatus.pending
  put (.grpTok g) (TokenConfig.mk tok decimals)
  let config : Option ContractConfig ← getOpt .config
  pure (config.bind fun config =>
    if config.creationFee > 0 then
      config.treasury.map fun treasury => (treasury, config.creationFee)
    else none)

/-- `create_group`. -/
def createGroup (x : Tokens) (creator : Address) (contributionAmount : Int)
    (cycleDuration maxMembers : Nat) (tok : Address) (gracePeriodSeconds : Nat)
    (order : PayoutOrder) : CallbackM Unit := do
  let fee ← lift (createGroupBefore creator contributionAmount cycleDuration maxMembers tok
    gracePeriodSeconds order)
  onOption fee (pure ()) fun fee => handOver x (.transfer tok creator fee.1 fee.2)

/-! ## Payouts -/

/-- `execute_payout`, to the token call: the token, the recipient, the amount
    and the copy of the group that is still to be stored. -/
def executePayoutBefore (g : Nat) : CallbackM (Address × Address × Int × Group) := do
  let grp ← lift (lockPayout g)
  let plan ← lift (validatePayout g grp)
  note [Key.payRecip g grp.currentCycle]
  let grp' ← lift (settlePayout g grp plan.1 plan.2)
  lift (failIf (plan.2 ≤ 0) .payoutFailed)
  let config : TokenConfig ← lift (getOr (.grpTok g) .groupNotFound)
  pure (config.tokenAddress, plan.1, plan.2, grp')

/-! ## One outer call, cut at the token call -/

/-- The four entry points that hand control out once, always. -/
inductive Outer where
  | contribute (g : Nat) (member : Address) (amount : Int)
  | contributeBatch (g : Nat) (member : Address) (cycles : List Nat)
  | requestRefund (g cycle : Nat) (caller : Address)
  | executePayout (g : Nat)

/-- What is asked of the token, and what is left to do once it returns. -/
structure Pending where
  asked : TokenCall
  rest : SaveM Unit

namespace Outer

/-- Everything before the token call. -/
def before : Outer → CallbackM Pending
  | contribute g member amount => do
      let sent ← lift (contributeBefore g member amount)
      note [Key.contrib g sent.2 member]
      pure ⟨.transferFrom sent.1 member contractAddress amount, tempPut .guard (U64.mk 0)⟩
  | contributeBatch g member cycles => do
      let sent ← lift (contributeBatchBefore g member cycles)
      note (cycles.map fun cycle => Key.contrib g cycle member)
      pure ⟨.transferFrom sent.1 member contractAddress sent.2, pure ()⟩
  | requestRefund g cycle caller => do
      let sent ← lift (requestRefundBefore g cycle caller)
      note [Key.refund g cycle sent.2.member]
      pure ⟨.transfer sent.1 contractAddress sent.2.member sent.2.amount, pure ()⟩
  | executePayout g => do
      let sent ← executePayoutBefore g
      pure ⟨.transfer sent.1 contractAddress sent.2.1 sent.2.2.1,
        put (.grp g) { sent.2.2.2 with payoutInProgress := false }⟩

/-- The entry point: before, the token, after. -/
def body (x : Tokens) (o : Outer) : CallbackM Unit := do
  let pending ← o.before
  handOver x pending.asked
  lift pending.rest

/-- The same entry point among all of them. -/
def call : Outer → Call
  | contribute g member amount => .contribute g member amount
  | contributeBatch g member cycles => .contributeBatch g member cycles
  | requestRefund g cycle caller => .requestRefund g cycle caller
  | executePayout g => .executePayout g

end Outer

/-- `tick`. -/
def tick (x : Tokens) (g : Nat) : CallbackM Unit := do
  let grp : Group ← lift (getOr (.grp g) .groupNotFound)
  lift (failIf (grp.isActive = false ∨ grp.isComplete = true) .invalidState)
  let time ← lift now
  let passed ← lift (isCycleDeadlinePassed grp time)
  lift (failIf (passed = false) .deadlineNotReached)
  let count : U32 ← lift (getD (.cycCount g grp.currentCycle) ⟨0⟩)
  runIf (count.val ≥ grp.memberCount) (do
    let _ ← attempt (Outer.body x (.executePayout g))
    pure ())
  let grp' ← lift grp.advanceCycle
  lift (put (.grp g) grp')
  lift (runIf (grp'.isComplete = true) (do
    let _ ← attempt (getTotalPaidOut g)
    pure ()))

/-- Every entry point over tokens that call back; those that move no money
    are as they were. -/
def reentrant (x : Tokens) : Call → CallbackM Unit
  | .contribute g member amount => Outer.body x (.contribute g member amount)
  | .contributeBatch g member cycles => Outer.body x (.contributeBatch g member cycles)
  | .requestRefund g cycle caller => Outer.body x (.requestRefund g cycle caller)
  | .executePayout g => Outer.body x (.executePayout g)
  | .tick g => tick x g
  | .executeAutoContributions g => do
      let _ ← executeAutoContributions x g
      pure ()
  | .contributeWithProof g member amount => do
      let cycle ← lift (contributeWithProofBefore g member amount)
      note [Key.contrib g cycle member]
      pure ()
  | .emergencyWithdraw g member => emergencyWithdraw x g member
  | .claimCompletionReward member g => claimCompletionReward x member g
  | .voteDissolve g caller => voteDissolve x g caller
  | .createGroup creator amount duration maxMembers tok grace order =>
      createGroup x creator amount duration maxMembers tok grace order
  | c => lift c.body

/-! ## Over the honest token -/

/-- A token call ends well or aborts. -/
theorem plain_ok_or_trap (q : TokenCall) (env : Env) (s : State) :
    (∃ t, q.plain env s = .ok () t) ∨ q.plain env s = .trap := by
  have hcall : ∀ f : Ledger → Option Ledger,
      (∃ t, (callLedger f : SaveM Unit) env s = .ok () t) ∨
        (callLedger f : SaveM Unit) env s = .trap := by
    intro f
    rw [callLedger]
    cases f s.ledger with
    | none => exact Or.inr rfl
    | some l => exact Or.inl ⟨_, rfl⟩
  cases q with
  | transfer tok src dst n =>
      have hask : (ask : SaveM Env) env s = .ok env s := rfl
      rw [TokenCall.plain, tokenTransfer, bind_of_ok hask]
      by_cases hauth : src = contractAddress ∨ src ∈ env.signers
      · rw [bind_of_ok (demand_ok (u := ()) |>.mpr ⟨hauth, rfl⟩)]
        exact hcall _
      · exact Or.inr (bind_of_trap (if_neg hauth))
  | transferFrom tok src dst n => exact hcall fun l => l.transferFrom tok src dst n

/-- An honest token does what the plain ledger does, and takes no note. -/
theorem honest_erases (q : TokenCall) :
    Erases (handOver honest q : CallbackM Unit) q.plain := by
  intro env a
  rw [handOver, honest]
  rcases plain_ok_or_trap q env a.1 with ⟨t, h⟩ | h <;> rw [h] <;> rfl

/-! Sequencing reaches into the branches of what comes first. -/

section Branches

variable {α β γ : Type}

/-- What follows a choice may be written into its branches. -/
theorem ite_bind (c : Prop) [Decidable c] (m n : SaveM α) (f : α → SaveM β) :
    ((if c then m else n) >>= f) = if c then m >>= f else n >>= f := by
  by_cases hc : c
  · rw [if_pos hc, if_pos hc]
  · rw [if_neg hc, if_neg hc]

/-- What follows an option, into its two programs. -/
theorem onOption_bind (o : Option γ) (n : SaveM α) (f : γ → SaveM α) (h : α → SaveM β) :
    (onOption o n f >>= h) = onOption o (n >>= h) fun a => f a >>= h := by
  cases o <;> rfl

/-- A program for the image is one for the value. -/
theorem onOption_map (o : Option γ) (f : γ → α) (n : SaveM β) (h : α → SaveM β) :
    onOption (o.map f) n h = onOption o n fun a => h (f a) := by
  cases o <;> rfl

/-- A value is no step. -/
theorem pure_bind_prog (v : α) (f : α → SaveM β) : (pure v >>= f) = f v := rfl

/-- To end with nothing is none either. -/
theorem bind_pure_prog (m : SaveM Unit) : (m >>= fun _ => pure ()) = m := by
  funext env s
  cases hm : m env s with
  | ok v t => rw [bind_of_ok hm]; rfl
  | err e t => rw [bind_of_err hm]
  | trap => rw [bind_of_trap hm]
  | mistyped => rw [bind_of_mistyped hm]

/-- To leave a program out is to do nothing in its place. -/
theorem runIf_eq_ite (c : Prop) [Decidable c] (m : SaveM Unit) :
    runIf c m = if c then m else pure () := by
  funext env s
  rw [HostProg.runIf]
  by_cases hc : c
  · rw [if_pos hc, if_pos hc]
  · rw [if_neg hc, if_neg hc]
    rfl

end Branches

/-! Each entry point is its pieces, put together over the plain token. -/

/-- `contribute` is cut at its charge: what is left to do is to give up the guard. -/
theorem contribute_cut (g : Nat) (member : Address) (amount : Int) :
    contribute g member amount = (do
      let sent ← contributeBefore g member amount
      tokenTransferFrom sent.1 member contractAddress amount
      tempPut .guard (U64.mk 0)) := by
  simp only [contributeBefore, bind_assoc_prog]
  rfl

/-- A batch ends with its one charge. -/
theorem contributeBatch_cut (g : Nat) (member : Address) (cycles : List Nat) :
    contributeBatch g member cycles = (do
      let sent ← contributeBatchBefore g member cycles
      tokenTransferFrom sent.1 member contractAddress sent.2) := by
  simp only [contributeBatchBefore, bind_assoc_prog]
  rfl

/-- A refund ends with its transfer, and answers with the record written before. -/
theorem requestRefund_cut (g cycle : Nat) (caller : Address) :
    requestRefund g cycle caller = (do
      let sent ← requestRefundBefore g cycle caller
      tokenTransfer sent.1 contractAddress sent.2.member sent.2.amount
      pure sent.2) := by
  simp only [requestRefundBefore, bind_assoc_prog]
  rfl

/-- A payout is cut in the middle: the group it read before the transfer is stored after
    it. -/
theorem executePayout_cut (g : Nat) :
    executePayout g = (do
      let grp ← lockPayout g
      let plan ← validatePayout g grp
      let grp' ← settlePayout g grp plan.1 plan.2
      failIf (plan.2 ≤ 0) .payoutFailed
      let config : TokenConfig ← getOr (.grpTok g) .groupNotFound
      tokenTransfer config.tokenAddress contractAddress plan.1 plan.2
      put (.grp g) { grp' with payoutInProgress := false }) := by
  simp only [executePayout, executeTransfer, bind_assoc_prog]

/-- The automatic collection charges a member after it recorded the contribution. -/
theorem autoContributeMember_cut (g cycle : Nat) (tok : Address) (amount : Int)
    (time executed : Nat) (member : Address) :
    SaveContribution.autoContributeMember g cycle tok amount time executed member = (do
      let due ← autoContributeBefore g cycle tok amount time member
      if due = true then do
        tokenTransferFrom tok member contractAddress amount
        unwrap (checkedU32 (executed + 1))
      else pure executed) := by
  simp only [autoContributeBefore, bind_assoc_prog, ite_bind]
  rfl

/-- A contribution with a proof calls no token. -/
theorem contributeWithProof_cut (g : Nat) (member : Address) (amount : Int) :
    contributeWithProof g member amount = (do
      let _ ← contributeWithProofBefore g member amount
      pure ()) := by
  simp only [contributeWithProofBefore, bind_assoc_prog]
  rfl

/-- A withdrawal ends with its transfer, if there is anything to send. -/
theorem emergencyWithdraw_cut (g : Nat) (member : Address) :
    SaveRefund.emergencyWithdraw g member = (do
      let sent ← emergencyWithdrawBefore g member
      onOption sent (pure ()) fun sent =>
        tokenTransfer sent.1 contractAddress member sent.2) := by
  simp only [emergencyWithdrawBefore, bind_assoc_prog, ite_bind]
  rfl

/-- So does the reward. -/
theorem claimCompletionReward_cut (member : Address) (g : Nat) :
    SaveAdmin.claimCompletionReward member g = (do
      let sent ← claimCompletionRewardBefore member g
      onOption sent (pure ()) fun sent =>
        tokenTransfer sent.1 contractAddress member sent.2) := by
  simp only [claimCompletionRewardBefore, bind_assoc_prog, pure_bind_prog, onOption_map]
  rfl

/-- And the refund of one member in a dissolution. -/
theorem refundOnDissolution_cut (g currentCycle : Nat) (tok : Address) (time : Nat)
    (member : Address) :
    SaveRefund.refundOnDissolution g currentCycle tok time member = (do
      let sent ← refundOnDissolutionBefore g currentCycle time member
      onOption sent (pure ()) fun amount =>
        tokenTransfer tok contractAddress member amount) := by
  simp only [refundOnDissolutionBefore, bind_assoc_prog, onOption_bind, ite_bind]
  simp only [SaveRefund.refundOnDissolution, runIf_eq_ite]
  rfl

/-- The last vote goes on with the dissolution, and any other ends there. -/
theorem voteDissolve_cut (g : Nat) (caller : Address) :
    SaveRefund.voteDissolve g caller = (do
      let voted ← voteDissolveBefore g caller
      runIf (voted.1.memberCount ≤ voted.2) (SaveRefund.executeDissolution g voted.1)) := by
  simp only [voteDissolveBefore, bind_assoc_prog]
  rfl

/-- The creation of a group is cut at the fee. -/
theorem createGroup_cut (creator : Address) (contributionAmount : Int)
    (cycleDuration maxMembers : Nat) (tok : Address) (gracePeriodSeconds : Nat)
    (order : PayoutOrder) :
    quietly (SaveLifecycle.createGroup creator contributionAmount cycleDuration maxMembers tok
      gracePeriodSeconds order) = (do
      let fee ← createGroupBefore creator contributionAmount cycleDuration maxMembers tok
        gracePeriodSeconds order
      onOption fee (pure ()) fun fee => tokenTransfer tok creator fee.1 fee.2) := by
  -- the fee is the token call: what comes before it is the check of the configuration
  have hfee : ∀ config : Option ContractConfig,
      onOption config (pure ()) (chargeCreationFee creator tok) =
        onOption (config.bind fun config =>
            if config.creationFee > 0 then
              config.treasury.map fun treasury => (treasury, config.creationFee)
            else none)
          (pure ()) fun fee => tokenTransfer tok creator fee.1 fee.2 := by
    intro config
    cases config with
    | none => rfl
    | some config =>
        show chargeCreationFee creator tok config = _
        rw [chargeCreationFee, runIf_eq_ite, Option.bind_some]
        by_cases hc : config.creationFee > 0
        · rw [if_pos hc, if_pos hc, onOption_map]
        · rw [if_neg hc, if_neg hc]
          rfl
  simp only [createGroupBefore, quietly, SaveLifecycle.createGroup, bind_assoc_prog,
    pure_bind_prog, bind_pure_prog, hfee]

/-! So over the honest token, and without the journal, it is the entry point. -/

/-- Every entry point is what comes before its token call, the call, and the rest. -/
theorem body_eq (x : Tokens) (o : Outer) : o.body x = (do
    let pending ← o.before
    handOver x pending.asked
    lift pending.rest) := rfl

/-- Over the honest token each is the entry point it was cut from. -/
theorem outer_erases (o : Outer) : Erases (o.body honest) o.call.body := by
  rw [body_eq]
  cases o with
  | contribute g member amount =>
      simp only [Outer.before, bind_assoc_prog, Outer.call, Call.body, contribute_cut]
      exact (Erases.lift _).bind fun sent => Erases.note_bind
        ((honest_erases _).bind fun _ => Erases.lift _)
  | contributeBatch g member cycles =>
      simp only [Outer.before, bind_assoc_prog, Outer.call, Call.body, contributeBatch_cut]
      rw [← bind_pure_prog (_ >>= _)]
      simp only [bind_assoc_prog]
      exact (Erases.lift _).bind fun sent => Erases.note_bind
        ((honest_erases _).bind fun _ => Erases.lift _)
  | requestRefund g cycle caller =>
      simp only [Outer.before, bind_assoc_prog, Outer.call, Call.body, quietly, requestRefund_cut]
      exact (Erases.lift _).bind fun sent => Erases.note_bind
        ((honest_erases _).bind fun _ => Erases.lift _)
  | executePayout g =>
      simp only [Outer.before, executePayoutBefore, bind_assoc_prog, Outer.call, Call.body,
        executePayout_cut]
      iterate 2 refine (Erases.lift _).bind fun _ => ?_
      refine Erases.note_bind ?_
      iterate 3 refine (Erases.lift _).bind fun _ => ?_
      exact (honest_erases _).bind fun _ => Erases.lift _

/-- So is the collection, which calls a token for every member. -/
theorem executeAutoContributions_erases (g : Nat) :
    Erases (executeAutoContributions honest g) (SaveContribution.executeAutoContributions g) := by
  have hmember : ∀ (cycle : Nat) (tok : Address) (amount : Int) (time executed : Nat)
      (member : Address),
      Erases (autoContributeMember honest g cycle tok amount time executed member)
        (SaveContribution.autoContributeMember g cycle tok amount time executed member) := by
    intro cycle tok amount time executed member
    rw [autoContributeMember_cut]
    exact (Erases.lift _).bind fun due => Erases.ite _
      (Erases.note_bind ((honest_erases _).bind fun _ => Erases.lift _)) (Erases.pure _)
  iterate 5 refine (Erases.lift _).bind fun _ => ?_
  exact Erases.foldEach (fun executed member => hmember _ _ _ _ executed member) _ _

/-- So is the vote, whose dissolution does. -/
theorem voteDissolve_erases (g : Nat) (caller : Address) :
    Erases (voteDissolve honest g caller) (SaveRefund.voteDissolve g caller) := by
  have hmember : ∀ (cycle : Nat) (tok : Address) (time : Nat) (member : Address),
      Erases (refundOnDissolution honest g cycle tok time member)
        (SaveRefund.refundOnDissolution g cycle tok time member) := by
    intro cycle tok time member
    rw [refundOnDissolution_cut]
    exact (Erases.lift _).bind fun sent => Erases.onOption _ (Erases.pure _) fun amount =>
      Erases.note_bind (honest_erases _)
  rw [voteDissolve_cut]
  refine (Erases.lift _).bind fun voted => Erases.runIf _ ?_
  iterate 5 refine (Erases.lift _).bind fun _ => ?_
  exact Erases.forEach (fun member => hmember _ _ _ member) _

/-- So is the tick, which may pay out. -/
theorem tick_erases (g : Nat) : Erases (tick honest g) (SavePayout.tick g) := by
  have hpay := (outer_erases (.executePayout g)).attempt
  iterate 6 refine (Erases.lift _).bind fun _ => ?_
  refine (Erases.runIf _ (hpay.bind fun _ => Erases.pure _)).bind fun _ => ?_
  iterate 2 refine (Erases.lift _).bind fun _ => ?_
  exact Erases.lift _

/-- **THE CUT IS FAITHFUL**: over honest tokens, and without its journal, every
    entry point is the one of the model. -/
theorem reentrant_erases (c : Call) : Erases (reentrant honest c) c.body := by
  -- the entry points with one token call, those with many, and those without
  cases c with
  | contribute g member amount => exact outer_erases (.contribute g member amount)
  | contributeBatch g member cycles => exact outer_erases (.contributeBatch g member cycles)
  | requestRefund g cycle caller => exact outer_erases (.requestRefund g cycle caller)
  | executePayout g => exact outer_erases (.executePayout g)
  | tick g => exact tick_erases g
  | executeAutoContributions g =>
      exact (executeAutoContributions_erases g).bind fun _ => Erases.pure _
  | contributeWithProof g member amount =>
      rw [Call.body, contributeWithProof_cut]
      exact (Erases.lift _).bind fun cycle => Erases.note_bind (Erases.pure _)
  | emergencyWithdraw g member =>
      rw [Call.body, emergencyWithdraw_cut]
      exact (Erases.lift _).bind fun sent =>
        Erases.onOption _ (Erases.pure _) fun _ => honest_erases _
  | claimCompletionReward member g =>
      rw [Call.body, claimCompletionReward_cut]
      exact (Erases.lift _).bind fun sent =>
        Erases.onOption _ (Erases.pure _) fun _ => honest_erases _
  | voteDissolve g caller => exact voteDissolve_erases g caller
  | createGroup creator amount duration maxMembers tok grace order =>
      rw [Call.body, createGroup_cut]
      exact (Erases.lift _).bind fun fee =>
        Erases.onOption _ (Erases.pure _) fun _ => honest_erases _
  | _ => exact Erases.lift _

end SaveReentry
