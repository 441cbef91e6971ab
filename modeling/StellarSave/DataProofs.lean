import StellarSave.FootprintProofs
import StellarSave.TokenLedgerProofs
import Std.Data.TreeMap
import Std.Data.TreeMap.Lemmas

/-! # The savings contract's data — keys, stored values, errors, environment

    The storage enum, the records kept under it and the pure functions on
    them (`group.rs`, `storage.rs`, `types.rs`, `contribution.rs`,
    `payout.rs`, `refund.rs`, `rating.rs`, `penalty.rs`, `milestones.rs`).

    Unsigned machine integers are naturals and signed ones integers; every
    place where the contract's arithmetic is checked, saturating or trapping
    says so.  What is stored carries its width, because the host refuses to
    read an entry at another type: `U32`, `U64`, `I32` and `I128` are the tags.

    Events and TTL extensions are not part of the state. -/

namespace SaveData

open HostProg Footprint TokenLedger

/-! ## Machine integers -/

/-- The largest `u32`. -/
def u32Max : Nat := 4294967295

/-- The largest `u64`. -/
def u64Max : Nat := 18446744073709551615

/-- One past the largest `i128`. -/
def i128Bound : Int := 170141183460469231731687303715884105728

/-- A result that still fits a `u32`. -/
def checkedU32 (n : Nat) : Option Nat := if n ≤ u32Max then some n else none

/-- A result that still fits a `u64`. -/
def checkedU64 (n : Nat) : Option Nat := if n ≤ u64Max then some n else none

/-- A result that still fits an `i128`. -/
def checkedI128 (z : Int) : Option Int :=
  if -i128Bound ≤ z ∧ z < i128Bound then some z else none

/-- `u32` arithmetic that sticks at the top. -/
def saturatingU32 (n : Nat) : Nat := min n u32Max

/-- `u64` arithmetic that sticks at the top. -/
def saturatingU64 (n : Nat) : Nat := min n u64Max

/-- `i128` arithmetic that sticks at both ends. -/
def saturatingI128 (z : Int) : Int := max (-i128Bound) (min z (i128Bound - 1))

/-- `checked_add` and its kin answer with the exact value where it fits. -/
@[simp] theorem checkedU32_eq_some {n m : Nat} :
    checkedU32 n = some m ↔ n ≤ u32Max ∧ n = m := by
  rw [checkedU32]
  by_cases h : n ≤ u32Max <;> simp [h]

/-- And with nothing where it does not. -/
@[simp] theorem checkedU32_eq_none {n : Nat} : checkedU32 n = none ↔ u32Max < n := by
  rw [checkedU32]
  by_cases h : n ≤ u32Max
  · simp [h]
  · simp [h, Nat.lt_of_not_le h]

/-- The same of 64 bits. -/
@[simp] theorem checkedU64_eq_some {n m : Nat} :
    checkedU64 n = some m ↔ n ≤ u64Max ∧ n = m := by
  rw [checkedU64]
  by_cases h : n ≤ u64Max <;> simp [h]

/-- And of 128 bits with a sign, which fits within both ends. -/
@[simp] theorem checkedI128_eq_some {z y : Int} :
    checkedI128 z = some y ↔ (-i128Bound ≤ z ∧ z < i128Bound) ∧ z = y := by
  rw [checkedI128]
  by_cases h : -i128Bound ≤ z ∧ z < i128Bound <;> simp [h]

/-- Nothing comes of an overflow at either end. -/
@[simp] theorem checkedI128_eq_none {z : Int} :
    checkedI128 z = none ↔ ¬ (-i128Bound ≤ z ∧ z < i128Bound) := by
  rw [checkedI128]
  by_cases h : -i128Bound ≤ z ∧ z < i128Bound <;> simp [h]

/-- A stored `u32`. -/
structure U32 where
  val : Nat
  deriving DecidableEq, Repr

/-- A stored `u64`. -/
structure U64 where
  val : Nat
  deriving DecidableEq, Repr

/-- A stored `i32`. -/
structure I32 where
  val : Int
  deriving DecidableEq, Repr

/-- A stored `i128`. -/
structure I128 where
  val : Int
  deriving DecidableEq, Repr

/-! ## Addresses and keys -/

/-- An account or contract address. -/
structure Address where
  id : Nat
  deriving DecidableEq, Repr

/-- `env.current_contract_address()`. -/
def contractAddress : Address := ⟨0⟩

/-- `StorageKey`, and after it the symbol-tuple keys used beside the enum. -/
inductive Key where
  | grp (g : Nat)
  | grpMbrs (g : Nat)
  | grpSeq (g : Nat)
  | grpStat (g : Nat)
  | grpTok (g : Nat)
  | grpDspR (g : Nat)
  | grpMrgF (g : Nat)
  | grpInv (g : Nat)
  | grpPosIx (g p : Nat)
  | grpArch (g : Nat)
  | grpRate (g : Nat) (a : Address)
  | grpRateA (g : Nat)
  | grpDspV (g : Nat) (a : Address)
  | grpBid (g c : Nat) (a : Address)
  | mbrProf (g : Nat) (a : Address)
  | mbrPElig (g : Nat) (a : Address)
  | mbrRwdC (g : Nat) (a : Address)
  | mbrPen (g : Nat) (a : Address)
  | mbrStrk (g : Nat) (a : Address)
  | mbrAuto (g : Nat) (a : Address)
  | mbrRef (g : Nat) (a : Address)
  | contrib (g c : Nat) (a : Address)
  | cycTotal (g c : Nat)
  | cycCount (g c : Nat)
  | cProof (g c : Nat) (a : Address)
  | cRemind (g c : Nat) (a : Address)
  | cPendAmt (g : Nat)
  | cAmtVote (g : Nat)
  | cMbrVote (g : Nat) (a : Address)
  | cDisCnt (g : Nat)
  | cDisVote (g : Nat) (a : Address)
  | refund (g c : Nat) (a : Address)
  | payout (g c : Nat)
  | payRecip (g c : Nat)
  | payStat (g c : Nat)
  | cntNextG
  | cntTotG
  | config
  | guard
  | grpBal (g : Nat)
  | grpPaid (g : Nat)
  | emrgPause
  | storeVer
  | alwdToks
  | dlExt (g c : Nat)
  | dspCount (g : Nat)
  | penCfg (g : Nat)
  | penSt (g : Nat) (a : Address)
  | penHi (g : Nat) (a : Address)
  | conVer
  | usrGrps (a : Address)
  deriving DecidableEq

/-- The constructor of a key, without its arguments. -/
inductive Kind where
  | grp | grpMbrs | grpSeq | grpStat | grpTok | grpDspR | grpMrgF | grpInv | grpPosIx
  | grpArch | grpRate | grpRateA | grpDspV | grpBid | mbrProf | mbrPElig | mbrRwdC
  | mbrPen | mbrStrk | mbrAuto | mbrRef | contrib | cycTotal | cycCount | cProof
  | cRemind | cPendAmt | cAmtVote | cMbrVote | cDisCnt | cDisVote | refund | payout
  | payRecip | payStat | cntNextG | cntTotG | config | guard | grpBal | grpPaid
  | emrgPause | storeVer | alwdToks | dlExt | dspCount | penCfg | penSt | penHi | conVer
  | usrGrps
  deriving DecidableEq

/-- The constructor a key is built with. -/
@[reducible] def Key.kind : Key → Kind
  | grp _ => .grp
  | grpMbrs _ => .grpMbrs
  | grpSeq _ => .grpSeq
  | grpStat _ => .grpStat
  | grpTok _ => .grpTok
  | grpDspR _ => .grpDspR
  | grpMrgF _ => .grpMrgF
  | grpInv _ => .grpInv
  | grpPosIx _ _ => .grpPosIx
  | grpArch _ => .grpArch
  | grpRate _ _ => .grpRate
  | grpRateA _ => .grpRateA
  | grpDspV _ _ => .grpDspV
  | grpBid _ _ _ => .grpBid
  | mbrProf _ _ => .mbrProf
  | mbrPElig _ _ => .mbrPElig
  | mbrRwdC _ _ => .mbrRwdC
  | mbrPen _ _ => .mbrPen
  | mbrStrk _ _ => .mbrStrk
  | mbrAuto _ _ => .mbrAuto
  | mbrRef _ _ => .mbrRef
  | contrib _ _ _ => .contrib
  | cycTotal _ _ => .cycTotal
  | cycCount _ _ => .cycCount
  | cProof _ _ _ => .cProof
  | cRemind _ _ _ => .cRemind
  | cPendAmt _ => .cPendAmt
  | cAmtVote _ => .cAmtVote
  | cMbrVote _ _ => .cMbrVote
  | cDisCnt _ => .cDisCnt
  | cDisVote _ _ => .cDisVote
  | refund _ _ _ => .refund
  | payout _ _ => .payout
  | payRecip _ _ => .payRecip
  | payStat _ _ => .payStat
  | cntNextG => .cntNextG
  | cntTotG => .cntTotG
  | config => .config
  | guard => .guard
  | grpBal _ => .grpBal
  | grpPaid _ => .grpPaid
  | emrgPause => .emrgPause
  | storeVer => .storeVer
  | alwdToks => .alwdToks
  | dlExt _ _ => .dlExt
  | dspCount _ => .dspCount
  | penCfg _ => .penCfg
  | penSt _ _ => .penSt
  | penHi _ _ => .penHi
  | conVer => .conVer
  | usrGrps _ => .usrGrps

/-- The group a key belongs to; `0` for the global keys. -/
@[reducible] def Key.group : Key → Nat
  | grp g | grpMbrs g | grpSeq g | grpStat g | grpTok g | grpDspR g | grpMrgF g
  | grpInv g | grpArch g | grpRateA g | cPendAmt g | cAmtVote g | cDisCnt g
  | grpBal g | grpPaid g | dspCount g | penCfg g => g
  | grpPosIx g _ | grpRate g _ | grpDspV g _ | mbrProf g _ | mbrPElig g _ | mbrRwdC g _
  | mbrPen g _ | mbrStrk g _ | mbrAuto g _ | mbrRef g _ | cycTotal g _ | cycCount g _
  | cMbrVote g _ | cDisVote g _ | payout g _ | payRecip g _ | payStat g _ | dlExt g _
  | penSt g _ | penHi g _ => g
  | grpBid g _ _ | contrib g _ _ | cProof g _ _ | cRemind g _ _ | refund g _ _ => g
  | cntNextG | cntTotG | config | guard | emrgPause | storeVer | alwdToks | conVer
  | usrGrps _ => 0

/-! ## Records -/

/-- `GroupStatus`. -/
inductive GroupStatus where
  | pending
  | active
  | paused
  | completed
  | cancelled
  deriving DecidableEq, Repr

/-- `GroupStatus::can_transition_to`, the declared state machine. -/
def GroupStatus.canTransitionTo : GroupStatus → GroupStatus → Bool
  | s, t =>
    if s = t then true
    else match s, t with
      | .pending, .active => true
      | .pending, .cancelled => true
      | .active, .paused => true
      | .active, .completed => true
      | .active, .cancelled => true
      | .paused, .active => true
      | .paused, .cancelled => true
      | _, _ => false

/-- `GroupStatus::is_terminal`. -/
def GroupStatus.isTerminal : GroupStatus → Bool
  | .completed | .cancelled => true
  | _ => false

/-- `PayoutOrder`. -/
inductive PayoutOrder where
  | sequential
  | random
  | bid
  deriving DecidableEq, Repr

/-- `Group`. -/
structure Group where
  id : Nat
  creator : Address
  contributionAmount : Int
  cycleDuration : Nat
  maxMembers : Nat
  minMembers : Nat
  memberCount : Nat
  currentCycle : Nat
  isActive : Bool
  status : GroupStatus
  createdAt : Nat
  started : Bool
  startedAt : Nat
  requireContributionProof : Bool
  allowDynamicContributions : Bool
  gracePeriodSeconds : Nat
  invitationOnly : Bool
  rewardPool : Int
  paused : Bool
  penaltyEnabled : Bool
  penaltyAmount : Int
  disputeActive : Bool
  name : Option String
  description : Option String
  imageUrl : Option String
  archived : Bool
  payoutOrder : PayoutOrder
  payoutInProgress : Bool
  deriving DecidableEq, Repr

/-- `TokenConfig`. -/
structure TokenConfig where
  tokenAddress : Address
  tokenDecimals : Nat
  deriving DecidableEq, Repr

/-- `ContractConfig`. -/
structure ContractConfig where
  admin : Address
  minContribution : Int
  maxContribution : Int
  minMembers : Nat
  maxMembers : Nat
  minCycleDuration : Nat
  maxCycleDuration : Nat
  treasury : Option Address
  creationFee : Int
  deriving DecidableEq, Repr

/-- `MemberProfile`. -/
structure MemberProfile where
  address : Address
  groupId : Nat
  payoutPosition : Nat
  joinedAt : Nat
  autoContributeEnabled : Bool
  deriving DecidableEq, Repr

/-- `ContributionRecord`. -/
structure ContributionRecord where
  memberAddress : Address
  groupId : Nat
  cycleNumber : Nat
  amount : Int
  timestamp : Nat
  deriving DecidableEq, Repr

/-- `PayoutRecord`. -/
structure PayoutRecord where
  recipient : Address
  groupId : Nat
  cycleNumber : Nat
  amount : Int
  timestamp : Nat
  deriving DecidableEq, Repr

/-- `RefundRecord`. -/
structure RefundRecord where
  groupId : Nat
  member : Address
  cycle : Nat
  amount : Int
  refundedAt : Nat
  deriving DecidableEq, Repr

/-- `ContributionStreak`. -/
structure ContributionStreak where
  currentStreak : Nat
  bestStreak : Nat
  lastContributedCycle : Nat
  deriving DecidableEq, Repr

/-- `ContributionStreak::default`: the sentinel cycle means "never". -/
def ContributionStreak.default : ContributionStreak := ⟨0, 0, u32Max⟩

/-- `RatingEntry`. -/
structure RatingEntry where
  member : Address
  stars : Nat
  comment : String
  ratedAt : Nat
  deriving DecidableEq, Repr

/-- `RatingAggregate`. -/
structure RatingAggregate where
  totalStars : Nat
  ratingCount : Nat
  deriving DecidableEq, Repr

/-- `PenaltyConfig`. -/
structure PenaltyConfig where
  basePenaltyBps : Nat
  penaltyIncrementBps : Nat
  maxPenaltyBps : Nat
  recoveryFeeBps : Nat
  deriving DecidableEq, Repr

/-- `PenaltyConfig::default`. -/
def PenaltyConfig.default : PenaltyConfig := ⟨500, 500, 2500, 1000⟩

/-- `PenaltyRecord`. -/
structure PenaltyRecord where
  cycleId : Nat
  amount : Int
  timestamp : Nat
  recovered : Bool
  deriving DecidableEq, Repr

/-- `MemberPenaltyState`. -/
structure MemberPenaltyState where
  missedCycles : Nat
  totalPenalty : Int
  deriving DecidableEq, Repr

/-- `Map<u32, Address>`, the roster: join slot to member, iterated by slot. -/
abbrev MemberMap := Std.TreeMap Nat Address

/-- The members in slot order, as `iter()` yields them. -/
def MemberMap.members (m : MemberMap) : List Address := m.toList.map Prod.snd

/-- A stored value with its host type. -/
inductive Val where
  | u32 (x : U32)
  | u64 (x : U64)
  | i32 (x : I32)
  | i128 (x : I128)
  | bool (x : Bool)
  | text (x : String)
  | address (x : Address)
  | addresses (x : List Address)
  | groupPair (x : Nat × Nat)
  | groupIds (x : List U64)
  | members (x : MemberMap)
  | group (x : Group)
  | status (x : GroupStatus)
  | tokenConfig (x : TokenConfig)
  | config (x : ContractConfig)
  | profile (x : MemberProfile)
  | contribution (x : ContributionRecord)
  | payout (x : PayoutRecord)
  | refund (x : RefundRecord)
  | streak (x : ContributionStreak)
  | rating (x : RatingEntry)
  | ratings (x : RatingAggregate)
  | penaltyConfig (x : PenaltyConfig)
  | penaltyState (x : MemberPenaltyState)
  | penaltyHistory (x : List PenaltyRecord)

/-- A tag and its partial inverse make a codec. -/
@[reducible] def codecOf {α : Type} (tag : α → Val) (untag : Val → Option α)
    (h : ∀ v a, untag v = some a ↔ v = tag a) : Codec Val α where
  encode := tag
  decode := untag
  decode_eq_some := h

section Codecs

instance : Codec Val U32 :=
  codecOf .u32 (fun | .u32 x => some x | _ => none) (by intro v a; cases v <;> simp)
instance : Codec Val U64 :=
  codecOf .u64 (fun | .u64 x => some x | _ => none) (by intro v a; cases v <;> simp)
instance : Codec Val I32 :=
  codecOf .i32 (fun | .i32 x => some x | _ => none) (by intro v a; cases v <;> simp)
instance : Codec Val I128 :=
  codecOf .i128 (fun | .i128 x => some x | _ => none) (by intro v a; cases v <;> simp)
instance : Codec Val Bool :=
  codecOf .bool (fun | .bool x => some x | _ => none) (by intro v a; cases v <;> simp)
instance : Codec Val String :=
  codecOf .text (fun | .text x => some x | _ => none) (by intro v a; cases v <;> simp)
instance : Codec Val Address :=
  codecOf .address (fun | .address x => some x | _ => none) (by intro v a; cases v <;> simp)
instance : Codec Val (List Address) :=
  codecOf .addresses (fun | .addresses x => some x | _ => none)
    (by intro v a; cases v <;> simp)
instance : Codec Val (Nat × Nat) :=
  codecOf .groupPair (fun | .groupPair x => some x | _ => none)
    (by intro v a; cases v <;> simp)
instance : Codec Val (List U64) :=
  codecOf .groupIds (fun | .groupIds x => some x | _ => none)
    (by intro v a; cases v <;> simp)
instance : Codec Val MemberMap :=
  codecOf .members (fun | .members x => some x | _ => none) (by intro v a; cases v <;> simp)
instance : Codec Val Group :=
  codecOf .group (fun | .group x => some x | _ => none) (by intro v a; cases v <;> simp)
instance : Codec Val GroupStatus :=
  codecOf .status (fun | .status x => some x | _ => none) (by intro v a; cases v <;> simp)
instance : Codec Val TokenConfig :=
  codecOf .tokenConfig (fun | .tokenConfig x => some x | _ => none)
    (by intro v a; cases v <;> simp)
instance : Codec Val ContractConfig :=
  codecOf .config (fun | .config x => some x | _ => none) (by intro v a; cases v <;> simp)
instance : Codec Val MemberProfile :=
  codecOf .profile (fun | .profile x => some x | _ => none) (by intro v a; cases v <;> simp)
instance : Codec Val ContributionRecord :=
  codecOf .contribution (fun | .contribution x => some x | _ => none)
    (by intro v a; cases v <;> simp)
instance : Codec Val PayoutRecord :=
  codecOf .payout (fun | .payout x => some x | _ => none) (by intro v a; cases v <;> simp)
instance : Codec Val RefundRecord :=
  codecOf .refund (fun | .refund x => some x | _ => none) (by intro v a; cases v <;> simp)
instance : Codec Val ContributionStreak :=
  codecOf .streak (fun | .streak x => some x | _ => none) (by intro v a; cases v <;> simp)
instance : Codec Val RatingEntry :=
  codecOf .rating (fun | .rating x => some x | _ => none) (by intro v a; cases v <;> simp)
instance : Codec Val RatingAggregate :=
  codecOf .ratings (fun | .ratings x => some x | _ => none) (by intro v a; cases v <;> simp)
instance : Codec Val PenaltyConfig :=
  codecOf .penaltyConfig (fun | .penaltyConfig x => some x | _ => none)
    (by intro v a; cases v <;> simp)
instance : Codec Val MemberPenaltyState :=
  codecOf .penaltyState (fun | .penaltyState x => some x | _ => none)
    (by intro v a; cases v <;> simp)
instance : Codec Val (List PenaltyRecord) :=
  codecOf .penaltyHistory (fun | .penaltyHistory x => some x | _ => none)
    (by intro v a; cases v <;> simp)

end Codecs

/-! ## Errors, environment, programs -/

/-- `StellarSaveError`. -/
inductive SaveError where
  | groupNotFound
  | groupFull
  | maxMembersExceeded
  | invalidState
  | invalidMetadata
  | alreadyMember
  | notMember
  | unauthorized
  | invalidAmount
  | alreadyContributed
  | cycleNotComplete
  | contributionNotFound
  | deadlineNotReached
  | contributionTooLow
  | contributionTooHigh
  | cycleDeadlineExpired
  | deadlineExtensionExceedsMax
  | invalidProof
  | payoutFailed
  | invalidRecipient
  | invalidToken
  | tokenTransferFailed
  | rewardAlreadyClaimed
  | rewardNotEligible
  | alreadyRefunded
  | refundNotEligible
  | mergeIncompatible
  | notInvited
  | groupNotArchivable
  | groupAlreadyDissolved
  | alreadyVotedDissolve
  | alreadyVoted
  | disputeActive
  | reentrancyDetected
  | internalError
  | overflow
  deriving DecidableEq, Repr

/-- What the host tells a call: the ledger time, who signed, the random draw,
    and whether a signature over a payload checks out.  Nobody can sign for
    the contract itself at the top level. -/
structure Env where
  timestamp : Nat
  signers : List Address
  prng : Nat
  ed25519Verify : List Nat → List Nat → List Nat → Bool
  contract_not_signer : contractAddress ∉ signers

/-- A plain environment: a time, some signatures, nothing drawn or proved. -/
def Env.plain (timestamp : Nat) (signers : List Address) (h : contractAddress ∉ signers) : Env where
  timestamp := timestamp
  signers := signers
  prng := 0
  ed25519Verify _ _ _ := false
  contract_not_signer := h

/-- The first and the second member, signing alone. -/
theorem first_signs : contractAddress ∉ [Address.mk 1] := by decide

/-- The contract does not sign for itself. -/
theorem second_signs : contractAddress ∉ [Address.mk 2] := by decide

/-- Every token the contract can meet. -/
abbrev Ledger := Book contractAddress

/-- Contract storage together with the token ledger. -/
abbrev State := HostState Key Val Ledger

/-- A contract function. -/
abbrev SaveM := Prog Env State SaveError

/-- `addr.require_auth()`: a missing signature traps. -/
def requireAuth (a : Address) : SaveM Unit := do
  let env ← ask
  demand (a ∈ env.signers)

/-- `env.ledger().timestamp()`. -/
def now : SaveM Nat := do
  let env ← ask
  pure env.timestamp

/-- `TokenClient::transfer`; the contract vouches for itself, anyone else must
    have signed. -/
def tokenTransfer (tok src dst : Address) (n : Int) : SaveM Unit := do
  let env ← ask
  demand (src = contractAddress ∨ src ∈ env.signers)
  callLedger fun l => l.transfer tok src dst n

/-- `TokenClient::transfer_from` with the contract as spender. -/
def tokenTransferFrom (tok src dst : Address) (n : Int) : SaveM Unit :=
  callLedger fun l => l.transferFrom tok src dst n

/-- `TokenClient::balance`. -/
def tokenBalance (tok a : Address) : SaveM Int := queryLedger fun l => l.balanceOf tok a

/-- `TokenClient::allowance` towards the contract. -/
def tokenAllowance (tok a : Address) : SaveM Int := queryLedger fun l => l.allowanceOf tok a

/-- `TokenClient::decimals`. -/
def tokenDecimals (tok : Address) : SaveM Nat := queryLedger fun l => l.decimalsOf tok

section Inversion

variable {env : Env} {s t : State} {u : Unit} {β : Type} {b : β}

/-- `require_auth` passes for a signer of the invocation and changes nothing. -/
@[simp] theorem requireAuth_ok {a : Address} :
    requireAuth a env s = .ok u t ↔ a ∈ env.signers ∧ s = t := by
  rw [requireAuth, ask_bind_ok, demand_ok]

/-- What follows it runs for a signer only. -/
@[simp] theorem requireAuth_bind_ok {a : Address} {f : Unit → SaveM β} :
    (requireAuth a >>= f) env s = .ok b t ↔ a ∈ env.signers ∧ f () env s = .ok b t := by
  rw [bind_ok_of_value (fun _ _ => requireAuth_ok)]
  constructor
  · rintro ⟨⟨⟩, h⟩
    exact h
  · intro h
    exact ⟨(), h⟩

/-- The time is that of the ledger the invocation runs in. -/
@[simp] theorem now_bind_ok {f : Nat → SaveM β} :
    (now >>= f) env s = .ok b t ↔ f env.timestamp env s = .ok b t := Iff.rfl

/-- The same for an error of what follows. -/
@[simp] theorem now_bind_err {f : Nat → SaveM β} {e : SaveError} :
    (now >>= f) env s = .err e t ↔ f env.timestamp env s = .err e t := Iff.rfl

/-- `transfer` needs the sender's word, which the contract gives for itself, and the
    money. -/
@[simp] theorem tokenTransfer_ok {tok src dst : Address} {n : Int} :
    tokenTransfer tok src dst n env s = .ok u t ↔
      (src = contractAddress ∨ src ∈ env.signers) ∧
        ∃ l, Book.transfer s.ledger tok src dst n = some l ∧ s.setLedger l = t := by
  simp [tokenTransfer]

/-- A refused transfer traps: it is no error of the contract. -/
@[simp] theorem tokenTransfer_err {tok src dst : Address} {n : Int} {e : SaveError} :
    tokenTransfer tok src dst n env s = .err e t ↔ False := by
  simp [tokenTransfer]

/-- `transfer_from` needs an allowance in place of the sender's word. -/
@[simp] theorem tokenTransferFrom_ok {tok src dst : Address} {n : Int} :
    tokenTransferFrom tok src dst n env s = .ok u t ↔
      ∃ l, Book.transferFrom s.ledger tok src dst n = some l ∧ s.setLedger l = t := by
  simp [tokenTransferFrom]

/-- What follows a transfer goes on from the new ledger. -/
@[simp] theorem tokenTransfer_bind_ok {tok src dst : Address} {n : Int} {f : Unit → SaveM β} :
    (tokenTransfer tok src dst n >>= f) env s = .ok b t ↔
      (src = contractAddress ∨ src ∈ env.signers) ∧
        ∃ l, Book.transfer s.ledger tok src dst n = some l ∧
          f () env (s.setLedger l) = .ok b t := by
  rw [bind_ok]
  constructor
  · rintro ⟨⟨⟩, u, hm, hf⟩
    obtain ⟨hauth, l, hl, rfl⟩ := tokenTransfer_ok.mp hm
    exact ⟨hauth, l, hl, hf⟩
  · rintro ⟨hauth, l, hl, hf⟩
    exact ⟨(), _, tokenTransfer_ok.mpr ⟨hauth, l, hl, rfl⟩, hf⟩

/-- What follows a charge does. -/
@[simp] theorem tokenTransferFrom_bind_ok {tok src dst : Address} {n : Int}
    {f : Unit → SaveM β} :
    (tokenTransferFrom tok src dst n >>= f) env s = .ok b t ↔
      ∃ l, Book.transferFrom s.ledger tok src dst n = some l ∧
        f () env (s.setLedger l) = .ok b t := by
  rw [bind_ok]
  constructor
  · rintro ⟨⟨⟩, u, hm, hf⟩
    obtain ⟨l, hl, rfl⟩ := tokenTransferFrom_ok.mp hm
    exact ⟨l, hl, hf⟩
  · rintro ⟨l, hl, hf⟩
    exact ⟨(), _, tokenTransferFrom_ok.mpr ⟨l, hl, rfl⟩, hf⟩

/-- The balance is asked of the token, if it is one. -/
@[simp] theorem tokenBalance_bind_ok {tok a : Address} {f : Int → SaveM β} :
    (tokenBalance tok a >>= f) env s = .ok b t ↔
      ∃ n, Book.balanceOf s.ledger tok a = some n ∧ f n env s = .ok b t :=
  bind_ok_of_value fun _ _ => queryLedger_ok

/-- The allowance for the contract is. -/
@[simp] theorem tokenAllowance_bind_ok {tok a : Address} {f : Int → SaveM β} :
    (tokenAllowance tok a >>= f) env s = .ok b t ↔
      ∃ n, Book.allowanceOf s.ledger tok a = some n ∧ f n env s = .ok b t :=
  bind_ok_of_value fun _ _ => queryLedger_ok

/-- And the number of decimals. -/
@[simp] theorem tokenDecimals_bind_ok {tok : Address} {f : Nat → SaveM β} :
    (tokenDecimals tok >>= f) env s = .ok b t ↔
      ∃ n, Book.decimalsOf s.ledger tok = some n ∧ f n env s = .ok b t :=
  bind_ok_of_value fun _ _ => queryLedger_ok

end Inversion

/-! ## Footprints over these keys -/

/-- A family of entries: one kind in one group, or one kind anywhere. -/
inductive Place where
  | of (kind : Kind) (g : Nat)
  | anywhere (kind : Kind)

/-- The entries of a family. -/
def Place.covers : Place → Key → Prop
  | .of κ g, k => k.kind = κ ∧ k.group = g
  | .anywhere κ, k => k.kind = κ

/-- The scope of a contract function: entry families, whether it takes the
    guard, whether it moves tokens. -/
def scope (ps : List Place) (locks moves : Prop) : Scope Key where
  persistent k := ∃ p ∈ ps, p.covers k
  temporary k := k = .guard ∧ locks
  ledger := moves

/-- A place names the keys of one kind in one group. -/
@[simp] theorem Place.covers_of {κ : Kind} {g : Nat} {k : Key} :
    (Place.of κ g).covers k ↔ k.kind = κ ∧ k.group = g := Iff.rfl

/-- Or those of a kind in every group. -/
@[simp] theorem Place.covers_anywhere {κ : Kind} {k : Key} :
    (Place.anywhere κ).covers k ↔ k.kind = κ := Iff.rfl

/-- A scope may write exactly the keys its places cover. -/
@[simp] theorem scope_persistent {ps : List Place} {locks moves : Prop} {k : Key} :
    (scope ps locks moves).persistent k ↔ ∃ p ∈ ps, p.covers k := Iff.rfl

/-- None of the group's entries of these kinds is in the family. -/
def Place.Spares (kinds : List Kind) (g : Nat) : Place → Prop
  | .of κ g' => κ ∈ kinds → g' ≠ g
  | .anywhere κ => κ ∉ kinds

/-- Places that spare some kinds of a group leave their keys alone. -/
theorem Place.not_covered {kinds : List Kind} {g : Nat} {ps : List Place} {locks moves : Prop}
    (hps : ∀ p ∈ ps, p.Spares kinds g) (k : Key) (hk : k.group = g) (hkind : k.kind ∈ kinds) :
    ¬ (scope ps locks moves).persistent k := by
  rintro ⟨p, hp, hcov⟩
  have haway := hps p hp
  cases p with
  | of κ g' => exact haway (hcov.1 ▸ hkind) (hcov.2.symm.trans hk)
  | anywhere κ => exact haway (hcov ▸ hkind)

/-- The kind of the entries of a family. -/
def Place.kind : Place → Kind
  | .of κ _ => κ
  | .anywhere κ => κ

/-- Families of other kinds spare the group's entries, whichever group they are of. -/
theorem Place.spares_of_kinds {kinds : List Kind} {g : Nat} {ps : List Place}
    (h : (ps.all fun p => p.kind ∉ kinds) = true) : ∀ p ∈ ps, p.Spares kinds g := by
  simp only [List.all_eq_true, decide_eq_true_eq] at h
  intro p hp
  cases p with
  | of κ g' => exact fun hmem => absurd hmem (h _ hp)
  | anywhere κ => exact h _ hp

/-- No family is of the key's kind. -/
theorem Place.other_kind {ps : List Place} {k : Key} {locks moves : Prop}
    (h : (ps.all fun p => p.kind ≠ k.kind) = true) : ¬ (scope ps locks moves).persistent k := by
  simp only [List.all_eq_true, decide_eq_true_eq] at h
  rintro ⟨p, hp, hcov⟩
  cases p with
  | of κ g => exact h _ hp hcov.1.symm
  | anywhere κ => exact h _ hp hcov.symm

/-- Equality found by computation during instance search. -/
class SameAs {α : Type} (a b : α) : Prop where
  eq : a = b

instance {α : Type} (a : α) : SameAs a a := ⟨rfl⟩

/-- The key belongs to one of the families. -/
class Covered (k : Key) (ps : List Place) : Prop where
  holds : ∃ p ∈ ps, p.covers k

instance Covered.here_of (k : Key) (κ : Kind) (g : Nat) (ps : List Place)
    [hκ : SameAs k.kind κ] [hg : SameAs k.group g] : Covered k (.of κ g :: ps) :=
  ⟨_, List.mem_cons_self, hκ.eq, hg.eq⟩

instance Covered.here_anywhere (k : Key) (κ : Kind) (ps : List Place)
    [hκ : SameAs k.kind κ] : Covered k (.anywhere κ :: ps) :=
  ⟨_, List.mem_cons_self, hκ.eq⟩

instance (priority := low) Covered.later (k : Key) (p : Place) (ps : List Place)
    [h : Covered k ps] : Covered k (p :: ps) := by
  obtain ⟨q, hq, hk⟩ := h.holds
  exact ⟨q, List.mem_cons_of_mem _ hq, hk⟩

instance (k : Key) (ps : List Place) (locks moves : Prop) [h : Covered k ps] :
    Allows (scope ps locks moves).persistent k := ⟨h.holds⟩

instance (ps : List Place) (moves : Prop) : Allows (scope ps True moves).temporary .guard :=
  ⟨rfl, trivial⟩

instance (ps : List Place) (locks : Prop) : Granted (scope ps locks True).ledger := ⟨trivial⟩

section Footprints

variable {w : Scope Key}

instance (a : Address) : Within w (requireAuth a) := by
  rw [requireAuth]
  infer_instance

instance : Within w now := by
  rw [now]
  infer_instance

instance (tok src dst : Address) (n : Int) [Granted w.ledger] :
    Within w (tokenTransfer tok src dst n) := by
  rw [tokenTransfer]
  infer_instance

instance (tok src dst : Address) (n : Int) [Granted w.ledger] :
    Within w (tokenTransferFrom tok src dst n) := by
  rw [tokenTransferFrom]
  infer_instance

instance (tok a : Address) : Within w (tokenBalance tok a) := by
  rw [tokenBalance]
  infer_instance

instance (tok a : Address) : Within w (tokenAllowance tok a) := by
  rw [tokenAllowance]
  infer_instance

instance (tok : Address) : Within w (tokenDecimals tok) := by
  rw [tokenDecimals]
  infer_instance

end Footprints

/-! ## Typed views of the storage -/

section Views

variable (s : State)

/-- The group record. -/
abbrev groupAt (g : Nat) : Option Group := readAt Group s.persistent (.grp g)

/-- The value under the group's own status key. -/
abbrev statusAt (g : Nat) : Option GroupStatus := readAt GroupStatus s.persistent (.grpStat g)

/-- The roster. -/
abbrev membersAt (g : Nat) : Option MemberMap := readAt MemberMap s.persistent (.grpMbrs g)

/-- The group's token. -/
abbrev tokenAt (g : Nat) : Option TokenConfig := readAt TokenConfig s.persistent (.grpTok g)

/-- A member's profile. -/
abbrev profileAt (g : Nat) (a : Address) : Option MemberProfile :=
  readAt MemberProfile s.persistent (.mbrProf g a)

/-- A member's position under the eligibility key. -/
abbrev eligAt (g : Nat) (a : Address) : Option U32 := readAt U32 s.persistent (.mbrPElig g a)

/-- The member a payout position points at. -/
abbrev posIxAt (g p : Nat) : Option Address := readAt Address s.persistent (.grpPosIx g p)

/-- A member's contribution to one cycle. -/
abbrev contribAt (g c : Nat) (a : Address) : Option ContributionRecord :=
  readAt ContributionRecord s.persistent (.contrib g c a)

/-- The running total of a cycle. -/
abbrev cycTotalAt (g c : Nat) : Int :=
  ((readAt I128 s.persistent (.cycTotal g c)).getD ⟨0⟩).val

/-- The number of contributors to a cycle. -/
abbrev cycCountAt (g c : Nat) : Nat :=
  ((readAt U32 s.persistent (.cycCount g c)).getD ⟨0⟩).val

/-- The group's running balance. -/
abbrev grpBalAt (g : Nat) : Int := ((readAt I128 s.persistent (.grpBal g)).getD ⟨0⟩).val

/-- What the group has paid out so far. -/
abbrev grpPaidAt (g : Nat) : Int := ((readAt I128 s.persistent (.grpPaid g)).getD ⟨0⟩).val

/-- The recipient of a cycle's payout. -/
abbrev payRecipAt (g c : Nat) : Option Address := readAt Address s.persistent (.payRecip g c)

/-- The refund record of a contribution. -/
abbrev refundAt (g c : Nat) (a : Address) : Option RefundRecord :=
  readAt RefundRecord s.persistent (.refund g c a)

/-- A member's streak. -/
abbrev streakAt (g : Nat) (a : Address) : ContributionStreak :=
  (readAt ContributionStreak s.persistent (.mbrStrk g a)).getD .default

/-- Nothing stored yet. -/
def deployed (l : Ledger) : State := ⟨fun _ => none, fun _ => none, l⟩

/-- What a member paid into a cycle. -/
def paidIn (g c : Nat) (a : Address) : Int :=
  ((contribAt s g c a).map ContributionRecord.amount).getD 0

/-- What the contract holds of one token. -/
def escrow (tok : Address) : Int := Book.holding s.ledger tok contractAddress

/-- What the contract holds of the group's token. -/
def groupEscrow (g : Nat) : Int :=
  match tokenAt s g with
  | some config => escrow s config.tokenAddress
  | none => 0

end Views

/-- A write to one kind of entry leaves the others alone. -/
theorem persistent_set_of_mem {s : State} {k k' : Key} {v : Val} {κs : List Kind}
    (hk : k.kind ∈ κs) (hk' : k'.kind ∉ κs) : (s.set k' v).persistent k = s.persistent k := by
  rw [HostState.set_persistent, if_neg]
  rintro rfl
  exact hk' hk

/-- What a record says its member paid. -/
theorem paidIn_of_record {s : State} {g c : Nat} {a : Address} {record : ContributionRecord}
    (h : contribAt s g c a = some record) : paidIn s g c a = record.amount := by
  rw [paidIn, h]
  rfl

/-- Nothing was paid where nothing is recorded. -/
theorem paidIn_of_none {s : State} {g c : Nat} {a : Address} (h : contribAt s g c a = none) :
    paidIn s g c a = 0 := by
  rw [paidIn, h]
  rfl

/-- A group that has a token: the escrow is the holding of that token. -/
theorem groupEscrow_of_token {s : State} {g : Nat} {config : TokenConfig}
    (h : tokenAt s g = some config) :
    groupEscrow s g = Book.holding s.ledger config.tokenAddress contractAddress := by
  rw [groupEscrow, h]
  rfl

/-- The token and the ledger decide the escrow. -/
theorem groupEscrow_congr {s t : State} {g : Nat} (htoken : tokenAt t g = tokenAt s g)
    (hledger : t.ledger = s.ledger) : groupEscrow t g = groupEscrow s g := by
  simp only [groupEscrow, escrow, htoken, hledger]

/-! ## Group functions -/

namespace Group

/-- `Group::is_complete`. -/
def isComplete (grp : Group) : Bool :=
  decide (grp.maxMembers ≤ grp.currentCycle) || decide (grp.status = .completed)

/-- The record a new group starts with: born `Active`, not started, empty. -/
def fresh (id : Nat) (creator : Address) (contributionAmount : Int)
    (cycleDuration maxMembers minMembers createdAt gracePeriodSeconds : Nat)
    (penaltyEnabled : Bool) (penaltyAmount : Int) : Group where
  id := id
  creator := creator
  contributionAmount := contributionAmount
  cycleDuration := cycleDuration
  maxMembers := maxMembers
  minMembers := minMembers
  memberCount := 0
  currentCycle := 0
  isActive := true
  status := .active
  createdAt := createdAt
  started := false
  startedAt := 0
  requireContributionProof := false
  allowDynamicContributions := false
  gracePeriodSeconds := gracePeriodSeconds
  invitationOnly := false
  rewardPool := 0
  paused := false
  penaltyEnabled := penaltyEnabled
  penaltyAmount := penaltyAmount
  disputeActive := false
  name := none
  description := none
  imageUrl := none
  archived := false
  payoutOrder := .sequential
  payoutInProgress := false

/-- `Group::new_with_penalty`: every assertion traps. -/
def newWithPenalty (id : Nat) (creator : Address) (contributionAmount : Int)
    (cycleDuration maxMembers minMembers createdAt gracePeriodSeconds : Nat)
    (penaltyEnabled : Bool) (penaltyAmount : Int) : SaveM Group := do
  demand (contributionAmount > 0)
  demand (cycleDuration > 0)
  demand (maxMembers ≥ 2)
  demand (minMembers ≥ 2)
  demand (minMembers ≤ maxMembers)
  demand (gracePeriodSeconds ≤ 604800)
  pure (fresh id creator contributionAmount cycleDuration maxMembers minMembers createdAt
    gracePeriodSeconds penaltyEnabled penaltyAmount)

/-- `Group::new`. -/
def new (id : Nat) (creator : Address) (contributionAmount : Int)
    (cycleDuration maxMembers minMembers createdAt gracePeriodSeconds : Nat) : SaveM Group :=
  newWithPenalty id creator contributionAmount cycleDuration maxMembers minMembers
    createdAt gracePeriodSeconds false 0

/-- The record after `Group::advance_cycle`, once its assertions have held. -/
def advanced (grp : Group) : Group :=
  let next := { grp with currentCycle := grp.currentCycle + 1 }
  if next.isComplete then { next with status := .completed, isActive := false } else next

/-- `Group::advance_cycle`. -/
def advanceCycle (grp : Group) : SaveM Group := do
  demand (grp.isComplete = false)
  let _ ← unwrap (checkedU32 (grp.currentCycle + 1))
  pure grp.advanced

/-- `Group::activate`. -/
def activate (grp : Group) (timestamp : Nat) : SaveM Group := do
  demand (grp.started = false)
  demand (grp.memberCount ≥ grp.minMembers)
  pure { grp with started := true, startedAt := timestamp }

set_option synthInstance.maxSize 512 in
instance {w : Scope Key} (id : Nat) (creator : Address) (amount : Int)
    (duration maxMembers minMembers createdAt grace : Nat) (pen : Bool) (penAmt : Int) :
    Within w (newWithPenalty id creator amount duration maxMembers minMembers createdAt
      grace pen penAmt) := by
  rw [newWithPenalty]
  infer_instance

instance {w : Scope Key} (id : Nat) (creator : Address) (amount : Int)
    (duration maxMembers minMembers createdAt grace : Nat) :
    Within w (new id creator amount duration maxMembers minMembers createdAt grace) := by
  rw [new]
  infer_instance

instance {w : Scope Key} (grp : Group) : Within w grp.advanceCycle := by
  rw [advanceCycle]
  infer_instance

instance {w : Scope Key} (grp : Group) (n : Nat) : Within w (grp.activate n) := by
  rw [activate]
  infer_instance

/-- A group goes on while it has cycles left and was not completed by name. -/
theorem isComplete_eq_false (grp : Group) :
    grp.isComplete = false ↔ grp.currentCycle < grp.maxMembers ∧ grp.status ≠ .completed := by
  simp [isComplete]

/-- `advance_cycle` refuses a complete group, and one whose cycle would overflow. -/
@[simp] theorem advanceCycle_ok {grp grp' : Group} {env : Env} {s t : State} :
    grp.advanceCycle env s = .ok grp' t ↔
      (grp.isComplete = false ∧ grp.currentCycle + 1 ≤ u32Max ∧ grp.advanced = grp') ∧
        s = t := by
  simp [advanceCycle, and_assoc]

/-- What follows it goes on with the advanced record. -/
@[simp] theorem advanceCycle_bind_ok {grp : Group} {β : Type} {b : β} {f : Group → SaveM β}
    {env : Env} {s t : State} :
    (grp.advanceCycle >>= f) env s = .ok b t ↔
      grp.isComplete = false ∧ grp.currentCycle + 1 ≤ u32Max ∧
        f grp.advanced env s = .ok b t := by
  rw [bind_ok_of_value (fun _ _ => advanceCycle_ok)]
  constructor
  · rintro ⟨grp', ⟨h₁, h₂, rfl⟩, h⟩
    exact ⟨h₁, h₂, h⟩
  · rintro ⟨h₁, h₂, h⟩
    exact ⟨_, ⟨h₁, h₂, rfl⟩, h⟩

/-- `Group::new` checks its arguments and starts every counter at zero. -/
@[simp] theorem new_bind_ok {id duration maxMembers minMembers createdAt grace : Nat}
    {creator : Address} {amount : Int} {β : Type} {b : β} {f : Group → SaveM β}
    {env : Env} {s t : State} :
    (new id creator amount duration maxMembers minMembers createdAt grace >>= f) env s
        = .ok b t ↔
      (0 < amount ∧ 0 < duration ∧ 2 ≤ maxMembers ∧ 2 ≤ minMembers ∧
        minMembers ≤ maxMembers ∧ grace ≤ 604800) ∧
      f (fresh id creator amount duration maxMembers minMembers createdAt grace false 0) env s
        = .ok b t := by
  simp [new, newWithPenalty, and_assoc]

/-- `activate` refuses a group that started, and one with too few members. -/
@[simp] theorem activate_bind_ok {grp : Group} {n : Nat} {β : Type} {b : β}
    {f : Group → SaveM β} {env : Env} {s t : State} :
    (grp.activate n >>= f) env s = .ok b t ↔
      (grp.started = false ∧ grp.minMembers ≤ grp.memberCount) ∧
        f { grp with started := true, startedAt := n } env s = .ok b t := by
  simp [activate, and_assoc]

/-- `advance_cycle` never returns an error: it succeeds or traps. -/
theorem advanceCycle_ne_err {grp : Group} {env : Env} {s t : State} {e : SaveError} :
    grp.advanceCycle env s ≠ .err e t := by
  intro h
  rw [advanceCycle] at h
  rcases bind_err.mp h with h | ⟨_, u, -, h⟩
  · by_cases hc : grp.isComplete = false <;> simp [demand, hc] at h
  · rcases bind_err.mp h with h | ⟨_, v, -, h⟩
    · cases hc : checkedU32 (grp.currentCycle + 1) <;> simp [unwrap, hc] at h
    · exact pure_err.mp h

/-- Advancing moves the cycle by one and touches nothing but the status and
    the active flag. -/
theorem advanced_currentCycle (grp : Group) :
    grp.advanced.currentCycle = grp.currentCycle + 1 := by
  rw [advanced]
  by_cases h : ({ grp with currentCycle := grp.currentCycle + 1 } : Group).isComplete
  · rw [if_pos h]
  · rw [if_neg h]

/-- Time goes by, the id stays. -/
theorem advanced_id (grp : Group) : grp.advanced.id = grp.id := by
  rw [advanced]
  by_cases h : ({ grp with currentCycle := grp.currentCycle + 1 } : Group).isComplete
  · rw [if_pos h]
  · rw [if_neg h]

/-- The last cycle completes the group; any other leaves its status alone. -/
theorem advanced_status {grp : Group} (h : grp.isComplete = false) :
    grp.advanced.status =
      if grp.maxMembers ≤ grp.currentCycle + 1 then .completed else grp.status := by
  obtain ⟨-, hs⟩ := (isComplete_eq_false grp).mp h
  rw [advanced]
  by_cases hc : grp.maxMembers ≤ grp.currentCycle + 1
  · rw [if_pos (by simp [isComplete, hc]), if_pos hc]
  · rw [if_neg (by simp [isComplete, hc, hs]), if_neg hc]

end Group

end SaveData
