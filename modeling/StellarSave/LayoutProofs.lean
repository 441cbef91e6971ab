import StellarSave.TypingProofs
import StellarSave.ViewProofs
import StellarSave.RewardProofs

/-! # The storage layout — one type for each key, and who forgets it

    The type of an entry is chosen by hand at every call site.  `keyType` is the
    table the WRITERS agree on, all of them, so persistent storage stays well
    typed whatever is called in whatever order.  The READERS agree with it too,
    but for four: the recipient scans and the penalty pass ask for the roster as
    a vector, an emergency withdrawal for the cycle total as a time, and two
    views for a payout position as a profile.  And the guard, which lives in
    temporary storage, is taken by a payout at one type and asked for at another.

    `call_sound` and `view_sound` judge every entry point along its text; what
    they do not judge is settled by hand, as an equivalence. -/

namespace SaveLayout

open HostProg Footprint Typing TokenLedger SaveData SaveContribution SavePayout SaveRefund
open SaveMembership SaveLifecycle SaveAdmin SaveCall SaveCompletion SaveDeadline SaveView
open SaveRoster SaveRotation SaveReward Trace

/-! ## The layout -/

/-- The type a stored value was written at. -/
inductive Ty where
  | u32 | u64 | i32 | i128 | bool | text | address | addresses | groupPair | groupIds | members
  | group | status | tokenConfig | config | profile | contribution | payout | refund | streak
  | rating | ratings | penaltyConfig | penaltyState | penaltyHistory
  deriving DecidableEq

/-- The type of a stored value. -/
def typeOf : Val → Ty
  | .u32 _ => .u32
  | .u64 _ => .u64
  | .i32 _ => .i32
  | .i128 _ => .i128
  | .bool _ => .bool
  | .text _ => .text
  | .address _ => .address
  | .addresses _ => .addresses
  | .groupPair _ => .groupPair
  | .groupIds _ => .groupIds
  | .members _ => .members
  | .group _ => .group
  | .status _ => .status
  | .tokenConfig _ => .tokenConfig
  | .config _ => .config
  | .profile _ => .profile
  | .contribution _ => .contribution
  | .payout _ => .payout
  | .refund _ => .refund
  | .streak _ => .streak
  | .rating _ => .rating
  | .ratings _ => .ratings
  | .penaltyConfig _ => .penaltyConfig
  | .penaltyState _ => .penaltyState
  | .penaltyHistory _ => .penaltyHistory

/-- The type each key's writers use. -/
@[reducible] def keyType : Key → Ty
  | .grp _ => .group
  | .grpMbrs _ => .members
  | .grpSeq _ => .addresses
  | .grpStat _ => .status
  | .grpTok _ => .tokenConfig
  | .grpDspR _ => .text
  | .grpMrgF _ => .groupPair
  | .grpInv _ => .addresses
  | .grpPosIx _ _ => .address
  | .grpArch _ => .bool
  | .grpRate _ _ => .rating
  | .grpRateA _ => .ratings
  | .grpDspV _ _ => .bool
  | .grpBid _ _ _ => .i128
  | .mbrProf _ _ => .profile
  | .mbrPElig _ _ => .u32
  | .mbrRwdC _ _ => .bool
  | .mbrPen _ _ => .i128
  | .mbrStrk _ _ => .streak
  | .mbrAuto _ _ => .bool
  | .mbrRef _ _ => .address
  | .contrib _ _ _ => .contribution
  | .cycTotal _ _ => .i128
  | .cycCount _ _ => .u32
  | .cProof _ _ _ => .bool
  | .cRemind _ _ _ => .bool
  | .cPendAmt _ => .i128
  | .cAmtVote _ => .u32
  | .cMbrVote _ _ => .bool
  | .cDisCnt _ => .u32
  | .cDisVote _ _ => .bool
  | .refund _ _ _ => .refund
  | .payout _ _ => .payout
  | .payRecip _ _ => .address
  | .payStat _ _ => .bool
  | .cntNextG => .u64
  | .cntTotG => .u64
  | .config => .config
  | .guard => .bool
  | .grpBal _ => .i128
  | .grpPaid _ => .i128
  | .emrgPause => .bool
  | .storeVer => .u32
  | .alwdToks => .addresses
  | .dlExt _ _ => .u64
  | .dspCount _ => .u32
  | .penCfg _ => .penaltyConfig
  | .penSt _ _ => .penaltyState
  | .penHi _ _ => .penaltyHistory
  | .conVer => .u32
  | .usrGrps _ => .groupIds

/-- The discipline of the contract's persistent storage. -/
def layout : Discipline Key Val := fun k v => typeOf v = keyType k

/-- The values of a type are those its codec makes. -/
class Encodes (α : Type) [Codec Val α] (ty : Ty) : Prop where
  iff : ∀ v : Val, typeOf v = ty ↔ ∃ a : α, v = Codec.encode a

section Encodings

instance : Encodes U32 .u32 := ⟨by intro v; cases v <;> simp [typeOf, Codec.encode]⟩
instance : Encodes U64 .u64 := ⟨by intro v; cases v <;> simp [typeOf, Codec.encode]⟩
instance : Encodes I128 .i128 := ⟨by intro v; cases v <;> simp [typeOf, Codec.encode]⟩
instance : Encodes Bool .bool := ⟨by intro v; cases v <;> simp [typeOf, Codec.encode]⟩
instance : Encodes String .text := ⟨by intro v; cases v <;> simp [typeOf, Codec.encode]⟩
instance : Encodes Address .address := ⟨by intro v; cases v <;> simp [typeOf, Codec.encode]⟩
instance : Encodes (List Address) .addresses :=
  ⟨by intro v; cases v <;> simp [typeOf, Codec.encode]⟩
instance : Encodes (Nat × Nat) .groupPair := ⟨by intro v; cases v <;> simp [typeOf, Codec.encode]⟩
instance : Encodes (List U64) .groupIds := ⟨by intro v; cases v <;> simp [typeOf, Codec.encode]⟩
instance : Encodes MemberMap .members := ⟨by intro v; cases v <;> simp [typeOf, Codec.encode]⟩
instance : Encodes Group .group := ⟨by intro v; cases v <;> simp [typeOf, Codec.encode]⟩
instance : Encodes GroupStatus .status := ⟨by intro v; cases v <;> simp [typeOf, Codec.encode]⟩
instance : Encodes TokenConfig .tokenConfig :=
  ⟨by intro v; cases v <;> simp [typeOf, Codec.encode]⟩
instance : Encodes ContractConfig .config := ⟨by intro v; cases v <;> simp [typeOf, Codec.encode]⟩
instance : Encodes MemberProfile .profile := ⟨by intro v; cases v <;> simp [typeOf, Codec.encode]⟩
instance : Encodes ContributionRecord .contribution :=
  ⟨by intro v; cases v <;> simp [typeOf, Codec.encode]⟩
instance : Encodes PayoutRecord .payout := ⟨by intro v; cases v <;> simp [typeOf, Codec.encode]⟩
instance : Encodes RefundRecord .refund := ⟨by intro v; cases v <;> simp [typeOf, Codec.encode]⟩
instance : Encodes ContributionStreak .streak :=
  ⟨by intro v; cases v <;> simp [typeOf, Codec.encode]⟩
instance : Encodes RatingEntry .rating := ⟨by intro v; cases v <;> simp [typeOf, Codec.encode]⟩
instance : Encodes RatingAggregate .ratings :=
  ⟨by intro v; cases v <;> simp [typeOf, Codec.encode]⟩
instance : Encodes PenaltyConfig .penaltyConfig :=
  ⟨by intro v; cases v <;> simp [typeOf, Codec.encode]⟩
instance : Encodes MemberPenaltyState .penaltyState :=
  ⟨by intro v; cases v <;> simp [typeOf, Codec.encode]⟩
instance : Encodes (List PenaltyRecord) .penaltyHistory :=
  ⟨by intro v; cases v <;> simp [typeOf, Codec.encode]⟩

end Encodings

instance (k : Key) {α : Type} [Codec Val α] [h : Encodes α (keyType k)] : Stores layout k α where
  stored a := (h.iff _).mpr ⟨a, rfl⟩

instance {p : Prop} (k : Key) {α : Type} [Codec Val α] [h : Encodes α (keyType k)] :
    Yields p layout k α where
  typed _ v hv := (h.iff v).mp hv

/-! ## Judging the programs -/

section Primitives

variable {p : Prop}

instance (a : Address) : Sound p layout (requireAuth a) := by
  rw [requireAuth]
  infer_instance

instance : Sound p layout now := by
  rw [now]
  infer_instance

instance (tok src dst : Address) (n : Int) : Sound p layout (tokenTransfer tok src dst n) := by
  rw [tokenTransfer]
  infer_instance

instance (tok src dst : Address) (n : Int) :
    Sound p layout (tokenTransferFrom tok src dst n) := by
  rw [tokenTransferFrom]
  infer_instance

instance (tok a : Address) : Sound p layout (tokenBalance tok a) := by
  rw [tokenBalance]
  infer_instance

instance (tok a : Address) : Sound p layout (tokenAllowance tok a) := by
  rw [tokenAllowance]
  infer_instance

instance (tok : Address) : Sound p layout (tokenDecimals tok) := by
  rw [tokenDecimals]
  infer_instance

instance (grp : Group) : Sound p layout grp.advanceCycle := by
  rw [Group.advanceCycle]
  infer_instance

instance (grp : Group) (time : Nat) : Sound p layout (grp.activate time) := by
  rw [Group.activate]
  infer_instance

instance {α : Type} (m : SaveM α) [Sound p layout m] : Sound p layout (quietly m) := by
  rw [quietly]
  infer_instance

/-! What is judged apart: the bodies of the loops, and what comes behind a read
    that is not judged. -/

instance (g : Nat) (member : Address) (cycle : Nat) : Sound p layout (updateStreak g member cycle) := by
  rw [updateStreak]
  infer_instance

set_option synthInstance.maxSize 8192 in
instance (g cycle : Nat) (member : Address) (amount : Int) (time : Nat) :
    Sound p layout (recordContributionUnchecked g cycle member amount time) := by
  rw [recordContributionUnchecked]
  infer_instance

instance (g : Nat) (member : Address) (current : Nat) (earlier : List Nat) (cycle : Nat) :
    Sound p layout (checkBatchCycle g member current earlier cycle) := by
  rw [checkBatchCycle]
  infer_instance

instance (g cycle : Nat) (tok : Address) (amount : Int) (time executed : Nat)
    (member : Address) :
    Sound p layout (autoContributeMember g cycle tok amount time executed member) := by
  rw [autoContributeMember]
  infer_instance

set_option synthInstance.maxSize 512 in
instance (g cycle : Nat) (penalty : Int) (member : Address) :
    Sound p layout (penalizeIfMissed g cycle penalty member) := by
  rw [penalizeIfMissed]
  infer_instance

set_option synthInstance.maxSize 512 in
instance (g cycle : Nat) (tok : Address) (time : Nat) (member : Address) :
    Sound p layout (refundOnDissolution g cycle tok time member) := by
  rw [refundOnDissolution]
  infer_instance

instance (g : Nat) (positions : List Nat) (idx : Nat) (member : Address) :
    Sound p layout (assignPosition g positions idx member) := by
  rw [assignPosition]
  infer_instance

instance (id time : Nat) (roster : MemberMap) (position : Nat) :
    Sound p layout (mergeMember id time roster position) := by
  rw [mergeMember]
  infer_instance

instance (creator tok : Address) (config : ContractConfig) :
    Sound p layout (chargeCreationFee creator tok config) := by
  rw [chargeCreationFee]
  infer_instance

instance (g : Nat) : Sound p layout (loadTokenOrRelease g) := by
  rw [loadTokenOrRelease]
  infer_instance

instance (g cycle : Nat) (member : Address) (amount : Int) (time : Nat) :
    Sound p layout (recordContribution g cycle member amount time) := by
  rw [recordContribution]
  infer_instance

instance (g : Nat) (member : Address) : Sound p layout (getMemberTotalContributions g member) := by
  rw [getMemberTotalContributions]
  infer_instance

instance (g : Nat) (member : Address) : Sound p layout (hasReceivedPayout g member) := by
  rw [hasReceivedPayout]
  infer_instance

instance (grp : Group) (cycle : Nat) : Sound p layout (getPoolInfoForGroup grp cycle) := by
  rw [getPoolInfoForGroup, calculateTotalPool]
  infer_instance

instance (pool : PoolInfo) : Sound p layout (validatePoolReadyForPayout pool) := by
  rw [validatePoolReadyForPayout]
  infer_instance

instance (g : Nat) (recipient : Address) (cycle : Nat) :
    Sound p layout (verifyRecipientEligibility g recipient cycle) := by
  rw [verifyRecipientEligibility]
  infer_instance

instance (pool : PoolInfo) : Sound p layout (calculateAndValidatePayoutAmount pool) := by
  rw [calculateAndValidatePayoutAmount, calculatePayoutAmount]
  infer_instance

instance (g : Nat) (amount : Int) : Sound p layout (verifyContractBalance g amount) := by
  rw [verifyContractBalance]
  infer_instance

set_option synthInstance.maxSize 512 in
instance (g : Nat) (grp : Group) (recipient : Address) (amount : Int) :
    Sound p layout (settlePayout g grp recipient amount) := by
  simp only [settlePayout, recordPayout, updateMemberStatus, advanceCycleOrComplete]
  infer_instance

instance (g : Nat) (recipient : Address) (amount : Int) :
    Sound p layout (executeTransfer g recipient amount) := by
  rw [executeTransfer]
  infer_instance

instance (grp : Group) (time : Nat) : Sound p layout (isCycleDeadlinePassed grp time) := by
  rw [isCycleDeadlinePassed]
  infer_instance

instance (g : Nat) : Sound p layout (getTotalPaidOut g) := by
  rw [getTotalPaidOut]
  infer_instance

end Primitives

/-- The calls whose reads are all at the type their keys are written at. -/
@[reducible] def judged : Call → Prop
  | .contribute _ _ _ | .executePayout _ | .tick _ | .emergencyWithdraw _ _ => False
  | _ => True

set_option synthInstance.maxSize 512 in
instance (g : Nat) (roster : MemberMap) (mode : AssignmentMode) :
    Sound True layout (chosenPositions g roster mode) := by
  cases mode <;> (simp only [chosenPositions, randomizePayoutOrder]; infer_instance)

set_option synthInstance.maxSize 1000000 in
/-- **ONE JUDGEMENT OF EVERY CALL**. -/
instance call_sound (c : Call) : Sound (judged c) layout c.body := by
  cases c <;>
    (simp only [Call.body,
      contribute, contributeBatch, executeAutoContributions, contributeWithProof, calculateTotalPool, getPoolInfoForGroup,
      validatePoolReadyForPayout, calculatePayoutAmount, scanForPosition,
      identifyRecipientSequential, paidEarlier, identifyRecipientRandom, identifyRecipientBid,
      identifyRecipient, verifyRecipientEligibility, calculateAndValidatePayoutAmount,
      verifyContractBalance, applyMissedContributionPenalties, recordPayout,
      updateMemberStatus, advanceCycleOrComplete, executeTransfer, lockPayout, validatePayout,
      settlePayout, executePayout, isCycleDeadlinePassed, getTotalPaidOut, tick, bidForPayout,
      requestRefund, getMemberTotalContributions, hasReceivedPayout, emergencyWithdraw,
      executeDissolution, voteDissolve, proposeContributionChange,
      executeContributionChange, voteContributionChange, joinGroup, removeMember,
      randomizePayoutOrder, assignPayoutPositions, generateNextGroupId,
      mergeGroups, roundContributionAmount, checkCreateLimits, validateToken,
      createGroup, cloneGroup, updateGroup, validateGroupString,
      updateGroupMetadata, activateGroup, requireCreator, switchPause, pauseGroup, resumeGroup,
      raiseDispute, resolveDispute, cancelGroup, deleteGroup, archiveGroup, tryAdvanceCycle,
      requireAdmin, migrateGroupV1ToV2, migrateV1ToV2, migrate, initializeVersions,
      updateConfig, migrateStorage, updateContributionLimits, addAllowedToken,
      removeAllowedToken, loadPendingAsCreator, setInvitationOnly, inviteMember,
      revokeInvitation, setContributionProofRequired, setDynamicContributions, verifyProof,
      verifyContributionProof, enableAutoContribute, disableAutoContribute, extendDeadline,
      rateGroup, reminderDeadline, getMembersNeedingReminder, emitContributionReminders,
      claimCompletionReward, applyPenalty, recoverPenalty, setPenaltyConfig, Group.new,
      Group.newWithPenalty]
     infer_instance)

/-- The views whose reads are all at the type their keys are written at. -/
@[reducible] def judgedView : View → Prop
  | .getPayoutPosition _ _ | .getPayoutSchedule _ => False
  | _ => True

section Loops

variable {p : Prop}

instance (params : SearchParams) (limit : Nat) (found : SearchResult) (id : Nat) :
    Sound p layout (searchAt params limit found id) := by
  rw [searchAt]
  infer_instance

instance (g maxMembers : Nat) (slots : List (Option Address)) (member : Address) :
    Sound p layout (queueMember g maxMembers slots member) := by
  rw [queueMember]
  infer_instance

instance (g : Nat) (grp : Group) (schedule : List PayoutScheduleEntry) (member : Address) :
    Sound False layout (scheduleMember g grp schedule member) := by
  rw [scheduleMember, getPayoutPosition]
  infer_instance

end Loops

set_option synthInstance.maxSize 512 in
/-- **ONE JUDGEMENT OF EVERY VIEW**. -/
instance view_sound (v : View) : Sound (judgedView v) layout v.body := by
  cases v <;>
    (simp only [View.body, getGroup, getMemberCount, getTokenConfig, isTokenAllowed, getMembers,
      getMember, SaveView.isMember, SaveView.isComplete, isPaused, getGroupMembers, listMembers,
      getGroupMemberCount, isAutoContributeEnabled, listGroupsByMember, getTotalGroups, listGroups,
      listArchivedGroups, searchGroups, getGroupRating, getMemberRating, hasReceivedPayout,
      isPayoutDue, getPoolInfoForGroup, calculateTotalPool, getPayoutPosition,
      validatePayoutRecipient, getTotalPaidOut, getGroupBalance, payoutRecords, getPayoutHistory,
      getPayoutHistoryAll, getMemberPayout, getPayout, getPayoutSchedule, getPayoutQueue,
      getNextPayoutCycle, getMemberMilestones, getContributionStatus, getCycleContributions,
      isCycleComplete, missedMembers, withinGrace, getMissedContributions,
      getContributionDeadline, reminderDeadline, getMembersNeedingReminder,
      getMemberTotalContributions, getMemberContributionHistory, getGroupStatistics,
      getMemberStatistics, getPenaltyHistory, getPenaltyState, getStorageVersion,
      getContractVersion]
     infer_instance)

/-! ## The four calls and two views that forget -/

section Misreading

variable {env : Env} {s : State} {g : Nat} {member : Address}

/-- In a lawful state a read at the written type is never mistyped. -/
theorem typed_of_obeys {α : Type} [Codec Val α] {k : Key} [h : Encodes α (keyType k)]
    (hs : Obeys layout s) : TypedAt α s.persistent k :=
  fun v hv => (h.iff v).mp (hs k v hv)

/-- At any other type a read is well typed only where nothing is stored. -/
theorem typedAt_iff_absent {α : Type} [Codec Val α] (ty : Ty) [h : Encodes α ty] {k : Key}
    (hne : ty ≠ keyType k) (hs : Obeys layout s) :
    TypedAt α s.persistent k ↔ s.persistent k = none := by
  refine ⟨fun ht => ?_, fun hnone => typedAt_of_none hnone⟩
  cases hv : s.persistent k with
  | none => rfl
  | some v =>
      have hty : typeOf v = ty := (h.iff v).mpr (ht v hv)
      exact absurd (hty.symm.trans (hs k v hv)) hne

/-- Whoever insists on a value of another type stumbles over whatever is stored. -/
theorem misread_bind_mistyped {α β : Type} [Codec Val α] (ty : Ty) [Encodes α ty] {k : Key}
    (hne : ty ≠ keyType k) (hs : Obeys layout s) {f : α → SaveM β} {e : SaveError} :
    ((getOr k e : SaveM α) >>= f) env s = .mistyped ↔ s.persistent k ≠ none := by
  have habsent : TypedAt α s.persistent k ↔ s.persistent k = none :=
    typedAt_iff_absent ty hne hs
  rw [getOr_bind_mistyped, habsent]
  constructor
  · rintro (h | ⟨a, ha, -⟩)
    · exact h
    · have hnone := habsent.mp (typedAt_of_readAt ha)
      rw [readAt_eq_some, hnone] at ha
      cases ha
  · exact Or.inl

/-- A contribution that passes the checks in front of the guard. -/
def ReachesGuard (env : Env) (s : State) (g : Nat) (member : Address) (amount : Int) : Prop :=
  member ∈ env.signers ∧ ∃ grp, groupAt s g = some grp ∧ grp.status = .active ∧
    ¬ (grp.started = true ∧
      env.timestamp > saturatingU64 (cycleDeadline grp + grp.gracePeriodSeconds)) ∧
    s.persistent (.mbrProf g member) ≠ none ∧ amount = grp.contributionAmount

@[simp] theorem requireAuth_bind_mistyped {β : Type} {a : Address} {f : Unit → SaveM β} :
    (requireAuth a >>= f) env s = .mistyped ↔ a ∈ env.signers ∧ f () env s = .mistyped := by
  by_cases ha : a ∈ env.signers
  · have hrun : requireAuth a env s = .ok () s := requireAuth_ok.mpr ⟨ha, rfl⟩
    simp [bind_of_ok hrun, ha]
  · have hrun : requireAuth a env s = .trap := if_neg ha
    simp [bind_of_trap hrun, ha]

@[simp] theorem now_bind_mistyped {β : Type} {f : Nat → SaveM β} :
    (now >>= f) env s = .mistyped ↔ f env.timestamp env s = .mistyped := Iff.rfl

@[simp] theorem has_bind_mistyped {β : Type} {k : Key} {f : Bool → SaveM β} :
    (has k >>= f) env s = .mistyped ↔ f (s.persistent k).isSome env s = .mistyped := Iff.rfl

/-- **CONTRIBUTE** trips over the guard a payout has left. -/
theorem contribute_mistyped (hs : Obeys layout s) {amount : Int} :
    contribute g member amount env s = .mistyped ↔
      ReachesGuard env s g member amount ∧ ¬ TypedAt U64 s.temporary .guard := by
  rw [contribute]
  simp only [requireAuth_bind_mistyped, getOr_bind_mistyped, failIf_bind_mistyped,
    now_bind_mistyped, has_bind_mistyped, tempGetD_bind_mistyped, typed_of_obeys hs, not_true,
    false_or]
  constructor
  · rintro ⟨hsig, grp, hgrp, hact, hlate, hmem, hamount, hguard | ⟨-, -, hrest⟩⟩
    · refine ⟨⟨hsig, grp, hgrp, by simpa using hact, hlate, by simpa using hmem,
        by simpa using hamount⟩, hguard⟩
    · exact absurd hrest (Sound.not_mistyped (p := True) (D := layout) hs trivial)
  · rintro ⟨⟨hsig, grp, hgrp, hact, hlate, hmem, hamount⟩, hguard⟩
    exact ⟨hsig, grp, hgrp, by simpa using hact, hlate, by simpa using hmem,
      by simpa using hamount, Or.inl hguard⟩

/-- **EMERGENCY WITHDRAWAL** reads the cycle total as a time: whoever has the
    right to withdraw can, as long as NOBODY has paid into the current cycle. -/
theorem emergencyWithdraw_mistyped (hs : Obeys layout s) :
    emergencyWithdraw g member env s = .mistyped ↔
      member ∈ env.signers ∧ ∃ grp, groupAt s g = some grp ∧
        s.persistent (.mbrProf g member) ≠ none ∧ grp.isComplete = false ∧
        s.persistent (.cycTotal g grp.currentCycle) ≠ none := by
  have habsent : ∀ cycle, TypedAt U64 s.persistent (.cycTotal g cycle) ↔
      s.persistent (.cycTotal g cycle) = none := fun cycle =>
    typedAt_iff_absent .u64 (fun h => by cases h) hs
  rw [emergencyWithdraw]
  simp only [requireAuth_bind_mistyped, getOr_bind_mistyped, failIf_bind_mistyped,
    now_bind_mistyped, has_bind_mistyped, getD_bind_mistyped, typed_of_obeys hs, not_true,
    false_or]
  constructor
  · rintro ⟨hsig, grp, hgrp, hmem, hrun, htotal | ⟨-, -, hrest⟩⟩
    · exact ⟨hsig, grp, hgrp, by simpa using hmem, by simpa using hrun,
        fun hnone => htotal ((habsent _).mpr hnone)⟩
    · exact absurd hrest (Sound.not_mistyped (p := True) (D := layout) hs trivial)
  · rintro ⟨hsig, grp, hgrp, hmem, hrun, htotal⟩
    exact ⟨hsig, grp, hgrp, by simpa using hmem, by simpa using hrun,
      Or.inl fun ht => htotal ((habsent _).mp ht)⟩

/-- The roster asked for as a vector is a map. -/
theorem roster_bind_mistyped {β : Type} {f : List Address → SaveM β} {e : SaveError}
    (hs : Obeys layout s) :
    ((getOr (.grpMbrs g) e : SaveM (List Address)) >>= f) env s = .mistyped ↔
      s.persistent (.grpMbrs g) ≠ none :=
  misread_bind_mistyped .addresses (fun h => by cases h) hs

theorem identifyRecipient_mistyped (hs : Obeys layout s) {cycle n : Nat} {order : PayoutOrder} :
    identifyRecipient g cycle n order env s = .mistyped ↔
      s.persistent (.grpMbrs g) ≠ none ∧
        (order ≠ .sequential ∨ posIxAt s g cycle = none ∨ n ≤ cycle) := by
  have hscan : scanForPosition g cycle n env s = .mistyped ↔ s.persistent (.grpMbrs g) ≠ none := by
    rw [scanForPosition, roster_bind_mistyped hs]
  -- only the sequential order reads the index before it scans the roster
  cases order with
  | random =>
      have hrandom : identifyRecipientRandom g cycle env s = .mistyped ↔
          s.persistent (.grpMbrs g) ≠ none := by
        rw [identifyRecipientRandom, roster_bind_mistyped hs]
      simp [identifyRecipient, hrandom]
  | bid =>
      have hbid : identifyRecipientBid g cycle env s = .mistyped ↔
          s.persistent (.grpMbrs g) ≠ none := by
        rw [identifyRecipientBid, roster_bind_mistyped hs]
      simp [identifyRecipient, hbid]
  | sequential =>
      have hopt : (getOpt (.grpPosIx g cycle) : SaveM (Option Address)) env s =
          .ok (posIxAt s g cycle) s := getOpt_ok.mpr ⟨⟨typed_of_obeys hs, rfl⟩, rfl⟩
      have hseq : identifyRecipient g cycle n .sequential env s =
          (onOption (posIxAt s g cycle) (scanForPosition g cycle n) fun recipient =>
            if cycle < n then pure recipient else scanForPosition g cycle n) env s := by
        show identifyRecipientSequential g cycle n env s = _
        rw [identifyRecipientSequential, bind_of_ok hopt]
      rw [hseq]
      cases hix : posIxAt s g cycle with
      | none => simp [onOption, hscan]
      | some recipient =>
          by_cases hlt : cycle < n
          · simp only [onOption, if_pos hlt]
            constructor
            · intro h
              cases h
            · rintro ⟨-, h | h | h⟩
              · exact absurd rfl h
              · cases h
              · exact absurd hlt (not_lt.mpr h)
          · simp [onOption, if_neg hlt, hscan, not_lt.mp hlt]

/-- A payout that passes every check in front of the roster. -/
structure Ready (s : State) (g : Nat) (grp : Group) : Prop where
  running : grp.paused = false ∧ grp.status = .active ∧ grp.disputeActive = false
  unpaid : s.persistent (.payRecip g grp.currentCycle) = none
  pool : 0 < grp.contributionAmount ∧ grp.memberCount ≠ 0 ∧
    grp.contributionAmount * grp.memberCount < i128Bound
  full : grp.memberCount ≤ cycCountAt s grp.id grp.currentCycle
  total : cycTotalAt s grp.id grp.currentCycle = grp.contributionAmount * grp.memberCount

/-- A payout that has to walk the roster, and finds one: penalties are on, the
    order is not the plain one, or the position index is of no help. -/
def WalksRoster (s : State) (g : Nat) (grp : Group) : Prop :=
  s.persistent (.grpMbrs g) ≠ none ∧
    ((grp.penaltyEnabled = true ∧ grp.penaltyAmount > 0) ∨ grp.payoutOrder ≠ .sequential ∨
      posIxAt s g grp.currentCycle = none ∨ grp.memberCount ≤ grp.currentCycle)

theorem getPoolInfoForGroup_ok {grp : Group} {cycle : Nat} {pool : PoolInfo} {t : State}
    (hs : Obeys layout s) :
    getPoolInfoForGroup grp cycle env s = .ok pool t ↔
      (0 < grp.contributionAmount ∧ grp.memberCount ≠ 0 ∧
        (-i128Bound ≤ grp.contributionAmount * grp.memberCount ∧
          grp.contributionAmount * grp.memberCount < i128Bound)) ∧
      ⟨grp.contributionAmount * grp.memberCount, cycTotalAt s grp.id cycle,
        cycCountAt s grp.id cycle,
        decide (cycCountAt s grp.id cycle ≥ grp.memberCount)⟩ = pool ∧ s = t := by
  simp [getPoolInfoForGroup, calculateTotalPool, and_assoc, typed_of_obeys hs]

/-- From the penalties on. -/
theorem walk_mistyped (hs : Obeys layout s) {grp : Group} {pool : PoolInfo} :
    (do
      runIf (grp.penaltyEnabled = true ∧ grp.penaltyAmount > 0)
        (applyMissedContributionPenalties g grp.currentCycle grp)
      let recipient ← identifyRecipient g grp.currentCycle grp.memberCount grp.payoutOrder
      verifyRecipientEligibility g recipient grp.currentCycle
      let amount ← calculateAndValidatePayoutAmount pool
      verifyContractBalance g amount
      pure (recipient, amount) : SaveM (Address × Int)) env s = .mistyped ↔
    WalksRoster s g grp := by
  -- after the penalties only the choice of the recipient reads the roster
  have hrest : (do
      let recipient ← identifyRecipient g grp.currentCycle grp.memberCount grp.payoutOrder
      verifyRecipientEligibility g recipient grp.currentCycle
      let amount ← calculateAndValidatePayoutAmount pool
      verifyContractBalance g amount
      pure (recipient, amount) : SaveM (Address × Int)) env s = .mistyped ↔
      s.persistent (.grpMbrs g) ≠ none ∧ (grp.payoutOrder ≠ .sequential ∨
        posIxAt s g grp.currentCycle = none ∨ grp.memberCount ≤ grp.currentCycle) := by
    rw [Typing.bind_mistyped, identifyRecipient_mistyped hs]
    -- the recipient is read, or the transfer that follows reads nothing
    constructor
    · rintro (h | ⟨recipient, u, hid, h⟩)
      · exact h
      · obtain rfl := Within.eq_of_ok hid
        exact absurd h (Sound.not_mistyped (p := True) (D := layout) hs trivial)
    · exact Or.inl
  rw [runIf_bind_mistyped, hrest, applyMissedContributionPenalties, bind_bind_mistyped,
    roster_bind_mistyped hs, WalksRoster]
  by_cases hon : grp.penaltyEnabled = true ∧ grp.penaltyAmount > 0
  · simp [hon]
  · simp only [hon, false_and, not_false_eq_true, true_and, false_or]

theorem validatePayout_mistyped (hs : Obeys layout s) {grp : Group} :
    validatePayout g grp env s = .mistyped ↔ Ready s g grp ∧ WalksRoster s g grp := by
  rw [validatePayout]
  simp only [failIf_bind_mistyped, has_bind_mistyped]
  constructor
  · rintro ⟨hpaused, hstatus, hdispute, hpaid, h⟩
    obtain ⟨pool, u, hpool, h⟩ := (Sound.bind_mistyped (p := True) hs trivial).mp h
    obtain ⟨⟨hpos, hcount, -, hfits⟩, rfl, rfl⟩ := (getPoolInfoForGroup_ok hs).mp hpool
    rw [validatePoolReadyForPayout, bind_bind_mistyped, failIf_bind_mistyped,
      failIf_bind_mistyped, walk_mistyped hs] at h
    obtain ⟨hfull, htotal, hwalk⟩ := h
    refine ⟨⟨?_, by simpa using hpaid, ⟨hpos, hcount, hfits⟩, by simpa using hfull,
      by simpa using htotal⟩, hwalk⟩
    exact ⟨by simpa using hpaused, by simpa using hstatus, by simpa using hdispute⟩
  · rintro ⟨⟨⟨hpaused, hstatus, hdispute⟩, hpaid, ⟨hpos, hcount, hfits⟩, hfull, htotal⟩, hwalk⟩
    refine ⟨by simp [hpaused], by simp [hstatus], by simp [hdispute], by simp [hpaid], ?_⟩
    have hprod : 0 < grp.contributionAmount * (grp.memberCount : Int) :=
      Int.mul_pos hpos (by omega)
    have hsmall : -i128Bound ≤ 0 := by decide
    refine (Sound.bind_mistyped (p := True) hs trivial).mpr ⟨_, s, (getPoolInfoForGroup_ok hs).mpr
      ⟨⟨hpos, hcount, by omega, hfits⟩, rfl, rfl⟩, ?_⟩
    rw [validatePoolReadyForPayout, bind_bind_mistyped, failIf_bind_mistyped,
      failIf_bind_mistyped, walk_mistyped hs]
    exact ⟨by simpa using hfull, by simpa using htotal, hwalk⟩

set_option synthInstance.maxSize 65536 in
instance (g : Nat) (grp : Group) : Sound False layout (validatePayout g grp) := by
  simp only [validatePayout, applyMissedContributionPenalties, identifyRecipient,
    identifyRecipientSequential, identifyRecipientRandom, identifyRecipientBid, scanForPosition,
    paidEarlier]
  infer_instance

/-- The lock changes one entry, lawfully. -/
theorem obeys_locked (hs : Obeys layout s) {grp : Group} : Obeys layout (locked s g grp) :=
  Obeys.set hs rfl

theorem lockPayout_mistyped (hs : Obeys layout s) :
    lockPayout g env s = .mistyped ↔ ¬ TypedAt U64 s.temporary .guard := by
  rw [lockPayout, tempGetD_bind_mistyped]
  constructor
  · rintro (h | ⟨-, h⟩)
    · exact h
    · exact absurd h (Sound.not_mistyped (p := True) (D := layout) hs trivial)
  · exact Or.inl

/-- When the executor misreads: the guard an earlier payout has left, or the
    roster wherever it has to be walked. -/
def PayoutMisreads (s : State) (g : Nat) : Prop :=
  ¬ TypedAt U64 s.temporary .guard ∨
    (GuardClear s ∧ ∃ grp, groupAt s g = some grp ∧ grp.payoutInProgress = false ∧
      Ready s g grp ∧ WalksRoster s g grp)

/-- **THE EXECUTOR** trips over its own guard and over the roster. -/
theorem executePayout_mistyped (hs : Obeys layout s) :
    executePayout g env s = .mistyped ↔ PayoutMisreads s g := by
  -- the lock writes none of the entries the two conditions look at
  have hlock : ∀ grp, (Ready (locked s g grp) g (marked grp) ∧
      WalksRoster (locked s g grp) g (marked grp)) ↔ Ready s g grp ∧ WalksRoster s g grp := by
    intro grp
    constructor
    · rintro ⟨⟨h₁, h₂, h₃, h₄, h₅⟩, hwalk⟩
      exact ⟨⟨h₁, h₂, h₃, h₄, h₅⟩, hwalk⟩
    · rintro ⟨⟨h₁, h₂, h₃, h₄, h₅⟩, hwalk⟩
      exact ⟨⟨h₁, h₂, h₃, h₄, h₅⟩, hwalk⟩
  rw [executePayout, Typing.bind_mistyped, lockPayout_mistyped hs]
  refine or_congr_right ⟨?_, ?_⟩
  · rintro ⟨grp', u, hl, h⟩
    obtain ⟨hclear, grp, hgrp, hfree, rfl, rfl⟩ := lockPayout_ok.mp hl
    rcases Typing.bind_mistyped.mp h with hval | ⟨plan, v, hval, hrest⟩
    · exact ⟨hclear, grp, hgrp, hfree,
        (hlock grp).mp ((validatePayout_mistyped (obeys_locked hs)).mp hval)⟩
    · have hv : Obeys layout v := Sound.obeys_ok (p := False) (obeys_locked hs) hval
      exact absurd hrest (Sound.not_mistyped (p := True) (D := layout) hv trivial)
  · rintro ⟨hclear, grp, hgrp, hfree, hready⟩
    refine ⟨_, _, lockPayout_ok.mpr ⟨hclear, grp, hgrp, hfree, rfl, rfl⟩,
      Typing.bind_mistyped.mpr (Or.inl ?_)⟩
    exact (validatePayout_mistyped (obeys_locked hs)).mpr ((hlock grp).mpr hready)

/-- A tick that gets as far as the payout. -/
def TicksPayout (env : Env) (s : State) (g : Nat) : Prop :=
  ∃ grp, groupAt s g = some grp ∧ ¬ (grp.isActive = false ∨ grp.isComplete = true) ∧
    isCycleDeadlinePassed grp env.timestamp env s = .ok true s ∧
    cycCountAt s g grp.currentCycle ≥ grp.memberCount

/-- **THE TICK** swallows the payout's errors, not its mistyped reads. -/
theorem tick_mistyped (hs : Obeys layout s) :
    tick g env s = .mistyped ↔
      TicksPayout env s g ∧ executePayout g env s = .mistyped := by
  have hsound : Sound False layout (executePayout g) := call_sound (.executePayout g)
  -- whatever the attempt leaves is lawful, so only the attempt itself can misread
  have hattempt : ∀ {rest : Unit → SaveM Unit} [∀ u, Sound True layout (rest u)],
      ((do
        let _ ← attempt (executePayout g)
        pure () : SaveM Unit) >>= rest) env s = .mistyped ↔
        executePayout g env s = .mistyped := by
    intro rest hrest
    rw [bind_bind_mistyped, Typing.bind_mistyped, attempt_mistyped]
    constructor
    · rintro (h | ⟨x, u, hx, h⟩)
      · exact h
      · have hu : Obeys layout u := Sound.obeys_ok (p := False) hs hx
        exact absurd h ((hrest ()).not_mistyped hu trivial)
    · exact Or.inl
  rw [tick]
  simp only [getOr_bind_mistyped, failIf_bind_mistyped, now_bind_mistyped, typed_of_obeys hs,
    not_true, false_or]
  constructor
  · rintro ⟨grp, hgrp, hact, h⟩
    obtain ⟨passed, u, hpass, h'⟩ := (Sound.bind_mistyped (p := True) hs trivial).mp h
    obtain rfl := Within.eq_of_ok hpass
    rw [failIf_bind_mistyped, getD_bind_mistyped, runIf_bind_mistyped, hattempt] at h'
    obtain ⟨hpassed, huntyped | ⟨-, ⟨hcount, hpay⟩ | ⟨-, hrest⟩⟩⟩ := h'
    · exact absurd (typed_of_obeys hs) huntyped
    · cases passed with
      | false => exact absurd rfl hpassed
      | true => exact ⟨⟨grp, hgrp, hact, hpass, hcount⟩, hpay⟩
    · exact absurd hrest (Sound.not_mistyped (p := True) (D := layout) hs trivial)
  · rintro ⟨⟨grp, hgrp, hact, hpass, hcount⟩, hpay⟩
    refine ⟨grp, hgrp, hact, (Sound.bind_mistyped (p := True) hs trivial).mpr ⟨true, s, hpass, ?_⟩⟩
    rw [failIf_bind_mistyped, getD_bind_mistyped, runIf_bind_mistyped, hattempt]
    exact ⟨by simp, Or.inr ⟨typed_of_obeys hs, Or.inl ⟨hcount, hpay⟩⟩⟩

/-- **THE PAYOUT POSITION** is read as a profile and stored as a number. -/
theorem getPayoutPosition_mistyped (hs : Obeys layout s) :
    getPayoutPosition g member env s = .mistyped ↔
      s.persistent (.mbrPElig g member) ≠ none := by
  rw [getPayoutPosition, misread_bind_mistyped .profile (fun h => by cases h) hs]

/-- **THE SCHEDULE** asks for the position of the first member of the roster, and
    goes no further. -/
theorem getPayoutSchedule_mistyped (hs : Obeys layout s) :
    getPayoutSchedule g env s = .mistyped ↔
      ∃ grp roster first rest, groupAt s g = some grp ∧ grp.started = true ∧
        membersAt s g = some roster ∧ roster.members = first :: rest ∧
        s.persistent (.mbrPElig g first) ≠ none := by
  -- the schedule reads the position of each member as a time
  have hfirst : ∀ (grp : Group) (members : List Address),
      foldEach (scheduleMember g grp) [] members env s = .mistyped ↔
        ∃ first rest, members = first :: rest ∧ s.persistent (.mbrPElig g first) ≠ none := by
    intro grp members
    cases members with
    | nil =>
        constructor
        · intro h
          cases h
        · rintro ⟨first, rest, h, -⟩
          cases h
    | cons first rest =>
        rw [foldEach_cons, scheduleMember, getPayoutPosition, bind_bind_mistyped,
          bind_bind_mistyped, misread_bind_mistyped .profile (fun h => by cases h) hs]
        constructor
        · intro h
          exact ⟨first, rest, rfl, h⟩
        · rintro ⟨_, _, h, hpos⟩
          cases h
          exact hpos
  rw [getPayoutSchedule, getGroup]
  simp only [getOr_bind_mistyped, failIf_bind_mistyped, typed_of_obeys hs, not_true, false_or,
    hfirst]
  -- the first member with a position is where it fails
  constructor
  · rintro ⟨grp, hgrp, hstarted, roster, hroster, first, rest, hmembers, hpos⟩
    exact ⟨grp, roster, first, rest, hgrp, by simpa using hstarted, hroster, hmembers, hpos⟩
  · rintro ⟨grp, roster, first, rest, hgrp, hstarted, hroster, hmembers, hpos⟩
    exact ⟨grp, hgrp, by simp [hstarted], roster, hroster, first, rest, hmembers, hpos⟩

end Misreading

/-! ## Every entry point, in every state -/

/-- An entry point, writing or reading. -/
inductive Entry where
  | call (c : Call)
  | view (v : View)

/-- The program it runs. -/
def Entry.body : Entry → SaveM Unit
  | .call c => c.body
  | .view v => v.body

/-- **WHO MISREADS**, and when: said in terms of the state before the call. -/
def Misreads (env : Env) (s : State) : Entry → Prop
  | .call (.contribute g member amount) =>
      ReachesGuard env s g member amount ∧ ¬ TypedAt U64 s.temporary .guard
  | .call (.executePayout g) => PayoutMisreads s g
  | .call (.tick g) => TicksPayout env s g ∧ PayoutMisreads s g
  | .call (.emergencyWithdraw g member) =>
      member ∈ env.signers ∧ ∃ grp, groupAt s g = some grp ∧
        s.persistent (.mbrProf g member) ≠ none ∧ grp.isComplete = false ∧
        s.persistent (.cycTotal g grp.currentCycle) ≠ none
  | .view (.getPayoutPosition g member) => s.persistent (.mbrPElig g member) ≠ none
  | .view (.getPayoutSchedule g) =>
      ∃ grp roster first rest, groupAt s g = some grp ∧ grp.started = true ∧
        membersAt s g = some roster ∧ roster.members = first :: rest ∧
        s.persistent (.mbrPElig g first) ≠ none
  | _ => False

theorem quietly_mistyped {α : Type} {m : SaveM α} {env : Env} {s : State} :
    quietly m env s = .mistyped ↔ m env s = .mistyped := by
  rw [quietly, Typing.bind_mistyped]
  constructor
  · rintro (h | ⟨a, u, -, h⟩)
    · exact h
    · cases h
  · exact Or.inl

/-- One entry point, one lawful state. -/
theorem mistyped_iff {env : Env} {s : State} (hs : Obeys layout s) (x : Entry) :
    x.body env s = .mistyped ↔ Misreads env s x := by
  cases x with
  | call c =>
      have hcall : judged c → c.body env s ≠ .mistyped := (call_sound c).not_mistyped hs
      cases c with
      | contribute g member amount => exact contribute_mistyped hs
      | executePayout g => exact executePayout_mistyped hs
      | tick g =>
          exact (tick_mistyped hs).trans (and_congr_right fun _ => executePayout_mistyped hs)
      | emergencyWithdraw g member => exact emergencyWithdraw_mistyped hs
      | _ => exact iff_false_intro (hcall trivial)
  | view v =>
      have hview : judgedView v → v.body env s ≠ .mistyped := (view_sound v).not_mistyped hs
      cases v with
      | getPayoutPosition g member =>
          exact quietly_mistyped.trans (getPayoutPosition_mistyped hs)
      | getPayoutSchedule g => exact quietly_mistyped.trans (getPayoutSchedule_mistyped hs)
      | _ => exact iff_false_intro (hview trivial)

/-- Every step keeps every entry at its type. -/
theorem obeys_apply (x : Step) (s : State) (hs : Obeys layout s) : Obeys layout (apply x s) := by
  refine apply_invariant (C := fun _ _ => True) ?_ (fun _ h => h) (fun _ _ h => h) x s trivial hs
  intro env c s t _ hs h
  exact (call_sound c).obeys_ok hs h

theorem obeys_deployed (l : Ledger) : Obeys layout (deployed l) := by
  intro k v hk
  cases hk

/-- **STORAGE STAYS WELL TYPED, READS DO NOT**: in every state a run reaches,
    each entry holds a value of its key's type, and an entry point reads every
    entry at that type exactly when it is not one of the six that forget, in one
    of the situations in which they do. -/
theorem reads_typed_iff (s : State) (hs : Obeys layout s) (steps : List Step) :
    Obeys layout (run steps s) ∧
      ∀ (env : Env) (x : Entry),
        x.body env (run steps s) ≠ .mistyped ↔ ¬ Misreads env (run steps s) x := by
  have hrun : Obeys layout (run steps s) := exec_invariant_always obeys_apply hs steps
  exact ⟨hrun, fun env x => not_congr (mistyped_iff hrun x)⟩

/-! ## A group that trips -/

theorem fundedOpen_obeys : Obeys layout fundedOpen := by
  refine Obeys.set (Obeys.set (Obeys.set (obeys_deployed _) ?_) ?_) ?_
  · rfl
  · rfl
  · rfl

/-- Both members pay, and the first is paid. -/
def firstPayout : List Step :=
  firstPays ++ [.call trioEnv (.contribute 1 ⟨2⟩ 100), .call trioEnv (.executePayout 1)]

/-- **THE GROUP LOCKS UP**: once the first member has joined, its position cannot be
    read; once it has paid, it cannot withdraw; and once it has been paid,
    nobody can pay or be paid until the guard expires. -/
theorem group_locks_up :
    (getPayoutPosition 1 ⟨1⟩) trioEnv (run readyToPay fundedOpen) = .mistyped ∧
      (Call.emergencyWithdraw 1 ⟨1⟩).body trioEnv (run firstPays fundedOpen) = .mistyped ∧
      payRecipAt (run firstPayout fundedOpen) 1 0 = some ⟨1⟩ ∧
      (Call.contribute 1 ⟨1⟩ 100).body trioEnv (run firstPayout fundedOpen) = .mistyped ∧
      (Call.executePayout 1).body trioEnv (run firstPayout fundedOpen) = .mistyped :=
  ⟨rfl, rfl, rfl, rfl, rfl⟩

/-- The theorem after the first payment, of a second one. -/
theorem reads_typed_iff_second_payment :
    (Entry.call (.contribute 1 ⟨2⟩ 100)).body trioEnv (run firstPays fundedOpen) ≠ .mistyped := by
  refine ((reads_typed_iff fundedOpen fundedOpen_obeys firstPays).2 trioEnv _).mpr ?_
  rintro ⟨-, hguard⟩
  exact hguard (typedAt_of_readAt (a := ⟨0⟩) rfl)

end SaveLayout
