import StellarSave.DataProofs

/-! # Administration — configuration, flags, invitations, ratings, penalties

    The rest of the contract's mutating surface (`contract.rs`, `auth.rs`,
    `migration.rs`, `rating.rs`, `penalty.rs`, `deadline.rs`, `zk_proof.rs`).
    None of it decides who is paid, but every run of the contract interleaves
    with it, so every theorem about runs needs to know what it can touch. -/

namespace SaveAdmin

open HostProg Footprint TokenLedger SaveData

/-! ## Configuration and migration -/

/-- `auth::require_admin`. -/
def requireAdmin (caller : Address) : SaveM Unit := do
  requireAuth caller
  let config : ContractConfig ← getOr .config .unauthorized
  failIf (config.admin ≠ caller) .unauthorized

/-- `migrate_group_v1_to_v2`. -/
def migrateGroupV1ToV2 (g : Nat) : SaveM Unit := do
  let exists_ ← has (.grp g)
  runIf (exists_ = true) (do
    let hasBalance ← has (.grpBal g)
    runIf (hasBalance = false) (put (.grpBal g) (I128.mk 0))
    let hasPaid ← has (.grpPaid g)
    runIf (hasPaid = false) (put (.grpPaid g) (I128.mk 0)))

/-- `migrate_v1_to_v2`; the guard written here is persistent, a different
    entry from the temporary one the guarded calls use. -/
def migrateV1ToV2 : SaveM Unit := do
  let hasPause ← has .emrgPause
  runIf (hasPause = false) (put .emrgPause false)
  let hasGuard ← has .guard
  runIf (hasGuard = false) (put .guard false)
  let totalGroups : U64 ← getD .cntTotG ⟨0⟩
  forEach (fun i => migrateGroupV1ToV2 (i + 1)) (List.range totalGroups.val)

/-- `migration::migrate`. -/
def migrate : SaveM Unit := do
  let version : U32 ← getD .storeVer ⟨1⟩
  runIf (version.val < 2) (do
    migrateV1ToV2
    put .storeVer (U32.mk 2))

/-- `initialize_storage_version` and `initialize_contract_version`. -/
def initializeVersions : SaveM Unit := do
  let hasStorage ← has .storeVer
  runIf (hasStorage = false) (put .storeVer (U32.mk 2))
  let hasContract ← has .conVer
  runIf (hasContract = false) (put .conVer (U32.mk 1))

/-- `ContractConfig::validate`. -/
def validConfig (c : ContractConfig) : Bool :=
  decide (c.minContribution > 0) && decide (c.maxContribution ≥ c.minContribution) &&
    decide (c.minMembers ≥ 2) && decide (c.maxMembers ≥ c.minMembers) &&
    decide (c.minCycleDuration > 0) && decide (c.maxCycleDuration ≥ c.minCycleDuration) &&
    decide (c.creationFee ≥ 0)

/-- `update_config`. -/
def updateConfig (newConfig : ContractConfig) : SaveM Unit := do
  failIf (validConfig newConfig = false) .invalidState
  let current : Option ContractConfig ← getOpt .config
  onOption current
    (do
      requireAuth newConfig.admin
      initializeVersions)
    fun current => requireAuth current.admin
  migrate
  put .config newConfig

/-- `migrate_storage`. -/
def migrateStorage (caller : Address) : SaveM Unit := do
  requireAdmin caller
  migrate

/-- `update_contribution_limits`. -/
def updateContributionLimits (admin : Address) (minContribution maxContribution : Int) :
    SaveM Unit := do
  requireAdmin admin
  failIf (minContribution ≤ 0) .contributionTooLow
  failIf (maxContribution < minContribution) .contributionTooHigh
  let config : ContractConfig ← getOr .config .unauthorized
  put .config { config with
    minContribution := minContribution
    maxContribution := maxContribution }

/-- `add_allowed_token`. -/
def addAllowedToken (admin tok : Address) : SaveM Unit := do
  requireAdmin admin
  let list : List Address ← getD .alwdToks []
  runIf (tok ∉ list) (put .alwdToks (list ++ [tok]))

/-- `remove_allowed_token`. -/
def removeAllowedToken (admin tok : Address) : SaveM Unit := do
  requireAdmin admin
  let list : List Address ← getD .alwdToks []
  put .alwdToks (list.filter (· ≠ tok))

/-! ## Flags of a group -/

/-- Load a group, ask for its creator's signature and a pending status key. -/
def loadPendingAsCreator (g : Nat) : SaveM Group := do
  let grp : Group ← getOr (.grp g) .groupNotFound
  requireAuth grp.creator
  let status : GroupStatus ← getD (.grpStat g) .pending
  failIf (status ≠ .pending) .invalidState
  pure grp

/-- `set_invitation_only`. -/
def setInvitationOnly (g : Nat) (enabled : Bool) : SaveM Unit := do
  let grp ← loadPendingAsCreator g
  put (.grp g) { grp with invitationOnly := enabled }

/-- `invite_member`. -/
def inviteMember (g : Nat) (invitee : Address) : SaveM Unit := do
  let _ ← loadPendingAsCreator g
  let isMember ← has (.mbrProf g invitee)
  failIf (isMember = true) .alreadyMember
  let invitations : List Address ← getD (.grpInv g) []
  runIf (invitee ∉ invitations) (put (.grpInv g) (invitations ++ [invitee]))

/-- `revoke_invitation`. -/
def revokeInvitation (g : Nat) (invitee : Address) : SaveM Unit := do
  let _ ← loadPendingAsCreator g
  let invitations : List Address ← getD (.grpInv g) []
  failIf (invitee ∉ invitations) .notInvited
  put (.grpInv g) (invitations.filter (· ≠ invitee))

/-- `set_contribution_proof_required`. -/
def setContributionProofRequired (g : Nat) (required : Bool) : SaveM Unit := do
  let grp : Group ← getOr (.grp g) .groupNotFound
  requireAuth grp.creator
  put (.grp g) { grp with requireContributionProof := required }

/-- `set_dynamic_contributions`: the record's status is the one checked. -/
def setDynamicContributions (g : Nat) (allowed : Bool) : SaveM Unit := do
  let grp : Group ← getOr (.grp g) .groupNotFound
  requireAuth grp.creator
  failIf (grp.status ≠ .pending) .invalidState
  put (.grp g) { grp with allowDynamicContributions := allowed }

/-- `to_le_bytes` at a given width. -/
def toLeBytes : Nat → Nat → List Nat
  | 0, _ => []
  | width + 1, n => n % 256 :: toLeBytes width (n / 256)

/-- The signed payload: the group id in eight bytes, the cycle in four. -/
def buildPayload (g cycle : Nat) : List Nat := toLeBytes 8 g ++ toLeBytes 4 cycle

/-- `zk_proof::verify_contribution_proof`: a signature that does not check
    traps in the host. -/
def verifyProof (proof : List Nat) (g cycle : Nat) : SaveM Bool :=
  if proof.length ≠ 104 then pure false
  else if proof.take 32 = List.replicate 32 0 then pure false
  else do
    let env ← ask
    demand (env.ed25519Verify (proof.take 32) (buildPayload g cycle)
      ((proof.drop 32).take 64) = true)
    pure true

/-- `verify_contribution_proof`. -/
def verifyContributionProof (g : Nat) (member : Address) (cycle : Nat) (proof : List Nat) :
    SaveM Unit := do
  let grp : Group ← getOr (.grp g) .groupNotFound
  failIf (grp.requireContributionProof = false) .invalidState
  let isMember ← has (.mbrProf g member)
  failIf (isMember = false) .notMember
  let verified ← verifyProof proof g cycle
  failIf (verified = false) .invalidProof
  put (.cProof g cycle member) true

/-- `enable_auto_contribute`. -/
def enableAutoContribute (g : Nat) (member : Address) : SaveM Unit := do
  requireAuth member
  let grp : Group ← getOr (.grp g) .groupNotFound
  failIf (grp.status ≠ .active) .invalidState
  let profile : MemberProfile ← getOr (.mbrProf g member) .notMember
  runIf (profile.autoContributeEnabled = false) (do
    put (.mbrProf g member) { profile with autoContributeEnabled := true }
    put (.mbrAuto g member) true)

/-- `disable_auto_contribute`. -/
def disableAutoContribute (g : Nat) (member : Address) : SaveM Unit := do
  requireAuth member
  let exists_ ← has (.grp g)
  failIf (exists_ = false) .groupNotFound
  let profile : MemberProfile ← getOr (.mbrProf g member) .notMember
  runIf (profile.autoContributeEnabled = true) (do
    put (.mbrProf g member) { profile with autoContributeEnabled := false }
    del (.mbrAuto g member))

/-- `extend_deadline`. -/
def extendDeadline (caller : Address) (g cycle extension : Nat) : SaveM Unit := do
  requireAuth caller
  failIf (extension = 0 ∨ extension > 604800) .deadlineExtensionExceedsMax
  let grp : Group ← getOr (.grp g) .groupNotFound
  failIf (grp.creator ≠ caller) .unauthorized
  failIf (grp.isActive = false) .invalidState
  let existing : U64 ← getD (.dlExt g cycle) ⟨0⟩
  let newTotal ← okOr (checkedU64 (existing.val + extension)) .internalError
  put (.dlExt g cycle) (U64.mk newTotal)
  let span ← okOr (checkedU64 (grp.cycleDuration * (cycle + 1))) .internalError
  let base ← okOr (checkedU64 (grp.createdAt + span)) .internalError
  let _deadline ← okOr (checkedU64 (base + newTotal)) .internalError
  pure ()

section AutoContribute

variable {env : Env} {s t : State} {g : Nat} {member : Address} {u : Unit}

/-- **WHAT SWITCHING ON CAN DO**: the profile and the key beside it, if it was off. -/
theorem enableAutoContribute_ok (h : enableAutoContribute g member env s = .ok u t) :
    ∃ profile, member ∈ env.signers ∧ profileAt s g member = some profile ∧
      ((s.set (.mbrProf g member) (Codec.encode { profile with autoContributeEnabled := true })).set
        (.mbrAuto g member) (Codec.encode true) = t ∨ s = t) := by
  simp [enableAutoContribute] at h
  obtain ⟨hsigned, grp, -, -, profile, hprofile, ⟨-, ht⟩ | ⟨-, ht⟩⟩ := h
  · exact ⟨profile, hsigned, hprofile, Or.inl ht⟩
  · exact ⟨profile, hsigned, hprofile, Or.inr ht⟩

/-- **WHAT SWITCHING OFF CAN DO**. -/
theorem disableAutoContribute_ok (h : disableAutoContribute g member env s = .ok u t) :
    ∃ profile, member ∈ env.signers ∧ profileAt s g member = some profile ∧
      ((s.set (.mbrProf g member) (Codec.encode { profile with autoContributeEnabled := false })).remove
        (.mbrAuto g member) = t ∨ s = t) := by
  simp [disableAutoContribute] at h
  obtain ⟨hsigned, -, profile, hprofile, ⟨-, ht⟩ | ⟨-, ht⟩⟩ := h
  · exact ⟨profile, hsigned, hprofile, Or.inl ht⟩
  · exact ⟨profile, hsigned, hprofile, Or.inr ht⟩

end AutoContribute

/-! ## Ratings, reminders, rewards -/

/-- `rate_group`. -/
def rateGroup (caller : Address) (g stars : Nat) (comment : String) : SaveM Unit := do
  requireAuth caller
  let grp : Group ← getOr (.grp g) .groupNotFound
  failIf (grp.status.isTerminal = false) .invalidState
  let isMember ← has (.mbrProf g caller)
  failIf (isMember = false) .notMember
  failIf (¬ (1 ≤ stars ∧ stars ≤ 5)) .invalidAmount
  failIf (comment.utf8ByteSize > 280) .invalidMetadata
  let rated ← has (.grpRate g caller)
  failIf (rated = true) .alreadyContributed
  let time ← now
  put (.grpRate g caller) (RatingEntry.mk caller stars comment time)
  let agg : RatingAggregate ← getD (.grpRateA g) ⟨0, 0⟩
  let totalStars ← okOr (checkedU64 (agg.totalStars + stars)) .overflow
  let ratingCount ← okOr (checkedU32 (agg.ratingCount + 1)) .overflow
  put (.grpRateA g) (RatingAggregate.mk totalStars ratingCount)

/-- The end of a cycle, checked. -/
def reminderDeadline (grp : Group) (cycle : Nat) : SaveM Nat := do
  let span ← okOr (checkedU64 (grp.cycleDuration * (cycle + 1))) .internalError
  okOr (checkedU64 (grp.startedAt + span)) .internalError

/-- `get_members_needing_reminder`: only in the last day before the deadline. -/
def getMembersNeedingReminder (g cycle : Nat) : SaveM (List Address) := do
  let grp : Group ← getOr (.grp g) .groupNotFound
  failIf (grp.started = false) .invalidState
  let deadline ← reminderDeadline grp cycle
  let time ← now
  if time < deadline - 86400 ∨ time ≥ deadline then pure [] else do
    let roster : MemberMap ← getD (.grpMbrs g) ∅
    foldEach (fun (acc : List Address) member => do
      let record : Option ContributionRecord ← getOpt (.contrib g cycle member)
      pure (if record.isSome then acc else acc ++ [member])) [] roster.members

/-- `emit_contribution_reminders`. -/
def emitContributionReminders (g cycle : Nat) : SaveM Nat := do
  let members ← getMembersNeedingReminder g cycle
  let grp : Group ← getOr (.grp g) .groupNotFound
  let _deadline ← reminderDeadline grp cycle
  foldEach (fun (emitted : Nat) member => do
    let reminded : Bool ← getD (.cRemind g cycle member) false
    if reminded = true then pure emitted else do
      put (.cRemind g cycle member) true
      okOr (checkedU32 (emitted + 1)) .overflow) 0 members

/-- `claim_completion_reward`. -/
def claimCompletionReward (member : Address) (g : Nat) : SaveM Unit := do
  requireAuth member
  let grp : Group ← getOr (.grp g) .groupNotFound
  failIf (grp.isComplete = false) .invalidState
  let isMember ← has (.mbrProf g member)
  failIf (isMember = false) .notMember
  let claimed ← has (.mbrRwdC g member)
  failIf (claimed = true) .rewardAlreadyClaimed
  forEach (fun cycle => do
    let contributed ← has (.contrib g cycle member)
    failIf (contributed = false) .rewardNotEligible) (List.range grp.maxMembers)
  failIf (grp.rewardPool.tdiv grp.maxMembers ≤ 0) .rewardNotEligible
  put (.mbrRwdC g member) true
  let config : Option TokenConfig ← getOpt (.grpTok g)
  onOption config (pure ()) fun config =>
    tokenTransfer config.tokenAddress contractAddress member
      (grp.rewardPool.tdiv grp.maxMembers)

/-! ## Penalties -/

/-- `calculate_penalty`. -/
def calculatePenalty (amount : Int) (missedCycles : Nat) (config : PenaltyConfig) : Int :=
  if missedCycles = 0 ∨ amount ≤ 0 then 0
  else
    let raw := saturatingU32 (config.basePenaltyBps +
      saturatingU32 (config.penaltyIncrementBps * (missedCycles - 1)))
    let bps : Int := min raw config.maxPenaltyBps
    saturatingI128 (saturatingI128 (amount / 10000 * bps) + amount % 10000 * bps / 10000)

/-- `penalty::apply_penalty`: no signature asked for. -/
def applyPenalty (g : Nat) (member : Address) (cycle : Nat) : SaveM Int := do
  let grp : Group ← getOr (.grp g) .groupNotFound
  let isMember ← has (.mbrProf g member)
  failIf (isMember = false) .notMember
  let config : PenaltyConfig ← getD (.penCfg g) .default
  let state : MemberPenaltyState ← getD (.penSt g member) ⟨0, 0⟩
  let missed := saturatingU32 (state.missedCycles + 1)
  let penalty := calculatePenalty grp.contributionAmount missed config
  let total ← if penalty > 0 then do
      let balance : I128 ← getD (.grpBal g) ⟨0⟩
      put (.grpBal g) (I128.mk (saturatingI128 (balance.val - penalty)))
      okOr (checkedI128 (state.totalPenalty + penalty)) .overflow
    else pure state.totalPenalty
  put (.penSt g member) (MemberPenaltyState.mk missed total)
  let history : List PenaltyRecord ← getD (.penHi g member) []
  let time ← now
  put (.penHi g member) (history ++ [PenaltyRecord.mk cycle penalty time false])
  pure penalty

/-- The first open record of the cycle becomes recovered. -/
def markRecovered (cycle : Nat) : List PenaltyRecord → List PenaltyRecord
  | [] => []
  | rec :: rest =>
      if rec.cycleId = cycle ∧ rec.recovered = false then { rec with recovered := true } :: rest
      else rec :: markRecovered cycle rest

/-- `recover_penalty`: the balance is credited, no token moves. -/
def recoverPenalty (g : Nat) (member : Address) (cycle : Nat) (amountPaid : Int) :
    SaveM Unit := do
  requireAuth member
  let grp : Group ← getOr (.grp g) .groupNotFound
  let isMember ← has (.mbrProf g member)
  failIf (isMember = false) .notMember
  let state : MemberPenaltyState ← getD (.penSt g member) ⟨0, 0⟩
  failIf (state.missedCycles = 0) .invalidState
  let config : PenaltyConfig ← getD (.penCfg g) .default
  let product ← okOr (checkedI128 (grp.contributionAmount * config.recoveryFeeBps)) .overflow
  let required ← okOr (checkedI128 (grp.contributionAmount + product.tdiv 10000)) .overflow
  failIf (amountPaid < required) .invalidAmount
  let balance : I128 ← getD (.grpBal g) ⟨0⟩
  let newBalance ← okOr (checkedI128 (balance.val + amountPaid)) .overflow
  put (.grpBal g) (I128.mk newBalance)
  put (.penSt g member) (MemberPenaltyState.mk (state.missedCycles - 1)
    (if state.missedCycles - 1 = 0 then 0 else state.totalPenalty))
  let history : List PenaltyRecord ← getD (.penHi g member) []
  put (.penHi g member) (markRecovered cycle history)

/-- `set_penalty_config`. -/
def setPenaltyConfig (g : Nat) (caller : Address) (config : PenaltyConfig) : SaveM Unit := do
  let grp : Group ← getOr (.grp g) .groupNotFound
  requireAuth caller
  failIf (caller ≠ grp.creator) .unauthorized
  put (.penCfg g) config

/-! ## Footprints -/

section Footprints

variable {w : Scope Key}

instance (a : Address) : Within w (requireAdmin a) := by
  rw [requireAdmin]
  infer_instance

instance (g : Nat) [Allows w.persistent (.grpBal g)] [Allows w.persistent (.grpPaid g)] :
    Within w (migrateGroupV1ToV2 g) := by
  rw [migrateGroupV1ToV2]
  infer_instance

/-- What a storage migration may touch. -/
@[reducible] def migrationPlaces : List Place :=
  [.anywhere .emrgPause, .anywhere .guard, .anywhere .grpBal, .anywhere .grpPaid,
    .anywhere .storeVer, .anywhere .conVer, .anywhere .config]

set_option synthInstance.maxSize 512 in
instance : Within (scope migrationPlaces False False) migrateV1ToV2 := by
  rw [migrateV1ToV2]
  infer_instance

instance : Within (scope migrationPlaces False False) migrate := by
  rw [migrate]
  infer_instance

instance : Within (scope migrationPlaces False False) initializeVersions := by
  rw [initializeVersions]
  infer_instance

instance (c : ContractConfig) : Within (scope migrationPlaces False False) (updateConfig c) := by
  rw [updateConfig]
  infer_instance

instance (a : Address) : Within (scope migrationPlaces False False) (migrateStorage a) := by
  rw [migrateStorage]
  infer_instance

instance (a : Address) (lo hi : Int) :
    Within (scope [.anywhere .config] False False) (updateContributionLimits a lo hi) := by
  rw [updateContributionLimits]
  infer_instance

instance (a tok : Address) :
    Within (scope [.anywhere .alwdToks] False False) (addAllowedToken a tok) := by
  rw [addAllowedToken]
  infer_instance

instance (a tok : Address) :
    Within (scope [.anywhere .alwdToks] False False) (removeAllowedToken a tok) := by
  rw [removeAllowedToken]
  infer_instance

instance (g : Nat) : Within w (loadPendingAsCreator g) := by
  rw [loadPendingAsCreator]
  infer_instance

instance (g : Nat) (b : Bool) :
    Within (scope [.of .grp g] False False) (setInvitationOnly g b) := by
  rw [setInvitationOnly]
  infer_instance

instance (g : Nat) (a : Address) :
    Within (scope [.of .grpInv g] False False) (inviteMember g a) := by
  rw [inviteMember]
  infer_instance

instance (g : Nat) (a : Address) :
    Within (scope [.of .grpInv g] False False) (revokeInvitation g a) := by
  rw [revokeInvitation]
  infer_instance

instance (g : Nat) (b : Bool) :
    Within (scope [.of .grp g] False False) (setContributionProofRequired g b) := by
  rw [setContributionProofRequired]
  infer_instance

instance (g : Nat) (b : Bool) :
    Within (scope [.of .grp g] False False) (setDynamicContributions g b) := by
  rw [setDynamicContributions]
  infer_instance

instance (proof : List Nat) (g cycle : Nat) : Within w (verifyProof proof g cycle) := by
  rw [verifyProof]
  infer_instance

instance (g : Nat) (a : Address) (cycle : Nat) (proof : List Nat) :
    Within (scope [.of .cProof g] False False) (verifyContributionProof g a cycle proof) := by
  rw [verifyContributionProof]
  infer_instance

instance (g : Nat) (a : Address) :
    Within (scope [.of .mbrProf g, .of .mbrAuto g] False False) (enableAutoContribute g a) := by
  rw [enableAutoContribute]
  infer_instance

instance (g : Nat) (a : Address) :
    Within (scope [.of .mbrProf g, .of .mbrAuto g] False False) (disableAutoContribute g a) := by
  rw [disableAutoContribute]
  infer_instance

set_option synthInstance.maxSize 2048 in
instance (a : Address) (g cycle n : Nat) :
    Within (scope [.of .dlExt g] False False) (extendDeadline a g cycle n) := by
  rw [extendDeadline]
  infer_instance

set_option synthInstance.maxSize 8192 in
instance (a : Address) (g stars : Nat) (comment : String) :
    Within (scope [.of .grpRate g, .of .grpRateA g] False False)
      (rateGroup a g stars comment) := by
  rw [rateGroup]
  infer_instance

instance (grp : Group) (cycle : Nat) : Within w (reminderDeadline grp cycle) := by
  rw [reminderDeadline]
  infer_instance

instance (g cycle : Nat) : Within w (getMembersNeedingReminder g cycle) := by
  rw [getMembersNeedingReminder]
  infer_instance

set_option synthInstance.maxSize 512 in
instance (g cycle : Nat) :
    Within (scope [.of .cRemind g] False False) (emitContributionReminders g cycle) := by
  rw [emitContributionReminders]
  infer_instance

set_option synthInstance.maxSize 8192 in
instance (a : Address) (g : Nat) :
    Within (scope [.of .mbrRwdC g] False True) (claimCompletionReward a g) := by
  rw [claimCompletionReward]
  infer_instance

/-- What the penalty book may touch. -/
@[reducible] def penaltyPlaces (g : Nat) : List Place :=
  [.of .grpBal g, .of .penSt g, .of .penHi g]

set_option synthInstance.maxSize 512 in
instance (g : Nat) (a : Address) (cycle : Nat) :
    Within (scope (penaltyPlaces g) False False) (applyPenalty g a cycle) := by
  rw [applyPenalty]
  dsimp only
  infer_instance

set_option synthInstance.maxSize 65536 in
instance (g : Nat) (a : Address) (cycle : Nat) (n : Int) :
    Within (scope (penaltyPlaces g) False False) (recoverPenalty g a cycle n) := by
  rw [recoverPenalty]
  infer_instance

instance (g : Nat) (a : Address) (config : PenaltyConfig) :
    Within (scope [.of .penCfg g] False False) (setPenaltyConfig g a config) := by
  rw [setPenaltyConfig]
  infer_instance

end Footprints

end SaveAdmin
