import StellarSave.MembershipProofs

/-! # Lifecycle — creation, activation, pausing, disputes, the end

    The status of a group is kept TWICE: in the record and under its own key.
    Some operations here (`contract.rs`, `clone.rs`, `cycle_advancement.rs`)
    read one copy and write the other, some write both, some one. -/

namespace SaveLifecycle

open HostProg Footprint TokenLedger SaveData SaveMembership

/-! ## Creation -/

/-- `helpers::round_contribution_amount`; the plain addition can trap. -/
def roundContributionAmount (amount : Int) : SaveM Int :=
  if amount ≤ 0 then pure amount else do
    let lifted ← unwrap (checkedI128 (amount + 50000))
    pure (lifted / 100000 * 100000)

/-- The global limits on a new group. -/
def checkCreateLimits (config : ContractConfig) (amount : Int) (duration maxMembers : Nat) :
    SaveM Unit := do
  failIf (amount < config.minContribution) .contributionTooLow
  failIf (amount > config.maxContribution) .contributionTooHigh
  failIf (maxMembers < config.minMembers ∨ maxMembers > config.maxMembers ∨
    duration < config.minCycleDuration ∨ duration > config.maxCycleDuration) .invalidState

/-- `token::validate_token`. -/
def validateToken (tok : Address) : SaveM Nat := do
  let decimals ← tokenDecimals tok
  failIf (decimals > 38) .invalidToken
  pure decimals

/-- The optional creation fee. -/
def chargeCreationFee (creator tok : Address) (config : ContractConfig) : SaveM Unit :=
  runIf (config.creationFee > 0)
    (onOption config.treasury (pure ()) fun treasury =>
      tokenTransfer tok creator treasury config.creationFee)

/-- `create_group`. -/
def createGroup (creator : Address) (contributionAmount : Int) (cycleDuration maxMembers : Nat)
    (tok : Address) (gracePeriodSeconds : Nat) (order : PayoutOrder) : SaveM Nat := do
  requireAuth creator
  failIf (maxMembers > 20) .maxMembersExceeded
  let amount ← roundContributionAmount contributionAmount
  failIf (amount ≤ 0) .invalidAmount
  let config : Option ContractConfig ← getOpt .config
  onOption config (pure ()) fun config =>
    checkCreateLimits config amount cycleDuration maxMembers
  let allowed : Option (List Address) ← getOpt .alwdToks
  onOption allowed (pure ()) fun allowed => failIf (tok ∉ allowed) .invalidToken
  let decimals ← validateToken tok
  let g ← generateNextGroupId
  let time ← now
  let grp ← Group.new g creator amount cycleDuration maxMembers 2 time gracePeriodSeconds
  put (.grp grp.id) { grp with payoutOrder := order }
  put (.grpStat g) GroupStatus.pending
  put (.grpTok g) (TokenConfig.mk tok decimals)
  let config : Option ContractConfig ← getOpt .config
  onOption config (pure ()) (chargeCreationFee creator tok)
  pure g

/-- `CloneOverrides`. -/
structure CloneOverrides where
  contributionAmount : Option Int
  cycleDuration : Option Nat
  maxMembers : Option Nat
  minMembers : Option Nat
  gracePeriodSeconds : Option Nat
  tokenAddress : Option Address

/-- `clone_group`. -/
def cloneGroup (caller : Address) (g : Nat) (o : CloneOverrides) : SaveM Nat := do
  requireAuth caller
  let src : Group ← getOr (.grp g) .groupNotFound
  let config : TokenConfig ← getOr (.grpTok g) .groupNotFound
  let newId ← generateNextGroupId
  let time ← now
  let grp ← Group.new newId caller (o.contributionAmount.getD src.contributionAmount)
    (o.cycleDuration.getD src.cycleDuration) (o.maxMembers.getD src.maxMembers)
    (o.minMembers.getD src.minMembers) time
    (o.gracePeriodSeconds.getD src.gracePeriodSeconds)
  put (.grp newId) grp
  put (.grpStat newId) GroupStatus.pending
  put (.grpTok newId)
    (TokenConfig.mk (o.tokenAddress.getD config.tokenAddress) config.tokenDecimals)
  pure newId

/-! ## Editing -/

/-- `update_group`. -/
def updateGroup (g : Nat) (newContribution : Int) (newDuration newMaxMembers : Nat) :
    SaveM Unit := do
  let grp : Group ← getOr (.grp g) .groupNotFound
  requireAuth grp.creator
  let status : GroupStatus ← getD (.grpStat g) .pending
  failIf (status ≠ .pending) .invalidState
  let config : Option ContractConfig ← getOpt .config
  onOption config (pure ()) fun config =>
    failIf (newContribution < config.minContribution ∨
      newContribution > config.maxContribution ∨ newMaxMembers < config.minMembers ∨
      newMaxMembers > config.maxMembers ∨ newDuration < config.minCycleDuration ∨
      newDuration > config.maxCycleDuration) .invalidState
  put (.grp g) { grp with
    contributionAmount := newContribution
    cycleDuration := newDuration
    maxMembers := newMaxMembers }

/-- `helpers::validate_group_string`: length in bytes, no NUL. -/
def validateGroupString (text : String) (maxBytes : Nat) : SaveM Unit := do
  failIf (text.utf8ByteSize > maxBytes) .invalidMetadata
  failIf ((0 : UInt8) ∈ text.toUTF8.toList) .invalidMetadata

/-- `update_group_metadata`. -/
def updateGroupMetadata (g : Nat) (caller : Address) (name description imageUrl : String) :
    SaveM Unit := do
  requireAuth caller
  let grp : Group ← getOr (.grp g) .groupNotFound
  failIf (grp.creator ≠ caller) .unauthorized
  failIf (name.utf8ByteSize < 1) .invalidMetadata
  validateGroupString name 64
  runIf (description ≠ "") (validateGroupString description 256)
  put (.grp g) { grp with
    name := some name
    description := some description
    imageUrl := some imageUrl }

/-! ## Status -/

/-- `activate_group`: the previous status is not looked at. -/
def activateGroup (g : Nat) (creator : Address) : SaveM Unit := do
  requireAuth creator
  let grp : Group ← getOr (.grp g) .groupNotFound
  failIf (grp.creator ≠ creator) .unauthorized
  let time ← now
  let grp' ← grp.activate time
  put (.grp g) { grp' with status := .active, isActive := true }
  put (.grpStat g) GroupStatus.active

/-- `require_creator`. -/
def requireCreator (caller : Address) (grp : Group) : SaveM Unit := do
  requireAuth caller
  failIf (caller ≠ grp.creator) .unauthorized

/-- The shared body of `pause_group` and `resume_group`: the key is checked,
    both copies are written, the record under the id it carries. -/
def switchPause (g : Nat) (caller : Address) (source target : GroupStatus) (paused : Bool) :
    SaveM Unit := do
  let grp : Group ← getOr (.grp g) .groupNotFound
  requireCreator caller grp
  let status : GroupStatus ← getD (.grpStat g) .pending
  failIf (status ≠ source) .invalidState
  put (.grpStat g) target
  put (.grp grp.id) { grp with paused := paused, status := target }

/-- `pause_group`. -/
def pauseGroup (g : Nat) (caller : Address) : SaveM Unit :=
  switchPause g caller .active .paused true

/-- `resume_group`, also reached as `unpause_group`. -/
def resumeGroup (g : Nat) (caller : Address) : SaveM Unit :=
  switchPause g caller .paused .active false

/-- `raise_dispute`: over half of the members pause the group, whatever its
    status. -/
def raiseDispute (g : Nat) (caller : Address) (reason : String) : SaveM Unit := do
  requireAuth caller
  let grp : Group ← getOr (.grp g) .groupNotFound
  let isMember ← has (.mbrProf g caller)
  failIf (isMember = false) .notMember
  let voted ← has (.grpDspV g caller)
  failIf (voted = true) .alreadyVoted
  put (.grpDspV g caller) true
  let stated ← has (.grpDspR g)
  runIf (stated = false) (put (.grpDspR g) reason)
  let count : U32 ← getD (.dspCount g) ⟨0⟩
  let voteCount ← okOr (checkedU32 (count.val + 1)) .overflow
  put (.dspCount g) (U32.mk voteCount)
  let threshold ← okOr (checkedU32 (grp.memberCount / 2 + 1)) .overflow
  runIf (voteCount ≥ threshold) (do
    put (.grp g) { grp with disputeActive := true, paused := true, status := .paused }
    put (.grpStat g) GroupStatus.paused)

/-- `resolve_dispute`. -/
def resolveDispute (g : Nat) (caller : Address) : SaveM Unit := do
  requireAuth caller
  let grp : Group ← getOr (.grp g) .groupNotFound
  failIf (grp.creator ≠ caller) .unauthorized
  failIf (grp.disputeActive = false) .invalidState
  put (.grp g) { grp with disputeActive := false, paused := false, status := .active }
  put (.grpStat g) GroupStatus.active
  del (.dspCount g)
  del (.grpDspR g)
  let roster : Option MemberMap ← getOpt (.grpMbrs g)
  onOption roster (pure ()) fun roster =>
    forEach (fun member => del (.grpDspV g member)) roster.members

/-- `cancel_group`: only the key is written. -/
def cancelGroup (g : Nat) (caller : Address) : SaveM Unit := do
  let grp : Group ← getOr (.grp g) .groupNotFound
  requireCreator caller grp
  let status : GroupStatus ← getD (.grpStat g) .pending
  failIf (status.isTerminal = true) .invalidState
  put (.grpStat g) GroupStatus.cancelled

/-- `delete_group`. -/
def deleteGroup (g : Nat) : SaveM Unit := do
  let grp : Group ← getOr (.grp g) .groupNotFound
  requireAuth grp.creator
  failIf (grp.memberCount > 0) .invalidState
  del (.grp g)
  del (.grpStat g)

/-- `archive_group`. -/
def archiveGroup (caller : Address) (g : Nat) : SaveM Unit := do
  requireAuth caller
  let grp : Group ← getOr (.grp g) .groupNotFound
  failIf (grp.creator ≠ caller) .unauthorized
  failIf (grp.status.isTerminal = false) .groupNotArchivable
  let archived : Bool ← getD (.grpArch g) false
  failIf (archived = true) .invalidState
  put (.grpArch g) true
  put (.grp g) { grp with archived := true }

/-- `get_current_cycle`, from the clock; the quotient is cut to a `u32`. -/
def getCurrentCycle (grp : Group) (time : Nat) : Nat :=
  if grp.started = false ∨ time < grp.startedAt ∨ grp.cycleDuration = 0 then 0
  else min ((time - grp.startedAt) / grp.cycleDuration % (u32Max + 1)) grp.maxMembers

/-- `try_advance_cycle`. -/
def tryAdvanceCycle (g : Nat) : SaveM Bool := do
  let grp : Group ← getOr (.grp g) .groupNotFound
  failIf (grp.status ≠ .active ∨ grp.started = false) .invalidState
  failIf (grp.isComplete = true) .invalidState
  let time ← now
  if getCurrentCycle grp time ≤ grp.currentCycle then pure false else do
    let grp' ← grp.advanceCycle
    put (.grp g) grp'
    pure true

/-! ## Footprints -/

section Footprints

variable {w : Scope Key}

instance (n : Int) : Within w (roundContributionAmount n) := by
  rw [roundContributionAmount]
  infer_instance

instance (config : ContractConfig) (n : Int) (d m : Nat) :
    Within w (checkCreateLimits config n d m) := by
  rw [checkCreateLimits]
  infer_instance

instance (tok : Address) : Within w (validateToken tok) := by
  rw [validateToken]
  infer_instance

instance (creator tok : Address) (config : ContractConfig) [Granted w.ledger] :
    Within w (chargeCreationFee creator tok config) := by
  rw [chargeCreationFee]
  infer_instance

set_option synthInstance.maxSize 65536 in
instance (creator : Address) (n : Int) (d m : Nat) (tok : Address) (grace : Nat)
    (order : PayoutOrder) :
    Within (scope [.anywhere .cntNextG, .anywhere .grp, .anywhere .grpStat, .anywhere .grpTok]
      False True) (createGroup creator n d m tok grace order) := by
  rw [createGroup]
  infer_instance

set_option synthInstance.maxSize 512 in
instance (caller : Address) (g : Nat) (o : CloneOverrides) :
    Within (scope [.anywhere .cntNextG, .anywhere .grp, .anywhere .grpStat, .anywhere .grpTok]
      False False) (cloneGroup caller g o) := by
  rw [cloneGroup]
  infer_instance

set_option synthInstance.maxSize 512 in
instance (g : Nat) (n : Int) (d m : Nat) :
    Within (scope [.of .grp g] False False) (updateGroup g n d m) := by
  rw [updateGroup]
  infer_instance

instance (text : String) (n : Nat) : Within w (validateGroupString text n) := by
  rw [validateGroupString]
  infer_instance

set_option synthInstance.maxSize 512 in
instance (g : Nat) (a : Address) (name description imageUrl : String) :
    Within (scope [.of .grp g] False False)
      (updateGroupMetadata g a name description imageUrl) := by
  rw [updateGroupMetadata]
  infer_instance

set_option synthInstance.maxSize 512 in
instance (g : Nat) (a : Address) :
    Within (scope [.of .grp g, .of .grpStat g] False False) (activateGroup g a) := by
  rw [activateGroup]
  infer_instance

instance (a : Address) (grp : Group) : Within w (requireCreator a grp) := by
  rw [requireCreator]
  infer_instance

instance (g : Nat) (a : Address) (source target : GroupStatus) (paused : Bool) :
    Within (scope [.anywhere .grp, .of .grpStat g] False False)
      (switchPause g a source target paused) := by
  rw [switchPause]
  infer_instance

instance (g : Nat) (a : Address) :
    Within (scope [.anywhere .grp, .of .grpStat g] False False) (pauseGroup g a) := by
  rw [pauseGroup]
  infer_instance

instance (g : Nat) (a : Address) :
    Within (scope [.anywhere .grp, .of .grpStat g] False False) (resumeGroup g a) := by
  rw [resumeGroup]
  infer_instance

set_option synthInstance.maxSize 65536 in
instance (g : Nat) (a : Address) (reason : String) :
    Within (scope [.of .grp g, .of .grpStat g, .of .grpDspV g, .of .grpDspR g, .of .dspCount g]
      False False) (raiseDispute g a reason) := by
  rw [raiseDispute]
  infer_instance

set_option synthInstance.maxSize 8192 in
instance (g : Nat) (a : Address) :
    Within (scope [.of .grp g, .of .grpStat g, .of .grpDspV g, .of .grpDspR g, .of .dspCount g]
      False False) (resolveDispute g a) := by
  rw [resolveDispute]
  infer_instance

instance (g : Nat) (a : Address) :
    Within (scope [.of .grpStat g] False False) (cancelGroup g a) := by
  rw [cancelGroup]
  infer_instance

instance (g : Nat) :
    Within (scope [.of .grp g, .of .grpStat g] False False) (deleteGroup g) := by
  rw [deleteGroup]
  infer_instance

set_option synthInstance.maxSize 2048 in
instance (a : Address) (g : Nat) :
    Within (scope [.of .grp g, .of .grpArch g] False False) (archiveGroup a g) := by
  rw [archiveGroup]
  infer_instance

set_option synthInstance.maxSize 512 in
instance (g : Nat) : Within (scope [.of .grp g] False False) (tryAdvanceCycle g) := by
  rw [tryAdvanceCycle]
  infer_instance

end Footprints

/-! ## What creation leaves -/

/-- The state once a new group is stored, its key `Pending`. -/
def created (s : State) (grp : Group) (config : TokenConfig) : State :=
  (((s.set .cntNextG (Codec.encode (U64.mk (lastId s + 1)))).set
    (.grp (lastId s + 1)) (Codec.encode grp)).set
    (.grpStat (lastId s + 1)) (Codec.encode GroupStatus.pending)).set
    (.grpTok (lastId s + 1)) (Codec.encode config)

/-- The record `create_group` stores. -/
def createdGroup (s : State) (creator : Address) (amount : Int)
    (cycleDuration maxMembers time gracePeriodSeconds : Nat) (order : PayoutOrder) : Group :=
  { Group.fresh (lastId s + 1) creator amount cycleDuration maxMembers 2 time
      gracePeriodSeconds false 0 with payoutOrder := order }

/-- The record `clone_group` stores. -/
def clonedGroup (id : Nat) (caller : Address) (src : Group) (o : CloneOverrides) (time : Nat) :
    Group :=
  Group.fresh id caller (o.contributionAmount.getD src.contributionAmount)
    (o.cycleDuration.getD src.cycleDuration) (o.maxMembers.getD src.maxMembers)
    (o.minMembers.getD src.minMembers) time (o.gracePeriodSeconds.getD src.gracePeriodSeconds)
    false 0

/-- The stored allowlist, if there is one. -/
abbrev allowedAt (s : State) : Option (List Address) :=
  readAt (List Address) s.persistent .alwdToks

/-- The bounds a configuration puts on a group. -/
def Bounded (config : ContractConfig) (amount : Int) (duration maxMembers : Nat) : Prop :=
  (config.minContribution ≤ amount ∧ amount ≤ config.maxContribution) ∧
    (config.minMembers ≤ maxMembers ∧ maxMembers ≤ config.maxMembers) ∧
    config.minCycleDuration ≤ duration ∧ duration ≤ config.maxCycleDuration

section Moving

variable {env : Env} {s t : State} {g : Nat} {a : Address} {u : Unit}

/-- **WHAT ACTIVATING CAN DO**: a group that has not started, and has its members. -/
theorem activateGroup_ok (h : activateGroup g a env s = .ok u t) :
    ∃ grp, groupAt s g = some grp ∧ a ∈ env.signers ∧ grp.creator = a ∧ grp.started = false ∧
      grp.minMembers ≤ grp.memberCount ∧
      (s.set (.grp g) (Codec.encode { grp with
        isActive := true, status := .active, started := true, startedAt := env.timestamp })).set
        (.grpStat g) (Codec.encode GroupStatus.active) = t := by
  simp [activateGroup] at h
  obtain ⟨hsigned, grp, hgrp, hcreator, ⟨hstarted, hcount⟩, ht⟩ := h
  exact ⟨grp, hgrp, hsigned, hcreator, hstarted, hcount, ht⟩

/-- **WHAT PAUSING AND ITS END CAN DO**: the record is written under the id it carries. -/
theorem switchPause_ok {source target : GroupStatus} {paused : Bool}
    (h : switchPause g a source target paused env s = .ok u t) :
    ∃ grp, groupAt s g = some grp ∧ a ∈ env.signers ∧ a = grp.creator ∧ (statusAt s g).getD .pending = source ∧
      (s.set (.grpStat g) (Codec.encode target)).set (.grp grp.id)
        (Codec.encode { grp with paused := paused, status := target }) = t := by
  simp [switchPause, requireCreator] at h
  obtain ⟨grp, hgrp, hsigned, hcreator, -, hsource, ht⟩ := h
  exact ⟨grp, hgrp, hsigned, hcreator, hsource, ht⟩

/-- **WHAT ADVANCING CAN DO**: nothing before the deadline, one cycle after it. -/
theorem tryAdvanceCycle_ok {b : Bool} (h : tryAdvanceCycle g env s = .ok b t) :
    ∃ grp, groupAt s g = some grp ∧ grp.status = .active ∧ grp.started = true ∧ grp.isComplete = false ∧
      ((getCurrentCycle grp env.timestamp ≤ grp.currentCycle ∧ s = t) ∨
        grp.currentCycle < getCurrentCycle grp env.timestamp ∧
          s.set (.grp g) (Codec.encode grp.advanced) = t) := by
  simp [tryAdvanceCycle] at h
  obtain ⟨grp, hgrp, ⟨hactive, hstarted⟩, hopen, ⟨hle, -, ht⟩ | ⟨hlt, -, -, -, ht⟩⟩ := h
  · exact ⟨grp, hgrp, hactive, hstarted, hopen, Or.inl ⟨hle, ht⟩⟩
  · exact ⟨grp, hgrp, hactive, hstarted, hopen, Or.inr ⟨hlt, ht⟩⟩

end Moving

section Creation

variable {env : Env} {s t : State} {g n : Nat} {creator tok : Address} {amount : Int}
  {cycleDuration maxMembers grace : Nat} {order : PayoutOrder} {o : CloneOverrides}

theorem checkCreateLimits_ok {config : ContractConfig} {u : Unit} :
    checkCreateLimits config amount cycleDuration maxMembers env s = .ok u t ↔
      Bounded config amount cycleDuration maxMembers ∧ s = t := by
  simp [checkCreateLimits, Bounded, and_assoc]

/-- What `create_group` checks and stores before the fee is charged. -/
theorem createGroup_steps
    (h : createGroup creator amount cycleDuration maxMembers tok grace order env s = .ok n t) :
    creator ∈ env.signers ∧ n = lastId s + 1 ∧ ∃ rounded decimals w,
      (0 < rounded ∧ 0 < cycleDuration ∧ 2 ≤ maxMembers ∧ ∀ config,
        readAt ContractConfig s.persistent .config = some config →
          Bounded config rounded cycleDuration maxMembers) ∧
      ((∀ list, allowedAt s = some list → tok ∈ list) ∧
        Book.decimalsOf s.ledger tok = some decimals) ∧
      created s (createdGroup s creator rounded cycleDuration maxMembers env.timestamp grace order)
        ⟨tok, decimals⟩ = w ∧
      onOption (readAt ContractConfig w.persistent .config) (pure ()) (chargeCreationFee creator tok) env w =
        .ok () t := by
  rw [createGroup] at h
  simp only [requireAuth_bind_ok, failIf_bind_ok] at h
  obtain ⟨hsigned, -, h⟩ := h
  -- Everything up to the new id only reads.
  obtain ⟨rounded, s₁, hround, h₁⟩ := bind_ok.mp h
  obtain rfl := Within.eq_of_ok hround
  simp only [failIf_bind_ok, getOpt_bind_ok] at h₁
  obtain ⟨-, -, h₂⟩ := h₁
  obtain ⟨⟨⟩, s₂, hlimits, h₃⟩ := bind_ok.mp h₂
  obtain rfl := Within.eq_of_ok hlimits
  rw [getOpt_bind_ok] at h₃
  obtain ⟨⟨⟩, s₃, hallowed, h₄⟩ := bind_ok.mp h₃.2
  obtain rfl := Within.eq_of_ok hallowed
  obtain ⟨decimals, s₄, hdec, h₅⟩ := bind_ok.mp h₄
  obtain rfl := Within.eq_of_ok hdec
  simp only [generateNextGroupId_bind_ok, now_bind_ok, Group.new_bind_ok, put_bind_ok,
    getOpt_bind_ok] at h₅
  obtain ⟨-, -, ⟨hamount, hduration, hmembers, -⟩, -, h₆⟩ := h₅
  obtain ⟨⟨⟩, s₅, hfee, hend⟩ := bind_ok.mp h₆
  obtain ⟨rfl, rfl⟩ := pure_ok.mp hend
  refine ⟨hsigned, rfl, rounded, decimals, _, ⟨hamount, hduration, hmembers, ?_⟩, ⟨?_, ?_⟩, rfl, hfee⟩
  · intro config hconfig
    rw [hconfig] at hlimits
    exact (checkCreateLimits_ok.mp hlimits).1
  · intro list hlist
    rw [allowedAt] at hlist
    rw [hlist] at hallowed
    simpa [onOption] using hallowed
  · simp only [validateToken, tokenDecimals_bind_ok, failIf_bind_ok, pure_ok] at hdec
    obtain ⟨n, hn, -, rfl, -⟩ := hdec
    exact hn

/-- What `create_group` stores, and what it has checked of it. -/
theorem createGroup_terms
    (h : createGroup creator amount cycleDuration maxMembers tok grace order env s = .ok n t) :
    n = lastId s + 1 ∧ ∃ rounded decimals l,
      (0 < rounded ∧ 0 < cycleDuration ∧ 2 ≤ maxMembers ∧ ∀ config,
        readAt ContractConfig s.persistent .config = some config →
          Bounded config rounded cycleDuration maxMembers) ∧
      ((∀ list, allowedAt s = some list → tok ∈ list) ∧
        Book.decimalsOf s.ledger tok = some decimals) ∧
      (created s (createdGroup s creator rounded cycleDuration maxMembers env.timestamp grace order)
        ⟨tok, decimals⟩).setLedger l = t := by
  obtain ⟨-, hid, rounded, decimals, w, hterms, htoken, rfl, hfee⟩ := createGroup_steps h
  refine ⟨hid, rounded, decimals, t.ledger, hterms, htoken, ?_⟩
  -- The fee moves tokens and nothing else.
  have hagree := Within.agree_ok (w := scope [] False True) hfee
  refine hagree.eq_setLedger ?_ ?_
  · rintro k ⟨p, hp, -⟩
    exact absurd hp List.not_mem_nil
  · rintro k ⟨-, hk⟩
    exact hk

theorem createGroup_ok
    (h : createGroup creator amount cycleDuration maxMembers tok grace order env s = .ok n t) :
    n = lastId s + 1 ∧ ∃ rounded decimals l,
      (created s (createdGroup s creator rounded cycleDuration maxMembers env.timestamp grace order)
        ⟨tok, decimals⟩).setLedger l = t := by
  obtain ⟨hid, rounded, decimals, l, -, -, ht⟩ := createGroup_terms h
  exact ⟨hid, rounded, decimals, l, ht⟩

/-- What `clone_group` stores, and what `Group::new` has asserted of it. -/
theorem cloneGroup_terms (h : cloneGroup creator g o env s = .ok n t) :
    n = lastId s + 1 ∧ ∃ src config, (groupAt s g = some src ∧ tokenAt s g = some config) ∧
      (0 < o.contributionAmount.getD src.contributionAmount ∧
        0 < o.cycleDuration.getD src.cycleDuration ∧
        2 ≤ o.minMembers.getD src.minMembers ∧
        o.minMembers.getD src.minMembers ≤ o.maxMembers.getD src.maxMembers) ∧
      created s (clonedGroup n creator src o env.timestamp)
        ⟨o.tokenAddress.getD config.tokenAddress, config.tokenDecimals⟩ = t := by
  simp [cloneGroup, generateNextGroupId_bind_ok] at h
  obtain ⟨-, src, hsrc, config, htoken, -, -, ⟨hamount, hduration, -, hmin, hrange, -⟩, rfl, rfl⟩ := h
  exact ⟨rfl, src, config, ⟨hsrc, htoken⟩, ⟨hamount, hduration, hmin, hrange⟩, rfl⟩

theorem cloneGroup_ok (h : cloneGroup creator g o env s = .ok n t) :
    n = lastId s + 1 ∧ ∃ amount duration maxMembers minMembers grace config,
      created s (Group.fresh n creator amount duration maxMembers minMembers env.timestamp grace
        false 0) config = t := by
  obtain ⟨hid, src, config, -, -, ht⟩ := cloneGroup_terms h
  exact ⟨hid, _, _, _, _, _, _, ht⟩

end Creation

end SaveLifecycle
