import StellarSave.DataProofs
import Mathlib.Data.List.Nodup

/-! # Contributions — four ways to write a contribution record

    `contribute`, `contribute_batch`, `execute_auto_contributions` and
    `contribute_with_proof` (`contract.rs`) all end in the same recording
    helper, which touches FIVE entries: the record, the cycle total, the cycle
    count, the group balance and the member's streak.

    `canRecord` is what the helper needs to end well and `recorded` the state
    it leaves; every entry point is inverted in terms of these two. -/

namespace SaveContribution

open HostProg Footprint TokenLedger SaveData

/-! ## Recording -/

/-- The streak after a contribution to `cycle` (`milestones.rs`). -/
def nextStreak (streak : ContributionStreak) (cycle : Nat) : ContributionStreak :=
  let newStreak :=
    if streak.lastContributedCycle = u32Max then 1
    else if cycle = streak.lastContributedCycle + 1 then
      saturatingU32 (streak.currentStreak + 1)
    else 1
  { currentStreak := newStreak
    bestStreak := if newStreak > streak.bestStreak then newStreak else streak.bestStreak
    lastContributedCycle := cycle }

/-- `milestones::update_streak`. -/
def updateStreak (g : Nat) (member : Address) (cycle : Nat) : SaveM Unit := do
  let streak : ContributionStreak ← getD (.mbrStrk g member) .default
  put (.mbrStrk g member) (nextStreak streak cycle)

/-- `record_contribution_unchecked`. -/
def recordContributionUnchecked (g cycle : Nat) (member : Address) (amount : Int)
    (timestamp : Nat) : SaveM Int := do
  demand (amount > 0)
  put (.contrib g cycle member)
    (ContributionRecord.mk member g cycle amount timestamp)
  let currentTotal : I128 ← getD (.cycTotal g cycle) ⟨0⟩
  let newTotal ← okOr (checkedI128 (currentTotal.val + amount)) .overflow
  put (.cycTotal g cycle) (I128.mk newTotal)
  let currentCount : U32 ← getD (.cycCount g cycle) ⟨0⟩
  let newCount ← okOr (checkedU32 (currentCount.val + 1)) .overflow
  put (.cycCount g cycle) (U32.mk newCount)
  let currentBalance : I128 ← getD (.grpBal g) ⟨0⟩
  let newBalance ← okOr (checkedI128 (currentBalance.val + amount)) .overflow
  put (.grpBal g) (I128.mk newBalance)
  updateStreak g member cycle
  pure newTotal

/-- `record_contribution`. -/
def recordContribution (g cycle : Nat) (member : Address) (amount : Int)
    (timestamp : Nat) : SaveM Int := do
  let already ← has (.contrib g cycle member)
  failIf (already = true) .alreadyContributed
  recordContributionUnchecked g cycle member amount timestamp

/-- What the recording helper needs: a positive amount, entries of the right
    type, and room in the three counters. -/
structure CanRecord (s : State) (g cycle : Nat) (member : Address) (amount : Int) : Prop where
  amount_pos : 0 < amount
  total_typed : TypedAt I128 s.persistent (.cycTotal g cycle)
  total_fits : -i128Bound ≤ cycTotalAt s g cycle + amount ∧
    cycTotalAt s g cycle + amount < i128Bound
  count_typed : TypedAt U32 s.persistent (.cycCount g cycle)
  count_fits : cycCountAt s g cycle + 1 ≤ u32Max
  balance_typed : TypedAt I128 s.persistent (.grpBal g)
  balance_fits : -i128Bound ≤ grpBalAt s g + amount ∧ grpBalAt s g + amount < i128Bound
  streak_typed : TypedAt ContributionStreak s.persistent (.mbrStrk g member)

/-- The state after recording. -/
def recorded (s : State) (g cycle : Nat) (member : Address) (amount : Int)
    (timestamp : Nat) : State :=
  ((((s.set (.contrib g cycle member)
      (Codec.encode (ContributionRecord.mk member g cycle amount timestamp))).set
      (.cycTotal g cycle) (Codec.encode (I128.mk (cycTotalAt s g cycle + amount)))).set
      (.cycCount g cycle) (Codec.encode (U32.mk (cycCountAt s g cycle + 1)))).set
      (.grpBal g) (Codec.encode (I128.mk (grpBalAt s g + amount)))).set
      (.mbrStrk g member) (Codec.encode (nextStreak (streakAt s g member) cycle))

section Recording

variable {env : Env} {s t : State} {g cycle ts : Nat} {member : Address} {amount n : Int}

@[simp] theorem updateStreak_ok {u : Unit} :
    updateStreak g member cycle env s = .ok u t ↔
      TypedAt ContributionStreak s.persistent (.mbrStrk g member) ∧
        s.set (.mbrStrk g member) (Codec.encode (nextStreak (streakAt s g member) cycle)) = t := by
  simp [updateStreak]

/-- **THE RECORDING SPEC**. -/
theorem recordContributionUnchecked_ok :
    recordContributionUnchecked g cycle member amount ts env s = .ok n t ↔
      CanRecord s g cycle member amount ∧ cycTotalAt s g cycle + amount = n ∧
        recorded s g cycle member amount ts = t := by
  simp [recordContributionUnchecked, bind_ok, typedAt_set_of_ne]
  constructor
  · rintro ⟨hpos, hT, hTf, hC, hCf, hB, hBf, ⟨hS, rfl⟩, rfl⟩
    exact ⟨⟨hpos, hT, hTf, hC, hCf, hB, hBf, hS⟩, rfl, rfl⟩
  · rintro ⟨⟨hpos, hT, hTf, hC, hCf, hB, hBf, hS⟩, rfl, rfl⟩
    exact ⟨hpos, hT, hTf, hC, hCf, hB, hBf, ⟨hS, rfl⟩, rfl⟩

theorem recordContribution_ok :
    recordContribution g cycle member amount ts env s = .ok n t ↔
      (s.persistent (.contrib g cycle member) = none ∧ CanRecord s g cycle member amount) ∧
        cycTotalAt s g cycle + amount = n ∧ recorded s g cycle member amount ts = t := by
  simp only [recordContribution, has_bind_ok, failIf_bind_ok, recordContributionUnchecked_ok,
    Bool.not_eq_true, Option.isSome_eq_false_iff, Option.isNone_iff_eq_none, and_assoc]

@[simp] theorem recordContributionUnchecked_bind_ok {β : Type} {b : β} {f : Int → SaveM β} :
    (recordContributionUnchecked g cycle member amount ts >>= f) env s = .ok b t ↔
      CanRecord s g cycle member amount ∧
        f (cycTotalAt s g cycle + amount) env (recorded s g cycle member amount ts) = .ok b t :=
  bind_ok_of_step fun _ _ => recordContributionUnchecked_ok

@[simp] theorem recordContribution_bind_ok {β : Type} {b : β} {f : Int → SaveM β} :
    (recordContribution g cycle member amount ts >>= f) env s = .ok b t ↔
      (s.persistent (.contrib g cycle member) = none ∧ CanRecord s g cycle member amount) ∧
        f (cycTotalAt s g cycle + amount) env (recorded s g cycle member amount ts) = .ok b t :=
  bind_ok_of_step fun _ _ => recordContribution_ok

@[simp] theorem recorded_ledger : (recorded s g cycle member amount ts).ledger = s.ledger := rfl

@[simp] theorem recorded_temporary :
    (recorded s g cycle member amount ts).temporary = s.temporary := rfl

/-- Recording adds one contribution record and no other. -/
theorem contribAt_recorded (g' c' : Nat) (a : Address) :
    contribAt (recorded s g cycle member amount ts) g' c' a =
      if g' = g ∧ c' = cycle ∧ a = member then
        some (ContributionRecord.mk member g cycle amount ts)
      else contribAt s g' c' a := by
  simp [recorded]

end Recording

instance {w : Scope Key} (g cycle : Nat) (member : Address) [Allows w.persistent (.mbrStrk g member)] :
    Within w (updateStreak g member cycle) := by
  rw [updateStreak]
  infer_instance

set_option synthInstance.maxSize 8192 in
instance {w : Scope Key} (g cycle ts : Nat) (member : Address) (amount : Int)
    [Allows w.persistent (.contrib g cycle member)] [Allows w.persistent (.cycTotal g cycle)]
    [Allows w.persistent (.cycCount g cycle)] [Allows w.persistent (.grpBal g)]
    [Allows w.persistent (.mbrStrk g member)] :
    Within w (recordContributionUnchecked g cycle member amount ts) := by
  rw [recordContributionUnchecked]
  infer_instance

instance {w : Scope Key} (g cycle ts : Nat) (member : Address) (amount : Int)
    [Allows w.persistent (.contrib g cycle member)] [Allows w.persistent (.cycTotal g cycle)]
    [Allows w.persistent (.cycCount g cycle)] [Allows w.persistent (.grpBal g)]
    [Allows w.persistent (.mbrStrk g member)] :
    Within w (recordContribution g cycle member amount ts) := by
  rw [recordContribution]
  infer_instance

/-! ## The entry points -/

/-- The end of the current cycle, saturating. -/
def cycleDeadline (grp : Group) : Nat :=
  saturatingU64 (grp.startedAt + saturatingU64 (grp.cycleDuration * (grp.currentCycle + 1)))

/-- The token of a group; a missing one releases the guard and errs. -/
def loadTokenOrRelease (g : Nat) : SaveM TokenConfig := do
  let config : Option TokenConfig ← getOpt (.grpTok g)
  onOption config
    (do
      tempPut .guard (U64.mk 0)
      throw .groupNotFound)
    pure

/-- `contribute`. -/
def contribute (g : Nat) (member : Address) (amount : Int) : SaveM Unit := do
  requireAuth member
  let grp : Group ← getOr (.grp g) .groupNotFound
  failIf (grp.status ≠ .active) .invalidState
  let time ← now
  failIf (grp.started = true ∧
    time > saturatingU64 (cycleDeadline grp + grp.gracePeriodSeconds)) .cycleDeadlineExpired
  let isMember ← has (.mbrProf g member)
  failIf (isMember = false) .notMember
  failIf (amount ≠ grp.contributionAmount) .invalidAmount
  let guardValue : U64 ← tempGetD .guard ⟨0⟩
  failIf (guardValue.val ≠ 0) .internalError
  tempPut .guard (U64.mk 1)
  let config ← loadTokenOrRelease g
  let _ ← recordContribution g grp.currentCycle member amount time
  tokenTransferFrom config.tokenAddress member contractAddress amount
  tempPut .guard (U64.mk 0)

/-- One cycle of a batch: not past, not paid, not listed earlier. -/
def checkBatchCycle (g : Nat) (member : Address) (currentCycle : Nat)
    (earlier : List Nat) (cycle : Nat) : SaveM (List Nat) := do
  failIf (cycle < currentCycle) .cycleDeadlineExpired
  let paid ← has (.contrib g cycle member)
  failIf (paid = true) .alreadyContributed
  failIf (cycle ∈ earlier) .alreadyContributed
  pure (earlier ++ [cycle])

/-- `contribute_batch`. -/
def contributeBatch (g : Nat) (member : Address) (cycles : List Nat) : SaveM Unit := do
  requireAuth member
  failIf (cycles = []) .invalidAmount
  let grp : Group ← getOr (.grp g) .groupNotFound
  failIf (grp.status ≠ .active) .invalidState
  let isMember ← has (.mbrProf g member)
  failIf (isMember = false) .notMember
  let _ ← foldEach (checkBatchCycle g member grp.currentCycle) [] cycles
  let config : TokenConfig ← getOr (.grpTok g) .groupNotFound
  let time ← now
  let total ← okOr (checkedI128 (grp.contributionAmount * cycles.length)) .overflow
  forEach (fun cycle => do
    let _ ← recordContributionUnchecked g cycle member grp.contributionAmount time
    pure ()) cycles
  tokenTransferFrom config.tokenAddress member contractAddress total

/-- One member of the automatic sweep: every soft failure skips the member. -/
def autoContributeMember (g cycle : Nat) (tok : Address) (amount : Int) (time : Nat)
    (executed : Nat) (member : Address) : SaveM Nat := do
  let enabled : Bool ← getD (.mbrAuto g member) false
  let paid ← has (.contrib g cycle member)
  if enabled = false ∨ paid = true then pure executed else do
    let balance ← tokenBalance tok member
    if balance < amount then pure executed else do
      let allowance ← tokenAllowance tok member
      if allowance < amount then pure executed else do
        let _ ← recordContributionUnchecked g cycle member amount time
        tokenTransferFrom tok member contractAddress amount
        unwrap (checkedU32 (executed + 1))

/-- `execute_auto_contributions`. -/
def executeAutoContributions (g : Nat) : SaveM Nat := do
  let grp : Group ← getOr (.grp g) .groupNotFound
  failIf (grp.status ≠ .active) .invalidState
  let config : TokenConfig ← getOr (.grpTok g) .groupNotFound
  let roster : MemberMap ← getOr (.grpMbrs g) .groupNotFound
  let time ← now
  foldEach (autoContributeMember g grp.currentCycle config.tokenAddress
    grp.contributionAmount time) 0 roster.members

/-- `contribute_with_proof`. -/
def contributeWithProof (g : Nat) (member : Address) (amount : Int) : SaveM Unit := do
  requireAuth member
  let grp : Group ← getOr (.grp g) .groupNotFound
  failIf (grp.status ≠ .active) .invalidState
  failIf (amount ≠ grp.contributionAmount) .invalidAmount
  let isMember ← has (.mbrProf g member)
  failIf (isMember = false) .notMember
  runIf (grp.requireContributionProof = true) (do
    let verified : Bool ← getD (.cProof g grp.currentCycle member) false
    failIf (verified = false) .unauthorized)
  let time ← now
  let _ ← recordContribution g grp.currentCycle member amount time
  let _cycleTotal : I128 ← getD (.cycTotal g grp.currentCycle) ⟨0⟩
  pure ()

instance {w : Scope Key} (g : Nat) [Allows w.temporary .guard] :
    Within w (loadTokenOrRelease g) := by
  rw [loadTokenOrRelease]
  infer_instance

/-- What every contribution may touch in its group. -/
@[reducible] def contributionPlaces (g : Nat) : List Place :=
  [.of .contrib g, .of .cycTotal g, .of .cycCount g, .of .grpBal g, .of .mbrStrk g]

set_option synthInstance.maxSize 65536 in
instance (g : Nat) (member : Address) (amount : Int) :
    Within (scope (contributionPlaces g) True True) (contribute g member amount) := by
  rw [contribute]
  infer_instance

instance {w : Scope Key} (g : Nat) (member : Address) (current : Nat) (earlier : List Nat)
    (cycle : Nat) : Within w (checkBatchCycle g member current earlier cycle) := by
  rw [checkBatchCycle]
  infer_instance

set_option synthInstance.maxSize 8192 in
instance (g : Nat) (member : Address) (cycles : List Nat) :
    Within (scope (contributionPlaces g) False True) (contributeBatch g member cycles) := by
  rw [contributeBatch]
  infer_instance

set_option synthInstance.maxSize 512 in
instance (g cycle : Nat) (tok : Address) (amount : Int) (time executed : Nat)
    (member : Address) :
    Within (scope (contributionPlaces g) False True)
      (autoContributeMember g cycle tok amount time executed member) := by
  rw [autoContributeMember]
  infer_instance

instance (g : Nat) :
    Within (scope (contributionPlaces g) False True) (executeAutoContributions g) := by
  rw [executeAutoContributions]
  infer_instance

set_option synthInstance.maxSize 8192 in
instance (g : Nat) (member : Address) (amount : Int) :
    Within (scope (contributionPlaces g) False False) (contributeWithProof g member amount) := by
  rw [contributeWithProof]
  infer_instance

/-! ## The checks of a batch -/

section Batch

variable {env : Env} {s t : State} {g : Nat} {m : Address}

theorem checkBatchCycle_ok {current cycle : Nat} {earlier later : List Nat} :
    checkBatchCycle g m current earlier cycle env s = .ok later t ↔
      (current ≤ cycle ∧ s.persistent (.contrib g cycle m) = none ∧ cycle ∉ earlier) ∧
        earlier ++ [cycle] = later ∧ s = t := by
  simp [checkBatchCycle, and_assoc]

/-- **A BATCH THAT PASSES** lists distinct cycles, none past and all free. -/
theorem checkBatch_ok {current : Nat} {cycles earlier later : List Nat}
    (h : foldEach (checkBatchCycle g m current) earlier cycles env s = .ok later t)
    (hnodup : earlier.Nodup) :
    s = t ∧ (earlier ++ cycles).Nodup ∧
      ∀ c ∈ cycles, current ≤ c ∧ s.persistent (.contrib g c m) = none := by
  -- each cycle is new, not behind, and not paid yet
  induction cycles generalizing earlier with
  | nil =>
      rw [foldEach_nil, pure_ok] at h
      refine ⟨h.2, ?_, ?_⟩
      · rwa [List.append_nil]
      · intro c hc
        exact absurd hc List.not_mem_nil
  | cons c cycles ih =>
      rw [foldEach_cons, bind_ok_of_step fun _ _ => checkBatchCycle_ok] at h
      obtain ⟨⟨hle, hfree, hnew⟩, hrest⟩ := h
      have hnodup' : (earlier ++ [c]).Nodup :=
        List.nodup_append.mpr ⟨hnodup, List.nodup_singleton c, by
          intro a ha b hb
          rw [List.mem_singleton] at hb
          exact fun he => hnew (hb ▸ he ▸ ha)⟩
      obtain ⟨hs, hall, hopen⟩ := ih hrest hnodup'
      refine ⟨hs, by rwa [List.append_assoc, List.singleton_append] at hall, ?_⟩
      intro c' hc'
      rcases List.mem_cons.mp hc' with rfl | hmem
      · exact ⟨hle, hfree⟩
      · exact hopen c' hmem

/-- A batch that ended well: its cycles were checked, each was recorded, which led to `w`, and
    the total was pulled at once. -/
structure Batched (env : Env) (s : State) (g : Nat) (m : Address) (cycles : List Nat) (grp : SaveData.Group)
    (config : TokenConfig) (w : State) (l : Ledger) : Prop where
  signed : m ∈ env.signers
  nonempty : cycles ≠ []
  group : groupAt s g = some grp
  active : grp.status = .active
  profile : s.persistent (.mbrProf g m) ≠ none
  distinct : cycles.Nodup
  upcoming : ∀ c ∈ cycles, grp.currentCycle ≤ c ∧ s.persistent (.contrib g c m) = none
  token : tokenAt s g = some config
  fits : -i128Bound ≤ grp.contributionAmount * cycles.length ∧ grp.contributionAmount * cycles.length < i128Bound
  recorded : forEach (fun cycle => do
    let _ ← recordContributionUnchecked g cycle m grp.contributionAmount env.timestamp
    pure ()) cycles env s = .ok () w
  pulled : Book.transferFrom w.ledger config.tokenAddress m contractAddress
    (grp.contributionAmount * cycles.length) = some l

/-- **WHAT A BATCH CAN DO**. -/
theorem contributeBatch_ok {u : Unit} {cycles : List Nat} (h : contributeBatch g m cycles env s = .ok u t) :
    ∃ grp config w l, Batched env s g m cycles grp config w l ∧ w.setLedger l = t := by
  simp only [contributeBatch, requireAuth_bind_ok, failIf_bind_ok, getOr_bind_ok, has_bind_ok] at h
  obtain ⟨hsigned, hnonempty, grp, hgrp, hactive, hprofile, h⟩ := h
  obtain ⟨checked, v, hcheck, h⟩ := bind_ok.mp h
  obtain ⟨rfl, hdistinct, hupcoming⟩ := checkBatch_ok hcheck List.nodup_nil
  simp only [getOr_bind_ok, now_bind_ok, okOr_bind_ok, checkedI128_eq_some] at h
  obtain ⟨config, hconfig, total, ⟨hfits, rfl⟩, h⟩ := h
  obtain ⟨⟨⟩, w, hrecorded, htransfer⟩ := bind_ok.mp h
  obtain ⟨l, hpulled, rfl⟩ := tokenTransferFrom_ok.mp htransfer
  exact ⟨grp, config, w, l, ⟨hsigned, hnonempty, hgrp, not_not.mp hactive, by simpa using hprofile, hdistinct,
    hupcoming, hconfig, hfits, hrecorded, hpulled⟩, rfl⟩

end Batch

/-! ## The other entry points, inverted -/

section Inversion

variable {env : Env} {s t : State} {g : Nat} {m : Address} {amount : Int}

/-- A contribution that ended well: what was checked before the guard was taken, the record
    under it and the pull. -/
structure Contributed (env : Env) (s : State) (g : Nat) (m : Address) (amount : Int) (grp : SaveData.Group)
    (config : TokenConfig) (l : Ledger) : Prop where
  signed : m ∈ env.signers
  group : groupAt s g = some grp
  active : grp.status = .active
  timely : grp.started = true → env.timestamp ≤ saturatingU64 (cycleDeadline grp + grp.gracePeriodSeconds)
  profile : s.persistent (.mbrProf g m) ≠ none
  amount_eq : amount = grp.contributionAmount
  unlocked : TypedAt U64 s.temporary .guard ∧ ((readAt U64 s.temporary .guard).getD ⟨0⟩).val = 0
  token : tokenAt s g = some config
  free : s.persistent (.contrib g grp.currentCycle m) = none
  can : CanRecord (s.tempSet .guard (Codec.encode (U64.mk 1))) g grp.currentCycle m amount
  pulled : Book.transferFrom s.ledger config.tokenAddress m contractAddress amount = some l

/-- **WHAT A CONTRIBUTION CAN DO**. -/
theorem contribute_ok {u : Unit} (h : contribute g m amount env s = .ok u t) :
    ∃ grp config l, Contributed env s g m amount grp config l ∧
      ((recorded (s.tempSet .guard (Codec.encode (U64.mk 1))) g grp.currentCycle m amount env.timestamp).setLedger
        l).tempSet .guard (Codec.encode (U64.mk 0)) = t := by
  simp [contribute, loadTokenOrRelease] at h
  obtain ⟨hsigned, grp, hgrp, hactive, htimely, hprofile, hamount, htyped, hunlocked, -, config, hconfig,
    ⟨hfree, hcan⟩, l, hl, ht⟩ := h
  exact ⟨grp, config, l, ⟨hsigned, hgrp, hactive, htimely, hprofile, hamount, ⟨htyped, hunlocked⟩, hconfig, hfree,
    hcan, hl⟩, ht⟩

/-- **WHAT THE SWEEP CAN DO** with a member: skip, or record and pull. -/
theorem autoContributeMember_ok {tok : Address} {cycle time executed executed' : Nat}
    (h : autoContributeMember g cycle tok amount time executed m env s = .ok executed' t) :
    (executed = executed' ∧ s = t) ∨
      ∃ l, s.persistent (.contrib g cycle m) = none ∧ CanRecord s g cycle m amount ∧
        Book.transferFrom s.ledger tok m contractAddress amount = some l ∧ executed + 1 = executed' ∧
        (recorded s g cycle m amount time).setLedger l = t := by
  simp [autoContributeMember] at h
  obtain ⟨-, h⟩ := h
  -- skipped: has paid or not opted in, too little balance, too little allowance
  rcases h with ⟨-, hskip⟩ | ⟨⟨-, hfree⟩, balance, -, h⟩
  · exact Or.inl hskip
  rcases h with ⟨-, hskip⟩ | ⟨-, allowance, -, h⟩
  · exact Or.inl hskip
  rcases h with ⟨-, hskip⟩ | ⟨-, hcan, l, hl, ⟨-, hcount⟩, ht⟩
  · exact Or.inl hskip
  · exact Or.inr ⟨l, hfree, hcan, hl, hcount, ht⟩

theorem executeAutoContributions_ok {n : Nat} (h : executeAutoContributions g env s = .ok n t) :
    ∃ grp config roster, groupAt s g = some grp ∧ grp.status = .active ∧ tokenAt s g = some config ∧
      readAt MemberMap s.persistent (.grpMbrs g) = some roster ∧
      foldEach (autoContributeMember g grp.currentCycle config.tokenAddress grp.contributionAmount env.timestamp) 0
        roster.members env s = .ok n t := by
  simp [executeAutoContributions] at h
  obtain ⟨grp, hgrp, hactive, config, hconfig, roster, hroster, hrun⟩ := h
  exact ⟨grp, config, roster, hgrp, hactive, hconfig, hroster, hrun⟩

end Inversion

end SaveContribution
