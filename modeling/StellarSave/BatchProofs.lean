import StellarSave.RewardProofs

/-! # A batch of contributions — one transfer for many cycles

    `contribute_batch` checks every listed cycle, records them all and then moves
    the sum at once.  Where it ends well it ends where the cycles paid one after
    the other end, if these all can be paid: the records do not look at the token,
    and moving an amount many times is moving its multiple.

    Three things it does not ask: which cycles exist, whether a cycle's deadline
    and grace period are over, and whether the guard is free. -/

namespace SaveBatch

open HostProg Footprint TokenLedger SaveData SaveContribution SaveCall
open SaveRoster (trioEnv trio_signs openGroup)
open SaveRotation (fundedOpen)
open SaveReward (readyToPay)

/-- The end of a cycle, saturating. -/
def cycleEnd (grp : Group) (cycle : Nat) : Nat :=
  saturatingU64 (grp.startedAt + saturatingU64 (grp.cycleDuration * (cycle + 1)))

/-- The deadline and the grace period of a cycle are not over. -/
def OnTime (env : Env) (grp : Group) (cycle : Nat) : Prop :=
  grp.started = true → env.timestamp ≤ saturatingU64 (cycleEnd grp cycle + grp.gracePeriodSeconds)

/-- A contribution to one cycle: `contribute`, for the cycle that is named. -/
def contributeCycle (g : Nat) (member : Address) (amount : Int) (cycle : Nat) : SaveM Unit := do
  requireAuth member
  let grp : Group ← getOr (.grp g) .groupNotFound
  failIf (grp.status ≠ .active) .invalidState
  let time ← now
  failIf (grp.started = true ∧
    time > saturatingU64 (cycleEnd grp cycle + grp.gracePeriodSeconds)) .cycleDeadlineExpired
  let isMember ← has (.mbrProf g member)
  failIf (isMember = false) .notMember
  failIf (amount ≠ grp.contributionAmount) .invalidAmount
  let guardValue : U64 ← tempGetD .guard ⟨0⟩
  failIf (guardValue.val ≠ 0) .internalError
  tempPut .guard (U64.mk 1)
  let config ← loadTokenOrRelease g
  let _ ← recordContribution g cycle member amount time
  tokenTransferFrom config.tokenAddress member contractAddress amount
  tempPut .guard (U64.mk 0)

/-- What a batch is compared with: its cycles, one after the other. -/
def contributeEach (g : Nat) (member : Address) (cycles : List Nat) : SaveM Unit := do
  let grp : SaveData.Group ← getOr (.grp g) .groupNotFound
  forEach (contributeCycle g member grp.contributionAmount) cycles

/-- Nobody holds the guard. -/
def Unlocked (s : State) : Prop :=
  TypedAt U64 s.temporary .guard ∧ ((readAt U64 s.temporary .guard).getD ⟨0⟩).val = 0

/-- The same storage and the same token; a guard that was given back reads as one
    that was never taken. -/
structure SameEffects (t t' : State) : Prop where
  persistent : t'.persistent = t.persistent
  ledger : t'.ledger = t.ledger
  temporary : ∀ k, k ≠ .guard → t'.temporary k = t.temporary k
  guard : (readAt U64 t'.temporary .guard).getD ⟨0⟩ = (readAt U64 t.temporary .guard).getD ⟨0⟩

/-- A contribution to a cycle that ends well. -/
structure PaysCycle (env : Env) (s : State) (g : Nat) (m : Address) (amount : Int) (cycle : Nat)
    (grp : SaveData.Group) (config : TokenConfig) (l : Ledger) : Prop where
  signed : m ∈ env.signers
  group : groupAt s g = some grp
  active : grp.status = .active
  timely : OnTime env grp cycle
  profile : s.persistent (.mbrProf g m) ≠ none
  amount_eq : amount = grp.contributionAmount
  unlocked : Unlocked s
  token : tokenAt s g = some config
  free : s.persistent (.contrib g cycle m) = none
  can : CanRecord s g cycle m amount
  pulled : Book.transferFrom s.ledger config.tokenAddress m contractAddress amount = some l

section Each

variable {env : Env} {s t v w : State} {g time : Nat} {m tok : Address} {amount : Int}
  {cycles : List Nat} {u : Unit} {l : Ledger}

/-- A record looks at storage only. -/
theorem canRecord_congr {cycle : Nat} (h : CanRecord s g cycle m amount)
    (hsame : t.persistent = s.persistent) : CanRecord t g cycle m amount := by
  obtain ⟨p, tmp, l⟩ := s
  obtain ⟨p', tmp', l'⟩ := t
  obtain rfl : p' = p := hsame
  exact ⟨h.amount_pos, h.total_typed, h.total_fits, h.count_typed, h.count_fits, h.balance_typed,
    h.balance_fits, h.streak_typed⟩

/-- `contribute` is the contribution to the current cycle. -/
theorem contribute_eq_contributeCycle {grp : SaveData.Group} (hgrp : groupAt s g = some grp) :
    contribute g m amount env s = contributeCycle g m amount grp.currentCycle env s := by
  rw [contribute, contributeCycle]
  refine bind_congr fun _ t hauth => ?_
  obtain ⟨-, rfl⟩ := requireAuth_ok.mp hauth
  refine bind_congr fun grp' t hread => ?_
  obtain ⟨hgrp', rfl⟩ := getOr_ok.mp hread
  obtain rfl := Option.some.inj (hgrp.symm.trans hgrp')
  rfl

/-- **WHAT A CONTRIBUTION TO A CYCLE DOES**, exactly. -/
theorem contributeCycle_ok_iff {cycle : Nat} :
    contributeCycle g m amount cycle env s = .ok u t ↔
      ∃ grp config l, PaysCycle env s g m amount cycle grp config l ∧
        ((recorded (s.tempSet .guard (Codec.encode (U64.mk 1))) g cycle m amount env.timestamp).setLedger
          l).tempSet .guard (Codec.encode (U64.mk 0)) = t := by
  simp [contributeCycle, loadTokenOrRelease]
  constructor
  · rintro ⟨hsigned, grp, hgrp, hactive, htimely, hprofile, hamount, htyped, hunlocked, htoken, config,
      hconfig, ⟨hfree, hcan⟩, l, hl, ht⟩
    exact ⟨grp, config, l, ⟨hsigned, hgrp, hactive, htimely, hprofile, hamount, ⟨htyped, hunlocked⟩,
      hconfig, hfree, canRecord_congr hcan rfl, hl⟩, ht⟩
  · rintro ⟨grp, config, l, h, ht⟩
    exact ⟨h.signed, grp, h.group, h.active, h.timely, h.profile, h.amount_eq, h.unlocked.1, h.unlocked.2,
      typedAt_of_readAt h.token, config, h.token, ⟨h.free, canRecord_congr h.can rfl⟩, l, h.pulled, ht⟩

/-- The records of a batch. -/
def recordEach (g : Nat) (member : Address) (amount : Int) (time : Nat) (cycles : List Nat) : SaveM Unit :=
  forEach (fun cycle => do
    let _ ← recordContributionUnchecked g cycle member amount time
    pure ()) cycles

theorem recordEach_cons {cycle : Nat} :
    recordEach g m amount time (cycle :: cycles) env s = .ok u t ↔
      CanRecord s g cycle m amount ∧
        recordEach g m amount time cycles env (recorded s g cycle m amount time) = .ok u t := by
  rw [recordEach, forEach_cons, bind_bind_ok, recordContributionUnchecked_bind_ok, pure_bind_ok]
  exact Iff.rfl

theorem recordEach_setLedger (h : recordEach g m amount time cycles env v = .ok u w) (l : Ledger) :
    recordEach g m amount time cycles env (v.setLedger l) = .ok u (w.setLedger l) := by
  induction cycles generalizing v with
  | nil =>
      obtain ⟨rfl, rfl⟩ := pure_ok.mp h
      rfl
  | cons cycle cycles ih =>
      obtain ⟨hcan, hrest⟩ := recordEach_cons.mp h
      exact recordEach_cons.mpr ⟨canRecord_congr hcan rfl, ih hrest⟩

/-- What a contribution asks of the group and the member, whichever the cycle. -/
structure Ready (env : Env) (s : State) (g : Nat) (m : Address) (grp : SaveData.Group)
    (config : TokenConfig) : Prop where
  signed : m ∈ env.signers
  group : groupAt s g = some grp
  active : grp.status = .active
  profile : s.persistent (.mbrProf g m) ≠ none
  token : tokenAt s g = some config

theorem Ready.recorded {grp : SaveData.Group} {config : TokenConfig} {cycle : Nat}
    (h : Ready env s g m grp config) (l : Ledger) :
    Ready env ((recorded s g cycle m amount time).setLedger l) g m grp config where
  signed := h.signed
  group := by simpa [SaveContribution.recorded, groupAt] using h.group
  active := h.active
  profile := by simpa [SaveContribution.recorded] using h.profile
  token := by simpa [SaveContribution.recorded, tokenAt] using h.token

/-- A contribution under the guard leaves what its record leaves. -/
theorem SameEffects.pay {cycle : Nat} (h : SameEffects v w) (hunlocked : Unlocked w) (l : Ledger) :
    SameEffects ((recorded v g cycle m amount time).setLedger l)
      (((recorded (w.tempSet .guard (Codec.encode (U64.mk 1))) g cycle m amount time).setLedger
        l).tempSet .guard (Codec.encode (U64.mk 0))) := by
  obtain ⟨p, tmp, lv⟩ := v
  obtain ⟨p', tmp', lw⟩ := w
  obtain rfl : p' = p := h.persistent
  refine ⟨rfl, rfl, fun k hk => ?_, ?_⟩
  · have hold := h.temporary k hk
    simpa [HostState.tempSet, recorded, hk] using hold
  · have hzero : (readAt U64 tmp' .guard).getD ⟨0⟩ = ⟨0⟩ := by
      have hval := hunlocked.2
      generalize (readAt U64 tmp' .guard).getD ⟨0⟩ = x at hval
      cases x
      obtain rfl : _ = 0 := hval
      rfl
    have hold : (readAt U64 tmp' .guard).getD ⟨0⟩ = (readAt U64 tmp .guard).getD ⟨0⟩ := h.guard
    rw [hzero] at hold
    refine Eq.trans ?_ hold
    simp

/-- **BATCH TO SEQUENCE**: all records and one transfer of the sum end where record and
    transfer by turns end.  By induction along the cycles; what is moved at once is
    split into the first amount and the others. -/
theorem contributeCycles_of_recordEach {grp : SaveData.Group} {config : TokenConfig}
    (hready : Ready env v g m grp config) (htimely : ∀ c ∈ cycles, OnTime env grp c)
    (hrecord : recordEach g m grp.contributionAmount env.timestamp cycles env v = .ok u w)
    (hfree : ∀ c ∈ cycles, v.persistent (.contrib g c m) = none) (hnodup : cycles.Nodup)
    (hamount : 0 ≤ grp.contributionAmount)
    (hmove : Book.transferFrom v.ledger config.tokenAddress m contractAddress
      (grp.contributionAmount * cycles.length) = some l)
    (hsame : SameEffects v s) (hunlocked : Unlocked s) :
    ∃ t, forEach (contributeCycle g m grp.contributionAmount) cycles env s = .ok () t ∧
      SameEffects (w.setLedger l) t := by
  induction cycles generalizing v w s with
  | nil =>
      obtain ⟨-, rfl⟩ := pure_ok.mp hrecord
      have hzero : grp.contributionAmount * (([] : List Nat).length : Int) = 0 := Int.mul_zero _
      rw [hzero] at hmove
      rw [Book.transferFrom_zero hmove]
      exact ⟨s, rfl, hsame⟩
  | cons cycle cycles ih =>
      obtain ⟨hcan, hrest⟩ := recordEach_cons.mp hrecord
      obtain ⟨hcycle, hnodup'⟩ := List.nodup_cons.mp hnodup
      have hsplit : grp.contributionAmount * ((cycle :: cycles).length : Int)
          = grp.contributionAmount + grp.contributionAmount * cycles.length := by
        rw [List.length_cons, Nat.cast_succ, Int.mul_add, Int.mul_one, Int.add_comm]
      rw [hsplit] at hmove
      obtain ⟨l₁, hfirst, hothers⟩ := Book.transferFrom_add hamount
        (Int.mul_nonneg hamount (Int.natCast_nonneg _)) hmove
      -- the cycles still to come are free after the first is recorded
      have hfree' : ∀ c ∈ cycles, ((recorded v g cycle m grp.contributionAmount
          env.timestamp).setLedger l₁).persistent (.contrib g c m) = none := by
        intro c hc
        have hne : c ≠ cycle := fun he => hcycle (he ▸ hc)
        simpa [recorded, hne] using hfree c (List.mem_cons_of_mem _ hc)
      -- the guard was free, and is given back
      have hfreed : Unlocked (((recorded (s.tempSet .guard (Codec.encode (U64.mk 1))) g cycle m
          grp.contributionAmount env.timestamp).setLedger l₁).tempSet .guard (Codec.encode (U64.mk 0))) :=
        ⟨typedAt_of_readAt (a := U64.mk 0) (by simp), by simp⟩
      obtain ⟨t, hnext, heffects⟩ := ih (hready.recorded l₁)
        (fun c hc => htimely c (List.mem_cons_of_mem _ hc)) (recordEach_setLedger hrest l₁) hfree' hnodup'
        hothers (hsame.pay hunlocked l₁) hfreed
      refine ⟨t, ?_, heffects⟩
      have hpersistent := hsame.persistent
      rw [forEach_cons]
      refine bind_ok.mpr ⟨(), _, contributeCycle_ok_iff.mpr ⟨grp, config, l₁, ?_, rfl⟩, hnext⟩
      exact
        { signed := hready.signed
          group := (congrArg (readAt _ · _) hpersistent).trans hready.group
          active := hready.active
          timely := htimely cycle List.mem_cons_self
          profile := by
            rw [hpersistent]
            exact hready.profile
          amount_eq := rfl
          unlocked := hunlocked
          token := (congrArg (readAt _ · _) hpersistent).trans hready.token
          free := by
            rw [hpersistent]
            exact hfree cycle List.mem_cons_self
          can := canRecord_congr hcan hpersistent
          pulled := by
            rw [hsame.ledger]
            exact hfirst }

/-- Cycles that were paid one after the other were paid in time. -/
theorem onTime_of_contributeCycles {grp : SaveData.Group} (hgrp : groupAt s g = some grp)
    (h : forEach (contributeCycle g m amount) cycles env s = .ok u t) : ∀ c ∈ cycles, OnTime env grp c := by
  induction cycles generalizing s with
  | nil => exact fun c hc => absurd hc List.not_mem_nil
  | cons cycle cycles ih =>
      rw [forEach_cons] at h
      obtain ⟨⟨⟩, v, hfirst, hrest⟩ := bind_ok.mp h
      obtain ⟨grp', config, l, hpaid, rfl⟩ := contributeCycle_ok_iff.mp hfirst
      obtain rfl := Option.some.inj (hgrp.symm.trans hpaid.group)
      intro c hc
      rcases List.mem_cons.mp hc with rfl | hlater
      · exact hpaid.timely
      · refine ih ?_ hrest c hlater
        simpa [recorded, groupAt] using hgrp

end Each

/-! ## What a batch asks for -/

/-- The records of a batch are possible, each after those before it. -/
def CanRecordEach (g : Nat) (m : Address) (amount : Int) (time : Nat) : List Nat → State → Prop
  | [], _ => True
  | cycle :: cycles, s => CanRecord s g cycle m amount ∧
      CanRecordEach g m amount time cycles (recorded s g cycle m amount time)

/-- What the code checks before it accepts a batch. -/
structure Accepts (env : Env) (s : State) (g : Nat) (m : Address) (cycles : List Nat)
    (grp : SaveData.Group) (config : TokenConfig) : Prop where
  signed : m ∈ env.signers
  nonempty : cycles ≠ []
  group : groupAt s g = some grp
  active : grp.status = .active
  profile : s.persistent (.mbrProf g m) ≠ none
  upcoming : ∀ c ∈ cycles, grp.currentCycle ≤ c ∧ s.persistent (.contrib g c m) = none
  distinct : cycles.Nodup
  token : readAt TokenConfig s.persistent (.grpTok g) = some config
  fits : -i128Bound ≤ grp.contributionAmount * cycles.length ∧
    grp.contributionAmount * cycles.length < i128Bound
  records : CanRecordEach g m grp.contributionAmount env.timestamp cycles s
  funded : (Book.transferFrom s.ledger config.tokenAddress m contractAddress
    (grp.contributionAmount * cycles.length)).isSome

section Batch

variable {env : Env} {s t : State} {g time current : Nat} {m : Address} {amount : Int}
  {cycles earlier : List Nat} {u : Unit}

theorem canRecordEach_iff :
    CanRecordEach g m amount time cycles s ↔ ∃ w, recordEach g m amount time cycles env s = .ok () w := by
  induction cycles generalizing s with
  | nil => exact iff_of_true trivial ⟨s, rfl⟩
  | cons cycle cycles ih =>
      constructor
      · rintro ⟨hcan, hrest⟩
        obtain ⟨w, hw⟩ := ih.mp hrest
        exact ⟨w, recordEach_cons.mpr ⟨hcan, hw⟩⟩
      · rintro ⟨w, hw⟩
        obtain ⟨hcan, hrest⟩ := recordEach_cons.mp hw
        exact ⟨hcan, ih.mpr ⟨w, hrest⟩⟩

/-- The records leave the token alone. -/
theorem recordEach_ledger (h : recordEach g m amount time cycles env s = .ok u t) :
    t.ledger = s.ledger := by
  induction cycles generalizing s with
  | nil => rw [(pure_ok.mp h).2]
  | cons cycle cycles ih =>
      have hrest := ih (recordEach_cons.mp h).2
      exact hrest

/-- Cycles that are upcoming, free and distinct pass the checks. -/
theorem checkBatch_passes (hopen : ∀ c ∈ cycles, current ≤ c ∧ s.persistent (.contrib g c m) = none)
    (hnodup : (earlier ++ cycles).Nodup) :
    foldEach (checkBatchCycle g m current) earlier cycles env s = .ok (earlier ++ cycles) s := by
  induction cycles generalizing earlier with
  | nil =>
      rw [foldEach_nil, List.append_nil]
      rfl
  | cons c cycles ih =>
      have hnew : c ∉ earlier := by
        intro hmem
        exact (List.nodup_append.mp hnodup).2.2 c hmem c List.mem_cons_self rfl
      have hsplit : earlier ++ c :: cycles = (earlier ++ [c]) ++ cycles := by
        rw [List.append_assoc, List.singleton_append]
      obtain ⟨hle, hfree⟩ := hopen c List.mem_cons_self
      rw [foldEach_cons, bind_ok_of_step fun _ _ => checkBatchCycle_ok, hsplit]
      exact ⟨⟨hle, hfree, hnew⟩,
        ih (fun c' hc' => hopen c' (List.mem_cons_of_mem _ hc')) (hsplit ▸ hnodup)⟩

/-- **WHAT A BATCH DOES**, exactly. -/
theorem contributeBatch_ok_iff :
    contributeBatch g m cycles env s = .ok u t ↔
      ∃ grp config w l, Accepts env s g m cycles grp config ∧
        recordEach g m grp.contributionAmount env.timestamp cycles env s = .ok () w ∧
        Book.transferFrom s.ledger config.tokenAddress m contractAddress
          (grp.contributionAmount * cycles.length) = some l ∧ w.setLedger l = t := by
  -- what the batch checks, writes and pulls, read off its steps
  constructor
  · intro h
    obtain ⟨grp, config, w, l, hbatch, rfl⟩ := contributeBatch_ok h
    have hrecord : recordEach g m grp.contributionAmount env.timestamp cycles env s = .ok () w := hbatch.recorded
    have hl := hbatch.pulled
    rw [recordEach_ledger hrecord] at hl
    exact ⟨grp, config, w, l, ⟨hbatch.signed, hbatch.nonempty, hbatch.group, hbatch.active, hbatch.profile,
      hbatch.upcoming, hbatch.distinct, hbatch.token, hbatch.fits, canRecordEach_iff.mpr ⟨w, hrecord⟩,
      by rw [hl]; rfl⟩, hrecord, hl, rfl⟩
  -- and the other way: every check is passed, and the charge goes through
  · rintro ⟨grp, config, w, l, hacc, hrecord, hl, rfl⟩
    simp only [contributeBatch, requireAuth_bind_ok, failIf_bind_ok, getOr_bind_ok, has_bind_ok]
    refine ⟨hacc.signed, hacc.nonempty, grp, hacc.group, not_not.mpr hacc.active,
      by simpa using hacc.profile, ?_⟩
    refine bind_ok.mpr ⟨_, s, checkBatch_passes hacc.upcoming (by simpa using hacc.distinct), ?_⟩
    simp only [getOr_bind_ok, now_bind_ok, okOr_bind_ok]
    refine ⟨config, hacc.token, _, checkedI128_eq_some.mpr ⟨hacc.fits, rfl⟩, ?_⟩
    refine bind_ok.mpr ⟨(), w, hrecord, tokenTransferFrom_ok.mpr ⟨l, ?_, rfl⟩⟩
    rw [recordEach_ledger hrecord]
    exact hl

/-- What a batch does not ask: the guard is free, and every listed cycle exists and
    is not over. -/
structure Sound (env : Env) (s : State) (cycles : List Nat) (grp : SaveData.Group) : Prop where
  unlocked : Unlocked s
  exist : ∀ c ∈ cycles, c < grp.maxMembers
  timely : ∀ c ∈ cycles, OnTime env grp c

/-- **NOTHING BUT THE SEQUENCE**: a batch that ends well ends where its cycles, paid one
    after the other, end, if these can still be paid. -/
theorem contributeEach_of_contributeBatch {grp : SaveData.Group} (hgrp : groupAt s g = some grp)
    (hunlocked : Unlocked s) (htimely : ∀ c ∈ cycles, OnTime env grp c)
    (h : contributeBatch g m cycles env s = .ok u t) :
    ∃ t', contributeEach g m cycles env s = .ok () t' ∧ SameEffects t t' := by
  obtain ⟨grp', config, w, l, hacc, hrecord, hl, rfl⟩ := contributeBatch_ok_iff.mp h
  obtain rfl := Option.some.inj (hgrp.symm.trans hacc.group)
  have hamount : 0 ≤ grp.contributionAmount := by
    have hrecords := hacc.records
    cases cycles with
    | nil => exact absurd rfl hacc.nonempty
    | cons cycle cycles => exact Int.le_of_lt hrecords.1.amount_pos
  obtain ⟨t', heach, hsame⟩ := contributeCycles_of_recordEach
    ⟨hacc.signed, hgrp, hacc.active, hacc.profile, hacc.token⟩ htimely hrecord
    (fun c hc => (hacc.upcoming c hc).2) hacc.distinct hamount hl ⟨rfl, rfl, fun _ _ => rfl, rfl⟩ hunlocked
  refine ⟨t', ?_, hsame⟩
  rw [contributeEach, getOr_bind_ok]
  exact ⟨grp, hgrp, heach⟩

/-- What the sequence asks beyond the batch. -/
theorem contributeEach_asks {grp : SaveData.Group} (hgrp : groupAt s g = some grp) (hne : cycles ≠ [])
    (h : contributeEach g m cycles env s = .ok u t) :
    Unlocked s ∧ ∀ c ∈ cycles, OnTime env grp c := by
  rw [contributeEach, getOr_bind_ok] at h
  obtain ⟨grp', hgrp', heach⟩ := h
  obtain rfl := Option.some.inj (hgrp.symm.trans hgrp')
  refine ⟨?_, onTime_of_contributeCycles hgrp heach⟩
  cases cycles with
  | nil => exact absurd rfl hne
  | cons cycle cycles =>
      rw [forEach_cons] at heach
      obtain ⟨⟨⟩, v, hfirst, -⟩ := bind_ok.mp heach
      obtain ⟨grp', config, l, hpaid, -⟩ := contributeCycle_ok_iff.mp hfirst
      exact hpaid.unlocked

theorem accepts_iff_succeeds :
    (∃ grp config, Accepts env s g m cycles grp config) ↔ Succeeds (contributeBatch g m cycles) env s := by
  constructor
  · rintro ⟨grp, config, hacc⟩
    obtain ⟨w, hrecord⟩ := canRecordEach_iff.mp hacc.records
    obtain ⟨l, hl⟩ := Option.isSome_iff_exists.mp hacc.funded
    exact ⟨(), w.setLedger l, contributeBatch_ok_iff.mpr ⟨grp, config, w, l, hacc, hrecord, hl, rfl⟩⟩
  · rintro ⟨⟨⟩, t, h⟩
    obtain ⟨grp, config, w, l, hacc, -⟩ := contributeBatch_ok_iff.mp h
    exact ⟨grp, config, hacc⟩

/-- What a batch should do: leave what its cycles leave one after the other, or nothing,
    and never take one that does not exist. -/
structure AsSequence (env : Env) (s : State) (g : Nat) (m : Address) (cycles : List Nat) : Prop where
  effects : (Succeeds (contributeBatch g m cycles) env s ∧
      ∃ t, contributeEach g m cycles env s = .ok () t ∧
        SameEffects (commit (contributeBatch g m cycles) env s) t) ∨
    (¬ Succeeds (contributeBatch g m cycles) env s ∧ commit (contributeBatch g m cycles) env s = s)
  exist : ∀ grp, groupAt s g = some grp → Succeeds (contributeBatch g m cycles) env s →
    ∀ c ∈ cycles, c < grp.maxMembers

/-- **WHEN A BATCH IS ITS SEQUENCE**: in every state, for every list, exactly where what
    passes the checks lists no cycle past the last and none that is over, and the guard
    is free. -/
theorem batch_as_sequence_iff (env : Env) (s : State) (g : Nat) (m : Address) (cycles : List Nat) :
    AsSequence env s g m cycles ↔
      ∀ grp config, Accepts env s g m cycles grp config → Sound env s cycles grp := by
  constructor
  · intro h grp config hacc
    have hsucceeds := accepts_iff_succeeds.mp ⟨grp, config, hacc⟩
    rcases h.effects with ⟨-, t, heach, -⟩ | ⟨hnot, -⟩
    · obtain ⟨hunlocked, htimely⟩ := contributeEach_asks hacc.group hacc.nonempty heach
      exact ⟨hunlocked, h.exist grp hacc.group hsucceeds, htimely⟩
    · exact absurd hsucceeds hnot
  · intro h
    refine ⟨?_, fun grp hgrp hsucceeds => ?_⟩
    · by_cases hsucceeds : Succeeds (contributeBatch g m cycles) env s
      · obtain ⟨grp, config, hacc⟩ := accepts_iff_succeeds.mpr hsucceeds
        have hsound := h grp config hacc
        obtain ⟨⟨⟩, t, ht⟩ := hsucceeds
        obtain ⟨t', heach, hsame⟩ :=
          contributeEach_of_contributeBatch hacc.group hsound.unlocked hsound.timely ht
        refine .inl ⟨⟨(), t, ht⟩, t', heach, ?_⟩
        rwa [commit_of_ok ht]
      · exact .inr ⟨hsucceeds, commit_of_not_succeeds hsucceeds⟩
    · obtain ⟨grp', config, hacc⟩ := accepts_iff_succeeds.mpr hsucceeds
      obtain rfl := Option.some.inj (hgrp.symm.trans hacc.group)
      exact (h grp config hacc).exist

/-- Long after the first cycle and its grace period. -/
def lateEnv : Env := .plain 5000 [⟨1⟩, ⟨2⟩, ⟨3⟩] trio_signs

/-- Two members are in a group for three: a batch pays for the cycles `0` and `7`, and
    for the cycle `0` when `contribute` no longer does. -/
theorem cycle_seven_is_paid :
    (Succeeds (contributeBatch 1 ⟨1⟩ [0, 7]) trioEnv (run readyToPay fundedOpen) ∧
      (∃ grp, groupAt (run readyToPay fundedOpen) 1 = some grp ∧ grp.maxMembers = 3) ∧
      ¬ AsSequence trioEnv (run readyToPay fundedOpen) 1 ⟨1⟩ [0, 7]) ∧
    Succeeds (contributeBatch 1 ⟨1⟩ [0]) lateEnv (run readyToPay fundedOpen) ∧
      contribute 1 ⟨1⟩ 100 lateEnv (run readyToPay fundedOpen)
        = .err .cycleDeadlineExpired (run readyToPay fundedOpen) ∧
      ¬ AsSequence lateEnv (run readyToPay fundedOpen) 1 ⟨1⟩ [0] := by
  have hpaid : Succeeds (contributeBatch 1 ⟨1⟩ [0, 7]) trioEnv (run readyToPay fundedOpen) := by
    decide +kernel
  have hlate : Succeeds (contributeBatch 1 ⟨1⟩ [0]) lateEnv (run readyToPay fundedOpen) := by
    decide +kernel
  obtain ⟨grp, hgrp, hthree, hstarted, hover⟩ : ∃ grp, groupAt (run readyToPay fundedOpen) 1 = some grp ∧
      grp.maxMembers = 3 ∧ grp.started = true ∧
      ¬ lateEnv.timestamp ≤ saturatingU64 (cycleEnd grp 0 + grp.gracePeriodSeconds) :=
    ⟨_, rfl, rfl, rfl, by decide +kernel⟩
  refine ⟨⟨hpaid, ⟨grp, hgrp, hthree⟩, fun h => ?_⟩, hlate, rfl, fun h => ?_⟩
  · have hlt := h.exist grp hgrp hpaid 7 (by decide)
    omega
  · rcases h.effects with ⟨-, t, heach, -⟩ | ⟨hnot, -⟩
    · exact hover ((contributeEach_asks hgrp (by decide) heach).2 0 List.mem_cons_self hstarted)
    · exact hnot hlate

end Batch

end SaveBatch
