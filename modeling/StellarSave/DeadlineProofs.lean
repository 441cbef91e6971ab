import StellarSave.CompletionProofs

/-! # Deadlines — six ways to be late

    The end of a cycle is worked out in six places (`contract.rs`,
    `helpers.rs`, `cycle_advancement.rs`, `deadline.rs`), with saturating,
    checked and plain arithmetic.  Five of them count from the start of the
    group and add the grace period; these agree wherever nothing overflows.

    The sixth, the one that knows of EXTENSIONS, counts from the creation, has
    no grace period, and is late AT the deadline and not after it.  Nobody asks
    it. -/

namespace SaveDeadline

open HostProg Footprint TokenLedger SaveData SaveContribution SavePayout SaveLifecycle SaveAdmin
open SaveCall SaveRoster SaveRotation SaveCompletion Trace

/-! ## The deadlines -/

/-- `get_contribution_deadline`. -/
def getContributionDeadline (g cycle : Nat) : SaveM Nat := do
  let grp : SaveData.Group ← getOr (.grp g) .groupNotFound
  failIf (grp.started = false) .invalidState
  let cycleOffset ← okOr (checkedU64 (cycle * grp.cycleDuration)) .overflow
  let cycleStart ← okOr (checkedU64 (grp.startedAt + cycleOffset)) .overflow
  okOr (checkedU64 (cycleStart + grp.cycleDuration)) .overflow

/-- `cycle_advancement::get_cycle_deadline`. -/
def getCycleDeadline (grp : SaveData.Group) (cycle : Nat) : SaveM Nat := do
  let next ← okOr (checkedU64 (cycle + 1)) .overflow
  let offset ← okOr (checkedU64 (next * grp.cycleDuration)) .overflow
  okOr (checkedU64 (grp.startedAt + offset)) .overflow

/-- `cycle_advancement::is_cycle_expired`. -/
def isCycleExpired (grp : SaveData.Group) (cycle time gracePeriod : Nat) : SaveM Bool := do
  let deadline ← getCycleDeadline grp cycle
  pure (decide (time > saturatingU64 (deadline + gracePeriod)))

/-- `deadline::get_deadline_extension`. -/
def getDeadlineExtension (g cycle : Nat) : SaveM Nat := do
  let extension : U64 ← getD (.dlExt g cycle) ⟨0⟩
  pure extension.val

/-- `deadline::effective_deadline`. -/
def effectiveDeadline (g cycle : Nat) : SaveM (Option Nat) := do
  let grp : Option SaveData.Group ← getOpt (.grp g)
  onOption grp (pure none) fun grp =>
    onOption (checkedU64 (grp.cycleDuration * (cycle + 1))) (pure none) fun span =>
      onOption (checkedU64 (grp.createdAt + span)) (pure none) fun base => do
        let extension ← getDeadlineExtension g cycle
        pure (checkedU64 (base + extension))

/-- `deadline::is_past_deadline`, the time source read first. -/
def isPastDeadline (g cycle time : Nat) : SaveM Bool := do
  let deadline ← effectiveDeadline g cycle
  onOption deadline (pure false) fun deadline => pure (decide (time ≥ deadline))

/-- The end of a cycle, counted from the start of the group. -/
def cycleEnd (grp : SaveData.Group) (cycle : Nat) : Nat :=
  grp.startedAt + grp.cycleDuration * (cycle + 1)

/-- How far the deadline of a cycle was extended. -/
def extensionAt (s : State) (g cycle : Nat) : Nat :=
  ((readAt U64 s.persistent (.dlExt g cycle)).getD ⟨0⟩).val

/-- The end of a cycle, counted from the creation of the group and extended. -/
def extendedEnd (s : State) (g : Nat) (grp : SaveData.Group) (cycle : Nat) : Nat :=
  grp.createdAt + grp.cycleDuration * (cycle + 1) + extensionAt s g cycle

section Deadlines

variable {env : Env} {s : State} {g cycle time grace d : Nat} {grp : SaveData.Group} {b : Bool}

theorem getCycleDeadline_ok (hcycle : cycle ≤ u32Max) :
    getCycleDeadline grp cycle env s = .ok d s ↔
      cycleEnd grp cycle ≤ u64Max ∧ cycleEnd grp cycle = d := by
  have hnext : cycle + 1 ≤ u64Max := Nat.le_trans (Nat.succ_le_succ hcycle) (by decide)
  have hspan : (cycle + 1) * grp.cycleDuration = grp.cycleDuration * (cycle + 1) := Nat.mul_comm _ _
  simp [getCycleDeadline, cycleEnd, hspan, hnext]
  intro hfits _
  omega

/-- The same deadline, reached in another order. -/
theorem getContributionDeadline_ok (hgrp : groupAt s g = some grp) :
    getContributionDeadline g cycle env s = .ok d s ↔
      grp.started = true ∧ cycleEnd grp cycle ≤ u64Max ∧ cycleEnd grp cycle = d := by
  have hspan : grp.cycleDuration * (cycle + 1) = cycle * grp.cycleDuration + grp.cycleDuration := by
    rw [Nat.mul_comm, Nat.succ_mul]
  simp [getContributionDeadline, hgrp, cycleEnd, hspan]
  intro _
  constructor
  · rintro ⟨-, -, hfits, rfl⟩
    exact ⟨by omega, by omega⟩
  · rintro ⟨hfits, rfl⟩
    exact ⟨by omega, by omega, by omega, by omega⟩

theorem isCycleExpired_ok (hcycle : cycle ≤ u32Max) :
    isCycleExpired grp cycle time grace env s = .ok b s ↔
      cycleEnd grp cycle ≤ u64Max ∧
        decide (saturatingU64 (cycleEnd grp cycle + grace) < time) = b := by
  rw [isCycleExpired, bind_ok]
  constructor
  · rintro ⟨d, v, hd, hb⟩
    obtain ⟨rfl, rfl⟩ := pure_ok.mp hb
    obtain ⟨hfits, rfl⟩ := (getCycleDeadline_ok hcycle).mp hd
    exact ⟨hfits, rfl⟩
  · rintro ⟨hfits, rfl⟩
    exact ⟨_, s, (getCycleDeadline_ok hcycle).mpr ⟨hfits, rfl⟩, rfl⟩

/-- At a time a clock can show. -/
theorem lt_saturatingU64 {n : Nat} (htime : time ≤ u64Max) : saturatingU64 n < time ↔ n < time := by
  rw [saturatingU64]
  omega

theorem withinGrace_ok (hstarted : grp.started = true) :
    withinGrace grp cycle time env s = .ok b s ↔
      cycleEnd grp cycle + grp.gracePeriodSeconds ≤ u64Max ∧
        decide (time ≤ cycleEnd grp cycle + grp.gracePeriodSeconds) = b := by
  simp [withinGrace, hstarted, cycleEnd]
  constructor
  · rintro ⟨-, -, hfits, hb⟩
    exact ⟨hfits, hb⟩
  · rintro ⟨hfits, hb⟩
    exact ⟨by omega, by omega, hfits, hb⟩

/-- Three checked sums in a row are one: the last is the largest. -/
theorem checked_sum {x y e : Nat} (hxy : x ≤ y) {o : Option Nat} :
    (checkedU64 x = none ∧ none = o ∨ x ≤ u64Max ∧
      (checkedU64 y = none ∧ none = o ∨ y ≤ u64Max ∧ checkedU64 (y + e) = o)) ↔
      checkedU64 (y + e) = o := by
  by_cases hsum : y + e ≤ u64Max
  · have hx : x ≤ u64Max := by omega
    have hy : y ≤ u64Max := by omega
    simp [checkedU64, hsum, hx, hy]
  · by_cases hx : x ≤ u64Max
    · by_cases hy : y ≤ u64Max
      · simp [checkedU64, hsum, hx, hy]
      · simp [checkedU64, hsum, hx, hy]
    · simp [checkedU64, hsum, hx]

theorem effectiveDeadline_ok (hgrp : groupAt s g = some grp)
    (htyped : TypedAt U64 s.persistent (.dlExt g cycle)) {o : Option Nat} :
    effectiveDeadline g cycle env s = .ok o s ↔ checkedU64 (extendedEnd s g grp cycle) = o := by
  simp [effectiveDeadline, getDeadlineExtension, hgrp, htyped, typedAt_of_readAt hgrp, extendedEnd,
    extensionAt]
  exact checked_sum (Nat.le_add_left _ _)

theorem isPastDeadline_ok (hgrp : groupAt s g = some grp)
    (htyped : TypedAt U64 s.persistent (.dlExt g cycle)) :
    isPastDeadline g cycle time env s = .ok b s ↔
      decide (extendedEnd s g grp cycle ≤ u64Max ∧ extendedEnd s g grp cycle ≤ time) = b := by
  have hdeadline : effectiveDeadline g cycle env s
      = .ok (checkedU64 (extendedEnd s g grp cycle)) s :=
    (effectiveDeadline_ok hgrp htyped).mpr rfl
  rw [isPastDeadline, bind_of_ok hdeadline]
  by_cases hfits : extendedEnd s g grp cycle ≤ u64Max
  · simp [checkedU64, hfits, onOption]
  · simp [checkedU64, hfits, onOption]

/-- **ACCEPTED OR CLOSED**: while a contribution is accepted the cycle is not
    closed, whatever overflows. -/
theorem accepted_not_closed {member : Address} {amount : Int}
    (h : Succeeds (contribute g member amount) env s) : ¬ Succeeds (tick g) env s := by
  rintro ⟨_, t, htick⟩
  obtain ⟨_, v, hpaid⟩ := h
  simp only [contribute, requireAuth_bind_ok, getOr_bind_ok, failIf_bind_ok, now_bind_ok] at hpaid
  obtain ⟨-, grp, hgrp, -, htime, -⟩ := hpaid
  simp only [tick, getOr_bind_ok, failIf_bind_ok, now_bind_ok] at htick
  obtain ⟨grp', hgrp', -, hrest⟩ := htick
  obtain rfl := Option.some.inj (hgrp.symm.trans hgrp')
  obtain ⟨passed, w, hpassed, hrest'⟩ := bind_ok.mp hrest
  rw [failIf_bind_ok] at hrest'
  have hlate : passed = true := by simpa using hrest'.1
  subst hlate
  by_cases hstarted : grp.started = true
  · -- one saturates where the other fails, and nothing comes after the last second
    simp [isCycleDeadlinePassed, hstarted] at hpassed
    obtain ⟨hspan, hend, hlimit, hlater, -⟩ := hpassed
    simp [hstarted, cycleDeadline, saturatingU64] at htime
    omega
  · simp [isCycleDeadlinePassed, Bool.eq_false_of_not_eq_true hstarted] at hpassed

end Deadlines

/-! ## One deadline -/

/-- The three deadlines of a cycle are one instant. -/
def SameInstant (s : State) (g : Nat) (grp : SaveData.Group) (cycle : Nat) : Prop :=
  ∃ d, ∀ env, getContributionDeadline g cycle env s = .ok d s ∧
    getCycleDeadline grp cycle env s = .ok d s ∧ effectiveDeadline g cycle env s = .ok (some d) s

/-- The three that decide who is late in a cycle, with the grace period of the
    group, decide alike at every time a clock can show. -/
def SameDecision (s : State) (g : Nat) (grp : SaveData.Group) (cycle : Nat) : Prop :=
  ∀ env, env.timestamp ≤ u64Max → ∃ late,
    isCycleExpired grp cycle env.timestamp grp.gracePeriodSeconds env s = .ok late s ∧
    withinGrace grp cycle env.timestamp env s = .ok (!late) s ∧
    isPastDeadline g cycle env.timestamp env s = .ok late s

/-- One deadline for everybody. -/
structure OneDeadline (s : State) (g : Nat) (grp : SaveData.Group) (cycle : Nat) : Prop where
  accepted : ∀ env member amount, Succeeds (contribute g member amount) env s →
    ¬ Succeeds (tick g) env s
  instant : SameInstant s g grp cycle
  decision : SameDecision s g grp cycle

/-- Extensions are stored as such. -/
def ExtensionsTyped (s : State) : Prop := ∀ g c, TypedAt U64 s.persistent (.dlExt g c)

section One

variable {env : Env} {s t : State} {g cycle : Nat} {grp : SaveData.Group} {c : Call}

/-- **AT THE DEADLINE** one of them is late and the other is not. -/
theorem not_oneDeadline (hgrp : groupAt s g = some grp)
    (htyped : TypedAt U64 s.persistent (.dlExt g cycle)) (hcycle : cycle ≤ u32Max) :
    ¬ OneDeadline s g grp cycle := by
  intro h
  obtain ⟨d, hd⟩ := h.instant
  obtain ⟨-, hend, heff⟩ := hd (Env.plain 0 [] List.not_mem_nil)
  obtain ⟨hfits, rfl⟩ := (getCycleDeadline_ok hcycle).mp hend
  have hext : extendedEnd s g grp cycle ≤ u64Max ∧
      extendedEnd s g grp cycle = cycleEnd grp cycle :=
    checkedU64_eq_some.mp ((effectiveDeadline_ok hgrp htyped).mp heff)
  -- the clock shows the deadline
  obtain ⟨late, hexpired, -, hpast⟩ :=
    h.decision (Env.plain (cycleEnd grp cycle) [] List.not_mem_nil) hfits
  have hearly := ((isCycleExpired_ok hcycle).mp hexpired).2
  have hlate := (isPastDeadline_ok hgrp htyped).mp hpast
  rw [← hlate, decide_eq_decide] at hearly
  have hafter := (lt_saturatingU64 hfits).mp (hearly.mpr ⟨hext.1, hext.2.le⟩)
  omega

/-- The instants are one exactly when the extension makes up for the time
    between creation and start. -/
theorem sameInstant_iff (hgrp : groupAt s g = some grp)
    (htyped : TypedAt U64 s.persistent (.dlExt g cycle)) (hcycle : cycle ≤ u32Max) :
    SameInstant s g grp cycle ↔ grp.started = true ∧ cycleEnd grp cycle ≤ u64Max ∧
      grp.createdAt + extensionAt s g cycle = grp.startedAt := by
  simp only [SameInstant, getContributionDeadline_ok hgrp, getCycleDeadline_ok hcycle,
    effectiveDeadline_ok hgrp htyped, checkedU64_eq_some]
  constructor
  · rintro ⟨d, hd⟩
    obtain ⟨⟨hstarted, hfits, rfl⟩, -, -, heq⟩ := hd (Env.plain 0 [] List.not_mem_nil)
    refine ⟨hstarted, hfits, ?_⟩
    rw [extendedEnd, cycleEnd] at heq
    omega
  · rintro ⟨hstarted, hfits, heq⟩
    refine ⟨cycleEnd grp cycle, fun _ => ⟨⟨hstarted, hfits, rfl⟩, ⟨hfits, rfl⟩, ?_⟩⟩
    have hsame : extendedEnd s g grp cycle = cycleEnd grp cycle := by
      rw [extendedEnd, cycleEnd]
      omega
    exact ⟨hsame ▸ hfits, hsame⟩

/-- One instant of the three decisions. -/
theorem decision_iff (hgrp : groupAt s g = some grp)
    (htyped : TypedAt U64 s.persistent (.dlExt g cycle)) (hcycle : cycle ≤ u32Max)
    (hstarted : grp.started = true) (htime : env.timestamp ≤ u64Max) :
    (∃ late, isCycleExpired grp cycle env.timestamp grp.gracePeriodSeconds env s = .ok late s ∧
      withinGrace grp cycle env.timestamp env s = .ok (!late) s ∧
      isPastDeadline g cycle env.timestamp env s = .ok late s) ↔
      cycleEnd grp cycle + grp.gracePeriodSeconds ≤ u64Max ∧
        (cycleEnd grp cycle + grp.gracePeriodSeconds < env.timestamp ↔
          extendedEnd s g grp cycle ≤ u64Max ∧ extendedEnd s g grp cycle ≤ env.timestamp) := by
  simp only [isCycleExpired_ok hcycle, withinGrace_ok hstarted, isPastDeadline_ok hgrp htyped,
    lt_saturatingU64 htime]
  constructor
  · rintro ⟨late, ⟨-, hexpired⟩, ⟨hfits, -⟩, hpast⟩
    exact ⟨hfits, decide_eq_decide.mp (hexpired.trans hpast.symm)⟩
  · rintro ⟨hfits, hiff⟩
    refine ⟨_, ⟨by omega, rfl⟩, ⟨hfits, ?_⟩, decide_eq_decide.mpr hiff.symm⟩
    rw [← decide_not, decide_eq_decide]
    omega

/-- The decisions are one exactly when the extended deadline is one second past
    the grace period (as far as a clock goes). -/
theorem sameDecision_iff (hgrp : groupAt s g = some grp)
    (htyped : TypedAt U64 s.persistent (.dlExt g cycle)) (hcycle : cycle ≤ u32Max) :
    SameDecision s g grp cycle ↔ grp.started = true ∧
      cycleEnd grp cycle + grp.gracePeriodSeconds ≤ u64Max ∧
      min (extendedEnd s g grp cycle) (u64Max + 1)
        = cycleEnd grp cycle + grp.gracePeriodSeconds + 1 := by
  have hclock : ∀ n, (Env.plain n [] List.not_mem_nil).timestamp = n := fun _ => rfl
  by_cases hstarted : grp.started = true
  · simp only [SameDecision]
    constructor
    · intro h
      have hat : ∀ n, n ≤ u64Max → _ := fun n hn =>
        (decision_iff hgrp htyped hcycle hstarted (hclock n ▸ hn)).mp
          (h (Env.plain n [] List.not_mem_nil) (hclock n ▸ hn))
      -- the last second of grace and the first after it leave one value
      have hfits := (hat 0 (Nat.zero_le _)).1
      have hlast := (hat _ hfits).2
      rw [hclock] at hlast
      refine ⟨hstarted, hfits, ?_⟩
      by_cases hnext : cycleEnd grp cycle + grp.gracePeriodSeconds + 1 ≤ u64Max
      · have hfirst := (hat _ hnext).2
        rw [hclock] at hfirst
        omega
      · omega
    · rintro ⟨-, hfits, hmin⟩ env htime
      refine (decision_iff hgrp htyped hcycle hstarted htime).mpr ⟨hfits, ?_⟩
      omega
  · refine iff_of_false ?_ fun h => hstarted h.1
    intro h
    -- nobody is within a grace period, and at time `0` nothing has expired
    obtain ⟨late, hexpired, hgrace, -⟩ := h (Env.plain 0 [] List.not_mem_nil) (Nat.zero_le _)
    rw [withinGrace, if_pos (Bool.eq_false_of_not_eq_true hstarted), pure_ok] at hgrace
    have hlate : late = true := by simpa using hgrace.1.symm
    have hexpired' := ((isCycleExpired_ok hcycle).mp hexpired).2
    rw [hlate, decide_eq_true_iff, hclock] at hexpired'
    exact absurd hexpired' (Nat.not_lt_zero _)

theorem typed_step (hs : ExtensionsTyped s) (h : c.body env s = .ok () t) : ExtensionsTyped t := by
  have hagree := (Within.agree_ok (w := c.footprint) h).persistent
  cases c with
  -- the one writer of extensions
  | extendDeadline caller g' cycle' extension =>
      intro j k
      have hrun : SaveAdmin.extendDeadline caller g' cycle' extension env s = .ok () t := h
      simp [SaveAdmin.extendDeadline] at hrun
      obtain ⟨-, -, grp, -, -, -, -, -, -, -, -, rfl⟩ := hrun
      by_cases he : Key.dlExt j k = .dlExt g' cycle'
      · rw [he]
        exact typedAt_set_self _ _ _
      · exact (typedAt_set_of_ne _ _ he).mpr (hs j k)
  | _ =>
      intro j k
      exact (hs j k).congr (hagree (.dlExt j k) (Place.other_kind rfl))

theorem typed_run (hs : ExtensionsTyped s) (steps : List Step) : ExtensionsTyped (run steps s) := by
  refine exec_invariant_always (fun x s hs => ?_) hs steps
  exact apply_invariant (C := fun _ _ => True) (fun _ _ _ _ _ hs h => typed_step hs h)
    (fun _ hs => hs) (fun _ _ hs => hs) x s trivial hs

end One

/-- **MORE THAN ONE DEADLINE**: after every run, no group has one deadline for a
    cycle.  A contribution is accepted only while the cycle is not closed, and the
    deadlines counted from the start are the same; but the extended deadline is
    the same instant, and decides alike, exactly under two conditions that
    exclude each other. -/
theorem never_one_deadline (s : State) (hs : ExtensionsTyped s) (steps : List Step) (g : Nat)
    (grp : SaveData.Group) (hgrp : groupAt (run steps s) g = some grp) (cycle : Nat)
    (hcycle : cycle ≤ u32Max) :
    ¬ OneDeadline (run steps s) g grp cycle ∧
    (∀ env member amount, Succeeds (contribute g member amount) env (run steps s) →
      ¬ Succeeds (tick g) env (run steps s)) ∧
    (grp.started = true → ∀ env d, getContributionDeadline g cycle env (run steps s) = .ok d
        (run steps s) ↔ getCycleDeadline grp cycle env (run steps s) = .ok d (run steps s)) ∧
    (SameInstant (run steps s) g grp cycle ↔ grp.started = true ∧ cycleEnd grp cycle ≤ u64Max ∧
      grp.createdAt + extensionAt (run steps s) g cycle = grp.startedAt) ∧
    (SameDecision (run steps s) g grp cycle ↔ grp.started = true ∧
      cycleEnd grp cycle + grp.gracePeriodSeconds ≤ u64Max ∧
      min (extendedEnd (run steps s) g grp cycle) (u64Max + 1)
        = cycleEnd grp cycle + grp.gracePeriodSeconds + 1) := by
  have htyped := typed_run hs steps g cycle
  refine ⟨not_oneDeadline hgrp htyped hcycle, fun _ _ _ => accepted_not_closed, ?_,
    sameInstant_iff hgrp htyped hcycle, sameDecision_iff hgrp htyped hcycle⟩
  intro hstarted env d
  rw [getContributionDeadline_ok hgrp, getCycleDeadline_ok hcycle]
  exact and_iff_right hstarted

/-! A pair created at time `0` and started at time `10`, with cycles of `1000`
    seconds. -/

def startedGroup : SaveData.Group :=
  { openGroup with
    memberCount := 2, started := true, startedAt := 10, status := .active, isActive := true }

theorem startedDuo_group : groupAt startedDuo 1 = some startedGroup := rfl

/-- The creator grants another `100` seconds. -/
def extendedDuo : State := commit (Call.extendDeadline ⟨1⟩ 1 0 100).body trioEnv startedDuo

/-- Within the extension, and past the deadline of everybody else. -/
def lateFirst : Env := .plain 1050 [⟨1⟩] first_signs

theorem startedDuo_typed : ExtensionsTyped startedDuo := fun _ _ => typedAt_of_none rfl

/-- **TWO DEADLINES**, and an extension that `contribute` does not honour. -/
theorem startedDuo_two_deadlines :
    getContributionDeadline 1 0 trioEnv startedDuo = .ok 1010 startedDuo ∧
      effectiveDeadline 1 0 trioEnv startedDuo = .ok (some 1000) startedDuo ∧
      isPastDeadline 1 0 1050 lateFirst extendedDuo = .ok false extendedDuo ∧
      contribute 1 ⟨1⟩ 100 lateFirst extendedDuo = .err .cycleDeadlineExpired extendedDuo ∧
      ¬ OneDeadline startedDuo 1 startedGroup 0 := by
  refine ⟨rfl, rfl, rfl, rfl, fun h => ?_⟩
  obtain ⟨d, hd⟩ := h.instant
  obtain ⟨hcontribution, -, heffective⟩ := hd trioEnv
  have hfirst : getContributionDeadline 1 0 trioEnv startedDuo = .ok 1010 startedDuo := rfl
  have hsecond : effectiveDeadline 1 0 trioEnv startedDuo = .ok (some 1000) startedDuo := rfl
  rw [hfirst] at hcontribution
  rw [hsecond] at heffective
  cases hcontribution
  cases heffective

/-- The theorem there. -/
theorem never_one_deadline_instance :
    ExtensionsTyped startedDuo ∧ ¬ OneDeadline startedDuo 1 startedGroup 0 ∧
      ¬ SameInstant startedDuo 1 startedGroup 0 ∧ ¬ SameDecision startedDuo 1 startedGroup 0 := by
  obtain ⟨hnot, -, -, hinstant, hdecision⟩ := never_one_deadline startedDuo startedDuo_typed [] 1
    startedGroup startedDuo_group 0 (Nat.zero_le _)
  refine ⟨startedDuo_typed, hnot, fun h => ?_, fun h => ?_⟩
  · exact absurd (hinstant.mp h).2.2 (by decide)
  · exact absurd (hdecision.mp h).2.2 (by decide)

end SaveDeadline
