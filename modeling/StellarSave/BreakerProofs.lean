import StellarSave.TraceProofs

/-! # The circuit breaker — who decides when it closes again

    `CircuitBreaker` (`lib/circuit_breaker.ts`) counts outcomes as calls settle,
    and reads its state when a call is fired.  Nothing ties an outcome to the
    state the call was fired in, and nothing holds a second call back while a
    trial is on its way.

    Three fields kept for the statements: how many trips there were before each
    call in flight was started, how many there were so far, and how many calls
    were started since HALF_OPEN was entered. -/

namespace CircuitBreaker

open Trace

inductive CircuitState where
  | closed
  | open
  | halfOpen
  deriving DecidableEq, Repr

/-- The options a breaker is built with. -/
structure CircuitBreakerOptions where
  resetTimeout : Nat
  volumeThreshold : Nat
  /-- `(failureCount / totalCount) * 100 >= errorThresholdPercentage`, as the
      floating point of the host has it. -/
  rateReached : Nat → Nat → Bool

structure Breaker where
  state : CircuitState
  failureCount : Nat
  successCount : Nat
  totalCount : Nat
  nextAttempt : Nat
  deriving DecidableEq, Repr

/-- A new breaker. -/
def Breaker.new : Breaker := ⟨.closed, 0, 0, 0, 0⟩

namespace Breaker

/-- `getState`: the reset timeout is looked at here and nowhere else. -/
def getState (b : Breaker) (now : Nat) : Breaker :=
  if b.state = .open ∧ b.nextAttempt ≤ now then { b with state := .halfOpen } else b

/-- `trip`: also from OPEN, where only `nextAttempt` moves. -/
def trip (b : Breaker) (resetTimeout now : Nat) : Breaker :=
  { b with state := .open, nextAttempt := now + resetTimeout }

/-- `reset`. -/
def reset (_ : Breaker) : Breaker := ⟨.closed, 0, 0, 0, 0⟩

/-- `onSuccess`. -/
def onSuccess (b : Breaker) : Breaker :=
  if b.state = .halfOpen then b.reset
  else { b with successCount := b.successCount + 1, totalCount := b.totalCount + 1 }

/-- The failure that is just counted trips a breaker that is not HALF_OPEN. -/
def thresholdReached (b : Breaker) (o : CircuitBreakerOptions) : Bool :=
  decide (o.volumeThreshold ≤ b.totalCount + 1) && o.rateReached (b.failureCount + 1) (b.totalCount + 1)

/-- `onFailure`. -/
def onFailure (b : Breaker) (o : CircuitBreakerOptions) (now : Nat) : Breaker :=
  let counted := { b with failureCount := b.failureCount + 1, totalCount := b.totalCount + 1 }
  if b.state = .halfOpen then counted.trip o.resetTimeout now
  else if o.volumeThreshold ≤ counted.totalCount then
    if o.rateReached counted.failureCount counted.totalCount = true then
      counted.trip o.resetTimeout now
    else counted
  else counted

end Breaker

/-! ## Overlapping calls -/

/-- The breaker, the clock, and beside them the trips before each call in
    flight, the trips so far and the calls started in HALF_OPEN. -/
structure State where
  breaker : Breaker
  now : Nat
  inFlight : List Nat
  trips : Nat
  trials : Nat
  deriving DecidableEq, Repr

def start : State := ⟨.new, 0, [], 0, 0⟩

/-- What can happen: a call is fired, the race of a call in flight settles, the
    state is read, time passes. -/
inductive Event where
  | fire
  | settle (k : Nat) (ok : Bool)
  | getState
  | pass (ms : Nat)
  deriving DecidableEq, Repr

/-- The state after the breaker moved to `b`. -/
def State.move (s : State) (b : Breaker) : State :=
  { s with
    breaker := b
    trips := if s.breaker.state ≠ .open ∧ b.state = .open then s.trips + 1 else s.trips
    trials := if s.breaker.state ≠ .halfOpen ∧ b.state = .halfOpen then 0 else s.trials }

section
variable (o : CircuitBreakerOptions)

def step : Event → State → State
  | .fire, s =>
      let s := s.move (s.breaker.getState s.now)
      if s.breaker.state = .open then s
      else { s with inFlight := s.inFlight ++ [s.trips], trials := s.trials + 1 }
  | .settle k ok, s =>
      match s.inFlight[k]? with
      | none => s
      | some _ =>
          { s.move (if ok = true then s.breaker.onSuccess else s.breaker.onFailure o s.now) with
            inFlight := s.inFlight.eraseIdx k }
  | .getState, s => s.move (s.breaker.getState s.now)
  | .pass ms, s => { s with now := s.now + ms }

/-! ## What the breaker promises -/

/-- No call is started while the breaker is OPEN and its timeout has not
    elapsed. -/
def StaysShut (x : Event) (s : State) : Prop :=
  x = .fire → s.breaker.state = .open → s.now < s.breaker.nextAttempt →
    (step o x s).inFlight = s.inFlight

/-- In HALF_OPEN at most one call has been started. -/
def OneTrial (s : State) : Prop := s.breaker.state = .halfOpen → s.trials ≤ 1

/-- Call `k` was started before the last trip. -/
def Stale (s : State) (k : Nat) : Prop := ∃ trips, s.inFlight[k]? = some trips ∧ trips < s.trips

/-- The outcome of a call from before the last trip neither closes the breaker
    nor extends the time it stays open. -/
def Inert (x : Event) (s : State) : Prop :=
  ∀ k ok, x = .settle k ok → Stale s k → s.breaker.state ≠ .closed →
    (step o x s).breaker.state = s.breaker.state ∧
      (step o x s).breaker.nextAttempt = s.breaker.nextAttempt

/-- The counters add up. -/
def Counted (s : State) : Prop :=
  s.breaker.failureCount + s.breaker.successCount = s.breaker.totalCount

/-- All of it, at one step and in the state it leads to. -/
def Promised (x : Event) (s : State) : Prop :=
  StaysShut o x s ∧ OneTrial (step o x s) ∧ Inert o x s ∧ Counted (step o x s)

/-- No second call is fired while a trial has been started, and a call from
    before the last trip settles neither in HALF_OPEN nor, as a failure that
    reaches the threshold, in OPEN at a later time than the trip. -/
def Undisturbed (x : Event) (s : State) : Prop :=
  match x with
  | .fire => s.breaker.state = .halfOpen → s.trials = 0
  | .settle k ok => Stale s k → s.breaker.state ≠ .halfOpen ∧
      (s.breaker.state = .open → ok = false → s.breaker.thresholdReached o = true →
        s.now + o.resetTimeout = s.breaker.nextAttempt)
  | .getState => True
  | .pass _ => True

/-! ## Step by step -/

variable {o} {s : State} {x : Event}

theorem thresholdReached_iff {b : Breaker} :
    b.thresholdReached o = true ↔ o.volumeThreshold ≤ b.totalCount + 1 ∧
      o.rateReached (b.failureCount + 1) (b.totalCount + 1) = true := by
  simp [Breaker.thresholdReached]

/-- A failure outside HALF_OPEN. -/
theorem onFailure_of_ne {b : Breaker} {now : Nat} (h : b.state ≠ .halfOpen) :
    (b.onFailure o now).state = (if b.thresholdReached o = true then .open else b.state) ∧
      (b.onFailure o now).nextAttempt =
        if b.thresholdReached o = true then now + o.resetTimeout else b.nextAttempt := by
  rw [Breaker.onFailure, if_neg h]
  by_cases hv : o.volumeThreshold ≤ b.totalCount + 1
  · by_cases hr : o.rateReached (b.failureCount + 1) (b.totalCount + 1) = true
    · have hreached : b.thresholdReached o = true := thresholdReached_iff.mpr ⟨hv, hr⟩
      simp [hv, hr, hreached, Breaker.trip]
    · have hnot : ¬ b.thresholdReached o = true := fun h => hr (thresholdReached_iff.mp h).2
      simp [hv, hr, hnot]
  · have hnot : ¬ b.thresholdReached o = true := fun h => hv (thresholdReached_iff.mp h).1
    simp [hv, hnot]

/-- In HALF_OPEN the next outcome decides, whosever it is. -/
theorem onFailure_of_halfOpen {b : Breaker} {now : Nat} (h : b.state = .halfOpen) :
    (b.onFailure o now).state = .open := by
  rw [Breaker.onFailure, if_pos h]
  rfl

theorem onSuccess_of_halfOpen {b : Breaker} (h : b.state = .halfOpen) :
    b.onSuccess.state = .closed := by
  rw [Breaker.onSuccess, if_pos h]
  rfl

theorem onSuccess_of_ne {b : Breaker} (h : b.state ≠ .halfOpen) :
    b.onSuccess.state = b.state ∧ b.onSuccess.nextAttempt = b.nextAttempt := by
  rw [Breaker.onSuccess, if_neg h]
  exact ⟨rfl, rfl⟩

/-- No outcome leads into HALF_OPEN. -/
theorem settled_ne_halfOpen {b : Breaker} {now : Nat} (ok : Bool) :
    (if ok = true then b.onSuccess else b.onFailure o now).state ≠ .halfOpen := by
  by_cases hb : b.state = .halfOpen
  · cases ok with
    | true => simp [onSuccess_of_halfOpen hb]
    | false => simp [onFailure_of_halfOpen hb]
  · cases ok with
    | true => simpa [(onSuccess_of_ne hb).1] using hb
    | false =>
        have h : (b.onFailure o now).state = if b.thresholdReached o = true then .open else b.state :=
          (onFailure_of_ne hb).1
        by_cases hr : b.thresholdReached o = true <;> simp_all

/-- Every outcome is counted once, or all of them are forgotten. -/
theorem settled_counted {b : Breaker} {now : Nat} (ok : Bool)
    (h : b.failureCount + b.successCount = b.totalCount) :
    let b' := if ok = true then b.onSuccess else b.onFailure o now
    b'.failureCount + b'.successCount = b'.totalCount := by
  cases ok with
  | true =>
      by_cases hb : b.state = .halfOpen
      · simp [Breaker.onSuccess, hb, Breaker.reset]
      · simp [Breaker.onSuccess, hb]
        omega
  | false =>
      simp only [Bool.false_eq_true, if_false, Breaker.onFailure]
      split
      · simp only [Breaker.trip]
        omega
      · split
        · split
          · simp only [Breaker.trip]
            omega
          · dsimp only
            omega
        · dsimp only
          omega

/-- What an outcome does to the breaker. -/
theorem step_settle {k trips : Nat} {ok : Bool} (hk : s.inFlight[k]? = some trips) :
    (step o (.settle k ok) s).breaker =
      if ok = true then s.breaker.onSuccess else s.breaker.onFailure o s.now := by
  simp [step, hk, State.move]

/-- The outcome of a call that is not in flight is none. -/
theorem step_settle_none {k : Nat} {ok : Bool} (hk : s.inFlight[k]? = none) :
    step o (.settle k ok) s = s := by
  simp [step, hk]

/-- A stale outcome is inert exactly where the run is undisturbed. -/
theorem inert_iff {k : Nat} {ok : Bool} :
    Inert o (.settle k ok) s ↔ Undisturbed o (.settle k ok) s := by
  -- an old outcome leaves the breaker alone only in these states
  constructor
  · intro h hstale
    obtain ⟨trips, hk, _⟩ := id hstale
    have h := h k ok rfl hstale
    rw [step_settle hk] at h
    refine ⟨fun hhalf => ?_, fun hopen hok hreached => ?_⟩
    · have hsame := (h (by simp [hhalf])).1
      cases ok with
      | true => simp [onSuccess_of_halfOpen hhalf, hhalf] at hsame
      | false => simp [onFailure_of_halfOpen hhalf, hhalf] at hsame
    · subst hok
      have hsame := (h (by simp [hopen])).2
      simpa [(onFailure_of_ne (by simp [hopen] : s.breaker.state ≠ .halfOpen)).2, hreached]
        using hsame
  -- and in these it does
  · intro h k' ok' heq hstale hclosed
    obtain ⟨rfl, rfl⟩ : k = k' ∧ ok = ok' := by simpa using heq
    obtain ⟨hhalf, htime⟩ := h hstale
    obtain ⟨trips, hk, _⟩ := hstale
    rw [step_settle hk]
    have hopen : s.breaker.state = .open := by
      cases hstate : s.breaker.state with
      | closed => exact absurd hstate hclosed
      | «open» => rfl
      | halfOpen => exact absurd hstate hhalf
    cases ok with
    | true => exact onSuccess_of_ne hhalf
    | false =>
        have hfail : (s.breaker.onFailure o s.now).state =
              (if s.breaker.thresholdReached o = true then .open else s.breaker.state) ∧
            (s.breaker.onFailure o s.now).nextAttempt =
              if s.breaker.thresholdReached o = true then s.now + o.resetTimeout else s.breaker.nextAttempt :=
          onFailure_of_ne hhalf
        by_cases hreached : s.breaker.thresholdReached o = true
        · simp [hfail.1, hfail.2, hreached, hopen, htime hopen rfl hreached]
        · simp [hfail.1, hfail.2, hreached]

/-- Reading the state leaves the counters. -/
theorem getState_counted {b : Breaker} {now : Nat}
    (h : b.failureCount + b.successCount = b.totalCount) :
    (b.getState now).failureCount + (b.getState now).successCount = (b.getState now).totalCount := by
  unfold Breaker.getState
  split
  · exact h
  · exact h

/-- **COUNTED**: every event keeps the sum. -/
theorem step_counted (x : Event) (h : Counted s) : Counted (step o x s) := by
  cases x with
  | fire =>
      have hread : (s.breaker.getState s.now).failureCount + (s.breaker.getState s.now).successCount =
          (s.breaker.getState s.now).totalCount := getState_counted h
      simp only [step]
      split
      · exact hread
      · exact hread
  | settle k ok =>
      cases hk : s.inFlight[k]? with
      | none => rwa [step_settle_none hk]
      | some trips =>
          rw [Counted, step_settle hk]
          exact settled_counted ok h
  | getState => exact getState_counted h
  | pass ms => exact h

/-- **SHUT**: before its timeout an OPEN breaker starts nothing. -/
theorem step_staysShut (x : Event) : StaysShut o x s := by
  rintro rfl hopen htime
  have hread : s.breaker.getState s.now = s.breaker := by
    rw [Breaker.getState, if_neg]
    exact fun h => absurd h.2 (Nat.not_le.mpr htime)
  simp [step, hread, State.move, hopen]

/-- Reading the state starts no trial. -/
theorem move_getState_oneTrial (h : OneTrial s) :
    OneTrial (s.move (s.breaker.getState s.now)) := by
  intro hhalf
  by_cases hs : s.breaker.state = .halfOpen
  · simpa [State.move, hs] using h hs
  · have hafter : (s.breaker.getState s.now).state = .halfOpen := hhalf
    simp [State.move, hs, hafter]

/-- Only a call fired in HALF_OPEN can be a second trial. -/
theorem oneTrial_fire_iff :
    OneTrial (step o .fire s) ↔ (s.breaker.state = .halfOpen → s.trials = 0) := by
  by_cases hs : s.breaker.state = .halfOpen
  · have hread : s.breaker.getState s.now = s.breaker := by simp [Breaker.getState, hs]
    have hstep : step o .fire s =
        { s with inFlight := s.inFlight ++ [s.trips], trials := s.trials + 1 } := by
      simp [step, hread, State.move, hs]
    simp [OneTrial, hstep, hs]
  · refine ⟨fun _ h => absurd h hs, fun _ => ?_⟩
    intro hhalf
    simp only [step] at hhalf ⊢
    by_cases hopen : (s.move (s.breaker.getState s.now)).breaker.state = .open
    · rw [if_pos hopen] at hhalf
      rw [hopen] at hhalf
      simp at hhalf
    · rw [if_neg hopen] at hhalf ⊢
      have hafter : (s.breaker.getState s.now).state = .halfOpen := hhalf
      simp [State.move, hs, hafter]

/-- No outcome starts a trial. -/
theorem settle_oneTrial {k : Nat} {ok : Bool} (h : OneTrial s) : OneTrial (step o (.settle k ok) s) := by
  cases hk : s.inFlight[k]? with
  | none => rwa [step_settle_none hk]
  | some trips =>
      intro hhalf
      rw [step_settle hk] at hhalf
      exact absurd hhalf (settled_ne_halfOpen ok)

/-- **ONE STEP**: the breaker keeps its promises exactly where it is undisturbed. -/
theorem promised_iff (h : OneTrial s ∧ Counted s) (x : Event) :
    Promised o x s ↔ Undisturbed o x s := by
  obtain ⟨hone, hcounted⟩ := h
  have hshut : StaysShut o x s := step_staysShut x
  have hafter : Counted (step o x s) := step_counted x hcounted
  cases x with
  | fire =>
      have hinert : Inert o .fire s := fun k ok heq => by cases heq
      have hfire := oneTrial_fire_iff (o := o) (s := s)
      exact ⟨fun hp => hfire.mp hp.2.1, fun hu => ⟨hshut, hfire.mpr hu, hinert, hafter⟩⟩
  | settle k ok =>
      have hsettle : OneTrial (step o (.settle k ok) s) := settle_oneTrial hone
      exact ⟨fun hp => inert_iff.mp hp.2.2.1,
        fun hu => ⟨hshut, hsettle, inert_iff.mpr hu, hafter⟩⟩
  | getState =>
      have hinert : Inert o .getState s := fun k ok heq => by cases heq
      exact ⟨fun _ => trivial, fun _ => ⟨hshut, move_getState_oneTrial hone, hinert, hafter⟩⟩
  | pass ms =>
      have hinert : Inert o (.pass ms) s := fun k ok heq => by cases heq
      exact ⟨fun _ => trivial, fun _ => ⟨hshut, hone, hinert, hafter⟩⟩

/-- Whatever happens next, the promised step leads to where the next one is
    judged. -/
theorem step_kept (x : Event) (hx : Undisturbed o x s) (h : OneTrial s ∧ Counted s) :
    OneTrial (step o x s) ∧ Counted (step o x s) := by
  have hp := (promised_iff h x).mpr hx
  exact ⟨hp.2.1, hp.2.2.2⟩

end

/-! ## Every interleaving -/

/-- **ONE TRIAL DECIDES**: a run keeps what the breaker promises at every step
    exactly when no step of it is disturbed, that is, by a second call in
    HALF_OPEN or by a call from before the last trip. -/
theorem trial_decides_iff (o : CircuitBreakerOptions) (xs : List Event) :
    Along (step o) (Promised o) xs start ↔ Along (step o) (Undisturbed o) xs start :=
  have hstart : OneTrial start ∧ Counted start := ⟨fun h => absurd h (by decide), rfl⟩
  along_congr (I := fun s => OneTrial s ∧ Counted s) (fun x _ h => promised_iff h x)
    (fun x _ hx h => step_kept x hx h) hstart xs

/-- The defaults of a breaker, whose threshold is one half. -/
def defaults : CircuitBreakerOptions :=
  { resetTimeout := 10000
    volumeThreshold := 3
    rateReached := fun failures total => decide (total ≤ 2 * failures) }

/-- Three failures, ten seconds, and two calls that arrive together: both are
    started. -/
theorem two_trials : ¬ ∀ (o : CircuitBreakerOptions) (xs : List Event),
    Along (step o) (Promised o) xs start := by
  intro h
  have hrun := h defaults [.fire, .fire, .fire, .settle 0 false, .settle 0 false, .settle 0 false,
    .pass 10000, .fire, .fire]
  have hlast := ((along_append (step defaults) (Promised defaults)
    [.fire, .fire, .fire, .settle 0 false, .settle 0 false, .settle 0 false, .pass 10000, .fire]
    [.fire] start).mp hrun).2
  have hone := hlast.1.2.1 (by decide)
  exact absurd hone (by decide)

end CircuitBreaker
