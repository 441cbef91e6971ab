import StellarSave.Binary64Proofs

/-! # Retrying — one loop for every caller

    `withRetry` (`packages/shared-utils/src/retry.ts`).  An attempt that fails is made
    again after a delay, unless it was the last one or its error is not worth it.

    Delays are computed in double precision: a growth that overflows is capped like any
    other, but a first delay of zero times an infinite growth is no number, and neither
    is what is computed from it.  How many attempts there are may be any finite number,
    not only a whole one. -/

namespace Backoff

open Binary64

/-- The settings of a delay. -/
structure Delays where
  initialDelayMs : Number := 100
  maxDelayMs : Number := 5000
  backoffMultiplier : Number := 2
  jitter : Number := .ofRat (1 / 10)

/-- `computeBackoffDelay`; `pow` is `**`. -/
def computeBackoffDelay (pow : Number → Nat → Number) (attempt : Nat) (d : Delays) (random : Number) :
    Number :=
  let exponential := d.initialDelayMs.mul (pow d.backoffMultiplier attempt)
  let capped := exponential.min d.maxDelayMs
  if d.jitter ≤ 0 then Number.max 0 capped.round
  else
    let jitterFraction := Number.min (d.jitter.max 0) 1
    let jittered := capped.mul (Number.sub 1 (jitterFraction.mul random))
    Number.max 0 jittered.round

variable {T E : Type}

structure RetryOptions (E : Type) where
  attempts : ℚ := 3
  delays : Delays := {}
  isRetryable : Option (E → Nat → Bool) := none

def RetryOptions.retryable (options : RetryOptions E) (error : E) (attempt : Nat) : Bool :=
  match options.isRetryable with
  | some isRetryable => isRetryable error attempt
  | none => true

/-- How a call ends: with a result, with an error of an attempt, or with a range error before
    any attempt. -/
inductive Ending (T E : Type) where
  | returned (value : T)
  | thrown (error : E)
  | rangeError
  deriving DecidableEq

/-- A call of `withRetry`: its end, how often it called `fn`, and how long it slept each time. -/
structure Outcome (T E : Type) where
  ending : Ending T E
  calls : Nat
  slept : List Number

/-- The loop, from an attempt on; `left` counts the rounds for which `attempt < attempts`. -/
def loop (pow : Number → Nat → Number) (fn : Nat → Except E T) (options : RetryOptions E)
    (random : Nat → Number) :
    (left attempt : Nat) → (lastError : E) → Outcome T E
  | 0, attempt, lastError => ⟨.thrown lastError, attempt, []⟩
  | left + 1, attempt, _ =>
      match fn attempt with
      | .ok value => ⟨.returned value, attempt + 1, []⟩
      | .error error =>
          if (attempt : ℚ) = options.attempts - 1 then ⟨.thrown error, attempt + 1, []⟩
          else if options.retryable error attempt = false then ⟨.thrown error, attempt + 1, []⟩
          else
            let delayMs := computeBackoffDelay pow attempt options.delays (random attempt)
            let rest := loop pow fn options random left (attempt + 1) error
            { rest with slept := delayMs :: rest.slept }

/-- The rounds of the loop. -/
def rounds (attempts : ℚ) : Nat := ⌈attempts⌉.toNat

/-- `withRetry`; `undefined` is the last error before there is one. -/
def withRetry (pow : Number → Nat → Number) (undefined : E) (fn : Nat → Except E T)
    (options : RetryOptions E) (random : Nat → Number) : Outcome T E :=
  if options.attempts < 1 then ⟨.rangeError, 0, []⟩
  else loop pow fn options random (rounds options.attempts) 0 undefined

/-! ## The delays -/

/-- Settings that give every delay a length: none is infinite or no number, and the first
    delay is above zero. -/
structure Delays.Sound (d : Delays) : Prop where
  initial : ∃ x hx, d.initialDelayMs = .finite x hx ∧ 0 < x
  cap : ∃ x hx, d.maxDelayMs = .finite x hx
  jitter : d.jitter ≠ .nan

section Delays

variable {pow : Number → Nat → Number} {d : Delays} {attempt : Nat} {random x capped : Number}

/-- The share of a delay that is kept, if the jitter is a number. -/
theorem kept_share (hlow : 0 ≤ random) (hhigh : random ≤ 1) (hjitter : d.jitter ≠ .nan) :
    ∃ y hy, Number.sub 1 ((Number.min (d.jitter.max 0) 1).mul random) = .finite y hy ∧ 0 ≤ y ∧ y ≤ 1 := by
  have hmax := (Number.le_max hjitter Number.zero_ne_nan).2
  have hone : (0 : Number) ≤ 1 := by decide +kernel
  obtain ⟨f, hf, hfraction, hf₀, hf₁⟩ := Number.unit_cases (Number.le_min hmax hone)
    (Number.min_le (Number.ne_nan_of_le hmax).2 (Number.ne_nan_of_le hone).2).2
  obtain ⟨r, hr, rfl, hr₀, hr₁⟩ := Number.unit_cases hlow hhigh
  rw [hfraction]
  obtain ⟨z, hz, hproduct, hz₀, hz₁⟩ := Number.ofRat_unit (mul_nonneg hf₀ hr₀)
    (mul_le_one₀ hf₁ hr₀ hr₁)
  rw [Number.mul, hproduct]
  exact Number.one_sub_unit hz₀ hz₁

/-- A delay that is a number, rounded, is between zero and the rounded cap. -/
theorem rounded_bounds {cap : Number} (hcap : cap ≠ .nan) (h : x ≤ 0 ∨ (0 ≤ x ∧ x ≤ cap)) :
    0 ≤ Number.max 0 x.round ∧ Number.max 0 x.round ≤ Number.max 0 cap.round := by
  have hx : x ≠ .nan := h.elim (fun h => (Number.ne_nan_of_le h).1) fun h => (Number.ne_nan_of_le h.2).1
  obtain ⟨hzero, hself⟩ := Number.le_max Number.zero_ne_nan (Number.round_ne_nan hcap)
  refine ⟨(Number.le_max Number.zero_ne_nan (Number.round_ne_nan hx)).1, Number.max_le hzero ?_⟩
  rcases h with hneg | ⟨hpos, hle⟩
  · exact Number.le_of_le_of_le (Number.round_nonpos hneg) hzero
  · exact Number.le_of_le_of_le (Number.round_mono hpos hle) hself

/-- **CAPPED**: a delay is no number, or between zero and the rounded cap. -/
theorem delay_bounds (hlow : 0 ≤ random) (hhigh : random ≤ 1) :
    computeBackoffDelay pow attempt d random = .nan ∨
      (0 ≤ computeBackoffDelay pow attempt d random ∧
        computeBackoffDelay pow attempt d random ≤ Number.max 0 d.maxDelayMs.round) := by
  rw [computeBackoffDelay]
  dsimp only
  generalize d.initialDelayMs.mul (pow d.backoffMultiplier attempt) = exponential
  by_cases hnan : exponential = .nan ∨ d.maxDelayMs = .nan
  · -- what is computed from no number is none
    rw [Number.min_nan hnan]
    refine Or.inl ?_
    split <;> exact Number.max_nan (Or.inr rfl)
  obtain ⟨hexp, hmax⟩ := not_or.mp hnan
  have hcap := (Number.min_le hexp hmax).2
  generalize exponential.min d.maxDelayMs = capped at hcap ⊢
  -- without jitter the capped delay is rounded as it is
  by_cases hjitter : d.jitter ≤ 0
  · rw [if_pos hjitter]
    refine Or.inr (rounded_bounds hmax ?_)
    rcases Number.le_total_of_ne_nan (Number.ne_nan_of_le hcap).1 Number.zero_ne_nan with hneg | hpos
    · exact Or.inl hneg
    · exact Or.inr ⟨hpos, hcap⟩
  · rw [if_neg hjitter]
    by_cases hnumber : d.jitter = .nan
    · refine Or.inl ?_
      rw [hnumber, Number.max_nan (Or.inl rfl), Number.min_nan (Or.inl rfl), Number.mul, Number.sub_nan,
        Number.mul_nan]
      exact Number.max_nan (Or.inr rfl)
    -- with jitter a share of it is, between nothing and all
    obtain ⟨y, hy, hshare, hy₀, hy₁⟩ := kept_share hlow hhigh hnumber
    rw [hshare]
    rcases Number.mul_unit capped hy hy₀ hy₁ with hnan | hneg | ⟨hpos, hle⟩
    · rw [hnan]
      exact Or.inl (Number.max_nan (Or.inr rfl))
    · exact Or.inr (rounded_bounds hmax (Or.inl hneg))
    · exact Or.inr (rounded_bounds hmax (Or.inr ⟨hpos, Number.le_of_le_of_le hle hcap⟩))

/-- A growth of a first delay above zero, capped, is finite. -/
theorem capped_finite (hsound : d.Sound) {growth : Number} (hgrowth : 0 ≤ growth) :
    ∃ c hc, (d.initialDelayMs.mul growth).min d.maxDelayMs = .finite c hc := by
  obtain ⟨x, hx, hinitial, hpos⟩ := hsound.initial
  obtain ⟨most, hmost, hcap⟩ := hsound.cap
  have hexp : 0 ≤ d.initialDelayMs.mul growth := by
    rw [hinitial]
    -- a growth that is finite, or infinite, keeps a positive delay positive
    cases growth with
    | nan => exact absurd hgrowth Number.not_le_nan
    | infinity s =>
        cases s with
        | true =>
            rw [Number.zero_eq] at hgrowth
            exact absurd hgrowth Number.not_finite_le_infinity
        | false =>
            rw [Number.mul, if_neg hpos.ne', decide_eq_false (not_lt.mpr hpos.le), Bool.bne_false]
            exact Number.le_infinity.mpr Number.zero_ne_nan
    | finite y hy =>
        rw [Number.zero_eq, Number.finite_le_finite] at hgrowth
        exact Number.ofRat_nonneg (mul_nonneg hpos.le hgrowth)
  generalize d.initialDelayMs.mul growth = exponential at hexp ⊢
  rw [hcap, Number.min, if_neg (not_or.mpr ⟨(Number.ne_nan_of_le hexp).2, Number.finite_ne_nan⟩)]
  split_ifs with hle
  · -- between zero and the cap
    rw [Number.zero_eq] at hexp
    cases exponential with
    | nan => exact absurd hle Number.not_nan_le
    | infinity s =>
        cases s with
        | true => exact absurd hexp Number.not_finite_le_infinity
        | false => exact absurd hle Number.not_infinity_le_finite
    | finite c hc => exact ⟨c, hc, rfl⟩
  · exact ⟨most, hmost, rfl⟩

/-- **A LENGTH**: with sound settings every delay is a number. -/
theorem delay_ne_nan (hsound : d.Sound) (hpow : 0 ≤ pow d.backoffMultiplier attempt) (hlow : 0 ≤ random)
    (hhigh : random ≤ 1) : computeBackoffDelay pow attempt d random ≠ .nan := by
  obtain ⟨c, hc, hcapped⟩ := capped_finite hsound hpow
  obtain ⟨y, hy, hshare, -, -⟩ := kept_share hlow hhigh hsound.jitter
  have hnumber : ∀ {x : Number}, x ≠ .nan → Number.max 0 x.round ≠ .nan := fun h =>
    (Number.ne_nan_of_le (Number.le_max Number.zero_ne_nan (Number.round_ne_nan h)).1).2
  rw [computeBackoffDelay, hcapped]
  dsimp only
  rw [hshare]
  split
  · exact hnumber Number.finite_ne_nan
  · exact hnumber Number.ofRat_ne_nan

end Delays

/-! ## The attempts -/

/-- The attempts before `k` failed with errors worth another attempt. -/
def FailedUntil (fn : Nat → Except E T) (options : RetryOptions E) (k : Nat) : Prop :=
  ∀ j < k, ∃ error, fn j = .error error ∧ options.retryable error j = true

section Attempts

variable {pow : Number → Nat → Number} {fn : Nat → Except E T} {options : RetryOptions E} {random : Nat → Number} {left attempt k : Nat}
  {lastError : E}

theorem rounds_pos (h : ¬ options.attempts < 1) : 0 < rounds options.attempts := by
  have hone : (1 : Int) ≤ ⌈options.attempts⌉ := by
    rw [Int.one_le_ceil_iff]
    linarith
  rw [rounds]
  omega

/-- The last round is the one that the loop takes for the last attempt, or there is none such. -/
theorem last_round {n : Nat} (h : (n : ℚ) = options.attempts - 1) : rounds options.attempts = n + 1 := by
  have hattempts : options.attempts = ((n + 1 : Nat) : ℚ) := by
    push_cast
    linarith
  rw [rounds, hattempts, Int.ceil_natCast]
  rfl

/-- What the loop comes to: the attempt `k` is the first that succeeds, or whose error is
    not worth another one, or it is the last. -/
structure Reaches (pow : Number → Nat → Number) (fn : Nat → Except E T) (options : RetryOptions E) (random : Nat → Number)
    (attempt k : Nat) (o : Outcome T E) : Prop where
  from_ : attempt ≤ k
  until_ : k < rounds options.attempts
  failed : ∀ j, attempt ≤ j → j < k → ∃ error, fn j = .error error ∧ options.retryable error j = true
  calls : o.calls = k + 1
  returned : ∀ value, fn k = .ok value → o.ending = .returned value
  thrown : ∀ error, fn k = .error error → o.ending = .thrown error ∧
    (k + 1 = rounds options.attempts ∨ options.retryable error k = false)
  slept : o.slept.length ≤ k + 1 - attempt
  delays : ∀ delay ∈ o.slept, ∃ j, delay = computeBackoffDelay pow j options.delays (random j)

/-- It stops at this attempt. -/
theorem reaches_here {o : Outcome T E} (huntil : attempt < rounds options.attempts)
    (hcalls : o.calls = attempt + 1) (hreturned : ∀ value, fn attempt = .ok value → o.ending = .returned value)
    (hthrown : ∀ error, fn attempt = .error error → o.ending = .thrown error ∧
      (attempt + 1 = rounds options.attempts ∨ options.retryable error attempt = false))
    (hslept : o.slept.length ≤ 1)
    (hdelays : ∀ delay ∈ o.slept, ∃ j, delay = computeBackoffDelay pow j options.delays (random j)) :
    Reaches pow fn options random attempt attempt o :=
  ⟨Nat.le_refl _, huntil, fun j hj hj' => absurd hj (Nat.not_le_of_lt hj'), hcalls, hreturned, hthrown,
    by omega, hdelays⟩

/-- It stops with what its call returned. -/
theorem reaches_returned {value : T} (huntil : attempt < rounds options.attempts)
    (hfn : fn attempt = .ok value) :
    Reaches pow fn options random attempt attempt ⟨.returned value, attempt + 1, []⟩ := by
  refine reaches_here huntil rfl ?_ ?_ (Nat.zero_le 1) (fun _ h => absurd h List.not_mem_nil)
  · intro v hv
    obtain rfl := Except.ok.inj (hfn.symm.trans hv)
    rfl
  · intro error herror
    cases hfn.symm.trans herror

/-- It stops with what its call threw, whether or not it slept before it saw that. -/
theorem reaches_thrown {error : E} {slept : List Number} (huntil : attempt < rounds options.attempts)
    (hfn : fn attempt = .error error)
    (hlast : attempt + 1 = rounds options.attempts ∨ options.retryable error attempt = false)
    (hslept : slept.length ≤ 1)
    (hdelays : ∀ delay ∈ slept, ∃ j, delay = computeBackoffDelay pow j options.delays (random j)) :
    Reaches pow fn options random attempt attempt ⟨.thrown error, attempt + 1, slept⟩ := by
  refine reaches_here huntil rfl ?_ ?_ hslept hdelays
  · intro v hv
    cases hfn.symm.trans hv
  · intro e he
    obtain rfl := Except.error.inj (hfn.symm.trans he)
    exact ⟨rfl, hlast⟩

/-- **THE LOOP STOPS** at an attempt that settles it. -/
theorem loop_reaches (hleft : attempt + (left + 1) = rounds options.attempts) :
    ∃ k, Reaches pow fn options random attempt k (loop pow fn options random (left + 1) attempt lastError) := by
  -- by induction on the rounds that are left
  induction left generalizing attempt lastError with
  | zero =>
      refine ⟨attempt, ?_⟩
      have huntil : attempt < rounds options.attempts := by omega
      have hlast : attempt + 1 = rounds options.attempts := by omega
      rw [loop]
      cases hfn : fn attempt with
      | ok value => exact reaches_returned huntil hfn
      -- the last round throws what its call threw
      | error error =>
          dsimp only
          split_ifs
          · exact reaches_thrown huntil hfn (.inl hlast) (Nat.zero_le 1)
              (fun _ h => absurd h List.not_mem_nil)
          · exact reaches_thrown huntil hfn (.inl hlast) (Nat.zero_le 1)
              (fun _ h => absurd h List.not_mem_nil)
          · -- the number is no whole one: the loop sleeps, and finds no further attempt
            exact reaches_thrown huntil hfn (.inl hlast) (Nat.le_refl 1)
              (fun delay h => ⟨attempt, List.mem_singleton.mp h⟩)
  | succ left ih =>
      have huntil : attempt < rounds options.attempts := by omega
      rw [loop]
      cases hfn : fn attempt with
      | ok value => exact ⟨attempt, reaches_returned huntil hfn⟩
      -- the call failed, and is tried again unless the error is final
      | error error =>
          dsimp only
          split_ifs with hend hretry
          · exact ⟨attempt, reaches_thrown huntil hfn (.inl (last_round hend).symm) (Nat.zero_le 1)
              (fun _ h => absurd h List.not_mem_nil)⟩
          · exact ⟨attempt, reaches_thrown huntil hfn (.inr hretry) (Nat.zero_le 1)
              (fun _ h => absurd h List.not_mem_nil)⟩
          · obtain ⟨k, hk⟩ := @ih (attempt + 1) error (by omega)
            have hfrom := hk.from_
            refine ⟨k, by omega, hk.until_, ?_, hk.calls, hk.returned, hk.thrown, ?_, ?_⟩
            · intro j hj hjk
              rcases Nat.eq_or_lt_of_le hj with rfl | hlater
              · exact ⟨error, hfn, Bool.eq_true_of_not_eq_false hretry⟩
              · exact hk.failed j hlater hjk
            · have hslept := hk.slept
              show (_ :: _ : List Number).length ≤ k + 1 - attempt
              rw [List.length_cons]
              omega
            · intro delay hdelay
              rcases List.mem_cons.mp hdelay with rfl | hrest
              · exact ⟨attempt, rfl⟩
              · exact hk.delays delay hrest

end Attempts

/-- **THE FIRST THAT SETTLES IT**: a call with at least one attempt ends with the attempt `k`,
    where every one before failed with an error worth another attempt: with its result, or
    with its error, which then was the last allowed or not worth another.  `fn` runs `k + 1`
    times.  A sleep is between zero and the rounded cap unless it is no number, and with
    sound settings and a growth that is not negative it is one. -/
theorem attempts_exact (pow : Number → Nat → Number) (undefined : E) (fn : Nat → Except E T)
    (options : RetryOptions E) (random : Nat → Number) (hrandom : ∀ j, 0 ≤ random j ∧ random j ≤ 1)
    (hattempts : 1 ≤ options.attempts) :
    ∃ k, k < rounds options.attempts ∧ FailedUntil fn options k ∧
      (withRetry pow undefined fn options random).calls = k + 1 ∧
      (∀ value, fn k = .ok value → (withRetry pow undefined fn options random).ending = .returned value) ∧
      (∀ error, fn k = .error error → (withRetry pow undefined fn options random).ending = .thrown error ∧
        (k + 1 = rounds options.attempts ∨ options.retryable error k = false)) ∧
      (withRetry pow undefined fn options random).slept.length ≤ k + 1 ∧
      (∀ delay ∈ (withRetry pow undefined fn options random).slept,
        delay = .nan ∨ (0 ≤ delay ∧ delay ≤ Number.max 0 options.delays.maxDelayMs.round)) ∧
      (options.delays.Sound → (∀ j, 0 ≤ pow options.delays.backoffMultiplier j) →
        ∀ delay ∈ (withRetry pow undefined fn options random).slept, delay ≠ .nan) := by
  have hsome : ¬ options.attempts < 1 := not_lt.mpr hattempts
  obtain ⟨n, hn⟩ := Nat.exists_eq_succ_of_ne_zero (rounds_pos hsome).ne'
  -- the run reaches the round in which it ends
  obtain ⟨k, hk⟩ := @loop_reaches T E pow fn options random n 0 undefined (by omega)
  rw [withRetry, if_neg hsome, hn]
  refine ⟨k, hk.until_.trans_eq hn, fun j hj => hk.failed j (Nat.zero_le j) hj, hk.calls, hk.returned, ?_,
    hk.slept, ?_, ?_⟩
  · intro error herror
    obtain ⟨hending, hwhy⟩ := hk.thrown error herror
    exact ⟨hending, hwhy.imp_left fun h => h.trans hn⟩
  · intro delay hdelay
    obtain ⟨j, rfl⟩ := hk.delays delay hdelay
    exact delay_bounds (hrandom j).1 (hrandom j).2
  · intro hsound hpow delay hdelay
    obtain ⟨j, rfl⟩ := hk.delays delay hdelay
    exact delay_ne_nan hsound (hpow j) (hrandom j).1 (hrandom j).2

/-- Repeated multiplication, which is `**` for a power of two. -/
def power (x : Number) : Nat → Number
  | 0 => 1
  | n + 1 => (power x n).mul x

/-- Two failures and a success, with the defaults: two sleeps of a length. -/
theorem attempts_exact_third : ∃ k, k < 3 ∧
    (withRetry power "" (fun n => if n < 2 then .error "busy" else .ok n) {} fun _ => .ofRat (1 / 2)).calls
      = k + 1 ∧
    ∀ delay ∈ (withRetry power "" (fun n => if n < 2 then .error "busy" else .ok n) {}
      fun _ => .ofRat (1 / 2)).slept, delay = .nan ∨ (0 ≤ delay ∧ delay ≤ 5000) :=
  let ⟨k, hk, _, hcalls, _, _, _, hbounds, _⟩ := attempts_exact power ""
    (fun n => if n < 2 then .error "busy" else .ok n) {} (fun _ => .ofRat (1 / 2))
    (fun _ => by decide +kernel) (by decide +kernel)
  have hcap : Number.max 0 (Number.round 5000) = 5000 := by decide +kernel
  ⟨k, hk.trans_eq (by decide +kernel), hcalls, fun delay hdelay =>
    (hbounds delay hdelay).imp_right fun hb => ⟨hb.1, by rw [← hcap]; exact hb.2⟩⟩

/-- A first delay of zero under a growth that has overflowed. -/
example : computeBackoffDelay (fun _ _ => .infinity false) 1024 { initialDelayMs := 0 } (.ofRat (1 / 2))
    = .nan := by decide +kernel

end Backoff
