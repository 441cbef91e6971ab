import Mathlib
import StellarSave.PenaltyProofs

/-! # Rates — a share of an amount that cannot be multiplied out

    `calculate_penalty` (`penalty.rs`) divides the amount before it multiplies, so that
    the product of amount and rate is never formed.  What it returns is nevertheless the
    floor of that product over ten thousand, up to the largest `i128`. -/

namespace SavePenaltyRate

open HostProg TokenLedger SaveData SaveMembership SaveAdmin SavePenalty

/-! ## Shares -/

/-- The floor of a share, taken of the quotient and of the remainder apart. -/
theorem share_split (a b : Int) {c : Int} (hc : c ≠ 0) : a / c * b + a % c * b / c = a * b / c := by
  calc a / c * b + a % c * b / c
      = (a % c * b + c * (a / c * b)) / c := by rw [Int.add_mul_ediv_left _ _ hc, Int.add_comm]
    _ = a * b / c := by
        congr 1
        rw [← Int.mul_assoc, ← Int.add_mul, Int.emod_add_mul_ediv]

/-- A number that is not negative is only cut off at the top. -/
theorem saturating_of_nonneg {z : Int} (h : 0 ≤ z) : saturatingI128 z = min z (i128Bound - 1) := by
  rw [saturatingI128]
  have hbound : (0 : Int) < i128Bound := by decide
  omega

/-- Cutting off a summand first changes nothing. -/
theorem saturating_add {x y : Int} (hx : 0 ≤ x) (hy : 0 ≤ y) :
    saturatingI128 (saturatingI128 x + y) = min (x + y) (i128Bound - 1) := by
  have hbound : (0 : Int) < i128Bound := by decide
  rw [saturating_of_nonneg hx, saturating_of_nonneg (by omega)]
  omega

/-! ## The rate of a penalty -/

/-- The escalated rate, clamped, without any bound on the way. -/
def penaltyRate (missed : Nat) (config : PenaltyConfig) : Nat :=
  if missed = 0 then 0
  else min (config.basePenaltyBps + config.penaltyIncrementBps * (missed - 1)) config.maxPenaltyBps

/-- The naive formula; an amount that is not positive is charged nothing. -/
def naivePenalty (amount : Int) (missed : Nat) (config : PenaltyConfig) : Int :=
  max amount 0 * penaltyRate missed config / 10000

/-- `calculate_penalty` with the operations that would trap on overflow checked: the
    product of the remainder with the rate, in which nothing saturates. -/
def calculatePenaltyChecked (amount : Int) (missedCycles : Nat) (config : PenaltyConfig) : Option Int :=
  if missedCycles = 0 ∨ amount ≤ 0 then some 0
  else do
    let raw := saturatingU32 (config.basePenaltyBps +
      saturatingU32 (config.penaltyIncrementBps * (missedCycles - 1)))
    let bps : Int := min raw config.maxPenaltyBps
    let whole := saturatingI128 (amount.tdiv 10000 * bps)
    let part ← checkedI128 (amount.tmod 10000 * bps)
    pure (saturatingI128 (whole + part.tdiv 10000))

section Rate

variable {config : PenaltyConfig} {amount : Int} {missed more : Nat}

/-- No step of the escalation reaches past a maximum that is a `u32`. -/
theorem rate_saturating (hmax : config.maxPenaltyBps ≤ u32Max) (increments : Nat) :
    min (saturatingU32 (config.basePenaltyBps +
        saturatingU32 (config.penaltyIncrementBps * increments))) config.maxPenaltyBps =
      min (config.basePenaltyBps + config.penaltyIncrementBps * increments) config.maxPenaltyBps := by
  rw [saturatingU32, saturatingU32]
  omega

theorem penaltyRate_le (missed : Nat) (config : PenaltyConfig) :
    penaltyRate missed config ≤ config.maxPenaltyBps := by
  rw [penaltyRate]
  split
  · exact Nat.zero_le _
  · exact Nat.min_le_right _ _

theorem penaltyRate_mono (h : missed ≤ more) : penaltyRate missed config ≤ penaltyRate more config := by
  rw [penaltyRate]
  split
  · exact Nat.zero_le _
  · next hmissed =>
      rw [penaltyRate, if_neg (by omega)]
      have hstep : config.penaltyIncrementBps * (missed - 1) ≤ config.penaltyIncrementBps * (more - 1) :=
        Nat.mul_le_mul_left _ (by omega)
      omega

/-- A share grows with its rate. -/
theorem share_mono (amount : Int) {p q : Nat} (h : p ≤ q) :
    max amount 0 * (p : Int) / 10000 ≤ max amount 0 * (q : Int) / 10000 := by
  have hamount : 0 ≤ max amount 0 := le_max_right _ _
  have hrate : (p : Int) ≤ q := by exact_mod_cast h
  exact Int.ediv_le_ediv (by decide) (Int.mul_le_mul_of_nonneg_left hrate hamount)

/-- The product of the remainder with the rate always fits. -/
theorem part_fits {bps : Nat} (hbps : bps ≤ u32Max) (amount : Int) (hamount : 0 < amount) :
    checkedI128 (amount.tmod 10000 * (bps : Int)) = some (amount % 10000 * (bps : Int)) := by
  rw [Int.tmod_eq_emod_of_nonneg hamount.le, checkedI128_eq_some]
  refine ⟨?_, rfl⟩
  have hlow : 0 ≤ amount % 10000 := Int.emod_nonneg amount (by decide)
  have hhigh : amount % 10000 < 10000 := Int.emod_lt_of_pos amount (by decide)
  have hrate : (bps : Int) ≤ 4294967295 := by exact_mod_cast hbps
  have hproduct : amount % 10000 * (bps : Int) ≤ 10000 * 4294967295 :=
    Int.mul_le_mul hhigh.le hrate (Int.natCast_nonneg bps) (by decide)
  have hnonneg : 0 ≤ amount % 10000 * (bps : Int) := Int.mul_nonneg hlow (Int.natCast_nonneg bps)
  rw [i128Bound]
  constructor
  · omega
  · omega

/-- The split formula is the naive one, cut off at the largest `i128`. -/
theorem calculatePenalty_eq (hmax : config.maxPenaltyBps ≤ u32Max) (amount : Int) (missed : Nat) :
    calculatePenalty amount missed config = min (naivePenalty amount missed config) (i128Bound - 1) := by
  rw [calculatePenalty, naivePenalty, penaltyRate]
  by_cases hmissed : missed = 0
  · rw [if_pos (Or.inl hmissed), if_pos hmissed]
    simp [i128Bound]
  · by_cases hamount : amount ≤ 0
    · rw [if_pos (Or.inr hamount), max_eq_right hamount]
      simp [i128Bound]
    · rw [Int.not_le] at hamount
      rw [if_neg (by omega), if_neg hmissed, max_eq_left hamount.le, ← rate_saturating hmax]
      show saturatingI128 (saturatingI128 (amount / 10000 * _) + amount % 10000 * _ / 10000) = _
      have hwhole : 0 ≤ amount / 10000 := Int.ediv_nonneg hamount.le (by decide)
      have hpart : 0 ≤ amount % 10000 := Int.emod_nonneg amount (by decide)
      rw [← Nat.cast_min, saturating_add (Int.mul_nonneg hwhole (Int.natCast_nonneg _))
        (Int.ediv_nonneg (Int.mul_nonneg hpart (Int.natCast_nonneg _)) (by decide)),
        share_split amount _ (by decide)]

/-- No amount, count or rate makes it trap. -/
theorem calculatePenaltyChecked_eq (hmax : config.maxPenaltyBps ≤ u32Max) (amount : Int)
    (missed : Nat) :
    calculatePenaltyChecked amount missed config = some (calculatePenalty amount missed config) := by
  rw [calculatePenaltyChecked, calculatePenalty]
  by_cases hzero : missed = 0 ∨ amount ≤ 0
  · rw [if_pos hzero, if_pos hzero]
  · rw [if_neg hzero, if_neg hzero]
    have hamount : 0 < amount := by omega
    have hbps : min (saturatingU32 (config.basePenaltyBps +
        saturatingU32 (config.penaltyIncrementBps * (missed - 1)))) config.maxPenaltyBps ≤ u32Max :=
      (Nat.min_le_right _ _).trans hmax
    have hpart : 0 ≤ amount % 10000 := Int.emod_nonneg amount (by decide)
    simp only [← Nat.cast_min, part_fits hbps amount hamount, Option.bind_eq_bind, Option.bind_some,
      Option.pure_def]
    rw [Int.tdiv_eq_ediv_of_nonneg hamount.le,
      Int.tdiv_eq_ediv_of_nonneg (Int.mul_nonneg hpart (Int.natCast_nonneg _))]

/-- **A PENALTY IS THE NAIVE ONE AND NEVER OVERFLOWS**: the floor of the share, cut off at the
    largest `i128`; it grows with the misses and stays within the maximum share. -/
theorem penalty_exact (hmax : config.maxPenaltyBps ≤ u32Max) (amount : Int) (missed : Nat) :
    calculatePenaltyChecked amount missed config = some (calculatePenalty amount missed config) ∧
      calculatePenalty amount missed config =
        min (max amount 0 * penaltyRate missed config / 10000) (i128Bound - 1) ∧
      (∀ more, missed ≤ more →
        calculatePenalty amount missed config ≤ calculatePenalty amount more config) ∧
      calculatePenalty amount missed config ≤ max amount 0 * config.maxPenaltyBps / 10000 := by
  refine ⟨calculatePenaltyChecked_eq hmax amount missed, calculatePenalty_eq hmax amount missed,
    fun more hmore => ?_, ?_⟩
  · rw [calculatePenalty_eq hmax, calculatePenalty_eq hmax]
    exact min_le_min_right _ (share_mono amount (penaltyRate_mono hmore))
  · rw [calculatePenalty_eq hmax]
    exact (min_le_left _ _).trans (share_mono amount (penaltyRate_le missed config))

end Rate

/-- The default rates, ten misses, the largest amount: the share of the maximum. -/
theorem penalty_exact_largest :
    PenaltyConfig.default.maxPenaltyBps ≤ u32Max ∧
      calculatePenalty (i128Bound - 1) 10 PenaltyConfig.default =
        min (max (i128Bound - 1) 0 * penaltyRate 10 PenaltyConfig.default / 10000) (i128Bound - 1) :=
  ⟨by decide, (penalty_exact (by decide) (i128Bound - 1) 10).2.1⟩

/-- There the product of amount and rate does not fit, and nothing reports it. -/
theorem overflow_not_reported :
    checkedI128 ((i128Bound - 1) * penaltyRate 10 PenaltyConfig.default) = none ∧
      calculatePenaltyChecked (i128Bound - 1) 10 PenaltyConfig.default =
        some (naivePenalty (i128Bound - 1) 10 PenaltyConfig.default) :=
  ⟨by decide, by decide⟩

end SavePenaltyRate
