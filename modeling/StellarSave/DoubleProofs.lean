import Mathlib

/-! # Double — whole numbers in double precision

    A whole number that a double holds is a natural number with at most 53
    significant bits; a sum is rounded to the nearest one, ties to the even
    significand.  Up to 2^53 nothing is rounded. -/

namespace Double

/-- The nearest whole number a double holds, ties to even. -/
@[irreducible] def round (n : Nat) : Nat :=
  let e := Nat.log2 n - 52
  let q := n / 2 ^ e
  let r := n % 2 ^ e
  if 2 ^ e < 2 * r ∨ (2 * r = 2 ^ e ∧ q % 2 = 1) then (q + 1) * 2 ^ e else q * 2 ^ e

/-- `a + b` of two whole numbers. -/
def add (a b : Nat) : Nat := round (a + b)

/-- A number a double holds. -/
def Exact (n : Nat) : Prop := round n = n

instance (n : Nat) : Decidable (Exact n) := inferInstanceAs (Decidable (round n = n))

theorem exact_of_lt {n : Nat} (h : n < 2 ^ 53) : Exact n := by
  have hlog : Nat.log2 n - 52 = 0 := by
    obtain rfl | hpos := Nat.eq_zero_or_pos n
    · decide
    · have hlt : Nat.log2 n < 53 := (Nat.log2_lt (by omega)).mpr h
      omega
  simp only [Exact, round, hlog, Nat.pow_zero, Nat.mod_one, Nat.div_one, Nat.mul_one]
  rw [if_neg (by omega)]

theorem exact_of_le {n : Nat} (h : n ≤ 2 ^ 53) : Exact n := by
  obtain hlt | rfl := Nat.lt_or_eq_of_le h
  · exact exact_of_lt hlt
  · decide +kernel

theorem add_of_le {a b : Nat} (h : a + b ≤ 2 ^ 53) : add a b = a + b := exact_of_le h

/-- Rounding keeps at least half of a number. -/
theorem le_two_mul_round (n : Nat) : n ≤ 2 * round n := by
  have hbig : n < 2 ^ 53 ∨ 2 ^ 53 ≤ n := Nat.lt_or_ge n _
  obtain hlt | hge := hbig
  · rw [exact_of_lt hlt]
    omega
  · have hq : n / 2 ^ (Nat.log2 n - 52) * 2 ^ (Nat.log2 n - 52) ≤ round n := by
      simp only [round]
      split
      · exact Nat.mul_le_mul_right _ (Nat.le_succ _)
      · exact Nat.le_refl _
    have hpow : 2 ^ (Nat.log2 n - 52) ≤ n :=
      Nat.le_trans (Nat.pow_le_pow_right (n := 2) (by decide) (Nat.sub_le _ _))
        (Nat.log2_self_le (by omega))
    have hpos : 1 ≤ n / 2 ^ (Nat.log2 n - 52) := Nat.div_pos hpow (Nat.two_pow_pos _)
    have hsplit := Nat.div_add_mod n (2 ^ (Nat.log2 n - 52))
    have hmod := Nat.mod_lt n (Nat.two_pow_pos (Nat.log2 n - 52))
    have hone := Nat.mul_le_mul_right (2 ^ (Nat.log2 n - 52)) hpos
    rw [Nat.mul_comm] at hsplit
    omega

end Double
