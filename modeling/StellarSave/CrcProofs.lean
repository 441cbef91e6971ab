import Mathlib
import StellarSave.BaseProofs

/-! # Cyclic checks — a remainder of polynomials, a bit or a group of bits at a time

    The bits of a message are the coefficients of a polynomial over the field of two
    elements; its check is what is left of it, moved up by the width of the
    register, after division by the generator.  A register that takes the message a
    bit at a time holds that remainder, and so does one that takes several bits at
    its top and then shifts. -/

namespace Crc

open Polynomial Base

variable {w : Nat}

/-- One bit of the message enters the register, whose top bit leaves it. -/
def step (g r : BitVec w) (b : Bool) : BitVec w :=
  if r.msb != b then (r <<< 1) ^^^ g else r <<< 1

/-- The register after the message. -/
def remainder (g : BitVec w) (bits : List Bool) : BitVec w := bits.foldl (step g) 0#w

/-- A shift without a bit of the message. -/
def shift (g r : BitVec w) : BitVec w := step g r false

/-- Bits at the top of the register. -/
def place (w : Nat) (bits : List Bool) : BitVec w := BitVec.ofNat w (ofBits bits) <<< (w - bits.length)

/-! ## Several bits at once -/

section Place

variable {b : Bool} {bits : List Bool}

theorem getLsbD_place (w : Nat) (bits : List Bool) (i : Nat) :
    (place w bits).getLsbD i =
      (decide (i < w) && decide (w - bits.length ≤ i) && (ofBits bits).testBit (i - (w - bits.length))) := by
  rw [place, BitVec.getLsbD_shiftLeft, BitVec.getLsbD_ofNat]
  by_cases hi : i < w
  · by_cases hle : w - bits.length ≤ i
    · have hlt : i - (w - bits.length) < w := by omega
      simp [hi, hle, hlt]
    · simp [hi, hle, Nat.lt_of_not_le hle]
  · simp [hi]

theorem msb_place (h : (b :: bits).length ≤ w) : (place w (b :: bits)).msb = b := by
  rw [List.length_cons] at h
  have htop : w - 1 - (w - (b :: bits).length) = bits.length := by
    rw [List.length_cons]
    omega
  have hbit : (ofBits (b :: bits)).testBit bits.length = b := by
    rw [testBit_ofBits_cons, if_neg (Nat.lt_irrefl _), Nat.sub_self]
    cases b with
    | false => rfl
    | true => rfl
  have hlt : w - 1 < w := by omega
  have hle : w - (b :: bits).length ≤ w - 1 := by
    rw [List.length_cons]
    omega
  rw [BitVec.msb_eq_getLsbD_last, getLsbD_place, htop, hbit, decide_eq_true hlt, decide_eq_true hle]
  rfl

theorem place_shiftLeft (h : (b :: bits).length ≤ w) : place w (b :: bits) <<< 1 = place w bits := by
  refine BitVec.eq_of_getLsbD_eq fun i hi => ?_
  rw [BitVec.getLsbD_shiftLeft, getLsbD_place, getLsbD_place, List.length_cons]
  rw [List.length_cons] at h
  by_cases hle : w - bits.length ≤ i
  · have hdown : i - 1 - (w - (bits.length + 1)) = i - (w - bits.length) := by omega
    have hbit : (ofBits (b :: bits)).testBit (i - (w - bits.length)) =
        (ofBits bits).testBit (i - (w - bits.length)) := by
      rw [testBit_ofBits_cons, if_pos (by omega)]
    rw [hdown, hbit]
    have hone : ¬ i < 1 := by omega
    have hdown' : i - 1 < w := by omega
    have hle' : w - (bits.length + 1) ≤ i - 1 := by omega
    simp [hi, hone, hle, hdown', hle']
  · have hnot : ¬ (w - (bits.length + 1) ≤ i - 1 ∧ ¬ i < 1) := by omega
    by_cases hone : i < 1
    · simp [hone, hle]
    · have hle' : ¬ w - (bits.length + 1) ≤ i - 1 := fun h => hnot ⟨h, hone⟩
      simp [hle, hle']

/-- The first of the bits enters as one bit does. -/
theorem shift_place (g r : BitVec w) (h : (b :: bits).length ≤ w) :
    shift g (r ^^^ place w (b :: bits)) = step g r b ^^^ place w bits := by
  have hmsb : (r ^^^ place w (b :: bits)).msb = (r.msb != b) := by
    rw [BitVec.msb_xor, msb_place h]
  have hshift : (r ^^^ place w (b :: bits)) <<< 1 = r <<< 1 ^^^ place w bits := by
    rw [BitVec.shiftLeft_xor_distrib, place_shiftLeft h]
  rw [shift, step, step, hmsb, hshift]
  cases hb : (r.msb != b) with
  | false => rfl
  | true =>
      show r <<< 1 ^^^ place w bits ^^^ g = r <<< 1 ^^^ g ^^^ place w bits
      rw [BitVec.xor_assoc, BitVec.xor_comm (place w bits), ← BitVec.xor_assoc]

/-- **A GROUP AT THE TOP**, shifted as often as it has bits, is the bits one after
    the other. -/
theorem shifts_place (g r : BitVec w) (h : bits.length ≤ w) :
    (shift g)^[bits.length] (r ^^^ place w bits) = bits.foldl (step g) r := by
  induction bits generalizing r with
  | nil =>
      have hzero : place w [] = 0#w := by simp [place, ofBits]
      show r ^^^ place w [] = r
      rw [hzero, BitVec.xor_zero]
  | cons b bits ih =>
      rw [List.length_cons, Function.iterate_succ_apply, shift_place g r h,
        ih _ (Nat.le_of_succ_le h), List.foldl_cons]

end Place

/-! ## What the register holds -/

/-- The bits of a register as coefficients. -/
noncomputable def poly (v : BitVec w) : (ZMod 2)[X] :=
  ofFn w fun i => if v.getLsbD i = true then 1 else 0

/-- The bits of a message as coefficients, the last of them the lowest. -/
noncomputable def message (bits : List Bool) : (ZMod 2)[X] :=
  bits.foldl (fun p b => X * p + if b = true then 1 else 0) 0

/-- The generator with its leading term. -/
noncomputable def generator (g : BitVec w) : (ZMod 2)[X] := X ^ w + poly g

section Poly

variable {g r : BitVec w}

theorem coeff_poly (v : BitVec w) (i : Nat) : (poly v).coeff i = if v.getLsbD i = true then 1 else 0 := by
  by_cases hi : i < w
  · exact ofFn_coeff_eq_val_of_lt _ hi
  · rw [BitVec.getLsbD_of_ge v i (Nat.le_of_not_lt hi)]
    exact ofFn_coeff_eq_zero_of_ge _ (Nat.le_of_not_lt hi)

theorem degree_poly_lt (v : BitVec w) : (poly v).degree < w := ofFn_degree_lt _

theorem poly_xor (v u : BitVec w) : poly (v ^^^ u) = poly v + poly u := by
  ext i
  rw [coeff_add, coeff_poly, coeff_poly, coeff_poly, BitVec.getLsbD_xor]
  cases v.getLsbD i <;> cases u.getLsbD i <;> decide

/-- A shift is multiplication by `X`, but for the bit that is lost. -/
theorem X_mul_poly (hw : 0 < w) (v : BitVec w) :
    X * poly v = poly (v <<< 1) + if v.msb = true then X ^ w else 0 := by
  have hlast : (if v.msb = true then X ^ w else 0 : (ZMod 2)[X]) =
      if v.getLsbD (w - 1) = true then X ^ w else 0 := by
    rw [BitVec.msb_eq_getLsbD_last]
  ext i
  rw [hlast, coeff_add, coeff_poly, apply_ite (coeff · i), coeff_X_pow, coeff_zero,
    BitVec.getLsbD_shiftLeft]
  cases i with
  | zero =>
      have hne : ¬ 0 = w := Nat.ne_of_lt hw
      rw [coeff_X_mul_zero]
      simp [hne]
  | succ i =>
      rw [coeff_X_mul, coeff_poly]
      rcases Nat.lt_trichotomy (i + 1) w with hlt | heq | hgt
      · have hne : ¬ i + 1 = w := Nat.ne_of_lt hlt
        simp [hlt, hne]
      · have hi : w - 1 = i := by omega
        simp [heq, hi]
      · have hge : v.getLsbD i = false := BitVec.getLsbD_of_ge v i (by omega)
        have hne : ¬ i + 1 = w := by omega
        have hnot : ¬ i + 1 < w := by omega
        simp [hge, hne, hnot]

theorem generator_monic (g : BitVec w) : (generator g).Monic :=
  monic_X_pow_add (degree_poly_lt g)

theorem degree_generator (g : BitVec w) : (generator g).degree = w := by
  rw [generator, degree_add_eq_left_of_degree_lt, degree_X_pow]
  rw [degree_X_pow]
  exact degree_poly_lt g

/-- One bit: what is taken off is the generator or nothing. -/
theorem poly_step (hw : 0 < w) (g r : BitVec w) (b : Bool) :
    ∃ q, poly (step g r b) + generator g * q = X * poly r + (if b = true then 1 else 0) * X ^ w := by
  have hg : poly g + poly g = 0 := CharTwo.add_self_eq_zero (poly g)
  rw [X_mul_poly hw r, step]
  cases hmsb : r.msb with
  | false =>
      cases b with
      | false =>
          refine ⟨0, ?_⟩
          show poly (r <<< 1) + _ = poly (r <<< 1) + 0 + 0 * X ^ w
          ring
      | true =>
          refine ⟨1, ?_⟩
          show poly (r <<< 1 ^^^ g) + generator g * (1 : (ZMod 2)[X]) = poly (r <<< 1) + 0 + 1 * X ^ w
          rw [poly_xor, generator]
          linear_combination hg
  | true =>
      cases b with
      | false =>
          refine ⟨1, ?_⟩
          show poly (r <<< 1 ^^^ g) + generator g * (1 : (ZMod 2)[X]) = poly (r <<< 1) + X ^ w + 0 * X ^ w
          rw [poly_xor, generator]
          linear_combination hg
      | true =>
          -- two leading terms make nothing
          have htop : (X ^ w + X ^ w : (ZMod 2)[X]) = 0 := CharTwo.add_self_eq_zero _
          refine ⟨0, ?_⟩
          show poly (r <<< 1) + _ = poly (r <<< 1) + X ^ w + 1 * X ^ w
          linear_combination -htop

/-- **THE REMAINDER**: what the register holds at the end is what is left of the
    message, moved up by the width, after division by the generator.  By induction
    along the message from its end. -/
theorem poly_remainder (hw : 0 < w) (g : BitVec w) (bits : List Bool) :
    poly (remainder g bits) = (message bits * X ^ w) %ₘ generator g := by
  have hmod : ∃ q, poly (remainder g bits) + generator g * q = message bits * X ^ w := by
    -- by induction on the bits: one more bit is one more division
    induction bits using List.reverseRecOn with
    | nil =>
        refine ⟨0, ?_⟩
        have hzero : poly (0#w) = 0 := by
          ext i
          rw [coeff_poly]
          simp
        show poly (0#w) + generator g * 0 = 0 * X ^ w
        rw [hzero]
        ring
    | append_singleton bits b ih =>
        obtain ⟨q, hq⟩ := ih
        obtain ⟨q', hq'⟩ := poly_step hw g (remainder g bits) b
        have hregister : remainder g (bits ++ [b]) = step g (remainder g bits) b := by
          rw [remainder, List.foldl_append]
          rfl
        have hmessage : message (bits ++ [b]) = X * message bits + if b = true then 1 else 0 := by
          rw [message, List.foldl_append]
          rfl
        refine ⟨q' + X * q, ?_⟩
        rw [hregister, hmessage]
        linear_combination hq' + X * hq
  -- a remainder is of smaller degree, so it is the remainder
  obtain ⟨q, hq⟩ := hmod
  have hdegree : (poly (remainder g bits)).degree < (generator g).degree := by
    rw [degree_generator]
    exact degree_poly_lt _
  exact (div_modByMonic_unique q _ (generator_monic g) ⟨hq, hdegree⟩).2.symm

end Poly

end Crc
