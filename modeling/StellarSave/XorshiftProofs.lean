import Mathlib.Data.Fintype.EquivFin
import Mathlib.Dynamics.PeriodicPts.Lemmas

/-! # Xorshift — words shifted onto themselves

    A word xored with a shift of itself can be read back, bit by bit from the end the shift
    leaves alone.  A generator that steps so, and puts its state through an invertible map,
    goes round: its outputs repeat with its period and not before. -/

namespace Xorshift

section Words

variable {w n : Nat}

/-- `x ^= x >> n`. -/
def right (n : Nat) (x : BitVec w) : BitVec w := x ^^^ (x >>> n)

/-- `x ^= x << n`. -/
def left (n : Nat) (x : BitVec w) : BitVec w := x ^^^ (x <<< n)

theorem right_injective (hn : 0 < n) : Function.Injective (right (w := w) n) := by
  intro x y h
  -- from the highest bit down: above `j` the words agree already
  have hbits : ∀ k j, w ≤ j + k → x.getLsbD j = y.getLsbD j := by
    intro k
    induction k with
    | zero =>
        intro j hj
        rw [BitVec.getLsbD_of_ge x j hj, BitVec.getLsbD_of_ge y j hj]
    | succ k ih =>
        intro j hj
        have habove := ih (n + j) (by omega)
        have hbit := congrArg (fun z => z.getLsbD j) h
        simp only [right, BitVec.getLsbD_xor, BitVec.getLsbD_ushiftRight, habove] at hbit
        exact Bool.xor_left_inj.mp hbit
  exact BitVec.eq_of_getLsbD_eq fun j _ => hbits w j (Nat.le_add_left w j)

theorem left_injective (hn : 0 < n) : Function.Injective (left (w := w) n) := by
  intro x y h
  have hbits : ∀ j, x.getLsbD j = y.getLsbD j := by
    intro j
    induction j using Nat.strong_induction_on with
    | _ j ih =>
        have hbit := congrArg (fun z => z.getLsbD j) h
        by_cases hlow : j < n
        · simpa only [left, BitVec.getLsbD_xor, BitVec.getLsbD_shiftLeft, decide_eq_true hlow, Bool.not_true,
            Bool.and_false, Bool.false_and, Bool.xor_false] using hbit
        · have hbelow := ih (j - n) (by omega)
          simp only [left, BitVec.getLsbD_xor, BitVec.getLsbD_shiftLeft, hbelow] at hbit
          exact Bool.xor_left_inj.mp hbit
  exact BitVec.eq_of_getLsbD_eq fun j _ => hbits j

/-- A product with a unit can be undone. -/
theorem mul_injective {c d : BitVec w} (hunit : c * d = 1#w) : Function.Injective fun x : BitVec w => x * c := by
  intro x y h
  have hback : ∀ z : BitVec w, z * c * d = z := by
    intro z
    rw [BitVec.mul_assoc, hunit, BitVec.mul_one]
  rw [← hback x, ← hback y]
  exact congrArg (· * d) h

instance finite_word : Finite (BitVec w) := Finite.of_injective BitVec.toFin fun _ _ h => BitVec.toFin_inj.mp h

end Words

/-! ## Going round -/

section Cycle

variable {σ β : Type} [Finite σ] {f : σ → σ} {out : σ → β}

theorem period_pos (hf : Function.Injective f) (s : σ) : 0 < Function.minimalPeriod f s :=
  Function.minimalPeriod_pos_of_mem_periodicPts (hf.mem_periodicPts s)

/-- **NO TAIL**: a step that can be undone, on finitely many states, comes back to where it
    started; and what is put out, if it tells the state, repeats exactly then. -/
theorem outputs_eq_iff (hf : Function.Injective f) (hout : Function.Injective out) (s : σ) (i j : Nat) :
    out (f^[i] s) = out (f^[j] s) ↔ i % Function.minimalPeriod f s = j % Function.minimalPeriod f s := by
  have hpos := period_pos hf s
  rw [hout.eq_iff, ← Function.iterate_mod_minimalPeriod_eq (n := i), ← Function.iterate_mod_minimalPeriod_eq (n := j)]
  exact Function.iterate_eq_iterate_iff_of_lt_minimalPeriod (Nat.mod_lt i hpos) (Nat.mod_lt j hpos)

/-- An injective map that fixes a point is onto the others. -/
theorem exists_ne_of_injective {g : σ → σ} (hg : Function.Injective g) {z : σ} (hz : g z = z) {y : σ} (hy : y ≠ z) :
    ∃ x, x ≠ z ∧ g x = y := by
  obtain ⟨x, rfl⟩ := Finite.surjective_of_injective hg y
  refine ⟨x, ?_, rfl⟩
  rintro rfl
  exact hy hz

end Cycle

end Xorshift
