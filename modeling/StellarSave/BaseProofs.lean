import Mathlib.Data.List.Basic
import Mathlib.Data.Nat.Bitwise
import Mathlib.Tactic.Common

/-! # Bit groups — numbers written in groups of a fixed width

    A row of numbers below `2 ^ w` and the row of their bits, the highest first,
    say the same; cut the bits again at another width and it is another alphabet. -/

namespace Base

/-- The lowest bits of a number, the highest of them first. -/
def toBits : Nat → Nat → List Bool
  | 0, _ => []
  | w + 1, n => n.testBit w :: toBits w n

/-- The number a row of bits writes. -/
def ofBits : List Bool → Nat
  | [] => 0
  | b :: bits => b.toNat * 2 ^ bits.length + ofBits bits

/-- The numbers written by groups of `w` bits. -/
def groups (w : Nat) : Nat → List Bool → List Nat
  | 0, _ => []
  | count + 1, bits => ofBits (bits.take w) :: groups w count (bits.drop w)

variable {w n m : Nat} {bits : List Bool}

@[simp] theorem length_toBits (w n : Nat) : (toBits w n).length = w := by
  induction w with
  | zero => rfl
  | succ w ih => rw [toBits, List.length_cons, ih]

@[simp] theorem length_groups (w count : Nat) (bits : List Bool) :
    (groups w count bits).length = count := by
  induction count generalizing bits with
  | zero => rfl
  | succ count ih => rw [groups, List.length_cons, ih]

theorem ofBits_lt (bits : List Bool) : ofBits bits < 2 ^ bits.length := by
  induction bits with
  | nil => exact Nat.one_pos
  | cons b bits ih =>
      rw [ofBits, List.length_cons, Nat.pow_succ]
      have hb : b.toNat * 2 ^ bits.length ≤ 1 * 2 ^ bits.length :=
        Nat.mul_le_mul_right _ (Bool.toNat_le b)
      omega

/-- Read from the left, a digit at a time. -/
theorem foldl_eq_ofBits (bits : List Bool) (n : Nat) :
    bits.foldl (fun n b => 2 * n + b.toNat) n = n * 2 ^ bits.length + ofBits bits := by
  induction bits generalizing n with
  | nil => simp [ofBits]
  | cons b bits ih =>
      rw [List.foldl_cons, ih, ofBits, List.length_cons, Nat.pow_succ, Nat.add_mul]
      have hdouble : 2 * n * 2 ^ bits.length = n * (2 ^ bits.length * 2) := by
        rw [Nat.mul_comm 2 n, Nat.mul_assoc, Nat.mul_comm 2]
      omega

/-- The first bit above the others. -/
theorem testBit_ofBits_cons (b : Bool) (bits : List Bool) (i : Nat) :
    (ofBits (b :: bits)).testBit i =
      if i < bits.length then (ofBits bits).testBit i else b.toNat.testBit (i - bits.length) := by
  rw [ofBits, Nat.mul_comm]
  exact Nat.testBit_two_pow_mul_add b.toNat (ofBits_lt bits) i

theorem toBits_congr (h : ∀ i, i < w → n.testBit i = m.testBit i) : toBits w n = toBits w m := by
  induction w with
  | zero => rfl
  | succ w ih =>
      rw [toBits, toBits, h w (Nat.lt_succ_self w), ih fun i hi => h i (Nat.lt_succ_of_lt hi)]

/-- **BITS OF A NUMBER, NUMBER OF THE BITS**. -/
theorem ofBits_toBits (w n : Nat) : ofBits (toBits w n) = n % 2 ^ w := by
  induction w with
  | zero => simp [toBits, ofBits, Nat.mod_one]
  | succ w ih =>
      rw [toBits, ofBits, length_toBits, ih, Nat.mod_pow_succ, Nat.toNat_testBit, Nat.mul_comm,
        Nat.add_comm]

theorem ofBits_toBits_of_lt (h : n < 2 ^ w) : ofBits (toBits w n) = n := by
  rw [ofBits_toBits, Nat.mod_eq_of_lt h]

theorem toBits_ofBits (bits : List Bool) : toBits bits.length (ofBits bits) = bits := by
  induction bits with
  | nil => rfl
  | cons b bits ih =>
      have hfirst : (ofBits (b :: bits)).testBit bits.length = b := by
        rw [testBit_ofBits_cons, if_neg (Nat.lt_irrefl _), Nat.sub_self]
        cases b with
        | false => rfl
        | true => rfl
      have hrest : toBits bits.length (ofBits (b :: bits)) = bits := by
        refine Eq.trans (toBits_congr fun i hi => ?_) ih
        rw [testBit_ofBits_cons, if_pos hi]
      rw [List.length_cons, toBits, hfirst, hrest]

theorem mem_groups_lt {count : Nat} (h : n ∈ groups w count bits) : n < 2 ^ w := by
  induction count generalizing bits with
  | zero => cases h
  | succ count ih =>
      rw [groups, List.mem_cons] at h
      rcases h with rfl | h
      · refine Nat.lt_of_lt_of_le (ofBits_lt _) (Nat.pow_le_pow_right Nat.two_pos ?_)
        rw [List.length_take]
        exact Nat.min_le_left w bits.length
      · exact ih h

/-- **NUMBERS TO BITS AND BACK**. -/
theorem groups_flatMap {values : List Nat} (h : ∀ v ∈ values, v < 2 ^ w) :
    groups w values.length (values.flatMap (toBits w)) = values := by
  induction values with
  | nil => rfl
  | cons v values ih =>
      rw [List.length_cons, groups, List.flatMap_cons, List.take_left' (length_toBits w v),
        List.drop_left' (length_toBits w v), ofBits_toBits_of_lt (h v List.mem_cons_self),
        ih fun v hv => h v (List.mem_cons_of_mem _ hv)]

/-- **BITS TO NUMBERS AND BACK**. -/
theorem flatMap_groups {count : Nat} (h : bits.length = count * w) :
    (groups w count bits).flatMap (toBits w) = bits := by
  induction count generalizing bits with
  | zero =>
      rw [Nat.zero_mul] at h
      rw [List.eq_nil_of_length_eq_zero h]
      rfl
  | succ count ih =>
      rw [Nat.succ_mul] at h
      have htake : (bits.take w).length = w := by
        rw [List.length_take]
        omega
      have hdrop : (bits.drop w).length = count * w := by
        rw [List.length_drop]
        omega
      have hfirst := toBits_ofBits (bits.take w)
      rw [htake] at hfirst
      rw [groups, List.flatMap_cons, hfirst, ih hdrop, List.take_append_drop]

theorem length_flatMap_toBits (w : Nat) (values : List Nat) :
    (values.flatMap (toBits w)).length = values.length * w := by
  induction values with
  | nil => simp
  | cons v values ih =>
      rw [List.flatMap_cons, List.length_append, length_toBits, ih, List.length_cons, Nat.succ_mul,
        Nat.add_comm]

/-- A group cut out of the row. -/
theorem getElem?_groups {count i : Nat} (h : i < count) :
    (groups w count bits)[i]? = some (ofBits ((bits.drop (i * w)).take w)) := by
  induction count generalizing bits i with
  | zero => cases h
  | succ count ih =>
      cases i with
      | zero => simp [groups]
      | succ i =>
          rw [groups, List.getElem?_cons_succ, ih (Nat.lt_of_succ_lt_succ h), List.drop_drop,
            Nat.succ_mul, Nat.add_comm]

/-- The groups one after the other. -/
theorem groups_eq_map (w count : Nat) (bits : List Bool) :
    groups w count bits = (List.range count).map fun i => ofBits ((bits.drop (i * w)).take w) := by
  refine List.ext_getElem? fun i => ?_
  by_cases hi : i < count
  · rw [getElem?_groups hi, List.getElem?_map, List.getElem?_range hi, Option.map_some]
  · rw [List.getElem?_eq_none (by simpa using hi), List.getElem?_eq_none (by simpa using hi)]

end Base
