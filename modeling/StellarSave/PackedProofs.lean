import Mathlib.Data.List.Basic
import Mathlib.Tactic.Common

/-! # Packed bits — a set of indices in words of a fixed width

    Index `i` is bit `i % w` of word `i / w`.  Setting one bit of one word adds
    exactly that index, whatever the width. -/

namespace Packed

variable {w : Nat}

/-- The mask of one bit. -/
def mask (w p : Nat) : BitVec w := 1#w <<< p

/-- The bit is set in the word. -/
def isSet (word : BitVec w) (p : Nat) : Bool := decide (word &&& mask w p ≠ 0#w)

/-- The index is in the set. -/
def member (words : List (BitVec w)) (i : Nat) : Bool :=
  (words[i / w]?).any fun word => isSet word (i % w)

theorem getLsbD_mask {p : Nat} (hp : p < w) (j : Nat) : (mask w p).getLsbD j = decide (j = p) := by
  rw [mask, BitVec.getLsbD_shiftLeft]
  by_cases hj : j = p
  · subst hj
    simp [hp, Nat.pos_of_ne_zero (Nat.ne_zero_of_lt hp)]
  · by_cases hlt : j < p
    · simp [hj, hlt]
    · have hpos : j - p ≠ 0 := by omega
      simp [hj, hpos]

/-- **ONE BIT** of a word, looked at through its mask. -/
theorem isSet_eq {word : BitVec w} {p : Nat} (hp : p < w) : isSet word p = word.getLsbD p := by
  rw [isSet, Bool.eq_iff_iff, decide_eq_true_eq]
  constructor
  · intro hne
    by_contra hclear
    refine hne (BitVec.eq_of_getLsbD_eq fun j hj => ?_)
    rw [BitVec.getLsbD_and, getLsbD_mask hp, BitVec.getLsbD_zero]
    by_cases hjp : j = p
    · rw [hjp, Bool.eq_false_iff.mpr hclear]
      rfl
    · simp [hjp]
  · intro hset hzero
    have hbit := congrArg (fun v : BitVec w => v.getLsbD p) hzero
    simp [getLsbD_mask hp, hset] at hbit

/-- A bit is set beside those that were. -/
theorem isSet_or {word : BitVec w} {p q : Nat} (hp : p < w) (hq : q < w) :
    isSet (word ||| mask w p) q = (isSet word q || decide (q = p)) := by
  rw [isSet_eq hq, isSet_eq hq, BitVec.getLsbD_or, getLsbD_mask hp]

section Words

variable {words : List (BitVec w)} {word : BitVec w} {i j : Nat}

theorem member_of_word (h : words[i / w]? = some word) : member words i = isSet word (i % w) := by
  rw [member, h, Option.any_some]

/-- **ONE MORE INDEX**. -/
theorem member_set (hw : 0 < w) (h : words[i / w]? = some word) :
    member (words.set (i / w) (word ||| mask w (i % w))) j = (member words j || decide (j = i)) := by
  have hi : i % w < w := Nat.mod_lt i hw
  have hj : j % w < w := Nat.mod_lt j hw
  by_cases hword : i / w = j / w
  · -- the same word: the same index if it is the same bit
    have hlt : i / w < words.length := (List.getElem?_eq_some_iff.mp h).1
    have hnew : (words.set (i / w) (word ||| mask w (i % w)))[j / w]? =
        some (word ||| mask w (i % w)) := by
      rw [← hword, List.getElem?_set_self hlt]
    have hsame : j % w = i % w ↔ j = i := by
      constructor
      · intro hbit
        rw [← Nat.div_add_mod j w, ← Nat.div_add_mod i w, hword, hbit]
      · rintro rfl
        rfl
    rw [member_of_word hnew, isSet_or hi hj, member_of_word (hword ▸ h), decide_eq_decide.mpr hsame]
  · have hne : j ≠ i := fun he => hword (he ▸ rfl)
    rw [member, member, List.getElem?_set_ne hword, decide_eq_false hne, Bool.or_false]

/-- Clear words hold nothing. -/
theorem member_replicate (n : Nat) : member (List.replicate n (0#w)) j = false := by
  rw [member, List.getElem?_replicate]
  by_cases hn : j / w < n
  · simp [hn, isSet]
  · simp [hn]

end Words

end Packed
