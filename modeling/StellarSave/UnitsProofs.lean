import Mathlib.Data.List.DropRight
import Mathlib.Data.UInt
import Mathlib.Tactic.Common

/-! # Code units — strings as the language has them

    A string of the language is a list of UTF-16 code units; its length, its indices
    and its regular expressions see units, not characters. -/

namespace Units

/-- A string: its code units. -/
abbrev JsString := List UInt16

instance : LawfulBEq JsString := inferInstance

/-- The unit of a character of the basic plane. -/
def unit (c : Char) : UInt16 := UInt16.ofNat c.toNat

/-- A literal of such characters. -/
def lit (s : String) : JsString := s.toList.map unit

/-- Line terminators. -/
def lineTerminators : List UInt16 := [0x0A, 0x0D, 0x2028, 0x2029]

/-- The other white space. -/
def whiteSpaces : List UInt16 :=
  [0x09, 0x0B, 0x0C, 0x20, 0xA0, 0x1680, 0x2000, 0x2001, 0x2002, 0x2003, 0x2004, 0x2005, 0x2006,
    0x2007, 0x2008, 0x2009, 0x200A, 0x202F, 0x205F, 0x3000, 0xFEFF]

/-- What `trim` takes away. -/
def isSpace (u : UInt16) : Bool := decide (u ∈ lineTerminators) || decide (u ∈ whiteSpaces)

/-- `trim`. -/
def trim (s : JsString) : JsString := (s.dropWhile isSpace).rdropWhile isSpace

/-- Without white space there is nothing to trim. -/
theorem trim_of_no_space {s : JsString} (h : ∀ u ∈ s, isSpace u = false) : trim s = s := by
  have hleft : s.dropWhile isSpace = s := by
    cases s with
    | nil => rfl
    | cons u s => exact List.dropWhile_cons_of_neg (by simp [h u List.mem_cons_self])
  rw [trim, hleft]
  rcases List.eq_nil_or_concat s with rfl | ⟨init, u, rfl⟩
  · rfl
  · rw [List.concat_eq_append] at h ⊢
    exact List.rdropWhile_concat_neg isSpace init u (by simp [h u (by simp)])

/-- An ASCII letter in upper case; every other unit as it is. -/
def asciiUpper (u : UInt16) : UInt16 := if unit 'a' ≤ u ∧ u ≤ unit 'z' then u - 32 else u

/-- `\w`. -/
def isWord (u : UInt16) : Bool :=
  decide (unit 'a' ≤ u ∧ u ≤ unit 'z') || decide (unit 'A' ≤ u ∧ u ≤ unit 'Z') ||
    decide (unit '0' ≤ u ∧ u ≤ unit '9') || decide (u = unit '_')

end Units
