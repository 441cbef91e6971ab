import StellarSave.UnitsProofs

/-! # Numerals — whole numbers as the language writes and reads them

    `String(n)` writes the decimal digits, the highest first; `parseInt` skips white
    space, takes a sign and as many digits as there are, and is not a number where
    there are none.  What is written is read back, whatever follows it that is no
    digit. -/

namespace Numeral

open Units

/-- The unit of a decimal digit. -/
def digitUnit (d : Nat) : UInt16 := UInt16.ofNat (48 + d)

def isDigit (u : UInt16) : Bool := decide (unit '0' ≤ u ∧ u ≤ unit '9')

/-- The digits of a number below the fuel. -/
def digits : Nat → Nat → List Nat
  | 0, _ => []
  | fuel + 1, n => if n < 10 then [n] else digits fuel (n / 10) ++ [n % 10]

/-- `String` of a number that is not negative. -/
def decimal (n : Nat) : JsString := (digits (n + 1) n).map digitUnit

/-- `String` of a whole number. -/
def numeral (n : Int) : JsString := if n < 0 then unit '-' :: decimal n.natAbs else decimal n.natAbs

/-- The number some digits stand for. -/
def value (ds : JsString) : Nat := ds.foldl (fun acc u => acc * 10 + (u.toNat - 48)) 0

/-- The number at the front, where there is one. -/
def leading (s : JsString) : Option Nat :=
  let ds := s.takeWhile isDigit
  if ds = [] then none else some (value ds)

/-- `parseInt(s, 10)`; nothing stands for `NaN`. -/
def parseInt (s : JsString) : Option Int :=
  match s.dropWhile isSpace with
  | [] => none
  | u :: rest =>
      if u = unit '-' then (leading rest).map fun n : Nat => -(n : Int)
      else if u = unit '+' then (leading rest).map Int.ofNat
      else (leading (u :: rest)).map Int.ofNat

section Digits

variable {fuel n d : Nat} {u : UInt16} {s rest : JsString}

theorem digits_ne_nil (h : n < fuel) : digits fuel n ≠ [] := by
  cases fuel with
  | zero => omega
  | succ fuel =>
      rw [digits]
      split
      · simp
      · simp

theorem digits_lt (h : d ∈ digits fuel n) : d < 10 := by
  induction fuel generalizing n with
  | zero => cases h
  | succ fuel ih =>
      rw [digits] at h
      split at h
      · next hsmall =>
          obtain rfl := List.mem_singleton.mp h
          exact hsmall
      · rcases List.mem_append.mp h with h | h
        · exact ih h
        · obtain rfl := List.mem_singleton.mp h
          exact Nat.mod_lt n (by decide)

theorem toNat_digitUnit (h : d < 10) : (digitUnit d).toNat = 48 + d := by
  rw [digitUnit, UInt16.toNat_ofNat']
  omega

theorem isDigit_digitUnit (h : d < 10) : isDigit (digitUnit d) = true := by
  have hall : ((List.range 10).all fun d => isDigit (digitUnit d)) = true := by decide
  exact List.all_eq_true.mp hall d (List.mem_range.mpr h)

/-- A digit is neither white space nor a sign. -/
theorem digit_plain (h : d < 10) :
    isSpace (digitUnit d) = false ∧ digitUnit d ≠ unit '-' ∧ digitUnit d ≠ unit '+' := by
  have hall : ((List.range 10).all fun d => !isSpace (digitUnit d) &&
      (digitUnit d != unit '-' && digitUnit d != unit '+')) = true := by decide
  have hd := List.all_eq_true.mp hall d (List.mem_range.mpr h)
  simpa using hd

theorem value_digits (h : n < fuel) : value ((digits fuel n).map digitUnit) = n := by
  induction fuel generalizing n with
  | zero => omega
  | succ fuel ih =>
      rw [digits]
      split
      · next hsmall =>
          show 0 * 10 + ((digitUnit n).toNat - 48) = n
          rw [toNat_digitUnit hsmall]
          omega
      · next hlarge =>
          have hrest := ih (n := n / 10) (by omega)
          have hlast := toNat_digitUnit (d := n % 10) (by omega)
          rw [value] at hrest
          rw [List.map_append, value, List.foldl_append, hrest]
          show n / 10 * 10 + ((digitUnit (n % 10)).toNat - 48) = n
          rw [hlast]
          omega

/-- The digits at the front are taken, all of them and nothing else. -/
theorem leading_decimal (n : Nat) (h : ∀ u ∈ rest.head?, isDigit u = false) :
    leading (decimal n ++ rest) = some n := by
  have hall : ∀ u ∈ decimal n, isDigit u = true := by
    intro u hu
    obtain ⟨d, hd, rfl⟩ := List.mem_map.mp hu
    exact isDigit_digitUnit (digits_lt hd)
  -- what follows does not go on with a digit
  have hrest : rest.takeWhile isDigit = [] := by
    cases rest with
    | nil => rfl
    | cons u rest => exact List.takeWhile_cons_of_neg (by simp [h u rfl])
  have htake : (decimal n ++ rest).takeWhile isDigit = decimal n := by
    rw [List.takeWhile_append_of_pos hall, hrest, List.append_nil]
  have hne : decimal n ≠ [] := fun h => digits_ne_nil (Nat.lt_succ_self n) (List.map_eq_nil_iff.mp h)
  rw [leading, htake, if_neg hne, decimal, value_digits (Nat.lt_succ_self n)]

/-- **READ BACK**: what `String` wrote. -/
theorem parseInt_decimal (n : Nat) (h : ∀ u ∈ rest.head?, isDigit u = false) :
    parseInt (decimal n ++ rest) = some (n : Int) := by
  have hleading := leading_decimal n h
  cases hds : digits (n + 1) n with
  | nil => exact absurd hds (digits_ne_nil (Nat.lt_succ_self n))
  | cons d ds =>
      obtain ⟨hspace, hminus, hplus⟩ := digit_plain (digits_lt (hds ▸ List.mem_cons_self : d ∈ digits (n + 1) n))
      have hshape : decimal n ++ rest = digitUnit d :: (ds.map digitUnit ++ rest) := by
        rw [decimal, hds]
        rfl
      rw [hshape] at hleading
      -- no white space and no sign to skip
      rw [parseInt, hshape, List.dropWhile_cons_of_neg (by simp [hspace])]
      simp only [if_neg hminus, if_neg hplus, hleading]
      rfl

end Digits

end Numeral
