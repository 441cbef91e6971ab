import StellarSave.TextProofs

/-! # Dates — the text of a time value names it

    A date is its time value, the milliseconds since 1970, within the range a
    `Date` can hold.  `toISOString` splits it as the language defines it (day,
    year, month, date, time of day) and writes the fields at fixed widths.
    Reading the fields back gives the time value, so the text names it. -/

namespace IsoDate

open Text

/-- The milliseconds of a day. -/
def msPerDay : Int := 86400000

/-- The day on which a year starts. -/
def dayFromYear (y : Int) : Int :=
  365 * (y - 1970) + (y - 1969) / 4 - (y - 1901) / 100 + (y - 1601) / 400

/-- Leap years have 366 days. -/
def inLeapYear (y : Int) : Bool := y % 4 == 0 && (!(y % 100 == 0) || y % 400 == 0)

/-- The year of a day: the last one that starts no later. -/
def yearFromDay (day : Int) : Int :=
  let y := 1970 + 400 * day / 146097
  if day < dayFromYear y then y - 1
  else if dayFromYear (y + 1) ≤ day then y + 1 else y

/-- The day of the year a month starts with. -/
def monthStart (leap : Bool) (m : Nat) : Int :=
  let l : Int := if leap then 1 else 0
  match m with
  | 0 => 0
  | 1 => 31
  | 2 => 59 + l
  | 3 => 90 + l
  | 4 => 120 + l
  | 5 => 151 + l
  | 6 => 181 + l
  | 7 => 212 + l
  | 8 => 243 + l
  | 9 => 273 + l
  | 10 => 304 + l
  | 11 => 334 + l
  | _ => 365 + l

/-- The last month up to `m` that starts no later than a day of the year. -/
def lastMonth (leap : Bool) (d : Int) : Nat → Nat
  | 0 => 0
  | m + 1 => if monthStart leap (m + 1) ≤ d then m + 1 else lastMonth leap d m

/-- The month a day of the year lies in, counted from 0. -/
def monthFromDay (leap : Bool) (d : Int) : Nat := lastMonth leap d 11

/-- The fields of a time value: month and date are counted from 1. -/
structure Fields where
  year : Int
  month : Nat
  date : Nat
  hour : Nat
  minute : Nat
  second : Nat
  ms : Nat
  deriving DecidableEq, Repr

/-- A time value split into its fields. -/
def split (t : Int) : Fields :=
  let day := t / msPerDay
  let time := (t % msPerDay).toNat
  let y := yearFromDay day
  let d := day - dayFromYear y
  let m := monthFromDay (inLeapYear y) d
  { year := y, month := m + 1, date := (d - monthStart (inLeapYear y) m).toNat + 1,
    hour := time / 3600000, minute := time / 60000 % 60, second := time / 1000 % 60,
    ms := time % 1000 }

/-- The time value the fields stand for. -/
def join (f : Fields) : Int :=
  (dayFromYear f.year + monthStart (inLeapYear f.year) (f.month - 1) + (f.date - 1)) * msPerDay
    + f.hour * 3600000 + f.minute * 60000 + f.second * 1000 + f.ms

/-- A year has at most 366 days. -/
theorem dayFromYear_succ (y : Int) : dayFromYear (y + 1) ≤ dayFromYear y + 366 := by
  simp only [dayFromYear]
  omega

/-- The mean length of a year places a day within one year of its own. -/
theorem estimate_bounds (day : Int) :
    dayFromYear (1970 + 400 * day / 146097 - 1) ≤ day
      ∧ day < dayFromYear (1970 + 400 * day / 146097 + 1 + 1) := by
  simp only [dayFromYear]
  omega

/-- A day of a year is one of at most 366. -/
theorem yearFromDay_bounds (day : Int) :
    0 ≤ day - dayFromYear (yearFromDay day) ∧ day - dayFromYear (yearFromDay day) < 366 := by
  obtain ⟨hlow, hhigh⟩ := estimate_bounds day
  simp only [yearFromDay]
  generalize 1970 + 400 * day / 146097 = y at hlow hhigh ⊢
  have h₀ := dayFromYear_succ (y - 1)
  have h₁ := dayFromYear_succ y
  have h₂ := dayFromYear_succ (y + 1)
  rw [Int.sub_add_cancel] at h₀
  split
  · omega
  · split <;> omega

/-- A month has at most 31 days. -/
theorem monthStart_succ (leap : Bool) {m : Nat} (h : m < 12) :
    monthStart leap (m + 1) ≤ monthStart leap m + 31 := by
  have hall : ∀ l : Bool, ∀ i, i < 12 → monthStart l (i + 1) ≤ monthStart l i + 31 := by decide
  exact hall leap m h

theorem lastMonth_spec (leap : Bool) {d : Int} (h0 : 0 ≤ d) (n : Nat) :
    lastMonth leap d n ≤ n ∧ monthStart leap (lastMonth leap d n) ≤ d
      ∧ (lastMonth leap d n = n ∨ d < monthStart leap (lastMonth leap d n + 1)) := by
  induction n with
  | zero => exact ⟨Nat.le_refl 0, h0, Or.inl rfl⟩
  | succ n ih =>
      obtain ⟨hle, hstart, hnext⟩ := ih
      simp only [lastMonth]
      split
      · next h => exact ⟨Nat.le_refl _, h, Or.inl rfl⟩
      · next h =>
          refine ⟨Nat.le_succ_of_le hle, hstart, Or.inr ?_⟩
          obtain heq | hlt := hnext
          · rw [heq]
            omega
          · exact hlt

/-- A day of the year is one of at most 32 of the month found for it. -/
theorem monthFromDay_bounds (leap : Bool) {d : Int} (h0 : 0 ≤ d) (h1 : d < 366) :
    monthFromDay leap d < 12 ∧ 0 ≤ d - monthStart leap (monthFromDay leap d)
      ∧ d - monthStart leap (monthFromDay leap d) < 32 := by
  obtain ⟨hle, hstart, hnext⟩ := lastMonth_spec leap h0 11
  have hsucc := monthStart_succ leap (m := monthFromDay leap d) (by simp only [monthFromDay]; omega)
  simp only [monthFromDay] at hsucc ⊢
  refine ⟨by omega, by omega, ?_⟩
  obtain heq | hlt := hnext
  · rw [heq]
    cases leap <;> simp only [monthStart] <;> simp <;> omega
  · omega

/-- **READING BACK**: the fields of a time value give it again. -/
theorem join_split (t : Int) : join (split t) = t := by
  have hyear := yearFromDay_bounds (t / msPerDay)
  have hmonth := monthFromDay_bounds (inLeapYear (yearFromDay (t / msPerDay))) hyear.1 hyear.2
  simp only [join, split, Nat.add_sub_cancel]
  generalize hm : monthStart _ _ = start at hmonth ⊢
  generalize dayFromYear (yearFromDay (t / msPerDay)) = start' at hmonth hyear ⊢
  simp only [msPerDay] at *
  omega

/-- The year is the estimate or a neighbour. -/
theorem yearFromDay_near (day : Int) :
    1970 + 400 * day / 146097 - 1 ≤ yearFromDay day
      ∧ yearFromDay day ≤ 1970 + 400 * day / 146097 + 1 := by
  simp only [yearFromDay]
  split
  · omega
  · split <;> omega

-- ── The text of a date ────────────────────────────────────────────────────────

/-- A date: a time value within the 10⁸ days a `Date` can hold either way. -/
structure JsDate where
  time : Int
  inRange : time.natAbs ≤ 8640000000000000
  deriving DecidableEq

def yearSign (y : Int) : Char := if y < 0 then '-' else '+'

/-- Four digits, or a sign and six. -/
def yearText (y : Int) : List Char :=
  if 0 ≤ y ∧ y ≤ 9999 then padded 4 y.toNat else yearSign y :: padded 6 y.natAbs

/-- `YYYY-MM-DDTHH:mm:ss.sssZ`. -/
def fieldsText (f : Fields) : List Char :=
  yearText f.year ++ ('-' :: padded 2 f.month ++ ('-' :: padded 2 f.date ++ ('T' :: padded 2 f.hour
    ++ (':' :: padded 2 f.minute ++ (':' :: padded 2 f.second ++ ('.' :: padded 3 f.ms ++ ['Z']))))))

/-- `Date.prototype.toISOString`. -/
def toISOString (d : JsDate) : String := String.ofList (fieldsText (split d.time))

example : toISOString ⟨1700000000123, by decide⟩ = "2023-11-14T22:13:20.123Z" := by decide

/-- The bounds the writer's widths allow. -/
structure Fits (f : Fields) : Prop where
  year : f.year.natAbs < 10 ^ 6
  month : f.month < 10 ^ 2
  date : f.date < 10 ^ 2
  hour : f.hour < 10 ^ 2
  minute : f.minute < 10 ^ 2
  second : f.second < 10 ^ 2
  ms : f.ms < 10 ^ 3

/-- A digit is no sign. -/
theorem padded_ne_sign {w n : Nat} {c : Char} {r s t : List Char} (hw : 0 < w)
    (hc : c = '-' ∨ c = '+') : padded w n ++ r ≠ (c :: s) ++ t := by
  have hdigit : ∀ (w n : Nat), 0 < w → ∃ i, i < 10 ∧ (padded w n).head? = some (digit i) := by
    intro w
    induction w with
    | zero => intro n h; exact absurd h (Nat.lt_irrefl 0)
    | succ w ih =>
        intro n _
        cases w with
        | zero => exact ⟨n % 10, Nat.mod_lt _ (by decide), rfl⟩
        | succ w =>
            obtain ⟨i, hi, hhead⟩ := ih (n / 10) (Nat.succ_pos w)
            refine ⟨i, hi, ?_⟩
            rw [padded, List.head?_append, hhead]
            rfl
  intro h
  obtain ⟨i, hi, hhead⟩ := hdigit w n hw
  have hfirst : (padded w n ++ r).head? = some c := by rw [h]; rfl
  rw [List.head?_append, hhead, Option.some_or, Option.some.injEq] at hfirst
  have hall : ∀ i, i < 10 → digit i ≠ '-' ∧ digit i ≠ '+' := by decide
  obtain rfl | rfl := hc
  · exact (hall i hi).1 hfirst
  · exact (hall i hi).2 hfirst

theorem yearText_append_inj {y z : Int} {r s : List Char} (hy : y.natAbs < 10 ^ 6)
    (hz : z.natAbs < 10 ^ 6) (h : yearText y ++ r = yearText z ++ s) : y = z ∧ r = s := by
  have hsign : ∀ x : Int, yearSign x = '-' ∨ yearSign x = '+' := by
    intro x
    rw [yearSign]
    split <;> simp
  simp only [yearText] at h
  split at h <;> split at h
  · next h₁ h₂ =>
      obtain ⟨heq, hrest⟩ := padded_append_inj (by omega) (by omega) h
      exact ⟨by omega, hrest⟩
  · exact absurd h (padded_ne_sign (w := 4) (by decide) (hsign z))
  · exact absurd h.symm (padded_ne_sign (w := 4) (by decide) (hsign y))
  · next h₁ h₂ =>
      rw [List.cons_append, List.cons_append, List.cons.injEq] at h
      obtain ⟨heq, hrest⟩ := padded_append_inj hy hz h.2
      refine ⟨?_, hrest⟩
      have hs := h.1
      simp only [yearSign] at hs
      by_cases hy0 : y < 0 <;> by_cases hz0 : z < 0
      · omega
      · exact absurd hs (by simp [hy0, hz0])
      · exact absurd hs (by simp [hy0, hz0])
      · omega

/-- A padded field after its mark. -/
theorem marked_append_inj {c : Char} {w m n : Nat} {r s : List Char} (hm : m < 10 ^ w)
    (hn : n < 10 ^ w) (h : c :: padded w m ++ r = c :: padded w n ++ s) : m = n ∧ r = s := by
  rw [List.cons_append, List.cons_append, List.cons.injEq] at h
  exact padded_append_inj hm hn h.2

/-- The fields are read off the text one after the other. -/
theorem fieldsText_inj {f g : Fields} (hf : Fits f) (hg : Fits g)
    (h : fieldsText f = fieldsText g) : f = g := by
  obtain ⟨hyear, h⟩ := yearText_append_inj hf.year hg.year h
  obtain ⟨hmonth, h⟩ := marked_append_inj hf.month hg.month h
  obtain ⟨hdate, h⟩ := marked_append_inj hf.date hg.date h
  obtain ⟨hhour, h⟩ := marked_append_inj hf.hour hg.hour h
  obtain ⟨hminute, h⟩ := marked_append_inj hf.minute hg.minute h
  obtain ⟨hsecond, h⟩ := marked_append_inj hf.second hg.second h
  obtain ⟨hms, _⟩ := marked_append_inj hf.ms hg.ms h
  cases f
  cases g
  simp_all

/-- The fields of a date fit the widths. -/
theorem fits_split (d : JsDate) : Fits (split d.time) := by
  obtain ⟨t, ht⟩ := d
  have hyear := yearFromDay_bounds (t / msPerDay)
  have hmonth := monthFromDay_bounds (inLeapYear (yearFromDay (t / msPerDay))) hyear.1 hyear.2
  have htime : (t % msPerDay).toNat < 86400000 := by
    have h := Int.emod_lt_of_pos t (b := msPerDay) (by decide)
    simp only [msPerDay] at h ⊢
    omega
  refine ⟨?_, ?_, ?_, ?_, ?_, ?_, ?_⟩ <;> simp only [split]
  · have hy := yearFromDay_near (t / msPerDay)
    simp only [msPerDay] at hy ⊢
    omega
  all_goals omega

/-- **A DATE IS ITS TEXT**: no two dates are written alike. -/
theorem toISOString_inj {d e : JsDate} (h : toISOString d = toISOString e) : d = e := by
  have hfields := fieldsText_inj (fits_split d) (fits_split e) (String.ofList_inj.mp h)
  have htime : d.time = e.time := by
    rw [← join_split d.time, ← join_split e.time, hfields]
  cases d
  cases e
  simp_all

end IsoDate
