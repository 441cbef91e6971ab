import Mathlib

/-! # Binary64 — arithmetic in double precision

    A double is a rational number with at most 53 significant bits and an exponent
    within bounds, or an infinity, or no number.  An operation computes exactly and
    rounds to the nearest double, ties to the even significand; what is too large
    becomes infinite.  Zero has one sign here: nothing below looks at it.

    Rounding is monotone and leaves a double alone, and this is all that the bounds
    on computed numbers need. -/

namespace Binary64

/-! ## Rounding -/

/-- The exponent of the last place of a number. -/
def lastPlace (x : ℚ) : Int := max (Int.log 2 |x| - 52) (-1074)

/-- The unit in the last place. -/
def ulp (x : ℚ) : ℚ := 2 ^ lastPlace x

/-- The nearest whole number, ties to the even one. -/
def roundEven (x : ℚ) : Int :=
  if x - ⌊x⌋ < 1 / 2 then ⌊x⌋
  else if 1 / 2 < x - ⌊x⌋ then ⌊x⌋ + 1
  else if ⌊x⌋ % 2 = 0 then ⌊x⌋ else ⌊x⌋ + 1

/-- The nearest double, were there no largest one. -/
def nearest (x : ℚ) : ℚ := roundEven (x / ulp x) * ulp x

section Rounding

variable {x y : ℚ} {k e n : Int}

/-- Rounding goes down to the floor at most. -/
theorem floor_le_roundEven (x : ℚ) : ⌊x⌋ ≤ roundEven x := by
  rw [roundEven]
  split_ifs <;> omega

/-- And up to the next whole number at most. -/
theorem roundEven_le_floor (x : ℚ) : roundEven x ≤ ⌊x⌋ + 1 := by
  rw [roundEven]
  split_ifs <;> omega

/-- A whole number is left alone. -/
@[simp] theorem roundEven_intCast (n : Int) : roundEven n = n := by
  rw [roundEven, Int.floor_intCast, if_pos (by norm_num)]

/-- Rounding to whole numbers is monotone. -/
theorem roundEven_mono (h : x ≤ y) : roundEven x ≤ roundEven y := by
  rcases (Int.floor_mono h).lt_or_eq with hlt | heq
  · have hx := roundEven_le_floor x
    have hy := floor_le_roundEven y
    omega
  · -- between the same two whole numbers the larger one is rounded up if the smaller is
    rw [roundEven, roundEven, heq]
    have hsub : x - (⌊y⌋ : ℚ) ≤ y - ⌊y⌋ := by linarith
    split_ifs <;> first | omega | linarith

theorem ulp_pos (x : ℚ) : 0 < ulp x := zpow_pos (by norm_num) _

/-- No last place is below that of the smallest subnormal number. -/
theorem lastPlace_ge (x : ℚ) : -1074 ≤ lastPlace x := le_max_right _ _

/-- A number has 53 places at most before its last. -/
theorem abs_lt_ulp (x : ℚ) : |x| < 2 ^ (53 : Int) * ulp x := by
  have hlog := Int.lt_zpow_succ_log_self (b := 2) (by norm_num) |x|
  refine lt_of_lt_of_le hlog ?_
  rw [ulp, ← zpow_add₀ (by norm_num : (2 : ℚ) ≠ 0)]
  refine zpow_le_zpow_right₀ (by norm_num) ?_
  have := le_max_left (Int.log 2 |x| - 52) (-1074)
  rw [lastPlace]
  omega

/-- A multiple of its last place is left alone. -/
theorem nearest_of_multiple (hx : x = k * 2 ^ e) (he : lastPlace x ≤ e) : nearest x = x := by
  obtain ⟨d, hd⟩ := Int.eq_ofNat_of_zero_le (sub_nonneg.mpr he)
  have hquot : x / ulp x = ((k * 2 ^ d : Int) : ℚ) := by
    rw [div_eq_iff (ulp_pos x).ne', ulp]
    push_cast
    rw [mul_assoc, ← zpow_natCast, ← zpow_add₀ (by norm_num : (2 : ℚ) ≠ 0), ← hd]
    conv_lhs => rw [hx]
    congr 2
    omega
  rw [nearest, hquot, roundEven_intCast, ← hquot, div_mul_cancel₀ _ (ulp_pos x).ne']

@[simp] theorem nearest_zero : nearest 0 = 0 := by
  rw [nearest, zero_div]
  have hzero : roundEven 0 = 0 := by simpa using roundEven_intCast 0
  rw [hzero]
  simp

/-- A number below a power of two has its last place 53 places further down, or at the
    least exponent. -/
theorem lastPlace_le (hx : x ≠ 0) (h : |x| < 2 ^ (e + 53)) (he : -1074 ≤ e) : lastPlace x ≤ e := by
  have hlog : Int.log 2 |x| < e + 53 := by
    refine (Int.lt_zpow_iff_log_lt (b := 2) (by norm_num) (abs_pos.mpr hx)).mp ?_
    exact_mod_cast h
  exact max_le (by omega) he

/-- **A DOUBLE IS LEFT ALONE**: 53 bits above the least exponent. -/
theorem nearest_scaled (hk : |k| ≤ 2 ^ 53) (he : -1074 ≤ e) : nearest (k * 2 ^ e) = k * 2 ^ e := by
  have htwo : (2 : ℚ) ≠ 0 := by norm_num
  have hpos : (0 : ℚ) < 2 ^ e := zpow_pos (by norm_num) _
  rcases eq_or_ne k 0 with rfl | hne
  · simp
  have hx : (k : ℚ) * 2 ^ e ≠ 0 := mul_ne_zero (by exact_mod_cast hne) hpos.ne'
  have habs : |(k : ℚ) * 2 ^ e| = (|k| : Int) * 2 ^ e := by
    rw [abs_mul, abs_of_pos hpos, Int.cast_abs]
  -- a significand of 53 bits fits as it is
  rcases hk.lt_or_eq with hlt | heq
  · refine nearest_of_multiple rfl (lastPlace_le hx ?_ he)
    rw [habs, add_comm, zpow_add₀ htwo]
    exact mul_lt_mul_of_pos_right (by exact_mod_cast hlt) hpos
  · -- the significand is 2^53: half of it, one place up
    obtain ⟨j, hj⟩ : ∃ j : Int, k = 2 * j := by
      rcases abs_eq (by norm_num : (0 : Int) ≤ 2 ^ 53) |>.mp heq with rfl | rfl
      · exact ⟨2 ^ 52, by norm_num⟩
      · exact ⟨-2 ^ 52, by norm_num⟩
    have hhalf : (k : ℚ) * 2 ^ e = j * 2 ^ (e + 1) := by
      rw [hj, zpow_add₀ htwo]
      push_cast
      ring
    refine nearest_of_multiple hhalf (lastPlace_le hx ?_ (by omega))
    have hsplit : e + 1 + 53 = 54 + e := by omega
    rw [habs, heq, hsplit, zpow_add₀ htwo]
    exact mul_lt_mul_of_pos_right (by norm_num) hpos

/-- The significand of a rounded number. -/
theorem abs_roundEven_le (x : ℚ) : |roundEven (x / ulp x)| ≤ 2 ^ 53 := by
  have hlt : |x / ulp x| < 2 ^ 53 := by
    rw [abs_div, abs_of_pos (ulp_pos x), div_lt_iff₀ (ulp_pos x)]
    exact_mod_cast abs_lt_ulp x
  obtain ⟨hlow, hhigh⟩ := abs_lt.mp hlt
  have hmin := roundEven_mono (x := ((-2 ^ 53 : Int) : ℚ)) (y := x / ulp x) (by push_cast; linarith)
  have hmax := roundEven_mono (x := x / ulp x) (y := ((2 ^ 53 : Int) : ℚ)) (by push_cast; linarith)
  rw [roundEven_intCast] at hmin hmax
  exact abs_le.mpr ⟨hmin, hmax⟩

/-- Rounding twice is rounding once. -/
@[simp] theorem nearest_nearest (x : ℚ) : nearest (nearest x) = nearest x :=
  nearest_scaled (abs_roundEven_le x) (lastPlace_ge x)

/-- Whole numbers up to `2^53` are doubles. -/
theorem nearest_intCast (h : |n| ≤ 2 ^ 53) : nearest n = n := by
  simpa using nearest_scaled (e := 0) h (by norm_num)

/-- Rounding keeps the sign. -/
theorem nearest_nonneg (h : 0 ≤ x) : 0 ≤ nearest x := by
  have hround := roundEven_mono (x := ((0 : Int) : ℚ)) (y := x / ulp x)
    (by simpa using div_nonneg h (ulp_pos x).le)
  rw [roundEven_intCast] at hround
  exact mul_nonneg (by exact_mod_cast hround) (ulp_pos x).le

theorem nearest_nonpos (h : x ≤ 0) : nearest x ≤ 0 := by
  have hround := roundEven_mono (x := x / ulp x) (y := ((0 : Int) : ℚ))
    (by simpa using div_nonpos_of_nonpos_of_nonneg h (ulp_pos x).le)
  rw [roundEven_intCast] at hround
  exact mul_nonpos_of_nonpos_of_nonneg (by exact_mod_cast hround) (ulp_pos x).le

/-- **ROUNDING IS MONOTONE**.  Where the last places differ, the smaller number rounds to
    2^53 of its units at most, and the larger to 2^52 of its own at least. -/
theorem nearest_mono (hx : 0 ≤ x) (h : x ≤ y) : nearest x ≤ nearest y := by
  have htwo : (2 : ℚ) ≠ 0 := by norm_num
  rcases hx.eq_or_lt with rfl | hpos
  · rw [nearest_zero]
    exact nearest_nonneg h
  have hpos' : 0 < y := hpos.trans_le h
  have hlog : Int.log 2 |x| ≤ Int.log 2 |y| := by
    rw [abs_of_pos hpos, abs_of_pos hpos']
    exact Int.log_mono_right hpos h
  have hplace : lastPlace x ≤ lastPlace y := max_le_max_right _ (by omega)
  rcases hplace.eq_or_lt with heq | hlt
  · have hulp : ulp x = ulp y := by rw [ulp, ulp, heq]
    rw [nearest, nearest, hulp]
    refine mul_le_mul_of_nonneg_right ?_ (ulp_pos y).le
    exact_mod_cast roundEven_mono (div_le_div_of_nonneg_right h (ulp_pos y).le)
  · have hlow : nearest x ≤ 2 ^ 53 * ulp x := by
      refine mul_le_mul_of_nonneg_right ?_ (ulp_pos x).le
      exact_mod_cast (abs_le.mp (abs_roundEven_le x)).2
    have hunits : 2 ^ 53 * ulp x ≤ 2 ^ 52 * ulp y := by
      have hnext : (2 : ℚ) ^ (lastPlace x + 1) ≤ ulp y := zpow_le_zpow_right₀ (by norm_num) (by omega)
      rw [zpow_add_one₀ htwo, ← ulp] at hnext
      linarith
    have hhigh : 2 ^ 52 * ulp y ≤ nearest y := by
      -- the last place of `y` is not the least there is
      have hplace' : lastPlace y = Int.log 2 |y| - 52 := by
        have hge := lastPlace_ge x
        simp only [lastPlace] at hlt hge ⊢
        omega
      have hlow' : ((2 ^ 52 : Int) : ℚ) ≤ y / ulp y := by
        rw [le_div_iff₀ (ulp_pos y), ulp, hplace']
        have hself := Int.zpow_log_le_self (b := 2) (by norm_num) (abs_pos.mpr hpos'.ne')
        rw [abs_of_pos hpos'] at hself ⊢
        rw [zpow_sub₀ htwo]
        norm_num at hself ⊢
        linarith
      have hround := roundEven_mono hlow'
      rw [roundEven_intCast] at hround
      refine mul_le_mul_of_nonneg_right ?_ (ulp_pos y).le
      exact_mod_cast hround
    exact hlow.trans (hunits.trans hhigh)

/-- A bound that is a double stays one. -/
theorem nearest_le (hx : 0 ≤ x) (h : x ≤ y) (hy : nearest y = y) : nearest x ≤ y :=
  hy ▸ nearest_mono hx h

end Rounding

/-- Sums, added up from the left. -/
def addAll (s : ℚ) (xs : List ℚ) : ℚ := xs.foldl (fun s x => nearest (s + x)) s

def sum (xs : List ℚ) : ℚ := addAll 0 xs

section Doubles

variable {x y : ℚ}

/-- A double is a multiple of the least there is. -/
theorem multiple_of_nearest (h : nearest x = x) : ∃ k : Int, x = k * 2 ^ (-1074 : Int) := by
  obtain ⟨d, hd⟩ := Int.eq_ofNat_of_zero_le (sub_nonneg.mpr (lastPlace_ge x))
  refine ⟨roundEven (x / ulp x) * 2 ^ d, ?_⟩
  conv_lhs => rw [← h]
  rw [Int.cast_mul, Int.cast_pow, Int.cast_ofNat, nearest, ulp, mul_assoc, ← zpow_natCast, ← zpow_add₀ (by norm_num : (2 : ℚ) ≠ 0), ← hd]
  congr 2
  omega

/-- **THE SIGN OF A DIFFERENCE** of two doubles survives its rounding. -/
theorem nearest_sub_nonpos_iff (hx : nearest x = x) (hy : nearest y = y) :
    nearest (x - y) ≤ 0 ↔ x ≤ y := by
  constructor
  · intro h
    by_contra hlt
    obtain ⟨k, hk⟩ := multiple_of_nearest hx
    obtain ⟨l, hl⟩ := multiple_of_nearest hy
    have hpos : (0 : ℚ) < 2 ^ (-1074 : Int) := zpow_pos (by norm_num) _
    -- they differ by the least double at least, and that is not rounded away
    have hone : (1 : Int) ≤ k - l := by
      have hkl : (l : ℚ) < k := by
        rw [hk, hl] at hlt
        exact lt_of_mul_lt_mul_right (not_le.mp hlt) hpos.le
      have : l < k := by exact_mod_cast hkl
      omega
    have hleast : (1 : Int) * (2 : ℚ) ^ (-1074 : Int) ≤ x - y := by
      rw [hk, hl, ← sub_mul]
      exact mul_le_mul_of_nonneg_right (by exact_mod_cast hone) hpos.le
    have hkept := nearest_mono (by positivity) hleast
    rw [nearest_scaled (by norm_num) (by norm_num)] at hkept
    have hone' : ((1 : Int) : ℚ) = 1 := Int.cast_one
    rw [hone', one_mul] at hkept
    linarith
  · exact fun h => nearest_nonpos (sub_nonpos.mpr h)

/-- A sum of two is no less than a double among them. -/
theorem le_nearest_add (hx : nearest x = x) (h₀ : 0 ≤ x) (h₁ : 0 ≤ y) : x ≤ nearest (y + x) := by
  have hmono := nearest_mono h₀ (le_add_of_nonneg_left h₁ : x ≤ y + x)
  rwa [hx] at hmono

end Doubles

/-! ## Numbers -/

/-- A rational number that a double holds. -/
def Exact (x : ℚ) : Prop := nearest x = x ∧ |x| < 2 ^ 1024

instance (x : ℚ) : Decidable (Exact x) := inferInstanceAs (Decidable (_ ∧ _))

/-- A double. -/
inductive Number where
  | nan
  | infinity (negative : Bool)
  | finite (value : ℚ) (exact : Exact value)
  deriving DecidableEq

namespace Number

/-- The double nearest to a rational number, or an infinity. -/
def ofRat (x : ℚ) : Number :=
  if h : |nearest x| < 2 ^ 1024 then .finite (nearest x) ⟨nearest_nearest x, h⟩
  else .infinity (decide (x < 0))

instance (n : Nat) : OfNat Number n := ⟨ofRat n⟩

def sub : Number → Number → Number
  | nan, _ | _, nan => nan
  | infinity a, infinity b => if a = b then nan else infinity a
  | infinity a, finite _ _ => infinity a
  | finite _ _, infinity a => infinity (!a)
  | finite x _, finite y _ => ofRat (x - y)

def mul : Number → Number → Number
  | nan, _ | _, nan => nan
  | infinity a, infinity b => infinity (a != b)
  | infinity a, finite x _ | finite x _, infinity a =>
      if x = 0 then nan else infinity (a != decide (x < 0))
  | finite x _, finite y _ => ofRat (x * y)

/-- `<=`; nothing compares with what is no number. -/
def ble : Number → Number → Bool
  | nan, _ | _, nan => false
  | infinity true, _ | _, infinity false => true
  | finite x _, finite y _ => decide (x ≤ y)
  | _, _ => false

instance : LE Number := ⟨fun a b => ble a b = true⟩

instance : DecidableLE Number := fun a b => inferInstanceAs (Decidable (ble a b = true))

/-- `Math.min`. -/
def min (a b : Number) : Number := if a = nan ∨ b = nan then nan else if a ≤ b then a else b

/-- `Math.max`. -/
def max (a b : Number) : Number := if a = nan ∨ b = nan then nan else if a ≤ b then b else a

/-- `Math.round`: halves go up. -/
def round : Number → Number
  | nan => nan
  | infinity a => infinity a
  | finite x _ => ofRat ⌊x + 1 / 2⌋

section Order

variable {a b c : Number} {x y : ℚ}

@[simp] theorem finite_le_finite {hx : Exact x} {hy : Exact y} : finite x hx ≤ finite y hy ↔ x ≤ y := by
  show decide (x ≤ y) = true ↔ _
  rw [decide_eq_true_iff]

/-- No comparison with what is no number holds. -/
@[simp] theorem not_nan_le : ¬ nan ≤ a := fun h => nomatch h

@[simp] theorem not_le_nan : ¬ a ≤ nan := by
  intro h
  cases a <;> exact nomatch h

@[simp] theorem le_infinity : a ≤ infinity false ↔ a ≠ nan := by
  cases a with
  | nan => simp
  | infinity s => cases s <;> exact iff_of_true rfl (fun h => nomatch h)
  | finite x hx => exact iff_of_true rfl (fun h => nomatch h)

@[simp] theorem infinity_le : infinity true ≤ a ↔ a ≠ nan := by
  cases a with
  | nan => simp
  | infinity s => exact iff_of_true rfl (fun h => nomatch h)
  | finite x hx => exact iff_of_true rfl (fun h => nomatch h)

@[simp] theorem not_infinity_le_finite {hx : Exact x} : ¬ infinity false ≤ finite x hx := fun h => nomatch h

@[simp] theorem not_finite_le_infinity {hx : Exact x} : ¬ finite x hx ≤ infinity true := fun h => nomatch h

/-- A number is at most itself. -/
theorem le_self (h : a ≠ nan) : a ≤ a := by
  cases a with
  | nan => exact absurd rfl h
  | infinity s => cases s <;> rfl
  | finite x hx => exact finite_le_finite.mpr (le_refl x)

/-- Comparisons chain: both say that no number is missing. -/
theorem le_of_le_of_le (hab : a ≤ b) (hbc : b ≤ c) : a ≤ c := by
  -- by cases on all three: infinities bound the finite numbers
  cases a with
  | nan => exact absurd hab not_nan_le
  | infinity s =>
      cases s with
      | true => exact infinity_le.mpr (by rintro rfl; exact not_le_nan hbc)
      | false =>
          cases b with
          | nan => exact absurd hab not_le_nan
          | infinity s' =>
              cases s' with
              | true => exact absurd hab (fun h => nomatch h)
              | false => exact hbc
          | finite y hy => exact absurd hab not_infinity_le_finite
  | finite x hx =>
      cases b with
      | nan => exact absurd hab not_le_nan
      | infinity s' =>
          cases s' with
          | true => exact absurd hab not_finite_le_infinity
          | false =>
              cases c with
              | nan => exact absurd hbc not_le_nan
              | infinity s'' =>
                  cases s'' with
                  | true => exact absurd hbc (fun h => nomatch h)
                  | false => exact le_infinity.mpr (fun h => nomatch h)
              | finite z hz => exact absurd hbc not_infinity_le_finite
      | finite y hy =>
          cases c with
          | nan => exact absurd hbc not_le_nan
          | infinity s'' =>
              cases s'' with
              | true => exact absurd hbc not_finite_le_infinity
              | false => exact le_infinity.mpr (fun h => nomatch h)
          | finite z hz =>
              rw [finite_le_finite] at hab hbc ⊢
              exact hab.trans hbc

/-- A double is not rounded. -/
theorem ofRat_exact (h : Exact x) : ofRat x = finite x h := by
  have hfits : |nearest x| < 2 ^ 1024 := h.1.symm ▸ h.2
  rw [ofRat, dif_pos hfits]
  congr 1
  exact h.1

/-- A rational number becomes a double or an infinity. -/
theorem ofRat_ne_nan : ofRat x ≠ nan := by
  rw [ofRat]
  split <;> exact fun h => nomatch h

/-- Rounding keeps the order of numbers that are not negative. -/
theorem ofRat_mono (hx : 0 ≤ x) (h : x ≤ y) : ofRat x ≤ ofRat y := by
  have hle := nearest_mono hx h
  by_cases hy : |nearest y| < 2 ^ 1024
  · have hfits : |nearest x| < 2 ^ 1024 := by
      rw [abs_of_nonneg (nearest_nonneg hx)]
      rw [abs_of_nonneg (nearest_nonneg (hx.trans h))] at hy
      exact hle.trans_lt hy
    rw [ofRat, ofRat, dif_pos hfits, dif_pos hy]
    exact finite_le_finite.mpr hle
  · have hpos : decide (y < 0) = false := decide_eq_false (not_lt.mpr (hx.trans h))
    have hbig : ofRat y = infinity false := by rw [ofRat, dif_neg hy, hpos]
    rw [hbig]
    exact le_infinity.mpr ofRat_ne_nan

/-- Zero and one are doubles. -/
theorem exact_zero : Exact 0 := ⟨nearest_zero, by norm_num⟩

theorem exact_one : Exact 1 :=
  ⟨by simpa using nearest_intCast (n := 1) (by norm_num), by
    rw [abs_one]
    exact one_lt_pow₀ (by norm_num) (by norm_num)⟩

theorem zero_eq : (0 : Number) = finite 0 exact_zero := by
  show ofRat ((0 : Nat) : ℚ) = _
  rw [Nat.cast_zero, ofRat_exact exact_zero]

theorem one_eq : (1 : Number) = finite 1 exact_one := by
  show ofRat ((1 : Nat) : ℚ) = _
  rw [Nat.cast_one, ofRat_exact exact_one]

theorem ofRat_nonneg (h : 0 ≤ x) : 0 ≤ ofRat x := by
  rw [zero_eq, ← ofRat_exact exact_zero]
  exact ofRat_mono (le_refl 0) h

theorem ofRat_nonpos (h : x ≤ 0) : ofRat x ≤ 0 := by
  rw [zero_eq, ofRat]
  by_cases hfits : |nearest x| < 2 ^ 1024
  · rw [dif_pos hfits]
    exact finite_le_finite.mpr (nearest_nonpos h)
  · rw [dif_neg hfits]
    have hne : x ≠ 0 := by
      rintro rfl
      exact hfits (by rw [nearest_zero]; norm_num)
    rw [decide_eq_true (lt_of_le_of_ne h hne)]
    exact infinity_le.mpr (fun h => nomatch h)

/-- What lies between zero and one stays there. -/
theorem ofRat_unit (h₀ : 0 ≤ x) (h₁ : x ≤ 1) : ∃ y hy, ofRat x = finite y hy ∧ 0 ≤ y ∧ y ≤ 1 := by
  have hlow := nearest_nonneg h₀
  have hhigh := nearest_le h₀ h₁ exact_one.1
  have hfits : |nearest x| < 2 ^ 1024 := by
    rw [abs_of_nonneg hlow]
    exact hhigh.trans_lt (one_lt_pow₀ (by norm_num) (by norm_num))
  exact ⟨_, _, dif_pos hfits, hlow, hhigh⟩

/-- `Math.round` is monotone. -/
theorem round_mono (ha : 0 ≤ a) (h : a ≤ b) : round a ≤ round b := by
  rw [zero_eq] at ha
  cases a with
  | nan => exact absurd ha not_le_nan
  | infinity s =>
      cases s with
      | true => exact absurd ha not_finite_le_infinity
      | false =>
          cases b with
          | nan => exact absurd h not_le_nan
          | infinity s' => exact h
          | finite y hy => exact absurd h not_infinity_le_finite
  | finite x hx =>
      cases b with
      | nan => exact absurd h not_le_nan
      | infinity s' =>
          cases s' with
          | true => exact absurd h not_finite_le_infinity
          | false => exact le_infinity.mpr ofRat_ne_nan
      | finite y hy =>
          rw [finite_le_finite] at ha h
          refine ofRat_mono ?_ ?_
          · exact_mod_cast Int.floor_nonneg.mpr (by linarith)
          · exact_mod_cast Int.floor_mono (by linarith)

/-- What is not positive rounds to nothing more. -/
theorem round_nonpos (h : a ≤ 0) : round a ≤ 0 := by
  rw [zero_eq] at h ⊢
  cases a with
  | nan => exact absurd h not_nan_le
  | infinity s =>
      cases s with
      | true => exact infinity_le.mpr (fun h => nomatch h)
      | false => exact absurd h not_infinity_le_finite
  | finite x hx =>
      rw [finite_le_finite] at h
      rw [← zero_eq]
      refine ofRat_nonpos ?_
      have hfloor : ⌊x + 1 / 2⌋ ≤ 0 := by
        rw [← Int.lt_add_one_iff, Int.floor_lt]
        push_cast
        linarith
      exact_mod_cast hfloor

/-- A finite number is one. -/
theorem finite_ne_nan {x : ℚ} {hx : Exact x} : finite x hx ≠ nan := by
  intro h
  cases h

/-- So is zero. -/
theorem zero_ne_nan : (0 : Number) ≠ nan := by
  rw [zero_eq]
  exact fun h => nomatch h

/-- The order is total but for what is no number. -/
theorem le_total_of_ne_nan (ha : a ≠ nan) (hb : b ≠ nan) : a ≤ b ∨ b ≤ a := by
  cases a with
  | nan => exact absurd rfl ha
  | infinity s =>
      cases s with
      | true => exact Or.inl (infinity_le.mpr hb)
      | false => exact Or.inr (le_infinity.mpr hb)
  | finite x hx =>
      cases b with
      | nan => exact absurd rfl hb
      | infinity s =>
          cases s with
          | true => exact Or.inr (infinity_le.mpr ha)
          | false => exact Or.inl (le_infinity.mpr ha)
      | finite y hy =>
          rw [finite_le_finite, finite_le_finite]
          exact le_total x y

/-- A maximum bounds both, if both are numbers. -/
theorem le_max (ha : a ≠ nan) (hb : b ≠ nan) : a ≤ max a b ∧ b ≤ max a b := by
  rw [max, if_neg (not_or.mpr ⟨ha, hb⟩)]
  split_ifs with hle
  · exact ⟨hle, le_self hb⟩
  · exact ⟨le_self ha, (le_total_of_ne_nan ha hb).resolve_left hle⟩

/-- What bounds both bounds the maximum. -/
theorem max_le (ha : a ≤ c) (hb : b ≤ c) : max a b ≤ c := by
  rw [max, if_neg]
  · split_ifs
    · exact hb
    · exact ha
  · rintro (rfl | rfl)
    · exact not_nan_le ha
    · exact not_nan_le hb

/-- A minimum is below both, if both are numbers. -/
theorem min_le (ha : a ≠ nan) (hb : b ≠ nan) : min a b ≤ a ∧ min a b ≤ b := by
  rw [min, if_neg (not_or.mpr ⟨ha, hb⟩)]
  split_ifs with hle
  · exact ⟨le_self ha, hle⟩
  · exact ⟨(le_total_of_ne_nan ha hb).resolve_left hle, le_self hb⟩

/-- What is below both is below the minimum. -/
theorem le_min (ha : c ≤ a) (hb : c ≤ b) : c ≤ min a b := by
  rw [min, if_neg]
  · split_ifs
    · exact ha
    · exact hb
  · rintro (rfl | rfl)
    · exact not_le_nan ha
    · exact not_le_nan hb

/-- What has a place in the order is a number. -/
theorem ne_nan_of_le (h : a ≤ b) : a ≠ nan ∧ b ≠ nan := by
  constructor
  · rintro rfl
    exact not_nan_le h
  · rintro rfl
    exact not_le_nan h

/-- Rounding makes no number of nothing, and nothing of no number. -/
theorem round_ne_nan (h : a ≠ nan) : round a ≠ nan := by
  cases a with
  | nan => exact absurd rfl h
  | infinity s => exact fun h => nomatch h
  | finite x hx => exact ofRat_ne_nan

/-! What is computed from no number is none. -/

/-- A maximum of what is no number is none: `Math.max` is strict. -/
theorem max_nan (h : a = nan ∨ b = nan) : max a b = nan := if_pos h

/-- So is `Math.min`. -/
theorem min_nan (h : a = nan ∨ b = nan) : min a b = nan := if_pos h

/-- And so are the operations. -/
@[simp] theorem mul_nan : mul a nan = nan := by cases a <;> rfl

@[simp] theorem sub_nan : sub a nan = nan := by cases a <;> rfl

/-- A share of a number is no larger, and has its sign. -/
theorem mul_unit (a : Number) (hx : Exact x) (h₀ : 0 ≤ x) (h₁ : x ≤ 1) :
    mul a (finite x hx) = nan ∨ mul a (finite x hx) ≤ 0 ∨
      (0 ≤ mul a (finite x hx) ∧ mul a (finite x hx) ≤ a) := by
  cases a with
  | nan => exact Or.inl rfl
  | infinity s =>
      have hsign : decide (x < 0) = false := decide_eq_false (not_lt.mpr h₀)
      by_cases hzero : x = 0
      · exact Or.inl (if_pos hzero)
      · have hmul : mul (infinity s) (finite x hx) = infinity s := by
          rw [mul, if_neg hzero, hsign, Bool.bne_false]
        rw [hmul]
        cases s with
        | true => exact Or.inr (Or.inl (infinity_le.mpr zero_ne_nan))
        | false => exact Or.inr (Or.inr ⟨le_infinity.mpr zero_ne_nan, le_self fun h => nomatch h⟩)
  | finite y hy =>
      rcases le_or_gt y 0 with hneg | hpos
      · exact Or.inr (Or.inl (ofRat_nonpos (mul_nonpos_of_nonpos_of_nonneg hneg h₀)))
      · have hprod : 0 ≤ y * x := mul_nonneg hpos.le h₀
        refine Or.inr (Or.inr ⟨ofRat_nonneg hprod, ?_⟩)
        have hshare := ofRat_mono hprod (mul_le_of_le_one_right hpos.le h₁)
        rwa [ofRat_exact hy] at hshare

/-- A number between zero and one. -/
theorem unit_cases (h₀ : 0 ≤ a) (h₁ : a ≤ 1) : ∃ x hx, a = finite x hx ∧ 0 ≤ x ∧ x ≤ 1 := by
  rw [zero_eq] at h₀
  rw [one_eq] at h₁
  cases a with
  | nan => exact absurd h₁ not_nan_le
  | infinity s =>
      cases s with
      | true => exact absurd h₀ not_finite_le_infinity
      | false => exact absurd h₁ not_infinity_le_finite
  | finite x hx => exact ⟨x, hx, rfl, finite_le_finite.mp h₀, finite_le_finite.mp h₁⟩

/-- What is left of one. -/
theorem one_sub_unit {hx : Exact x} (h₀ : 0 ≤ x) (h₁ : x ≤ 1) :
    ∃ y hy, sub 1 (finite x hx) = finite y hy ∧ 0 ≤ y ∧ y ≤ 1 := by
  rw [one_eq]
  exact ofRat_unit (by linarith) (by linarith)

end Order

end Number

end Binary64
