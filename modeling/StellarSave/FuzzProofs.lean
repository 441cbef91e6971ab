import StellarSave.XorshiftProofs

/-! # The fuzzing generator — what it can draw

    A xorshift of 64 bits whose state is never zero; the draws in a range are remainders of
    its outputs.  Overflows are checked: a sum or a difference that does not fit panics. -/

namespace Fuzz

open Xorshift

/-- The three shifts of `next_u64`. -/
def mix (x : BitVec 64) : BitVec 64 := right 27 (left 25 (right 12 x))

/-- The multiplier. -/
def scrambler : BitVec 64 := 0x2545F4914F6CDD1D#64

/-- A state's output. -/
def scramble (x : BitVec 64) : BitVec 64 := x * scrambler

theorem mix_injective : Function.Injective mix :=
  (right_injective (by decide)).comp ((left_injective (by decide)).comp (right_injective (by decide)))

theorem mix_zero : mix 0#64 = 0#64 := by decide

theorem mix_ne_zero {x : BitVec 64} (h : x ≠ 0#64) : mix x ≠ 0#64 := by
  intro hzero
  exact h (mix_injective (hzero.trans mix_zero.symm))

theorem scramble_injective : Function.Injective scramble :=
  mul_injective (c := scrambler) (d := 6415128727920758069#64) (by decide)

theorem scramble_zero : scramble 0#64 = 0#64 := by decide

/-- `FuzzRng`, with the guarantee of its constructor. -/
structure FuzzRng where
  state : BitVec 64
  nonzero : state ≠ 0#64

theorem default_ne_zero : 0x8a5cd789635d2dff#64 ≠ 0#64 := by decide

/-- `FuzzRng::new`. -/
def new (seed : BitVec 64) : FuzzRng :=
  if h : seed = 0#64 then ⟨0x8a5cd789635d2dff#64, default_ne_zero⟩ else ⟨seed, h⟩

/-- `next_u64`. -/
def nextU64 (rng : FuzzRng) : BitVec 64 × FuzzRng :=
  (scramble (mix rng.state), ⟨mix rng.state, mix_ne_zero rng.nonzero⟩)

/-- `next_u32`. -/
def nextU32 (rng : FuzzRng) : BitVec 32 × FuzzRng :=
  let (x, rng) := nextU64 rng
  ((x >>> 32).setWidth 32, rng)

/-- `next_in_range_i128`; without a value it panicked. -/
def nextInRangeI128 (min max : Int) (rng : FuzzRng) : Option Int × FuzzRng :=
  if min ≥ max then (some min, rng)
  else if max - min ≥ 2 ^ 127 then (none, rng)
  else
    let range := (max - min).toNat
    let (x, rng) := nextU64 rng
    (some (min + (x.toNat % (range + 1) : Nat)), rng)

/-- `next_in_range_u32`. -/
def nextInRangeU32 (min max : Nat) (rng : FuzzRng) : Option Nat × FuzzRng :=
  if min ≥ max then (some min, rng)
  else
    let range := max - min
    let (x, rng) := nextU32 rng
    if range + 1 ≥ 2 ^ 32 then (none, rng) else (some (min + x.toNat % (range + 1)), rng)

/-- `boundary_i128`. -/
def boundaryI128 (scale : Int) (rng : FuzzRng) : Option Int × FuzzRng :=
  let (x, rng) := nextU32 rng
  match x.toNat % 6 with
  | 0 => (some 0, rng)
  | 1 => (some (-1), rng)
  | 2 => (some 1, rng)
  | 3 => (some (2 ^ 127 - 1), rng)
  | 4 => (some (-2 ^ 127), rng)
  | _ => nextInRangeI128 1 scale rng

/-! ## The outputs go round -/

/-- The generator after some draws. -/
def after (seed : BitVec 64) (n : Nat) : FuzzRng := (fun rng => (nextU64 rng).2)^[n] (new seed)

theorem state_after (seed : BitVec 64) (n : Nat) : (after seed n).state = mix^[n] (new seed).state := by
  induction n with
  | zero => rfl
  | succ n ih =>
      rw [after, Function.iterate_succ_apply', Function.iterate_succ_apply', ← ih]
      rfl

/-- **ROUND AND ROUND**: from any seed no draw is zero, and two draws are the same exactly when
    their distance is a multiple of one period. -/
theorem draws_go_round (seed : BitVec 64) : ∃ period, 0 < period ∧ ∀ i j,
    (nextU64 (after seed i)).1 ≠ 0#64 ∧
      ((nextU64 (after seed i)).1 = (nextU64 (after seed j)).1 ↔ i % period = j % period) := by
  refine ⟨Function.minimalPeriod mix (new seed).state, period_pos mix_injective _, fun i j => ⟨?_, ?_⟩⟩
  · intro hzero
    exact mix_ne_zero (after seed i).nonzero (scramble_injective (hzero.trans scramble_zero.symm))
  · show scramble (mix (after seed i).state) = scramble (mix (after seed j).state) ↔ _
    rw [state_after, state_after]
    exact outputs_eq_iff mix_injective (scramble_injective.comp mix_injective) (new seed).state i j

/-! ## What a range can give -/

/-- Every output but zero is some generator's next. -/
theorem exists_draw {u : BitVec 64} (hu : u ≠ 0#64) : ∃ seed, (nextU64 (new seed)).1 = u := by
  obtain ⟨x, hx, rfl⟩ := exists_ne_of_injective scramble_injective scramble_zero hu
  obtain ⟨seed, hseed, rfl⟩ := exists_ne_of_injective mix_injective mix_zero hx
  refine ⟨seed, ?_⟩
  rw [new, dif_neg hseed]
  rfl

theorem draw_ne_zero (rng : FuzzRng) : (nextU64 rng).1 ≠ 0#64 := fun hzero =>
  mix_ne_zero rng.nonzero (scramble_injective (hzero.trans scramble_zero.symm))

/-- **WHAT A RANGE GIVES**: a range whose width overflows panics on every generator; any other
    gives a value from some seed exactly if it is in the range and less than `2 ^ 64` above the
    minimum, and the minimum itself only if the range has fewer than `2 ^ 64` values. -/
theorem in_range_exact (min max v : Int) (hlt : min < max) :
    (∃ seed, (nextInRangeI128 min max (new seed)).1 = some v) ↔
      max - min < 2 ^ 127 ∧ min ≤ v ∧ v ≤ max ∧ v - min < 2 ^ 64 ∧ (v = min → max - min + 1 < 2 ^ 64) := by
  by_cases hfit : max - min ≥ 2 ^ 127
  · constructor
    · rintro ⟨seed, hseed⟩
      rw [nextInRangeI128, if_neg (not_le.mpr hlt), if_pos hfit] at hseed
      exact absurd hseed.symm (Option.some_ne_none v)
    · rintro ⟨hno, _⟩
      exact absurd hfit (not_le.mpr hno)
  · have hdraw : ∀ rng, (nextInRangeI128 min max rng).1 =
        some (min + ((nextU64 rng).1.toNat % ((max - min).toNat + 1) : Nat)) := by
      intro rng
      rw [nextInRangeI128, if_neg (not_le.mpr hlt), if_neg hfit]
    simp only [hdraw, Option.some.injEq]
    obtain ⟨range, hrange⟩ := Int.eq_ofNat_of_zero_le (Int.sub_nonneg_of_le hlt.le)
    rw [hrange, Int.toNat_natCast]
    constructor
    · rintro ⟨seed, rfl⟩
      have hzero : (nextU64 (new seed)).1.toNat ≠ 0 := fun h =>
        draw_ne_zero (new seed) (BitVec.eq_of_toNat_eq h)
      have hword := (nextU64 (new seed)).1.isLt
      have hmod : (nextU64 (new seed)).1.toNat % (range + 1) < range + 1 := Nat.mod_lt _ (Nat.succ_pos range)
      have hle := Nat.mod_le (nextU64 (new seed)).1.toNat (range + 1)
      refine ⟨by omega, by omega, by omega, by omega, ?_⟩
      intro hmin
      -- a remainder of zero of an output that is not zero: the range fits below it
      have hdvd : range + 1 ∣ (nextU64 (new seed)).1.toNat := Nat.dvd_of_mod_eq_zero (by omega)
      have hbelow := Nat.le_of_dvd (Nat.pos_of_ne_zero hzero) hdvd
      omega
    · rintro ⟨_, hmin, hmax, hnear, hfirst⟩
      obtain ⟨d, hd⟩ := Int.eq_ofNat_of_zero_le (Int.sub_nonneg_of_le hmin)
      have hgoal : ∀ u : Nat, u ≠ 0 → u < 2 ^ 64 → u % (range + 1) = d →
          ∃ seed, min + ((nextU64 (new seed)).1.toNat % (range + 1) : Nat) = v := by
        intro u hu hlt64 hmod
        have hne : BitVec.ofNat 64 u ≠ 0#64 := by
          intro h
          have hnat := congrArg BitVec.toNat h
          rw [BitVec.toNat_ofNat, Nat.mod_eq_of_lt hlt64] at hnat
          exact hu hnat
        obtain ⟨seed, hseed⟩ := exists_draw hne
        refine ⟨seed, ?_⟩
        rw [hseed, BitVec.toNat_ofNat, Nat.mod_eq_of_lt hlt64, hmod]
        omega
      rcases Nat.eq_zero_or_pos d with rfl | hpos
      · exact hgoal (range + 1) (Nat.succ_ne_zero range) (by omega) (Nat.mod_self _)
      · exact hgoal d hpos.ne' (by omega) (Nat.mod_eq_of_lt (by omega))

/-- The range `0..=2^64-1` never gives `0`, and gives `1`. -/
theorem in_range_exact_word : ¬ (∃ seed, (nextInRangeI128 0 (2 ^ 64 - 1) (new seed)).1 = some 0) ∧
    ∃ seed, (nextInRangeI128 0 (2 ^ 64 - 1) (new seed)).1 = some 1 :=
  ⟨(in_range_exact 0 (2 ^ 64 - 1) 0 (by decide)).not.mpr (by decide),
    (in_range_exact 0 (2 ^ 64 - 1) 1 (by decide)).mpr (by decide)⟩

/-- In 32 bits every value of the range is given, unless the range is all of them. -/
theorem in_range_u32_exact (min max v : Nat) (hlt : min < max) :
    (∃ seed, (nextInRangeU32 min max (new seed)).1 = some v) ↔ max - min + 1 < 2 ^ 32 ∧ min ≤ v ∧ v ≤ max := by
  by_cases hfit : max - min + 1 ≥ 2 ^ 32
  · constructor
    · rintro ⟨seed, hseed⟩
      rw [nextInRangeU32, if_neg (not_le.mpr hlt)] at hseed
      dsimp only at hseed
      rw [if_pos hfit] at hseed
      exact absurd hseed.symm (Option.some_ne_none v)
    · rintro ⟨hno, _⟩
      exact absurd hfit (not_le.mpr hno)
  · have hdraw : ∀ rng, (nextInRangeU32 min max rng).1 = some (min + (nextU32 rng).1.toNat % (max - min + 1)) := by
      intro rng
      rw [nextInRangeU32, if_neg (not_le.mpr hlt)]
      dsimp only
      rw [if_neg hfit]
    simp only [hdraw, Option.some.injEq]
    constructor
    · rintro ⟨seed, rfl⟩
      have hmod : (nextU32 (new seed)).1.toNat % (max - min + 1) < max - min + 1 := Nat.mod_lt _ (Nat.succ_pos _)
      exact ⟨by omega, by omega, by omega⟩
    · rintro ⟨hsmall, hmin, hmax⟩
      -- a word with the distance above and a one below
      have hword : (v - min) * 2 ^ 32 + 1 < 2 ^ 64 := by omega
      have hne : BitVec.ofNat 64 ((v - min) * 2 ^ 32 + 1) ≠ 0#64 := by
        intro h
        have hnat := congrArg BitVec.toNat h
        rw [BitVec.toNat_ofNat, Nat.mod_eq_of_lt hword] at hnat
        exact Nat.succ_ne_zero _ hnat
      obtain ⟨seed, hseed⟩ := exists_draw hne
      have hhigh : (nextU32 (new seed)).1.toNat = v - min := by
        show (((nextU64 (new seed)).1 >>> 32).setWidth 32).toNat = v - min
        rw [hseed, BitVec.toNat_setWidth, BitVec.toNat_ushiftRight, BitVec.toNat_ofNat, Nat.mod_eq_of_lt hword,
          Nat.shiftRight_eq_div_pow]
        omega
      refine ⟨seed, ?_⟩
      rw [hhigh, Nat.mod_eq_of_lt (by omega)]
      omega

/-- A boundary value is always drawn, and is one of the five or in the range. -/
theorem boundary_drawn (scale : Int) (hscale : scale < 2 ^ 127) (rng : FuzzRng) :
    ∃ v, (boundaryI128 scale rng).1 = some v ∧
      (v ∈ [0, -1, 1, 2 ^ 127 - 1, -2 ^ 127] ∨ 1 ≤ v ∧ v ≤ scale) := by
  rw [boundaryI128]
  dsimp only
  split
  · exact ⟨0, rfl, .inl (by simp)⟩
  · exact ⟨-1, rfl, .inl (by simp)⟩
  · exact ⟨1, rfl, .inl (by simp)⟩
  · exact ⟨2 ^ 127 - 1, rfl, .inl (by simp)⟩
  · exact ⟨-2 ^ 127, rfl, .inl (by simp)⟩
  · rw [nextInRangeI128]
    by_cases hle : 1 ≥ scale
    · rw [if_pos hle]
      exact ⟨1, rfl, .inl (by simp)⟩
    · rw [if_neg hle, if_neg (by omega)]
      refine ⟨_, rfl, .inr ?_⟩
      have hmod : (nextU64 (nextU32 rng).2).1.toNat % ((scale - 1).toNat + 1) < (scale - 1).toNat + 1 :=
        Nat.mod_lt _ (Nat.succ_pos _)
      omega

end Fuzz
