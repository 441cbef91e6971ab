import Mathlib
import StellarSave.CreatorProofs

/-! # Shuffle — which orders a seed can draw

    `shuffle` (`contract.rs`) takes `seed * (i + 1)`, wrapped at 64 bits, modulo the
    very `i + 1` that it has multiplied by.  It permutes whatever it is given, but the
    last exchange is always the same one, and what stands first never stays first. -/

namespace SaveShuffle

open HostProg TokenLedger SaveData SaveMembership SaveRoster SaveCreator

/-- Every seed draws an order of the vector, and no access of it is out of range. -/
def PermutesAlways (n : Nat) : Prop :=
  ∀ xs : List Nat, xs.length = n → ∀ seed ≤ u64Max, ∃ ys, shuffle seed n xs = some ys ∧ ys.Perm xs

/-- Each element of a vector without repetitions can be drawn to each position. -/
def NonePredetermined (n : Nat) : Prop :=
  2 ≤ n → ∀ xs : List Nat, xs.length = n → xs.Nodup → ∀ x ∈ xs, ∀ p < n,
    ∃ seed ≤ u64Max, ∃ ys, shuffle seed n xs = some ys ∧ ys[p]? = some x

section Exchange

variable {xs ys : List Nat} {i j k x : Nat}

/-- The last exchange is of the first two, whatever the seed: `2 ^ 64` is even. -/
theorem last_index (seed : Nat) : seed * 2 % (u64Max + 1) % 2 = 0 := by
  have heven : 2 ∣ u64Max + 1 := by decide
  rw [Nat.mod_mod_of_dvd _ heven]
  omega

/-- An element that is not exchanged stays. -/
theorem swap_other (h : swap xs i j = some ys) (hi : k ≠ i) (hj : k ≠ j) : ys[k]? = xs[k]? := by
  simp only [swap, Option.bind_eq_bind, Option.bind_eq_some_iff, Option.pure_def,
    Option.some.injEq] at h
  obtain ⟨a, -, b, -, rfl⟩ := h
  rw [List.getElem?_set_ne (Ne.symm hj), List.getElem?_set_ne (Ne.symm hi)]

/-- The element at the lower place goes to the higher one. -/
theorem swap_up (h : swap xs i j = some ys) (hij : i ≠ j) : ys[i]? = xs[j]? := by
  simp only [swap, Option.bind_eq_bind, Option.bind_eq_some_iff, Option.pure_def,
    Option.some.injEq] at h
  obtain ⟨a, ha, b, hb, rfl⟩ := h
  obtain ⟨hi, -⟩ := List.getElem?_eq_some_iff.mp ha
  rw [List.getElem?_set_ne (Ne.symm hij), List.getElem?_set_self hi, hb]

/-- Above the part that is still to be shuffled nothing moves any more. -/
theorem shuffle_above {seed n : Nat} (h : shuffle seed n xs = some ys) (hk : n ≤ k) :
    ys[k]? = xs[k]? := by
  induction n generalizing xs with
  | zero =>
      obtain rfl := Option.some.inj h
      rfl
  | succ n ih =>
      cases n with
      | zero =>
          obtain rfl := Option.some.inj h
          rfl
      | succ n =>
          simp only [shuffle, Option.bind_eq_bind, Option.bind_eq_some_iff] at h
          obtain ⟨zs, hswap, hrest⟩ := h
          have hj : seed * (n + 2) % (u64Max + 1) % (n + 2) < n + 2 := Nat.mod_lt _ (by omega)
          rw [ih hrest (by omega)]
          exact swap_other hswap (by omega) (by omega)

/-- What stands first is moved away from there. -/
theorem shuffle_first {seed n : Nat} (h : shuffle seed (n + 2) xs = some ys)
    (hx : xs[0]? = some x) : ∃ p, 1 ≤ p ∧ ys[p]? = some x := by
  induction n generalizing xs with
  | zero =>
      simp only [shuffle, Option.bind_eq_bind, Option.bind_eq_some_iff] at h
      obtain ⟨zs, hswap, hrest⟩ := h
      obtain rfl := Option.some.inj hrest
      rw [show seed * (0 + 2) % (u64Max + 1) % (0 + 2) = 0 from last_index seed] at hswap
      exact ⟨1, le_refl 1, (swap_up hswap (by omega)).trans hx⟩
  | succ n ih =>
      rw [shuffle] at h
      simp only [Option.bind_eq_bind, Option.bind_eq_some_iff] at h
      obtain ⟨zs, hswap, hrest⟩ := h
      by_cases hj : seed * (n + 1 + 2) % (u64Max + 1) % (n + 1 + 2) = 0
      · -- it goes to the end of the part in hand, which the later exchanges leave alone
        rw [hj] at hswap
        refine ⟨n + 2, by omega, ?_⟩
        rw [shuffle_above hrest (le_refl _)]
        exact (swap_up hswap (by omega)).trans hx
      · refine ih hrest ?_
        rw [swap_other hswap (by omega) (Ne.symm hj)]
        exact hx

end Exchange

/-- The first of distinct elements never comes first. -/
theorem shuffle_never_first {seed n : Nat} {xs ys : List Nat} {x : Nat} (hn : 2 ≤ n)
    (hnodup : xs.Nodup) (hx : xs[0]? = some x) (h : shuffle seed n xs = some ys) :
    ys[0]? ≠ some x := by
  obtain ⟨m, rfl⟩ : ∃ m, n = m + 2 := ⟨n - 2, by omega⟩
  intro hfirst
  obtain ⟨p, hp, hlater⟩ := shuffle_first h hx
  have hdistinct : ys.Nodup := (shuffle_perm h).nodup_iff.mpr hnodup
  obtain ⟨hzero, -⟩ := List.getElem?_eq_some_iff.mp hfirst
  have hsame : 0 = p := (List.getElem?_inj hzero hdistinct).mp (hfirst.trans hlater.symm)
  omega

theorem permutesAlways (n : Nat) : PermutesAlways n := by
  rintro xs rfl seed -
  obtain ⟨ys, hys⟩ := shuffle_some seed (le_refl xs.length)
  exact ⟨ys, hys, shuffle_perm hys⟩

/-- **A SHUFFLE PERMUTES, AND EVERY PLACE CAN BE REACHED EXACTLY WHEN** there are fewer than
    two elements. -/
theorem shuffle_fair_iff (n : Nat) : PermutesAlways n ∧ (NonePredetermined n ↔ n < 2) := by
  refine ⟨permutesAlways n, ?_⟩
  constructor
  · intro hfree
    by_contra hn
    rw [Nat.not_lt] at hn
    obtain ⟨seed, -, ys, hys, hfirst⟩ := hfree hn (List.range n) List.length_range List.nodup_range
      0 (List.mem_range.mpr (by omega)) 0 (by omega)
    exact shuffle_never_first hn List.nodup_range (List.getElem?_range (by omega)) hys hfirst
  · intro hn htwo
    omega

/-- Of two neither can stay in its place. -/
theorem two_predetermined : ¬ NonePredetermined 2 := by
  intro hfree
  obtain ⟨seed, -, ys, hys, hfirst⟩ := hfree (le_refl 2) [0, 1] rfl (by decide) 0 (by decide) 0 (by decide)
  exact shuffle_never_first (le_refl 2) (by decide) rfl hys hfirst

/-- The member in the first slot is never the first one paid. -/
theorem randomizePayoutOrder_first {env : Env} {s t : State} {g seed : Nat} {positions : List Nat}
    (h : randomizePayoutOrder g seed env s = .ok positions t) (hn : 2 ≤ positions.length) :
    positions[0]? ≠ some 0 := by
  simp only [randomizePayoutOrder, getOr_bind_ok, has_bind_ok, failIf_bind_ok, ask_bind_ok,
    unwrap_bind_ok, put_bind_ok, pure_ok] at h
  obtain ⟨_, -, -, roster, -, positions', hshuffle, sequence, -, rfl, rfl⟩ := h
  rw [(shuffle_perm hshuffle).length_eq, List.length_range] at hn
  exact shuffle_never_first hn List.nodup_range (List.getElem?_range (by omega)) hshuffle

end SaveShuffle
