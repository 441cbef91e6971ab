import Mathlib.Algebra.Order.Group.Defs
import Mathlib.Data.Int.Order.Basic
import Mathlib.Data.List.Basic
import Mathlib.Order.Basic
import Mathlib.Tactic.Common
import Mathlib.Tactic.Linarith

/-! # Windows — the times that are later than a cutoff

    A store that drops what a cutoff has passed, before it adds anything, answers
    every later cutoff as the whole history would.  In a history where every time
    lies a distance behind the one `n` places before it, a window of a few such
    distances holds only as many times `n`. -/

namespace Window

section Recent

variable {α : Type} [LinearOrder α] {a c d : α} {times : List α}

/-- The times after the cutoff. -/
def recent (c : α) (times : List α) : List α := times.filter fun a => decide (c < a)

theorem mem_recent : a ∈ recent c times ↔ a ∈ times ∧ c < a := by
  simp [recent]

theorem recent_append (c : α) (times later : List α) :
    recent c (times ++ later) = recent c times ++ recent c later := List.filter_append ..

theorem recent_sublist (c : α) (times : List α) : (recent c times).Sublist times :=
  List.filter_sublist

/-- What an earlier cutoff dropped, a later one drops. -/
theorem recent_recent (hcd : c ≤ d) (times : List α) : recent d (recent c times) = recent d times := by
  rw [recent, recent, List.filter_filter]
  refine List.filter_congr fun a _ => ?_
  by_cases ha : d < a
  · simp [ha, lt_of_le_of_lt hcd ha]
  · simp [ha]

theorem recent_of_forall (h : ∀ a ∈ times, c < a) : recent c times = times :=
  List.filter_eq_self.mpr fun a ha => decide_eq_true (h a ha)

/-- Of times in order, the first are dropped. -/
theorem recent_eq_drop (hsorted : times.Pairwise (· ≤ ·)) : ∃ k, recent c times = times.drop k := by
  induction times with
  | nil => exact ⟨0, rfl⟩
  | cons a times ih =>
      obtain ⟨hfirst, hrest⟩ := List.pairwise_cons.mp hsorted
      by_cases ha : c < a
      · refine ⟨0, recent_of_forall fun b hb => ?_⟩
        rcases List.mem_cons.mp hb with rfl | hb
        · exact ha
        · exact lt_of_lt_of_le ha (hfirst b hb)
      · -- the first is dropped, and perhaps more after it
        obtain ⟨k, hk⟩ := ih hrest
        refine ⟨k + 1, ?_⟩
        rw [List.drop_succ_cons, ← hk, recent, List.filter_cons_of_neg (by simpa using ha), recent]

/-- Times in order have one before all of them. -/
theorem exists_first (hsorted : times.Pairwise (· ≤ ·)) (hne : times ≠ []) :
    ∃ now, ∀ a ∈ times, now ≤ a := by
  cases times with
  | nil => exact absurd rfl hne
  | cons first times =>
      refine ⟨first, fun a ha => ?_⟩
      rcases List.mem_cons.mp ha with rfl | ha
      · exact le_rfl
      · exact (List.pairwise_cons.mp hsorted).1 a ha

/-- A cutoff that has reached the first of some times leaves fewer. -/
theorem length_recent_lt (ha : a ≤ c) : (recent c (a :: times)).length < (a :: times).length := by
  rw [recent, List.filter_cons_of_neg (by simpa using ha), List.length_cons]
  exact Nat.lt_succ_of_le (List.length_filter_le _ _)

end Recent

section Spaced

variable {n : Nat} {d t : Int} {times : List Int}

/-- Every time is at least `d` after the one `n` places before it. -/
def Spaced (n : Nat) (d : Int) (times : List Int) : Prop :=
  ∀ (i : Nat) (a b : Int), times[i]? = some a → times[i + n]? = some b → a + d ≤ b

theorem spaced_nil : Spaced n d [] := by
  intro i a b ha
  cases ha

theorem Spaced.drop (h : Spaced n d times) (k : Nat) : Spaced n d (times.drop k) := by
  intro i a b ha hb
  rw [List.getElem?_drop] at ha hb
  exact h (k + i) a b ha (by rw [← hb]; congr 1; omega)

/-- One more time, `d` after the last but `n`. -/
theorem Spaced.concat (h : Spaced n d times) (hn : 0 < n)
    (hlast : ∀ i a, i + n = times.length → times[i]? = some a → a + d ≤ t) :
    Spaced n d (times ++ [t]) := by
  intro i a b ha hb
  have hlt : i + n < (times ++ [t]).length := (List.getElem?_eq_some_iff.mp hb).1
  rw [List.length_append, List.length_singleton] at hlt
  rw [List.getElem?_append_left (by omega)] at ha
  rcases Nat.lt_or_ge (i + n) times.length with hin | hout
  · rw [List.getElem?_append_left hin] at hb
    exact h i a b ha hb
  · -- the new time is the later of the two
    have hsame : i + n = times.length := by omega
    rw [hsame, List.getElem?_concat_length] at hb
    obtain rfl := Option.some.inj hb
    exact hlast i a hsame ha

/-- `k` distances between two times. -/
theorem Spaced.apart (h : Spaced n d times) (k : Nat) {i : Nat} {a b : Int}
    (ha : times[i]? = some a) (hb : times[i + k * n]? = some b) : a + k * d ≤ b := by
  induction k generalizing b with
  | zero =>
      rw [Nat.zero_mul, Nat.add_zero, ha] at hb
      obtain rfl := Option.some.inj hb
      simp
  | succ k ih =>
      rw [Nat.succ_mul, ← Nat.add_assoc] at hb
      have hlt : i + k * n < times.length := by
        have := (List.getElem?_eq_some_iff.mp hb).1
        omega
      -- by steps of `n` places, each of them a distance
      have hmid := ih (List.getElem?_eq_getElem hlt)
      have hnext := h (i + k * n) _ b (List.getElem?_eq_getElem hlt) hb
      push_cast
      linarith

/-- **A CROWDED WINDOW IS IMPOSSIBLE**: in a window `k` distances long there are at
    most `k * n` times. -/
theorem Spaced.length_le (h : Spaced n d times) (k : Nat)
    (hwindow : ∀ a ∈ times, t - k * d < a ∧ a ≤ t) : times.length ≤ k * n := by
  by_contra hlong
  have hfirst : 0 < times.length := by omega
  have hlast : 0 + k * n < times.length := by omega
  -- the first and the one `k * n` places on are too far apart for the window
  have hapart := h.apart k (List.getElem?_eq_getElem hfirst) (List.getElem?_eq_getElem hlast)
  have hearly := (hwindow _ (List.getElem_mem hfirst)).1
  have hlate := (hwindow _ (List.getElem_mem hlast)).2
  linarith

end Spaced

end Window
