import Mathlib.Algebra.Order.Group.Int
import Mathlib.Data.List.Count
import Mathlib.Tactic.Common

/-! # Fixed windows — a counter that starts again

    A window opens with the first arrival after the last one has run out, and counts its
    arrivals.  One window admits no more than the limit; an interval of a window's
    length meets two windows at most, so it holds no more than twice the limit. -/

namespace FixedWindow

/-- How many of the times lie between the two. -/
def between (a b : Int) (times : List Int) : Nat := times.countP fun t => decide (a ≤ t ∧ t ≤ b)

section Between

variable {a b c d t : Int} {times : List Int}

theorem between_append (a b : Int) (times later : List Int) :
    between a b (times ++ later) = between a b times + between a b later :=
  List.countP_append

theorem between_singleton_le (a b t : Int) : between a b [t] ≤ 1 := List.countP_le_length

theorem between_eq_zero {l : List Int} (h : ∀ t ∈ l, ¬ (a ≤ t ∧ t ≤ b)) : between a b l = 0 :=
  List.countP_eq_zero.mpr fun t ht hin => h t ht (of_decide_eq_true hin)

/-- What lies between the inner two lies between the outer two. -/
theorem between_mono (h : ∀ t ∈ times, a ≤ t → t ≤ b → c ≤ t ∧ t ≤ d) :
    between a b times ≤ between c d times := by
  refine List.countP_mono_left ?_
  intro t ht hin
  obtain ⟨hlow, hhigh⟩ := of_decide_eq_true hin
  exact decide_eq_true (h t ht hlow hhigh)

/-- An interval in two parts. -/
theorem between_split (a b c : Int) (times : List Int) :
    between a b times ≤ between a (c - 1) times + between c b times := by
  induction times with
  | nil => exact Nat.zero_le _
  | cons t times ih =>
      simp only [between, List.countP_cons] at ih ⊢
      by_cases hin : a ≤ t ∧ t ≤ b
      · by_cases hc : c ≤ t
        · have hright : c ≤ t ∧ t ≤ b := ⟨hc, hin.2⟩
          simp only [hin, hright, and_self, decide_true, if_true]
          omega
        · have hleft : a ≤ t ∧ t ≤ c - 1 := ⟨hin.1, by omega⟩
          simp only [hin, hleft, and_self, decide_true, if_true]
          omega
      · simp only [hin, decide_false, Bool.false_eq_true, if_false]
        omega

end Between

/-- The times of a limiter whose last window opened at `start` and counts `count`. -/
structure Counted (limit : Nat) (period start : Int) (count : Nat) (times : List Int) : Prop where
  past : ∀ t ∈ times, t ≤ start + period
  counted : between start (start + period) times ≤ count
  window : between start (start + period) times ≤ limit
  before : ∀ a, start ≤ a + period + 1 → between a (start - 1) times ≤ limit
  any : ∀ a, between a (a + period + 1) times ≤ 2 * limit

section Counted

variable {limit count : Nat} {period start now : Int} {times : List Int}

/-- The first arrival. -/
theorem Counted.first (hperiod : 0 ≤ period) (hlimit : 1 ≤ limit) (now : Int) :
    Counted limit period now 1 [now] := by
  have hone : ∀ a b, between a b [now] ≤ limit := fun a b =>
    (between_singleton_le a b now).trans hlimit
  refine ⟨?_, between_singleton_le _ _ _, hone _ _, fun a _ => hone _ _, fun a => ?_⟩
  · intro t ht
    rw [List.mem_singleton.mp ht]
    omega
  · exact (hone _ _).trans (by omega)

/-- An arrival that is refused. -/
theorem Counted.refuse (h : Counted limit period start count times) :
    Counted limit period start (count + 1) times :=
  ⟨h.past, Nat.le_succ_of_le h.counted, h.window, h.before, h.any⟩

/-- An arrival that the window has room for. -/
theorem Counted.accept (h : Counted limit period start count times) (hroom : count + 1 ≤ limit)
    (hfrom : start ≤ now) (huntil : now ≤ start + period) :
    Counted limit period start (count + 1) (times ++ [now]) := by
  have hcounted : between start (start + period) (times ++ [now]) ≤ count + 1 := by
    rw [between_append]
    exact Nat.add_le_add h.counted (between_singleton_le _ _ _)
  -- what lies before the window is as it was
  have hbefore : ∀ a, start ≤ a + period + 1 → between a (start - 1) (times ++ [now]) ≤ limit := by
    intro a ha
    rw [between_append, between_eq_zero (l := [now]), Nat.add_zero]
    · exact h.before a ha
    · intro t ht hin
      rw [List.mem_singleton.mp ht] at hin
      omega
  refine ⟨?_, hcounted, hcounted.trans hroom, hbefore, ?_⟩
  · intro t ht
    rcases List.mem_append.mp ht with hold | hnew
    · exact h.past t hold
    · rw [List.mem_singleton.mp hnew]
      exact huntil
  -- a stretch of the length of a window, with the new request in it or not
  · intro a
    by_cases hin : a ≤ now ∧ now ≤ a + period + 1
    · -- the part before this window is in the window before it
      calc between a (a + period + 1) (times ++ [now])
          ≤ between a (start - 1) (times ++ [now]) + between start (a + period + 1) (times ++ [now]) :=
            between_split _ _ _ _
        _ ≤ limit + between start (start + period) (times ++ [now]) := by
            refine Nat.add_le_add (hbefore a (by omega)) (between_mono ?_)
            intro t ht hlow _
            refine ⟨hlow, ?_⟩
            rcases List.mem_append.mp ht with hold | hnew
            · exact h.past t hold
            · rw [List.mem_singleton.mp hnew]
              exact huntil
        _ ≤ 2 * limit := by omega
    · rw [between_append, between_eq_zero (l := [now]), Nat.add_zero]
      · exact h.any a
      · intro t ht
        rw [List.mem_singleton.mp ht]
        exact hin

/-- Before a window that opens now, the last one is over. -/
theorem Counted.over (h : Counted limit period start count times) (hlate : start + period < now)
    (a : Int) (ha : now ≤ a + period + 1) : between a (now - 1) times ≤ limit :=
  (between_mono fun t ht hlow _ => ⟨by omega, h.past t ht⟩).trans h.window

/-- A new window, which refuses its first arrival. -/
theorem Counted.roll_refuse (h : Counted limit period start count times) (hperiod : 0 ≤ period)
    (hlate : start + period < now) : Counted limit period now 1 times := by
  have hnone : between now (now + period) times = 0 := between_eq_zero fun t ht hin => by
    have := h.past t ht
    omega
  refine ⟨?_, ?_, ?_, h.over hlate, h.any⟩
  · intro t ht
    have := h.past t ht
    omega
  · rw [hnone]
    exact Nat.zero_le _
  · rw [hnone]
    exact Nat.zero_le _

/-- A new window. -/
theorem Counted.roll (h : Counted limit period start count times) (hperiod : 0 ≤ period)
    (hlimit : 1 ≤ limit) (hlate : start + period < now) :
    Counted limit period now 1 (times ++ [now]) := by
  -- the old window is over, so its requests are behind
  have hbefore : ∀ a, now ≤ a + period + 1 → between a (now - 1) (times ++ [now]) ≤ limit := by
    intro a ha
    rw [between_append, between_eq_zero (l := [now]), Nat.add_zero]
    · exact h.over hlate a ha
    · intro t ht hin
      rw [List.mem_singleton.mp ht] at hin
      omega
  have hone : ∀ b, between now b (times ++ [now]) ≤ 1 := by
    intro b
    rw [between_append, between_eq_zero (l := times), Nat.zero_add]
    · exact between_singleton_le _ _ _
    · intro t ht hin
      have := h.past t ht
      omega
  refine ⟨?_, hone _, (hone _).trans hlimit, hbefore, ?_⟩
  · intro t ht
    rcases List.mem_append.mp ht with hold | hnew
    · have := h.past t hold
      omega
    · rw [List.mem_singleton.mp hnew]
      omega
  -- the stretch may reach back into the old window
  · intro a
    by_cases hin : a ≤ now ∧ now ≤ a + period + 1
    · calc between a (a + period + 1) (times ++ [now])
          ≤ between a (now - 1) (times ++ [now]) + between now (a + period + 1) (times ++ [now]) :=
            between_split _ _ _ _
        _ ≤ limit + 1 := Nat.add_le_add (hbefore a hin.2) (hone _)
        _ ≤ 2 * limit := by omega
    · rw [between_append, between_eq_zero (l := [now]), Nat.add_zero]
      · exact h.any a
      · intro t ht
        rw [List.mem_singleton.mp ht]
        exact hin

end Counted

end FixedWindow
