import Mathlib.Logic.Basic
import Mathlib.Tactic.Common
import Mathlib.Data.List.Induction

/-! # Runs — what every good step preserves, a run preserves

    A deterministic system over states `σ` with step labels `ι`.  `Along C xs s`
    says that the condition `C`, which may look at the state a step starts
    from, holds at EVERY step of the run of `xs` from `s`; the run rule lifts a
    step lemma to it. -/

namespace Trace

variable {ι σ : Type} (step : ι → σ → σ)

/-- The state after a run. -/
def exec (xs : List ι) (s : σ) : σ := xs.foldl (fun t x => step x t) s

@[simp] theorem exec_nil (s : σ) : exec step [] s = s := rfl

@[simp] theorem exec_cons (x : ι) (xs : List ι) (s : σ) :
    exec step (x :: xs) s = exec step xs (step x s) := rfl

theorem exec_append (xs ys : List ι) (s : σ) :
    exec step (xs ++ ys) s = exec step ys (exec step xs s) := List.foldl_append

/-- Every step of the run meets the condition where it starts. -/
def Along (C : ι → σ → Prop) : List ι → σ → Prop
  | [], _ => True
  | x :: xs, s => C x s ∧ Along C xs (step x s)

@[simp] theorem along_nil (C : ι → σ → Prop) (s : σ) : Along step C [] s ↔ True := Iff.rfl

@[simp] theorem along_cons (C : ι → σ → Prop) (x : ι) (xs : List ι) (s : σ) :
    Along step C (x :: xs) s ↔ C x s ∧ Along step C xs (step x s) := Iff.rfl

/-- A condition that can be checked at each step can be checked along a run. -/
instance decidableAlong (C : ι → σ → Prop) [∀ x s, Decidable (C x s)] :
    ∀ (xs : List ι) (s : σ), Decidable (Along step C xs s)
  | [], _ => isTrue trivial
  | x :: xs, s =>
      have := decidableAlong C xs (step x s)
      inferInstanceAs (Decidable (C x s ∧ Along step C xs (step x s)))

theorem along_true (xs : List ι) (s : σ) : Along step (fun _ _ => True) xs s := by
  induction xs generalizing s with
  | nil => trivial
  | cons x xs ih => exact ⟨trivial, ih (step x s)⟩

theorem along_of_forall {C : ι → σ → Prop} {xs : List ι} (h : ∀ x ∈ xs, ∀ s, C x s) (s : σ) :
    Along step C xs s := by
  induction xs generalizing s with
  | nil => trivial
  | cons x xs ih =>
      exact ⟨h x List.mem_cons_self s, ih (fun y hy => h y (List.mem_cons_of_mem x hy)) (step x s)⟩

/-- A run in two parts. -/
theorem along_append (C : ι → σ → Prop) (xs ys : List ι) (s : σ) :
    Along step C (xs ++ ys) s ↔ Along step C xs s ∧ Along step C ys (exec step xs s) := by
  induction xs generalizing s with
  | nil => simp
  | cons x xs ih => simp [ih, and_assoc]

variable {step}

/-- **THE RUN RULE**: an invariant of the good steps holds at the end of every
    run of good steps. -/
theorem exec_invariant {C : ι → σ → Prop} {I : σ → Prop}
    (hstep : ∀ x s, C x s → I s → I (step x s)) {xs : List ι} {s : σ}
    (hs : I s) (hrun : Along step C xs s) : I (exec step xs s) := by
  induction xs generalizing s with
  | nil => exact hs
  | cons x xs ih =>
      obtain ⟨hx, hrest⟩ := hrun
      exact ih (hstep x s hx hs) hrest

/-- **THE STEP RULE**: what the good steps do from an invariant that they keep,
    every step of a run of good steps does. -/
theorem along_of_invariant {C D : ι → σ → Prop} {I : σ → Prop}
    (hstep : ∀ x s, C x s → I s → D x s ∧ I (step x s)) {xs : List ι} {s : σ}
    (hs : I s) (hrun : Along step C xs s) : Along step D xs s := by
  induction xs generalizing s with
  | nil => trivial
  | cons x xs ih =>
      obtain ⟨hx, hrest⟩ := hrun
      obtain ⟨hd, hnext⟩ := hstep x s hx hs
      exact ⟨hd, ih hnext hrest⟩

/-- **TWO CONDITIONS**: where an invariant makes them agree at every step, the
    same runs meet them. -/
theorem along_congr {C D : ι → σ → Prop} {I : σ → Prop}
    (hagree : ∀ x s, I s → (C x s ↔ D x s)) (hstep : ∀ x s, D x s → I s → I (step x s))
    {s : σ} (hs : I s) (xs : List ι) : Along step C xs s ↔ Along step D xs s := by
  induction xs generalizing s with
  | nil => exact Iff.rfl
  | cons x xs ih =>
      constructor
      · rintro ⟨hx, hrest⟩
        have hd := (hagree x s hs).mp hx
        exact ⟨hd, (ih (hstep x s hd hs)).mp hrest⟩
      · rintro ⟨hx, hrest⟩
        exact ⟨(hagree x s hs).mpr hx, (ih (hstep x s hx hs)).mpr hrest⟩

/-- What the steps of a run add up to. -/
def total (step : ι → σ → σ) (f : ι → σ → Int) : List ι → σ → Int
  | [], _ => 0
  | x :: xs, s => f x s + total step f xs (step x s)

/-- A difference, step by step. -/
theorem total_sub (step : ι → σ → σ) (f f' : ι → σ → Int) (xs : List ι) (s : σ) :
    total step (fun x t => f x t - f' x t) xs s = total step f xs s - total step f' xs s := by
  induction xs generalizing s with
  | nil => rfl
  | cons x xs ih =>
      simp only [total, ih]
      omega

/-- **THE ACCOUNT RULE**: an invariant between the state and the amount so far
    ties the final state to the total. -/
theorem total_invariant {C : ι → σ → Prop} {f : ι → σ → Int} {I : σ → Int → Prop}
    (hstep : ∀ x s n, C x s → I s n → I (step x s) (n + f x s)) {xs : List ι} {s : σ} {n : Int}
    (hs : I s n) (hrun : Along step C xs s) : I (exec step xs s) (n + total step f xs s) := by
  induction xs generalizing s n with
  | nil => rwa [total, Int.add_zero]
  | cons x xs ih =>
      obtain ⟨hx, hrest⟩ := hrun
      have h := ih (hstep x s n hx hs) hrest
      rwa [Int.add_assoc] at h

/-- **ONCE FOR ALL**: what every step keeps comes about at most once in a run. -/
theorem total_arrivals_le_one {P : σ → Prop} [DecidablePred P]
    (hkeep : ∀ x s, P s → P (step x s)) (xs : List ι) (s : σ) :
    total step (fun x t => if ¬ P t ∧ P (step x t) then 1 else 0) xs s ≤ if P s then 0 else 1 := by
  induction xs generalizing s with
  | nil =>
      rw [total]
      split <;> decide
  | cons x xs ih =>
      have hrest := ih (step x s)
      rw [total]
      by_cases hs : P s
      · rw [if_pos (hkeep x s hs)] at hrest
        simp only [hs, not_true_eq_false, false_and, if_false, if_true]
        omega
      · by_cases hx : P (step x s)
        · rw [if_pos hx] at hrest
          simp only [hs, hx, not_false_eq_true, and_self, if_true, if_false]
          omega
        · rw [if_neg hx] at hrest
          simp only [hs, hx, and_false, if_false]
          omega

/-- An invariant of every step, with no condition. -/
theorem exec_invariant_always {I : σ → Prop} (hstep : ∀ x s, I s → I (step x s))
    {s : σ} (hs : I s) (xs : List ι) : I (exec step xs s) := by
  induction xs generalizing s with
  | nil => exact hs
  | cons x xs ih => exact ih (hstep x s hs)

/-- What no step changes, no run changes. -/
theorem exec_frozen {α : Type} {f : σ → α} (hstep : ∀ x s, f (step x s) = f s)
    (xs : List ι) (s : σ) : f (exec step xs s) = f s :=
  exec_invariant_always (I := fun t => f t = f s) (fun x t ht => (hstep x t).trans ht) rfl xs

/-- **WHO BROUGHT IT IN**: what fails at the start of a run and holds at its end
    was brought in by one of the steps. -/
theorem exec_brought {P : σ → Prop} {xs : List ι} {s : σ} (hs : ¬ P s)
    (hend : P (exec step xs s)) :
    ∃ before x after, xs = before ++ x :: after ∧ ¬ P (exec step before s) ∧
      P (step x (exec step before s)) := by
  induction xs generalizing s with
  | nil => exact absurd hend hs
  | cons x xs ih =>
      by_cases hx : P (step x s)
      · exact ⟨[], x, xs, rfl, hs, hx⟩
      · obtain ⟨before, y, after, rfl, hbefore, hy⟩ := ih hx hend
        exact ⟨x :: before, y, after, rfl, hbefore, hy⟩

/-- **WHO BROUGHT IT IN LAST**: the same, at the last such step; from there on it
    holds at every state to the end. -/
theorem exec_brought_last {P : σ → Prop} {xs : List ι} {s : σ} (hs : ¬ P s)
    (hend : P (exec step xs s)) :
    ∃ before x after, xs = before ++ x :: after ∧ ¬ P (exec step before s) ∧
      P (step x (exec step before s)) ∧
      Along step (fun _ t => P t) after (step x (exec step before s)) := by
  induction xs using List.reverseRecOn with
  | nil => exact absurd hend hs
  | append_singleton xs y ih =>
      have hlast : exec step (xs ++ [y]) s = step y (exec step xs s) := exec_append step xs [y] s
      rw [hlast] at hend
      by_cases hxs : P (exec step xs s)
      · obtain ⟨before, x, after, rfl, hbefore, hx, hkept⟩ := ih hxs
        have hreach : P (exec step after (step x (exec step before s))) := by
          rw [exec_append, exec_cons] at hxs
          exact hxs
        refine ⟨before, x, after ++ [y], ?_, hbefore, hx, ?_⟩
        · rw [List.append_assoc, List.cons_append]
        · exact (along_append step _ after [y] _).mpr ⟨hkept, hreach, trivial⟩
      · exact ⟨xs, y, [], rfl, hxs, hend, trivial⟩

end Trace
