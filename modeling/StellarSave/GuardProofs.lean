import StellarSave.CallProofs
import StellarSave.ExecutorProofs

/-! # The reentrancy guard — who gives it back

    Three calls take the guard: `contribute`, `execute_payout` and, through
    it, `tick`.  `contribute` takes it as a `u64` and gives it back.  The
    executor takes it as an `i32` and never does, so after one payout attempt
    every guarded call TRAPS on the type until the entry expires.

    A call that ends well from a clear guard leaves it clear exactly when it
    attempts no payout. -/

namespace SaveGuard

open HostProg Footprint TokenLedger SaveData SaveContribution SavePayout SaveCall Trace

/-- The call runs the executor: it is `execute_payout`, or a `tick` in a cycle
    that everyone has paid into. -/
def AttemptsPayout (s : State) : Call → Prop
  | .executePayout _ => True
  | .tick g => ∃ grp, groupAt s g = some grp ∧
      grp.memberCount ≤ cycCountAt s g grp.currentCycle
  | _ => False

section Step

variable {env : Env} {s t : State} {c : Call} {g : Nat}

/-- The `i32` mark is not a clear guard. -/
theorem not_guardClear_of_mark (h : s.temporary .guard = some (Codec.encode (I32.mk 1))) :
    ¬ GuardClear s := by
  intro hc
  obtain ⟨n, hn⟩ := hc.typed _ h
  cases hn

theorem GuardClear.congr (hs : GuardClear s) (h : t.temporary .guard = s.temporary .guard) :
    GuardClear t := by
  obtain ⟨htyped, hzero⟩ := hs
  constructor
  · intro v hv
    exact htyped v (h ▸ hv)
  · rw [readAt_congr h]
    exact hzero

/-- Only three calls may touch the guard. -/
theorem locks_cases (h : c.footprint.temporary .guard) :
    (∃ g m n, c = .contribute g m n) ∨ (∃ g, c = .executePayout g) ∨ ∃ g, c = .tick g := by
  cases c with
  | contribute g m n => exact Or.inl ⟨g, m, n, rfl⟩
  | executePayout g => exact Or.inr (Or.inl ⟨g, rfl⟩)
  | tick g => exact Or.inr (Or.inr ⟨g, rfl⟩)
  | _ => exact h.2.elim

/-- `contribute` gives back what it takes. -/
theorem contribute_guardClear {m : Address} {n : Int} {u : Unit}
    (h : contribute g m n env s = .ok u t) : GuardClear t := by
  obtain ⟨grp, config, l, -, rfl⟩ := contribute_ok h
  constructor
  · intro v hv
    simp at hv
    exact ⟨U64.mk 0, hv.symm⟩
  · simp

/-- A payout attempt that does not trap leaves the mark. -/
theorem executePayout_not_guardClear {u : Unit} (hs : GuardClear s)
    (h : executePayout g env s = .ok u t) : ¬ GuardClear t :=
  not_guardClear_of_mark (executePayout_guard hs (Or.inl ⟨u, h⟩))

/-- A tick leaves the mark exactly when it attempted a payout. -/
theorem tick_guardClear {u : Unit} (hs : GuardClear s) (h : tick g env s = .ok u t) :
    GuardClear t ↔ ¬ AttemptsPayout s (.tick g) := by
  obtain ⟨grp, v, hgrp, -, -, hpay, rfl⟩ := tick_ok h
  rcases hpay with ⟨hlt, rfl⟩ | ⟨hle, hends⟩
  · refine iff_of_true (GuardClear.congr hs rfl) ?_
    rintro ⟨grp', hgrp', hle⟩
    rw [hgrp] at hgrp'
    obtain rfl := Option.some.inj hgrp'
    omega
  · have hmark := executePayout_guard hs hends
    exact iff_of_false (not_guardClear_of_mark hmark) fun hn => hn ⟨grp, hgrp, hle⟩

/-- **ONE CALL**: from a clear guard, a call that ends well leaves the guard
    clear exactly when it attempted no payout. -/
theorem guardClear_step (hs : GuardClear s) (h : c.body env s = .ok () t) :
    GuardClear t ↔ ¬ AttemptsPayout s c := by
  by_cases hlock : c.footprint.temporary .guard
  · rcases locks_cases hlock with ⟨g, m, n, rfl⟩ | ⟨g, rfl⟩ | ⟨g, rfl⟩
    · exact iff_of_true (contribute_guardClear h) id
    · exact iff_of_false (executePayout_not_guardClear hs h) fun hn => hn trivial
    · exact tick_guardClear hs h
  · have hsame := (Within.agree_ok (w := c.footprint) h).temporary .guard hlock
    refine iff_of_true (GuardClear.congr hs hsame) fun ha => hlock ?_
    cases c with
    | executePayout g => exact ⟨rfl, trivial⟩
    | tick g => exact ⟨rfl, trivial⟩
    | _ => exact ha.elim

end Step

/-! ## Runs -/

/-- The step does not attempt a payout. -/
def NoPayoutAttempt : Step → State → Prop
  | .call _ c, s => ¬ AttemptsPayout s c
  | _, _ => True

theorem guardClear_apply (x : Step) (s : State) (hx : NoPayoutAttempt x s)
    (hs : GuardClear s) : GuardClear (apply x s) := by
  refine apply_invariant (C := NoPayoutAttempt) ?_ ?_ ?_ x s hx hs
  · intro env c s t hc hs ht
    exact (guardClear_step hs ht).mpr hc
  · intro s _
    exact ⟨typedAt_of_none rfl, rfl⟩
  · intro s l hs
    exact GuardClear.congr hs rfl

/-- **THE GUARD COMES BACK EXACTLY WHERE NO PAYOUT IS ATTEMPTED**: call by
    call, and so along every run of such calls. -/
theorem guard_released_iff_no_payout_attempt (s : State) (hs : GuardClear s) :
    (∀ (env : Env) (c : Call), Succeeds c.body env s →
      (GuardClear (commit c.body env s) ↔ ¬ AttemptsPayout s c)) ∧
    ∀ steps : List Step, Along apply NoPayoutAttempt steps s → GuardClear (run steps s) := by
  constructor
  · rintro env c ⟨⟨⟩, t, ht⟩
    rw [commit_of_ok ht]
    exact guardClear_step hs ht
  · intro steps hrun
    exact exec_invariant guardClear_apply hs hrun

/-- No temporary entry at all is a clear guard. -/
theorem pairState_guardClear (k n : Nat) : GuardClear (pairState k n) :=
  ⟨typedAt_of_none rfl, rfl⟩

/-- **STUCK AFTER ONE PAYOUT**: the funded pair is paid, the call ends well,
    and the guard is not clear. -/
theorem executePayout_keeps_guard :
    GuardClear (pairState 3 200) ∧
      Succeeds (Call.executePayout 1).body idleEnv (pairState 3 200) ∧
      ¬ GuardClear (commit (Call.executePayout 1).body idleEnv (pairState 3 200)) := by
  have hrun : ∃ t, executePayout 1 idleEnv (pairState 3 200) = .ok () t := ⟨_, rfl⟩
  obtain ⟨t, ht⟩ := hrun
  refine ⟨pairState_guardClear 3 200, ⟨(), t, ht⟩, ?_⟩
  rw [commit_of_ok (m := (Call.executePayout 1).body) ht]
  exact executePayout_not_guardClear (pairState_guardClear 3 200) ht

/-- The theorem at the funded pair. -/
theorem guard_released_pair_instance :
    GuardClear (pairState 3 200) ∧
      (∀ (env : Env) (c : Call), Succeeds c.body env (pairState 3 200) →
        (GuardClear (commit c.body env (pairState 3 200)) ↔
          ¬ AttemptsPayout (pairState 3 200) c)) :=
  ⟨pairState_guardClear 3 200,
    (guard_released_iff_no_payout_attempt _ (pairState_guardClear 3 200)).1⟩

end SaveGuard
