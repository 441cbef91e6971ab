import Mathlib.Logic.Basic
import Mathlib.Tactic.Common

/-! # Programs over a typed key-value host

    A contract entry point is a program that reads an environment (time,
    signatures), threads a host state (persistent storage, temporary storage,
    an external ledger) and ends in one of four ways:

    * `ok` — a value, together with the state it leaves;
    * `err` — a contract error, TOGETHER WITH the state reached so far: a
      caller inside the same invocation that swallows the error keeps every
      write made before it;
    * `trap` — the host aborts, and nothing of the invocation survives;
    * `mistyped` — the same, because an entry was read at another type.

    Storage is TYPED AT READ TIME.  Every entry holds a tagged value, a read
    names the type it wants, and an entry of another type ends the program.

    The lemmas named `_ok` invert one primitive each and those named `_bind_ok`
    one primitive at the head of a sequence; tagged `simp`, they turn "this
    program ended well" into the list of its checks and its final state. -/

namespace HostProg

/-- How a program body ends. -/
inductive Outcome (σ ε α : Type) where
  | ok (a : α) (s : σ)
  | err (e : ε) (s : σ)
  | trap
  | mistyped

/-- A program: environment and state in, outcome out. -/
def Prog (ρ σ ε α : Type) := ρ → σ → Outcome σ ε α

variable {ρ σ ε α β : Type}

instance : Monad (Prog ρ σ ε) where
  pure a := fun _ s => .ok a s
  bind m f := fun r s =>
    match m r s with
    | .ok a t => f a r t
    | .err e t => .err e t
    | .trap => .trap
    | .mistyped => .mistyped

/-! ## Control -/

/-- Return a contract error. -/
def throw (e : ε) : Prog ρ σ ε α := fun _ s => .err e s

/-- Abort the invocation. -/
def trap : Prog ρ σ ε α := fun _ _ => .trap

/-- The environment of the call. -/
def ask : Prog ρ σ ε ρ := fun r s => .ok r s

/-- `if c { return Err(e) }`. -/
def failIf (c : Prop) [Decidable c] (e : ε) : Prog ρ σ ε Unit :=
  fun _ s => if c then .err e s else .ok () s

/-- `assert!(c)`: abort unless the condition holds. -/
def demand (c : Prop) [Decidable c] : Prog ρ σ ε Unit :=
  fun _ s => if c then .ok () s else .trap

/-- `o.ok_or(e)?`. -/
def okOr (o : Option α) (e : ε) : Prog ρ σ ε α :=
  fun _ s => match o with
    | some a => .ok a s
    | none => .err e s

/-- `o.unwrap()`: abort on `none`. -/
def unwrap (o : Option α) : Prog ρ σ ε α :=
  fun _ s => match o with
    | some a => .ok a s
    | none => .trap

/-- `match o { Some(a) => f(a), None => n }`. -/
def onOption (o : Option α) (n : Prog ρ σ ε β) (f : α → Prog ρ σ ε β) : Prog ρ σ ε β :=
  match o with
  | some a => f a
  | none => n

/-- Run `m` only when the condition holds. -/
def runIf (c : Prop) [Decidable c] (m : Prog ρ σ ε Unit) : Prog ρ σ ε Unit :=
  fun r s => if c then m r s else .ok () s

/-- Run `m` and hand its error to the caller as a value.  The writes made
    before the error stay; a trap is not caught. -/
def attempt (m : Prog ρ σ ε α) : Prog ρ σ ε (Except ε α) := fun r s =>
  match m r s with
  | .ok a t => .ok (.ok a) t
  | .err e t => .ok (.error e) t
  | .trap => .trap
  | .mistyped => .mistyped

/-- `for x in xs { f(x)? }`. -/
def forEach (f : α → Prog ρ σ ε Unit) : List α → Prog ρ σ ε Unit
  | [] => pure ()
  | x :: xs => do
      f x
      forEach f xs

/-- `for x in xs { acc = f(acc, x)? }`. -/
def foldEach (f : β → α → Prog ρ σ ε β) : β → List α → Prog ρ σ ε β
  | b, [] => pure b
  | b, x :: xs => do
      let b' ← f b x
      foldEach f b' xs

/-- What a top-level call leaves: the new state when it ends well, the state
    it started from when it errs or traps. -/
def commit (m : Prog ρ σ ε α) (r : ρ) (s : σ) : σ :=
  match m r s with
  | .ok _ t => t
  | .err _ _ => s
  | .trap => s
  | .mistyped => s

/-- The top-level call ends well. -/
def Succeeds (m : Prog ρ σ ε α) (r : ρ) (s : σ) : Prop :=
  ∃ a t, m r s = .ok a t

/-- Whether it does is found by running it. -/
instance (m : Prog ρ σ ε α) (r : ρ) (s : σ) : Decidable (Succeeds m r s) :=
  match h : m r s with
  | .ok a t => .isTrue ⟨a, t, h⟩
  | .err _ _ => .isFalse fun ⟨_, _, hok⟩ => nomatch h.symm.trans hok
  | .trap => .isFalse fun ⟨_, _, hok⟩ => nomatch h.symm.trans hok
  | .mistyped => .isFalse fun ⟨_, _, hok⟩ => nomatch h.symm.trans hok

section Inversion

variable {m : Prog ρ σ ε α} {f : α → Prog ρ σ ε β} {r : ρ} {s t : σ}
  {a a' : α} {b : β} {e e' : ε}

/-- A sequence ends well when both of its parts do. -/
theorem bind_ok :
    (m >>= f) r s = .ok b t ↔ ∃ a u, m r s = .ok a u ∧ f a r u = .ok b t := by
  show (match m r s with
    | .ok a t => f a r t
    | .err e t => .err e t
    | .trap => .trap
    | .mistyped => .mistyped) = .ok b t ↔ _
  cases hm : m r s with
  | ok a u => simp
  | err e u => simp
  | trap => simp
  | mistyped => simp

/-- A sequence ends with an error of its first part or, after that ended well, of its
    second. -/
theorem bind_err :
    (m >>= f) r s = .err e t ↔
      m r s = .err e t ∨ ∃ a u, m r s = .ok a u ∧ f a r u = .err e t := by
  show (match m r s with
    | .ok a t => f a r t
    | .err e t => .err e t
    | .trap => .trap
    | .mistyped => .mistyped) = .err e t ↔ _
  cases hm : m r s with
  | ok a u => simp
  | err e u => simp
  | trap => simp
  | mistyped => simp

/-- The first part ended well: the second goes on from where it left the state. -/
theorem bind_of_ok (h : m r s = .ok a t) : (m >>= f) r s = f a r t := by
  show (match m r s with
    | .ok a t => f a r t
    | .err e t => .err e t
    | .trap => .trap
    | .mistyped => .mistyped) = f a r t
  rw [h]

/-- Two continuations that agree where the first part ends well. -/
theorem bind_congr {f' : α → Prog ρ σ ε β} (h : ∀ a t, m r s = .ok a t → f a r t = f' a r t) :
    (m >>= f) r s = (m >>= f') r s := by
  show (match m r s with
    | .ok a t => f a r t
    | .err e t => .err e t
    | .trap => .trap
    | .mistyped => .mistyped) = (match m r s with
    | .ok a t => f' a r t
    | .err e t => .err e t
    | .trap => .trap
    | .mistyped => .mistyped)
  cases hm : m r s with
  | ok a t => exact h a t hm
  | err e t => rfl
  | trap => rfl
  | mistyped => rfl

/-- An error of the first part is one of the sequence. -/
theorem bind_of_err (h : m r s = .err e t) : (m >>= f) r s = .err e t :=
  bind_err.mpr (Or.inl h)

/-- A trap in the first part is one of the sequence. -/
theorem bind_of_trap (h : m r s = .trap) : (m >>= f) r s = .trap := by
  show (match m r s with
    | .ok a t => f a r t
    | .err e t => .err e t
    | .trap => .trap
    | .mistyped => .mistyped) = .trap
  rw [h]

/-- A value of another type, read in the first part, ends the sequence. -/
theorem bind_of_mistyped (h : m r s = .mistyped) : (m >>= f) r s = .mistyped := by
  show (match m r s with
    | .ok a t => f a r t
    | .err e t => .err e t
    | .trap => .trap
    | .mistyped => .mistyped) = .mistyped
  rw [h]

/-- Sequences associate, so that a chain can be taken apart from its front. -/
@[simp] theorem bind_bind_ok {γ : Type} {g : β → Prog ρ σ ε γ} {d : γ} :
    ((m >>= f) >>= g) r s = .ok d t ↔ (m >>= fun a => f a >>= g) r s = .ok d t := by
  simp only [bind_ok]
  constructor
  · rintro ⟨b, v, ⟨a, u, hm, hf⟩, hg⟩
    exact ⟨a, u, hm, b, v, hf, hg⟩
  · rintro ⟨a, u, hm, b, v, hf, hg⟩
    exact ⟨b, v, ⟨a, u, hm, hf⟩, hg⟩

/-- The same for an error. -/
@[simp] theorem bind_bind_err {γ : Type} {g : β → Prog ρ σ ε γ} :
    ((m >>= f) >>= g) r s = .err e t ↔ (m >>= fun a => f a >>= g) r s = .err e t := by
  cases hm : m r s with
  | ok a u => simp only [bind_err, bind_of_ok hm]
  | err e' u => rw [bind_of_err hm, bind_of_err (bind_of_err hm)]
  | trap => rw [bind_of_trap hm, bind_of_trap (bind_of_trap hm)]
  | mistyped => rw [bind_of_mistyped hm, bind_of_mistyped (bind_of_mistyped hm)]

/-- A first step that computes a value without touching the state. -/
theorem bind_ok_of_value {P : α → Prop}
    (h : ∀ a u, m r s = .ok a u ↔ P a ∧ s = u) :
    (m >>= f) r s = .ok b t ↔ ∃ a, P a ∧ f a r s = .ok b t := by
  rw [bind_ok]
  constructor
  · rintro ⟨a, u, hm, hf⟩
    obtain ⟨ha, rfl⟩ := (h a u).mp hm
    exact ⟨a, ha, hf⟩
  · rintro ⟨a, ha, hf⟩
    exact ⟨a, s, (h a s).mpr ⟨ha, rfl⟩, hf⟩

/-- The same when the rest errs: the first step itself never does. -/
theorem bind_err_of_value {P : α → Prop} (h : ∀ a u, m r s = .ok a u ↔ P a ∧ s = u)
    (hne : ∀ e u, m r s ≠ .err e u) :
    (m >>= f) r s = .err e t ↔ ∃ a, P a ∧ f a r s = .err e t := by
  rw [bind_err, or_iff_right (hne e t)]
  constructor
  · rintro ⟨a, u, hm, hf⟩
    obtain ⟨ha, rfl⟩ := (h a u).mp hm
    exact ⟨a, ha, hf⟩
  · rintro ⟨a, ha, hf⟩
    exact ⟨a, s, (h a s).mpr ⟨ha, rfl⟩, hf⟩

/-- A first step with one possible good ending. -/
theorem bind_ok_of_step {P : Prop} {a₀ : α} {s₀ : σ}
    (h : ∀ a u, m r s = .ok a u ↔ P ∧ a₀ = a ∧ s₀ = u) :
    (m >>= f) r s = .ok b t ↔ P ∧ f a₀ r s₀ = .ok b t := by
  rw [bind_ok]
  constructor
  · rintro ⟨a, u, hm, hf⟩
    obtain ⟨hP, rfl, rfl⟩ := (h a u).mp hm
    exact ⟨hP, hf⟩
  · rintro ⟨hP, hf⟩
    exact ⟨a₀, s₀, (h a₀ s₀).mpr ⟨hP, rfl, rfl⟩, hf⟩

/-- A value ends well with itself and leaves the state alone. -/
@[simp] theorem pure_ok :
    (pure a : Prog ρ σ ε α) r s = .ok a' t ↔ a = a' ∧ s = t := by
  constructor
  · intro h
    cases h
    exact ⟨rfl, rfl⟩
  · rintro ⟨rfl, rfl⟩
    rfl

@[simp] theorem pure_err : (pure a : Prog ρ σ ε α) r s = .err e t ↔ False := by
  constructor
  · intro h
    cases h
  · exact False.elim

@[simp] theorem pure_bind_ok :
    ((pure a : Prog ρ σ ε α) >>= f) r s = .ok b t ↔ f a r s = .ok b t := Iff.rfl

@[simp] theorem pure_bind_err :
    ((pure a : Prog ρ σ ε α) >>= f) r s = .err e t ↔ f a r s = .err e t := Iff.rfl

@[simp] theorem throw_ok : (throw e : Prog ρ σ ε α) r s = .ok a t ↔ False := by
  simp [throw]

@[simp] theorem trap_ok : (trap : Prog ρ σ ε α) r s = .ok a t ↔ False := by
  simp [trap]

@[simp] theorem ask_ok {r' : ρ} :
    (ask : Prog ρ σ ε ρ) r s = .ok r' t ↔ r = r' ∧ s = t := by
  simp [ask]

@[simp] theorem ask_bind_ok {g : ρ → Prog ρ σ ε β} :
    ((ask : Prog ρ σ ε ρ) >>= g) r s = .ok b t ↔ g r r s = .ok b t := Iff.rfl

@[simp] theorem ask_bind_err {g : ρ → Prog ρ σ ε β} :
    ((ask : Prog ρ σ ε ρ) >>= g) r s = .err e t ↔ g r r s = .err e t := Iff.rfl

/-- A check is passed when its condition does not hold. -/
@[simp] theorem failIf_ok {c : Prop} [Decidable c] {u : Unit} :
    (failIf c e : Prog ρ σ ε Unit) r s = .ok u t ↔ ¬ c ∧ s = t := by
  by_cases hc : c <;> simp [failIf, hc]

/-- What follows a check runs when the condition does not hold. -/
@[simp] theorem failIf_bind_ok {c : Prop} [Decidable c] {g : Unit → Prog ρ σ ε β} :
    ((failIf c e : Prog ρ σ ε Unit) >>= g) r s = .ok b t ↔
      ¬ c ∧ g () r s = .ok b t := by
  rw [bind_ok_of_value (fun _ _ => failIf_ok)]
  constructor
  · rintro ⟨⟨⟩, h⟩
    exact h
  · intro h
    exact ⟨(), h⟩

/-- The error is the check's own, with the state as it was, or that of what follows. -/
@[simp] theorem failIf_bind_err {c : Prop} [Decidable c] {g : Unit → Prog ρ σ ε β} :
    ((failIf c e' : Prog ρ σ ε Unit) >>= g) r s = .err e t ↔
      (c ∧ e' = e ∧ s = t) ∨ (¬ c ∧ g () r s = .err e t) := by
  by_cases hc : c
  · have hrun : (failIf c e' : Prog ρ σ ε Unit) r s = .err e' s := if_pos hc
    simp [bind_of_err hrun, hc]
  · have hrun : (failIf c e' : Prog ρ σ ε Unit) r s = .ok () s := if_neg hc
    simp [bind_of_ok hrun, hc]

/-- A demand is met, or it traps. -/
@[simp] theorem demand_ok {c : Prop} [Decidable c] {u : Unit} :
    (demand c : Prog ρ σ ε Unit) r s = .ok u t ↔ c ∧ s = t := by
  by_cases hc : c <;> simp [demand, hc]

@[simp] theorem demand_bind_ok {c : Prop} [Decidable c] {g : Unit → Prog ρ σ ε β} :
    ((demand c : Prog ρ σ ε Unit) >>= g) r s = .ok b t ↔ c ∧ g () r s = .ok b t := by
  rw [bind_ok_of_value (fun _ _ => demand_ok)]
  constructor
  · rintro ⟨⟨⟩, h⟩
    exact h
  · intro h
    exact ⟨(), h⟩

@[simp] theorem demand_bind_err {c : Prop} [Decidable c] {g : Unit → Prog ρ σ ε β} :
    ((demand c : Prog ρ σ ε Unit) >>= g) r s = .err e t ↔ c ∧ g () r s = .err e t := by
  by_cases hc : c
  · have hrun : (demand c : Prog ρ σ ε Unit) r s = .ok () s := if_pos hc
    simp [bind_of_ok hrun, hc]
  · have hrun : (demand c : Prog ρ σ ε Unit) r s = .trap := if_neg hc
    simp [bind_of_trap hrun, hc]

/-- An option with an error for nothing. -/
@[simp] theorem okOr_ok {o : Option α} :
    (okOr o e : Prog ρ σ ε α) r s = .ok a t ↔ o = some a ∧ s = t := by
  cases o <;> simp [okOr]

@[simp] theorem okOr_bind_ok {o : Option α} :
    ((okOr o e : Prog ρ σ ε α) >>= f) r s = .ok b t ↔
      ∃ a, o = some a ∧ f a r s = .ok b t :=
  bind_ok_of_value fun _ _ => okOr_ok

/-- The error is the one for nothing, or that of what follows. -/
@[simp] theorem okOr_bind_err {o : Option α} :
    ((okOr o e' : Prog ρ σ ε α) >>= f) r s = .err e t ↔
      (o = none ∧ e' = e ∧ s = t) ∨ ∃ a, o = some a ∧ f a r s = .err e t := by
  cases o <;> simp [bind_err, okOr]

/-- An option that traps on nothing. -/
@[simp] theorem unwrap_ok {o : Option α} :
    (unwrap o : Prog ρ σ ε α) r s = .ok a t ↔ o = some a ∧ s = t := by
  cases o <;> simp [unwrap]

@[simp] theorem unwrap_bind_ok {o : Option α} :
    ((unwrap o : Prog ρ σ ε α) >>= f) r s = .ok b t ↔
      ∃ a, o = some a ∧ f a r s = .ok b t :=
  bind_ok_of_value fun _ _ => unwrap_ok

/-- One program for nothing, another for something. -/
@[simp] theorem onOption_ok {o : Option α} {n : Prog ρ σ ε β} :
    (onOption o n f) r s = .ok b t ↔
      (o = none ∧ n r s = .ok b t) ∨ ∃ a, o = some a ∧ f a r s = .ok b t := by
  cases o <;> simp [onOption]

/-- A program that is run under a condition, and left out otherwise. -/
@[simp] theorem runIf_ok {c : Prop} [Decidable c] {n : Prog ρ σ ε Unit} {u : Unit} :
    (runIf c n) r s = .ok u t ↔ (c ∧ n r s = .ok () t) ∨ (¬ c ∧ s = t) := by
  by_cases hc : c <;> simp [runIf, hc]

@[simp] theorem runIf_bind_ok {c : Prop} [Decidable c] {n : Prog ρ σ ε Unit}
    {g : Unit → Prog ρ σ ε β} :
    (runIf c n >>= g) r s = .ok b t ↔
      (c ∧ (n >>= g) r s = .ok b t) ∨ (¬ c ∧ g () r s = .ok b t) := by
  by_cases hc : c
  · simp [bind_ok, hc]
  · have hrun : runIf c n r s = .ok () s := by simp [hc]
    simp [bind_of_ok hrun, hc]

@[simp] theorem onOption_bind_ok {γ : Type} {o : Option α} {n : Prog ρ σ ε β}
    {g : β → Prog ρ σ ε γ} {d : γ} :
    (onOption o n f >>= g) r s = .ok d t ↔
      (o = none ∧ (n >>= g) r s = .ok d t) ∨
        ∃ a, o = some a ∧ (f a >>= g) r s = .ok d t := by
  cases o <;> simp [onOption]

@[simp] theorem throw_bind_ok : ((throw e : Prog ρ σ ε α) >>= f) r s = .ok b t ↔ False := by
  simp [bind_ok]

/-- What follows a choice follows either of its branches. -/
@[simp] theorem ite_bind_ok {c : Prop} [Decidable c] {n n' : Prog ρ σ ε α} :
    ((if c then n else n') >>= f) r s = .ok b t ↔
      (c ∧ (n >>= f) r s = .ok b t) ∨ (¬ c ∧ (n' >>= f) r s = .ok b t) := by
  by_cases hc : c <;> simp [hc]

/-- An attempt ends well with the result or the error of what it tries; a trap goes through
    it. -/
theorem attempt_ok {x : Except ε α} :
    (attempt m) r s = .ok x t ↔
      (∃ a, x = .ok a ∧ m r s = .ok a t) ∨ (∃ e, x = .error e ∧ m r s = .err e t) := by
  rw [attempt]
  cases hm : m r s with
  | ok a u =>
      simp only [Outcome.ok.injEq, reduceCtorEq, and_false, exists_false, or_false]
      constructor
      · rintro ⟨rfl, rfl⟩
        exact ⟨a, rfl, rfl, rfl⟩
      · rintro ⟨a', rfl, rfl, rfl⟩
        exact ⟨rfl, rfl⟩
  | err e u =>
      simp only [Outcome.ok.injEq, Outcome.err.injEq, reduceCtorEq, and_false,
        exists_false, false_or]
      constructor
      · rintro ⟨rfl, rfl⟩
        exact ⟨e, rfl, rfl, rfl⟩
      · rintro ⟨e', rfl, rfl, rfl⟩
        exact ⟨rfl, rfl⟩
  | trap => simp
  | mistyped => simp

@[simp] theorem ite_ok {c : Prop} [Decidable c] {n n' : Prog ρ σ ε α} :
    (if c then n else n') r s = .ok a t ↔
      (c ∧ n r s = .ok a t) ∨ (¬ c ∧ n' r s = .ok a t) := by
  by_cases hc : c <;> simp [hc]

@[simp] theorem forEach_nil {g : α → Prog ρ σ ε Unit} :
    forEach g [] = pure () := rfl

/-- A loop is its first round, and the loop over the rest. -/
@[simp] theorem forEach_cons {g : α → Prog ρ σ ε Unit} {x : α} {xs : List α} :
    forEach g (x :: xs) = (g x >>= fun _ => forEach g xs) := rfl

@[simp] theorem foldEach_nil {g : β → α → Prog ρ σ ε β} :
    foldEach g b [] = pure b := rfl

/-- The same for a loop with an accumulator. -/
@[simp] theorem foldEach_cons {g : β → α → Prog ρ σ ε β} {x : α} {xs : List α} :
    foldEach g b (x :: xs) = (g b x >>= fun b' => foldEach g b' xs) := rfl

/-- **THE LOOP RULE**: what every body step preserves, the loop preserves. -/
theorem forEach_invariant {g : α → Prog ρ σ ε Unit} {I : σ → Prop} {xs : List α}
    (hstep : ∀ x ∈ xs, ∀ u v, I u → g x r u = .ok () v → I v)
    (hs : I s) {w : Unit} (hrun : forEach g xs r s = .ok w t) : I t := by
  induction xs generalizing s with
  | nil =>
      rw [forEach_nil, pure_ok] at hrun
      exact hrun.2 ▸ hs
  | cons x xs ih =>
      rw [forEach_cons, bind_ok] at hrun
      obtain ⟨_, u, hx, hrest⟩ := hrun
      exact ih (fun y hy => hstep y (List.mem_cons_of_mem _ hy))
        (hstep x List.mem_cons_self s u hs hx) hrest

/-- What each body step establishes and no body step destroys, the loop
    establishes for every element. -/
theorem forEach_establishes {g : α → Prog ρ σ ε Unit} {Q : α → σ → Prop} {xs : List α}
    (hnew : ∀ x u v, g x r u = .ok () v → Q x v)
    (hkeep : ∀ x y u v, Q y u → g x r u = .ok () v → Q y v)
    {w : Unit} (hrun : forEach g xs r s = .ok w t) : ∀ x ∈ xs, Q x t := by
  induction xs generalizing s with
  | nil =>
      intro x hx
      exact absurd hx List.not_mem_nil
  | cons y xs ih =>
      rw [forEach_cons, bind_ok] at hrun
      obtain ⟨⟨⟩, u, hfirst, hrest⟩ := hrun
      intro x hx
      rcases List.mem_cons.mp hx with rfl | hx'
      · refine forEach_invariant (I := Q x) ?_ (hnew x s u hfirst) hrest
        intro z _ u v hu hstep
        exact hkeep z x u v hu hstep
      · exact ih hrest x hx'

/-- The accumulating loop rule. -/
theorem foldEach_invariant {g : β → α → Prog ρ σ ε β} {I : β → σ → Prop}
    {xs : List α} (hstep : ∀ x ∈ xs, ∀ b u b' v, I b u → g b x r u = .ok b' v → I b' v)
    (hs : I b s) {b' : β} (hrun : foldEach g b xs r s = .ok b' t) : I b' t := by
  induction xs generalizing b s with
  | nil =>
      rw [foldEach_nil, pure_ok] at hrun
      exact hrun.1 ▸ hrun.2 ▸ hs
  | cons x xs ih =>
      rw [foldEach_cons, bind_ok] at hrun
      obtain ⟨b₁, u, hx, hrest⟩ := hrun
      exact ih (fun y hy => hstep y (List.mem_cons_of_mem _ hy))
        (hstep x List.mem_cons_self b s b₁ u hs hx) hrest

/-- A loop whose body only computes is a fold. -/
theorem foldEach_of_value {g : β → α → Prog ρ σ ε β} {f : β → α → β}
    (h : ∀ b x, g b x r s = .ok (f b x) s) (b : β) (xs : List α) :
    foldEach g b xs r s = .ok (xs.foldl f b) s := by
  induction xs generalizing b with
  | nil => rfl
  | cons x xs ih =>
      rw [foldEach_cons, bind_of_ok (h b x), ih]
      rfl

/-- What a call that ends well leaves is committed. -/
theorem commit_of_ok (h : m r s = .ok a t) : commit m r s = t := by
  rw [commit, h]

/-- **ROLLBACK**: a call that does not end well changes nothing. -/
theorem commit_of_not_succeeds (h : ¬ Succeeds m r s) : commit m r s = s := by
  rw [commit]
  cases hm : m r s with
  | ok a t => exact absurd ⟨a, t, hm⟩ h
  | err e t => rfl
  | trap => rfl
  | mistyped => rfl

end Inversion

/-! ## Typed storage -/

/-- A stored type: how its values are tagged, and that a tag is read back as
    exactly the value it was made from. -/
class Codec (V : Type) (α : Type) where
  encode : α → V
  decode : V → Option α
  decode_eq_some : ∀ v a, decode v = some a ↔ v = encode a

/-- Persistent storage, temporary storage and the external ledger. -/
structure HostState (K V L : Type) where
  persistent : K → Option V
  temporary : K → Option V
  ledger : L

variable {K V L : Type}

namespace HostState

/-- Write a persistent entry. -/
def set [DecidableEq K] (s : HostState K V L) (k : K) (v : V) : HostState K V L :=
  { s with persistent := fun k' => if k' = k then some v else s.persistent k' }

/-- Delete a persistent entry. -/
def remove [DecidableEq K] (s : HostState K V L) (k : K) : HostState K V L :=
  { s with persistent := fun k' => if k' = k then none else s.persistent k' }

/-- Write a temporary entry. -/
def tempSet [DecidableEq K] (s : HostState K V L) (k : K) (v : V) : HostState K V L :=
  { s with temporary := fun k' => if k' = k then some v else s.temporary k' }

/-- Replace the external ledger. -/
def setLedger (s : HostState K V L) (l : L) : HostState K V L :=
  { s with ledger := l }

/-- A write changes what is under its own key. -/
@[simp] theorem set_persistent [DecidableEq K] (s : HostState K V L) (k k' : K) (v : V) :
    (s.set k v).persistent k' = if k' = k then some v else s.persistent k' := rfl
@[simp] theorem set_temporary [DecidableEq K] (s : HostState K V L) (k : K) (v : V) :
    (s.set k v).temporary = s.temporary := rfl
@[simp] theorem set_ledger [DecidableEq K] (s : HostState K V L) (k : K) (v : V) :
    (s.set k v).ledger = s.ledger := rfl

@[simp] theorem remove_persistent [DecidableEq K] (s : HostState K V L) (k k' : K) :
    (s.remove k).persistent k' = if k' = k then none else s.persistent k' := rfl
@[simp] theorem remove_temporary [DecidableEq K] (s : HostState K V L) (k : K) :
    (s.remove k).temporary = s.temporary := rfl
@[simp] theorem remove_ledger [DecidableEq K] (s : HostState K V L) (k : K) :
    (s.remove k).ledger = s.ledger := rfl

@[simp] theorem tempSet_persistent [DecidableEq K] (s : HostState K V L) (k : K) (v : V) :
    (s.tempSet k v).persistent = s.persistent := rfl
/-- The same for the temporary storage. -/
@[simp] theorem tempSet_temporary [DecidableEq K] (s : HostState K V L) (k k' : K) (v : V) :
    (s.tempSet k v).temporary k' = if k' = k then some v else s.temporary k' := rfl
@[simp] theorem tempSet_ledger [DecidableEq K] (s : HostState K V L) (k : K) (v : V) :
    (s.tempSet k v).ledger = s.ledger := rfl

@[simp] theorem setLedger_persistent (s : HostState K V L) (l : L) :
    (s.setLedger l).persistent = s.persistent := rfl
@[simp] theorem setLedger_temporary (s : HostState K V L) (l : L) :
    (s.setLedger l).temporary = s.temporary := rfl
@[simp] theorem setLedger_ledger (s : HostState K V L) (l : L) :
    (s.setLedger l).ledger = l := rfl

end HostState

open HostState

/-- The entry, if there is one, was written at type `α`. -/
def TypedAt (α : Type) [Codec V α] (f : K → Option V) (k : K) : Prop :=
  ∀ v, f k = some v → ∃ a : α, v = Codec.encode a

/-- The entry read at type `α`; absent (or of another type) reads as `none`. -/
def readAt (α : Type) [Codec V α] (f : K → Option V) (k : K) : Option α :=
  (f k).bind Codec.decode

/-- What was written is read back. -/
@[simp] theorem decode_encode [Codec V α] (a : α) :
    Codec.decode (Codec.encode (V := V) a) = some a :=
  (Codec.decode_eq_some _ _).mpr rfl

/-- What cannot be decoded was not written as that type. -/
theorem decode_eq_none_iff [Codec V α] (v : V) :
    (Codec.decode v : Option α) = none ↔ ∀ a : α, v ≠ Codec.encode a := by
  constructor
  · intro h a ha
    rw [ha, decode_encode] at h
    exact absurd h (Option.some_ne_none a)
  · intro h
    cases hv : (Codec.decode v : Option α) with
    | none => rfl
    | some a => exact absurd ((Codec.decode_eq_some v a).mp hv) (h a)

/-- A read finds `a` exactly when the entry holds `a`'s tag. -/
theorem readAt_eq_some [Codec V α] (f : K → Option V) (k : K) (a : α) :
    readAt α f k = some a ↔ f k = some (Codec.encode a) := by
  rw [readAt]
  cases hf : f k with
  | none => simp
  | some v => simp [Codec.decode_eq_some]

/-- A read depends on its own entry only. -/
theorem readAt_congr [Codec V α] {f f' : K → Option V} {k : K} (h : f' k = f k) :
    readAt α f' k = readAt α f k := by
  simp only [readAt]
  rw [h]

/-- So does being typed. -/
theorem TypedAt.congr [Codec V α] {f f' : K → Option V} {k : K} (hf : TypedAt α f k)
    (h : f' k = f k) : TypedAt α f' k := by
  intro v hv
  rw [h] at hv
  exact hf v hv

/-- A well-typed read that finds nothing means the entry is absent. -/
theorem readAt_eq_none [Codec V α] {f : K → Option V} {k : K} (h : TypedAt α f k) :
    readAt α f k = none ↔ f k = none := by
  rw [readAt]
  cases hf : f k with
  | none => simp
  | some v =>
      obtain ⟨a, rfl⟩ := h v hf
      simp [decode_encode]

/-- What was read at a type was written at it. -/
theorem typedAt_of_readAt [Codec V α] {f : K → Option V} {k : K} {a : α}
    (h : readAt α f k = some a) : TypedAt α f k := by
  intro v hv
  rw [readAt_eq_some, hv] at h
  exact ⟨a, Option.some.inj h⟩

/-- An absent entry is typed at everything. -/
theorem typedAt_of_none [Codec V α] {f : K → Option V} {k : K} (h : f k = none) :
    TypedAt α f k := by
  intro v hv
  rw [h] at hv
  cases hv

section Update

variable [DecidableEq K] [Codec V α] (s : HostState K V L) (k k' : K) (v : V)

/-- A read after a write finds what was written under that key, if it is of the type
    read. -/
@[simp] theorem readAt_set :
    readAt α (s.set k v).persistent k' =
      if k' = k then Codec.decode v else readAt α s.persistent k' := by
  simp only [readAt]
  rw [set_persistent]
  by_cases h : k' = k <;> simp [h]

/-- A read after a removal finds nothing under that key. -/
@[simp] theorem readAt_remove :
    readAt α (s.remove k).persistent k' =
      if k' = k then none else readAt α s.persistent k' := by
  simp only [readAt]
  rw [remove_persistent]
  by_cases h : k' = k <;> simp [h]

/-- The same in the temporary storage. -/
@[simp] theorem readAt_tempSet :
    readAt α (s.tempSet k v).temporary k' =
      if k' = k then Codec.decode v else readAt α s.temporary k' := by
  simp only [readAt]
  rw [tempSet_temporary]
  by_cases h : k' = k <;> simp [h]

/-- A write elsewhere does not change the type of what is under a key. -/
theorem typedAt_set_of_ne {k k' : K} (h : k' ≠ k) :
    TypedAt α (s.set k v).persistent k' ↔ TypedAt α s.persistent k' := by
  simp only [TypedAt]
  rw [set_persistent, if_neg h]

theorem typedAt_remove_of_ne {k k' : K} (h : k' ≠ k) :
    TypedAt α (s.remove k).persistent k' ↔ TypedAt α s.persistent k' := by
  simp only [TypedAt]
  rw [remove_persistent, if_neg h]

/-- A write under the key is of the type it was written as. -/
theorem typedAt_set_self (a : α) : TypedAt α (s.set k (Codec.encode a)).persistent k := by
  intro v hv
  rw [set_persistent, if_pos rfl] at hv
  exact ⟨a, (Option.some.inj hv).symm⟩

end Update

/-- Storage read: absent gives `none`, an entry of another type ends it all. -/
def fetch [Codec V α] (f : K → Option V) (k : K) :
    Prog ρ σ ε (Option α) := fun _ s =>
  match f k with
  | none => .ok none s
  | some v =>
      match (Codec.decode v : Option α) with
      | none => .mistyped
      | some a => .ok (some a) s

/-- A read ends well where nothing, or a value of the type read, is under the key. -/
theorem fetch_ok [Codec V α] {f : K → Option V} {k : K} {r : ρ} {s t : σ}
    {o : Option α} :
    (fetch f k : Prog ρ σ ε (Option α)) r s = .ok o t ↔
      TypedAt α f k ∧ o = readAt α f k ∧ s = t := by
  rw [fetch, TypedAt, readAt]
  cases hf : f k with
  | none => simp [eq_comm]
  | some v =>
      simp only [Option.bind_some]
      cases hv : (Codec.decode v : Option α) with
      | none =>
          simp only [reduceCtorEq, Option.some.injEq, forall_eq', false_iff]
          rintro ⟨⟨a, ha⟩, -⟩
          exact (decode_eq_none_iff v).mp hv a ha
      | some a =>
          have ha := (Codec.decode_eq_some v a).mp hv
          simp only [Outcome.ok.injEq, Option.some.injEq, forall_eq']
          constructor
          · rintro ⟨rfl, rfl⟩
            exact ⟨⟨a, ha⟩, rfl, rfl⟩
          · rintro ⟨-, rfl, rfl⟩
            exact ⟨rfl, rfl⟩

/-- A read has no error of its own: it finds a value, nothing, or one of another type. -/
theorem fetch_err [Codec V α] {f : K → Option V} {k : K} {r : ρ} {s t : σ} {e : ε} :
    (fetch f k : Prog ρ σ ε (Option α)) r s = .err e t ↔ False := by
  rw [fetch]
  cases f k with
  | none => simp
  | some v =>
      show (match (Codec.decode v : Option α) with
        | none => Outcome.mistyped
        | some a => Outcome.ok (some a) s) = .err e t ↔ False
      cases (Codec.decode v : Option α) <;> simp

/-- `storage().persistent().get::<_, T>(&k)`. -/
def getOpt [Codec V α] (k : K) : Prog ρ (HostState K V L) ε (Option α) :=
  fun r s => fetch s.persistent k r s

/-- `get(&k).unwrap_or(d)`. -/
def getD [Codec V α] (k : K) (d : α) : Prog ρ (HostState K V L) ε α := do
  let o ← getOpt k
  pure (o.getD d)

/-- `get(&k).ok_or(e)?`. -/
def getOr [Codec V α] (k : K) (e : ε) : Prog ρ (HostState K V L) ε α := do
  let o ← getOpt k
  okOr o e

/-- `storage().persistent().has(&k)`. -/
def has (k : K) : Prog ρ (HostState K V L) ε Bool :=
  fun _ s => .ok (s.persistent k).isSome s

/-- `storage().persistent().set(&k, &a)`. -/
def put [DecidableEq K] [Codec V α] (k : K) (a : α) : Prog ρ (HostState K V L) ε Unit :=
  fun _ s => .ok () (s.set k (Codec.encode a))

/-- `storage().persistent().remove(&k)`. -/
def del [DecidableEq K] (k : K) : Prog ρ (HostState K V L) ε Unit :=
  fun _ s => .ok () (s.remove k)

/-- `storage().temporary().get::<_, T>(&k)`. -/
def tempGetOpt [Codec V α] (k : K) : Prog ρ (HostState K V L) ε (Option α) :=
  fun r s => fetch s.temporary k r s

/-- `storage().temporary().get(&k).unwrap_or(d)`. -/
def tempGetD [Codec V α] (k : K) (d : α) : Prog ρ (HostState K V L) ε α := do
  let o ← tempGetOpt k
  pure (o.getD d)

/-- `storage().temporary().set(&k, &a)`. -/
def tempPut [DecidableEq K] [Codec V α] (k : K) (a : α) : Prog ρ (HostState K V L) ε Unit :=
  fun _ s => .ok () (s.tempSet k (Codec.encode a))

/-- A read-only call to the ledger; `none` traps. -/
def queryLedger (q : L → Option β) : Prog ρ (HostState K V L) ε β :=
  fun _ s => match q s.ledger with
    | some b => .ok b s
    | none => .trap

/-- A state-changing call to the ledger; `none` traps. -/
def callLedger (q : L → Option L) : Prog ρ (HostState K V L) ε Unit :=
  fun _ s => match q s.ledger with
    | some l => .ok () (s.setLedger l)
    | none => .trap

section StorageInversion

variable {r : ρ} {s t : HostState K V L} {e e' : ε} {k : K} {a d : α} {o : Option α}
  {u : Unit} {b : β}

/-- `get`, of the persistent storage. -/
@[simp] theorem getOpt_ok [Codec V α] :
    (getOpt k : Prog ρ (HostState K V L) ε (Option α)) r s = .ok o t ↔
      (TypedAt α s.persistent k ∧ readAt α s.persistent k = o) ∧ s = t := by
  rw [getOpt, fetch_ok, and_assoc, eq_comm (a := o)]

/-- What follows goes on with what was read. -/
@[simp] theorem getOpt_bind_ok [Codec V α]
    {f : Option α → Prog ρ (HostState K V L) ε β} :
    ((getOpt k : Prog ρ (HostState K V L) ε (Option α)) >>= f) r s = .ok b t ↔
      TypedAt α s.persistent k ∧ f (readAt α s.persistent k) r s = .ok b t := by
  rw [bind_ok_of_value (fun _ _ => getOpt_ok)]
  simp

/-- `get`, with a default for nothing. -/
@[simp] theorem getD_ok [Codec V α] :
    (getD k d : Prog ρ (HostState K V L) ε α) r s = .ok a t ↔
      (TypedAt α s.persistent k ∧ (readAt α s.persistent k).getD d = a) ∧ s = t := by
  rw [getD, getOpt_bind_ok, pure_ok, and_assoc]

@[simp] theorem getD_bind_ok [Codec V α] {f : α → Prog ρ (HostState K V L) ε β} :
    ((getD k d : Prog ρ (HostState K V L) ε α) >>= f) r s = .ok b t ↔
      TypedAt α s.persistent k ∧ f ((readAt α s.persistent k).getD d) r s = .ok b t := by
  rw [bind_ok_of_value (fun _ _ => getD_ok)]
  simp

/-- `get`, with an error for nothing. -/
@[simp] theorem getOr_ok [Codec V α] :
    (getOr k e : Prog ρ (HostState K V L) ε α) r s = .ok a t ↔
      readAt α s.persistent k = some a ∧ s = t := by
  rw [getOr, getOpt_bind_ok, okOr_ok]
  constructor
  · rintro ⟨-, h⟩
    exact h
  · rintro ⟨ha, hs⟩
    exact ⟨typedAt_of_readAt ha, ha, hs⟩

@[simp] theorem getOr_bind_ok [Codec V α] {f : α → Prog ρ (HostState K V L) ε β} :
    ((getOr k e : Prog ρ (HostState K V L) ε α) >>= f) r s = .ok b t ↔
      ∃ a, readAt α s.persistent k = some a ∧ f a r s = .ok b t :=
  bind_ok_of_value fun _ _ => getOr_ok

/-- `has` asks for the key alone, whatever the type under it is. -/
@[simp] theorem has_ok {c : Bool} :
    (has k : Prog ρ (HostState K V L) ε Bool) r s = .ok c t ↔
      (s.persistent k).isSome = c ∧ s = t := by
  simp [has]

@[simp] theorem has_bind_ok {f : Bool → Prog ρ (HostState K V L) ε β} :
    ((has k : Prog ρ (HostState K V L) ε Bool) >>= f) r s = .ok b t ↔
      f (s.persistent k).isSome r s = .ok b t := Iff.rfl

/-- `set` always ends well. -/
@[simp] theorem put_ok [DecidableEq K] [Codec V α] :
    (put k a : Prog ρ (HostState K V L) ε Unit) r s = .ok u t ↔
      s.set k (Codec.encode a) = t := by
  simp [put]

/-- What follows a write sees it. -/
@[simp] theorem put_bind_ok [DecidableEq K] [Codec V α]
    {f : Unit → Prog ρ (HostState K V L) ε β} :
    ((put k a : Prog ρ (HostState K V L) ε Unit) >>= f) r s = .ok b t ↔
      f () r (s.set k (Codec.encode a)) = .ok b t := Iff.rfl

/-- `remove` always ends well, whether there was a value or not. -/
@[simp] theorem del_ok [DecidableEq K] :
    (del k : Prog ρ (HostState K V L) ε Unit) r s = .ok u t ↔ s.remove k = t := by
  simp [del]

@[simp] theorem del_bind_ok [DecidableEq K] {f : Unit → Prog ρ (HostState K V L) ε β} :
    ((del k : Prog ρ (HostState K V L) ε Unit) >>= f) r s = .ok b t ↔
      f () r (s.remove k) = .ok b t := Iff.rfl

@[simp] theorem tempGetOpt_bind_ok [Codec V α]
    {f : Option α → Prog ρ (HostState K V L) ε β} :
    ((tempGetOpt k : Prog ρ (HostState K V L) ε (Option α)) >>= f) r s = .ok b t ↔
      TypedAt α s.temporary k ∧ f (readAt α s.temporary k) r s = .ok b t := by
  have h : ∀ o u, (tempGetOpt k : Prog ρ (HostState K V L) ε (Option α)) r s = .ok o u ↔
      (TypedAt α s.temporary k ∧ readAt α s.temporary k = o) ∧ s = u := by
    intro o u
    rw [tempGetOpt, fetch_ok, and_assoc, eq_comm (a := o)]
  rw [bind_ok_of_value h]
  simp

@[simp] theorem tempGetD_bind_ok [Codec V α] {f : α → Prog ρ (HostState K V L) ε β} :
    ((tempGetD k d : Prog ρ (HostState K V L) ε α) >>= f) r s = .ok b t ↔
      TypedAt α s.temporary k ∧ f ((readAt α s.temporary k).getD d) r s = .ok b t := by
  have h : ∀ a u, (tempGetD k d : Prog ρ (HostState K V L) ε α) r s = .ok a u ↔
      (TypedAt α s.temporary k ∧ (readAt α s.temporary k).getD d = a) ∧ s = u := by
    intro a u
    rw [tempGetD, tempGetOpt_bind_ok, pure_ok, and_assoc]
  rw [bind_ok_of_value h]
  simp

/-- `set`, of the temporary storage. -/
@[simp] theorem tempPut_ok [DecidableEq K] [Codec V α] :
    (tempPut k a : Prog ρ (HostState K V L) ε Unit) r s = .ok u t ↔
      s.tempSet k (Codec.encode a) = t := by
  simp [tempPut]

@[simp] theorem tempPut_bind_ok [DecidableEq K] [Codec V α]
    {f : Unit → Prog ρ (HostState K V L) ε β} :
    ((tempPut k a : Prog ρ (HostState K V L) ε Unit) >>= f) r s = .ok b t ↔
      f () r (s.tempSet k (Codec.encode a)) = .ok b t := Iff.rfl

/-- A question to the token leaves everything as it was. -/
@[simp] theorem queryLedger_ok {q : L → Option α} :
    (queryLedger q : Prog ρ (HostState K V L) ε α) r s = .ok a t ↔
      q s.ledger = some a ∧ s = t := by
  rw [queryLedger]
  cases q s.ledger <;> simp

/-- A call of the token leaves the storage alone; one it refuses traps. -/
@[simp] theorem callLedger_ok {q : L → Option L} :
    (callLedger q : Prog ρ (HostState K V L) ε Unit) r s = .ok u t ↔
      ∃ l, q s.ledger = some l ∧ s.setLedger l = t := by
  rw [callLedger]
  cases q s.ledger <;> simp

/-- A refused call of the token is no error that can be caught. -/
@[simp] theorem callLedger_err {q : L → Option L} :
    (callLedger q : Prog ρ (HostState K V L) ε Unit) r s = .err e t ↔ False := by
  rw [callLedger]
  cases q s.ledger <;> simp

/-! The same for programs that end in an error: reads never err by
    themselves, writes are passed through. -/

@[simp] theorem getOpt_bind_err [Codec V α] {f : Option α → Prog ρ (HostState K V L) ε β} :
    ((getOpt k : Prog ρ (HostState K V L) ε (Option α)) >>= f) r s = .err e t ↔
      TypedAt α s.persistent k ∧ f (readAt α s.persistent k) r s = .err e t := by
  rw [bind_err_of_value (fun _ _ => getOpt_ok) (fun _ _ => fetch_err.mp)]
  simp

@[simp] theorem getD_bind_err [Codec V α] {f : α → Prog ρ (HostState K V L) ε β} :
    ((getD k d : Prog ρ (HostState K V L) ε α) >>= f) r s = .err e t ↔
      TypedAt α s.persistent k ∧ f ((readAt α s.persistent k).getD d) r s = .err e t := by
  rw [getD, bind_bind_err, getOpt_bind_err, pure_bind_err]

/-- Either there is nothing under the key, or what follows has the error. -/
@[simp] theorem getOr_bind_err [Codec V α] {f : α → Prog ρ (HostState K V L) ε β} :
    ((getOr k e' : Prog ρ (HostState K V L) ε α) >>= f) r s = .err e t ↔
      (s.persistent k = none ∧ e' = e ∧ s = t) ∨
        ∃ a, readAt α s.persistent k = some a ∧ f a r s = .err e t := by
  rw [getOr, bind_bind_err, getOpt_bind_err, okOr_bind_err]
  constructor
  · rintro ⟨htyped, ⟨hnone, he, hs⟩ | ha⟩
    · exact Or.inl ⟨(readAt_eq_none htyped).mp hnone, he, hs⟩
    · exact Or.inr ha
  · rintro (⟨hnone, he, hs⟩ | ⟨a, ha, hf⟩)
    · have htyped := typedAt_of_none (α := α) hnone
      exact ⟨htyped, Or.inl ⟨(readAt_eq_none htyped).mpr hnone, he, hs⟩⟩
    · exact ⟨typedAt_of_readAt ha, Or.inr ⟨a, ha, hf⟩⟩

@[simp] theorem put_bind_err [DecidableEq K] [Codec V α]
    {f : Unit → Prog ρ (HostState K V L) ε β} :
    ((put k a : Prog ρ (HostState K V L) ε Unit) >>= f) r s = .err e t ↔
      f () r (s.set k (Codec.encode a)) = .err e t := Iff.rfl

@[simp] theorem tempGetD_bind_err [Codec V α] {f : α → Prog ρ (HostState K V L) ε β} :
    ((tempGetD k d : Prog ρ (HostState K V L) ε α) >>= f) r s = .err e t ↔
      TypedAt α s.temporary k ∧ f ((readAt α s.temporary k).getD d) r s = .err e t := by
  have h : ∀ o u, (tempGetOpt k : Prog ρ (HostState K V L) ε (Option α)) r s = .ok o u ↔
      (TypedAt α s.temporary k ∧ readAt α s.temporary k = o) ∧ s = u := by
    intro o u
    rw [tempGetOpt, fetch_ok, and_assoc, eq_comm (a := o)]
  rw [tempGetD, bind_bind_err, bind_err_of_value h (fun _ _ => fetch_err.mp)]
  simp

@[simp] theorem tempPut_bind_err [DecidableEq K] [Codec V α]
    {f : Unit → Prog ρ (HostState K V L) ε β} :
    ((tempPut k a : Prog ρ (HostState K V L) ε Unit) >>= f) r s = .err e t ↔
      f () r (s.tempSet k (Codec.encode a)) = .err e t := Iff.rfl

end StorageInversion

end HostProg
