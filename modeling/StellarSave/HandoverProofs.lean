import Mathlib.Data.List.Nodup
import Mathlib.Logic.Relation
import StellarSave.HostProofs

/-! # Handing control out — programs that call code they do not know

    A program hands its state to foreign code in the middle of its body, and
    foreign code may do two things with it: move its OWN part, or call the
    program's entry points again, with foreign code of its own underneath.
    `Reaches n` is what comes of that, nested at most `n` deep.

    The induction is done once (`reaches_of_step`): a preorder on states that
    the foreign moves respect, and that every entry point respects as soon as
    the code under it does, holds across every finite nest.

    Beside the state runs a JOURNAL of the keys a program wrote down.
    `Adds js` says of a stretch that it journalled exactly `js`, each of them
    once and none of them present before. -/

namespace Handover

open HostProg Relation

variable {ρ σ ε α β J A κ S : Type}

/-! ## Programs beside a journal -/

/-- A program that takes no note of what it does. -/
def lift (m : Prog ρ σ ε α) : Prog ρ (σ × List J) ε α := fun r a =>
  match m r a.1 with
  | .ok v t => .ok v (t, a.2)
  | .err e t => .err e (t, a.2)
  | .trap => .trap
  | .mistyped => .mistyped

/-- Append to the journal. -/
def note (js : List J) : Prog ρ (σ × List J) ε Unit := fun _ a => .ok () (a.1, a.2 ++ js)

/-- Foreign code: what it is asked, where, and what it makes of the state.
    `none` aborts the invocation. -/
abbrev Foreign (A ρ S : Type) := A → ρ → S → Option S

/-- Hand the state to foreign code. -/
def handOver (x : Foreign A ρ S) (q : A) : Prog ρ S ε Unit := fun r a =>
  match x q r a with
  | some b => .ok () b
  | none => .trap

section Inversion

variable {r : ρ} {a b : σ × List J} {v : α} {w : β} {e : ε} {js : List J}

/-- A program that takes no note ends well as it does without the journal, which stays. -/
theorem lift_ok {m : Prog ρ σ ε α} :
    lift m r a = .ok v b ↔ ∃ t, m r a.1 = .ok v t ∧ (t, a.2) = b := by
  rw [lift]
  cases m r a.1 <;> simp

/-- Its errors, too, leave the journal as it is. -/
theorem lift_err {m : Prog ρ σ ε α} :
    lift m r a = .err e b ↔ ∃ t, m r a.1 = .err e t ∧ (t, a.2) = b := by
  rw [lift]
  cases m r a.1 <;> simp

/-- What follows it finds the journal unchanged. -/
@[simp] theorem lift_bind_ok {m : Prog ρ σ ε α} {f : α → Prog ρ (σ × List J) ε β} :
    (lift m >>= f) r a = .ok w b ↔
      ∃ v t, m r a.1 = .ok v t ∧ f v r (t, a.2) = .ok w b := by
  rw [bind_ok]
  constructor
  · rintro ⟨v, c, hm, hf⟩
    obtain ⟨t, ht, rfl⟩ := lift_ok.mp hm
    exact ⟨v, t, ht, hf⟩
  · rintro ⟨v, t, ht, hf⟩
    exact ⟨v, _, lift_ok.mpr ⟨t, ht, rfl⟩, hf⟩

/-- The error is its own or that of what follows. -/
theorem lift_bind_err {m : Prog ρ σ ε α} {f : α → Prog ρ (σ × List J) ε β} :
    (lift m >>= f) r a = .err e b ↔
      (∃ t, m r a.1 = .err e t ∧ (t, a.2) = b) ∨
        ∃ v t, m r a.1 = .ok v t ∧ f v r (t, a.2) = .err e b := by
  rw [bind_err, lift_err]
  constructor
  · rintro (herr | ⟨v, c, hm, hf⟩)
    · exact Or.inl herr
    · obtain ⟨t, ht, rfl⟩ := lift_ok.mp hm
      exact Or.inr ⟨v, t, ht, hf⟩
  · rintro (herr | ⟨v, t, ht, hf⟩)
    · exact Or.inl herr
    · exact Or.inr ⟨v, _, lift_ok.mpr ⟨t, ht, rfl⟩, hf⟩

/-- What follows a note finds the journal longer by it. -/
@[simp] theorem note_bind_ok {f : Unit → Prog ρ (σ × List J) ε β} :
    (note js >>= f) r a = .ok w b ↔ f () r (a.1, a.2 ++ js) = .ok w b := Iff.rfl

/-- An error after a note keeps the note: the journal belongs to the invocation. -/
@[simp] theorem note_bind_err {f : Unit → Prog ρ (σ × List J) ε β} :
    (note js >>= f) r a = .err e b ↔ f () r (a.1, a.2 ++ js) = .err e b := Iff.rfl

variable {x : Foreign A ρ S} {q : A} {c d : S} {u : Unit}

/-- Control comes back with whatever the foreign code made of the state. -/
@[simp] theorem handOver_ok :
    (handOver x q : Prog ρ S ε Unit) r c = .ok u d ↔ x q r c = some d := by
  rw [handOver]
  cases x q r c <;> simp

/-- Foreign code has no errors of the program: it comes back or aborts. -/
theorem handOver_ne_err : (handOver x q : Prog ρ S ε Unit) r c ≠ .err e d := by
  rw [handOver]
  cases x q r c <;> simp

/-- What follows goes on from the state it came back with. -/
@[simp] theorem handOver_bind_ok {f : Unit → Prog ρ S ε β} :
    (handOver x q >>= f) r c = .ok w d ↔ ∃ c', x q r c = some c' ∧ f () r c' = .ok w d := by
  rw [bind_ok]
  constructor
  · rintro ⟨⟨⟩, c', hx, hf⟩
    exact ⟨c', handOver_ok.mp hx, hf⟩
  · rintro ⟨c', hx, hf⟩
    exact ⟨(), c', handOver_ok.mpr hx, hf⟩

end Inversion

/-! ## Forgetting the journal -/

/-- An outcome without its journal. -/
def forget : Outcome (σ × List J) ε α → Outcome σ ε α
  | .ok v a => .ok v a.1
  | .err e a => .err e a.1
  | .trap => .trap
  | .mistyped => .mistyped

/-- Without its journal `m` is the program `p`. -/
def Erases (m : Prog ρ (σ × List J) ε α) (p : Prog ρ σ ε α) : Prop :=
  ∀ r a, forget (m r a) = p r a.1

/-- A program lifted and then without its journal is the program. -/
theorem Erases.lift (m : Prog ρ σ ε α) : Erases (lift m : Prog ρ (σ × List J) ε α) m := by
  intro r a
  rw [Handover.lift]
  cases m r a.1 <;> rfl

/-- A value takes no note. -/
theorem Erases.pure (v : α) :
    Erases (Pure.pure v : Prog ρ (σ × List J) ε α) (Pure.pure v) := fun _ _ => rfl

/-- A sequence, part by part. -/
theorem Erases.bind {m : Prog ρ (σ × List J) ε α} {p : Prog ρ σ ε α}
    {f : α → Prog ρ (σ × List J) ε β} {g : α → Prog ρ σ ε β} (hm : Erases m p)
    (hf : ∀ v, Erases (f v) (g v)) : Erases (m >>= f) (p >>= g) := by
  intro r a
  have h := hm r a
  cases hr : m r a with
  | ok v b =>
      rw [hr] at h
      rw [bind_of_ok hr, bind_of_ok h.symm]
      exact hf v r b
  | err e b =>
      rw [hr] at h
      rw [bind_of_err hr, bind_of_err h.symm]
      rfl
  | trap =>
      rw [hr] at h
      rw [bind_of_trap hr, bind_of_trap h.symm]
      rfl
  | mistyped =>
      rw [hr] at h
      rw [bind_of_mistyped hr, bind_of_mistyped h.symm]
      rfl

/-- A note is what is erased. -/
theorem Erases.note_bind {js : List J} {f : Unit → Prog ρ (σ × List J) ε β} {p : Prog ρ σ ε β}
    (hf : Erases (f ()) p) : Erases (note js >>= f) p := fun r a => hf r (a.1, a.2 ++ js)

/-- Both programs of an option. -/
theorem Erases.onOption (o : Option α) {n : Prog ρ (σ × List J) ε β} {p : Prog ρ σ ε β}
    {f : α → Prog ρ (σ × List J) ε β} {g : α → Prog ρ σ ε β} (hn : Erases n p)
    (hf : ∀ v, Erases (f v) (g v)) : Erases (onOption o n f) (onOption o p g) := by
  cases o with
  | none => exact hn
  | some v => exact hf v

/-- Both branches of a choice. -/
theorem Erases.ite (c : Prop) [Decidable c] {m n : Prog ρ (σ × List J) ε α} {p q : Prog ρ σ ε α}
    (hm : Erases m p) (hn : Erases n q) : Erases (if c then m else n) (if c then p else q) := by
  by_cases hc : c
  · rw [if_pos hc, if_pos hc]
    exact hm
  · rw [if_neg hc, if_neg hc]
    exact hn

/-- A program under a condition. -/
theorem Erases.runIf (c : Prop) [Decidable c] {m : Prog ρ (σ × List J) ε Unit}
    {p : Prog ρ σ ε Unit} (hm : Erases m p) : Erases (runIf c m) (runIf c p) := by
  intro r a
  rw [HostProg.runIf, HostProg.runIf]
  by_cases hc : c
  · rw [if_pos hc, if_pos hc]
    exact hm r a
  · rw [if_neg hc, if_neg hc]
    rfl

/-- A program whose error is caught. -/
theorem Erases.attempt {m : Prog ρ (σ × List J) ε α} {p : Prog ρ σ ε α} (hm : Erases m p) :
    Erases (attempt m) (attempt p) := by
  intro r a
  rw [HostProg.attempt, HostProg.attempt, ← hm r a]
  cases m r a <;> rfl

/-- A loop, round by round. -/
theorem Erases.forEach {f : α → Prog ρ (σ × List J) ε Unit} {g : α → Prog ρ σ ε Unit}
    (hf : ∀ v, Erases (f v) (g v)) (vs : List α) : Erases (forEach f vs) (forEach g vs) := by
  induction vs with
  | nil => exact Erases.pure ()
  | cons v vs ih => exact (hf v).bind fun _ => ih

/-- A loop with an accumulator. -/
theorem Erases.foldEach {f : β → α → Prog ρ (σ × List J) ε β} {g : β → α → Prog ρ σ ε β}
    (hf : ∀ w v, Erases (f w v) (g w v)) (w : β) (vs : List α) :
    Erases (foldEach f w vs) (foldEach g w vs) := by
  induction vs generalizing w with
  | nil => exact Erases.pure w
  | cons v vs ih => exact (hf w v).bind fun w' => ih w'

/-- What a program without its journal does well, the program does well. -/
theorem Erases.ok {m : Prog ρ (σ × List J) ε α} {p : Prog ρ σ ε α} (h : Erases m p) {r : ρ}
    {a : σ × List J} {v : α} {t : σ} : p r a.1 = .ok v t ↔ ∃ js, m r a = .ok v (t, js) := by
  rw [← h r a]
  cases m r a with
  | ok w b => simp [forget, Prod.ext_iff]
  | err e b => simp [forget]
  | trap => simp [forget]
  | mistyped => simp [forget]

/-- Sequencing is associative. -/
theorem bind_assoc_prog {γ : Type} (m : Prog ρ σ ε α) (f : α → Prog ρ σ ε β)
    (g : β → Prog ρ σ ε γ) : ((m >>= f) >>= g) = m >>= fun a => f a >>= g := by
  funext r s
  cases hm : m r s with
  | ok a t =>
      have hmf : (m >>= f) r s = f a r t := bind_of_ok hm
      rw [bind_of_ok hm]
      cases hf : f a r t with
      | ok b u => rw [bind_of_ok (hmf.trans hf), bind_of_ok hf]
      | err e u => rw [bind_of_err (hmf.trans hf), bind_of_err hf]
      | trap => rw [bind_of_trap (hmf.trans hf), bind_of_trap hf]
      | mistyped => rw [bind_of_mistyped (hmf.trans hf), bind_of_mistyped hf]
  | err e t => rw [bind_of_err hm, bind_of_err (bind_of_err hm)]
  | trap => rw [bind_of_trap hm, bind_of_trap (bind_of_trap hm)]
  | mistyped => rw [bind_of_mistyped hm, bind_of_mistyped (bind_of_mistyped hm)]

/-! ## Finite nests -/

/-- What foreign code can make of a state, nested at most `n` deep: its own
    moves, and entry points that end well over foreign code nested less. -/
def Reaches (own : S → S → Prop) (code : Foreign A ρ S → κ → Prog ρ S ε Unit) :
    Nat → S → S → Prop
  | 0 => ReflTransGen own
  | n + 1 => ReflTransGen fun a b => own a b ∨
      ∃ x c r, (∀ q r a b, x q r a = some b → Reaches own code n a b) ∧ code x c r a = .ok () b

/-- Foreign code nested at most `n` deep. -/
def Nested (own : S → S → Prop) (code : Foreign A ρ S → κ → Prog ρ S ε Unit) (n : Nat)
    (x : Foreign A ρ S) : Prop :=
  ∀ q r a b, x q r a = some b → Reaches own code n a b

/-- Foreign code whose every answer is related to what it was given. -/
def Respects (R : S → S → Prop) (x : Foreign A ρ S) : Prop :=
  ∀ q r a b, x q r a = some b → R a b

section Nests

variable {own : S → S → Prop} {code : Foreign A ρ S → κ → Prog ρ S ε Unit}
  {R : S → S → Prop} [Std.Refl R] [IsTrans S R]

/-- **NEST RULE**: a preorder that foreign moves respect, and every entry point
    respects over code that does, holds across every finite nest. -/
theorem reaches_of_step (hown : ∀ a b, own a b → R a b)
    (hcode : ∀ x c, Respects R x → ∀ r a b, code x c r a = .ok () b → R a b) (n : Nat) {a b : S}
    (h : Reaches own code n a b) : R a b := by
  induction n generalizing a b with
  | zero => exact reflTransGen_le_of_le hown a b h
  | succ n ih =>
      refine reflTransGen_le_of_le (fun a b hab => ?_) a b h
      rcases hab with hmove | ⟨x, c, r, hx, hrun⟩
      · exact hown a b hmove
      · exact hcode x c (fun q r a b hq => ih (hx q r a b hq)) r a b hrun

/-- So nested code respects it. -/
theorem Nested.respects (hown : ∀ a b, own a b → R a b)
    (hcode : ∀ x c, Respects R x → ∀ r a b, code x c r a = .ok () b → R a b) {n : Nat}
    {x : Foreign A ρ S} (hx : Nested own code n x) : Respects R x :=
  fun q r a b hq => reaches_of_step hown hcode n (hx q r a b hq)

end Nests

/-! ## A preorder along a program -/

/-- Every good ending of the program is related to where it began. -/
def Keeps (R : S → S → Prop) (m : Prog ρ S ε α) : Prop := ∀ r a v b, m r a = .ok v b → R a b

section Keeping

variable {R : S → S → Prop}

/-- Foreign code that respects the relation keeps it. -/
theorem Keeps.handOver {x : Foreign A ρ S} (hx : Respects R x) (q : A) :
    Keeps R (handOver x q : Prog ρ S ε Unit) :=
  fun r a _ b h => hx q r a b (handOver_ok.mp h)

/-- Both programs of an option keep it. -/
theorem Keeps.onOption (o : Option α) {n : Prog ρ S ε β} {f : α → Prog ρ S ε β}
    (hn : Keeps R n) (hf : ∀ v, Keeps R (f v)) : Keeps R (onOption o n f) := by
  cases o with
  | none => exact hn
  | some v => exact hf v

/-- A sequence keeps a transitive relation that its parts keep. -/
theorem Keeps.bind [IsTrans S R] {m : Prog ρ S ε α} {f : α → Prog ρ S ε β} (hm : Keeps R m)
    (hf : ∀ v, Keeps R (f v)) : Keeps R (m >>= f) := by
  intro r a w c h
  obtain ⟨v, b, hv, hw⟩ := bind_ok.mp h
  exact trans_of R (hm r a v b hv) (hf v r b w c hw)

variable [Std.Refl R]

/-- A value keeps any reflexive relation. -/
theorem Keeps.pure (v : α) : Keeps R (Pure.pure v : Prog ρ S ε α) := by
  intro r a w b h
  obtain ⟨-, rfl⟩ := pure_ok.mp h
  exact refl_of R a

/-- A program under a condition keeps it, run or not. -/
theorem Keeps.runIf (c : Prop) [Decidable c] {m : Prog ρ S ε Unit} (hm : Keeps R m) :
    Keeps R (runIf c m) := by
  intro r a v b h
  rw [HostProg.runIf] at h
  by_cases hc : c
  · rw [if_pos hc] at h
    exact hm r a v b h
  · rw [if_neg hc] at h
    exact Keeps.pure () r a v b h

/-- A loop keeps what each of its rounds does. -/
theorem Keeps.forEach [IsTrans S R] {f : α → Prog ρ S ε Unit} (hf : ∀ v, Keeps R (f v))
    (vs : List α) : Keeps R (forEach f vs) := by
  induction vs with
  | nil => exact Keeps.pure ()
  | cons v vs ih => exact Keeps.bind (hf v) fun _ => ih

/-- So does a loop with an accumulator. -/
theorem Keeps.foldEach [IsTrans S R] {f : β → α → Prog ρ S ε β} (hf : ∀ w v, Keeps R (f w v))
    (w : β) (vs : List α) : Keeps R (foldEach f w vs) := by
  induction vs generalizing w with
  | nil => exact Keeps.pure w
  | cons v vs ih => exact Keeps.bind (hf w v) fun w' => ih w'

end Keeping

/-! ## A journal of first writes -/

section Journal

variable {K V : Type} {view : σ → K → Option V} {G : K → Prop}

/-- From `a` to `b` exactly the watched keys `js` were written, each once and
    each for the first time. -/
structure Adds (view : σ → K → Option V) (G : K → Prop) (js : List K) (a b : σ × List K) :
    Prop where
  journal : b.2 = a.2 ++ js
  distinct : js.Nodup
  watched : ∀ k ∈ js, G k
  fresh : ∀ k ∈ js, view a.1 k = none
  present : ∀ k ∈ js, view b.1 k ≠ none
  frame : ∀ k, G k → k ∉ js → view b.1 k = view a.1 k

/-- Some keys were, each once and each for the first time. -/
def Grown (view : σ → K → Option V) (G : K → Prop) (a b : σ × List K) : Prop :=
  ∃ js, Adds view G js a b

/-- A stretch that leaves the watched keys and the journal alone. -/
theorem Grown.of_frame {a b : σ × List K} (hjournal : b.2 = a.2)
    (hframe : ∀ k, G k → view b.1 k = view a.1 k) : Grown view G a b :=
  ⟨[], by rw [hjournal, List.append_nil], List.nodup_nil, nofun, nofun, nofun,
    fun k hk _ => hframe k hk⟩

/-- What was written in the first stretch is present, so the second wrote
    other keys. -/
theorem Adds.trans {js ks : List K} {a b c : σ × List K} (h₁ : Adds view G js a b)
    (h₂ : Adds view G ks b c) : Adds view G (js ++ ks) a c := by
  have hdisjoint : ∀ k ∈ js, k ∉ ks := fun k hj hk => h₁.present k hj (h₂.fresh k hk)
  constructor
  · rw [h₂.journal, h₁.journal, List.append_assoc]
  · exact List.nodup_append'.mpr ⟨h₁.distinct, h₂.distinct, hdisjoint⟩
  · intro k hk
    exact (List.mem_append.mp hk).elim (h₁.watched k) (h₂.watched k)
  · intro k hk
    by_cases hj : k ∈ js
    · exact h₁.fresh k hj
    · have hks := (List.mem_append.mp hk).resolve_left hj
      rw [← h₁.frame k (h₂.watched k hks) hj]
      exact h₂.fresh k hks
  · intro k hk
    by_cases hks : k ∈ ks
    · exact h₂.present k hks
    · have hj := (List.mem_append.mp hk).resolve_right hks
      rw [h₂.frame k (h₁.watched k hj) hks]
      exact h₁.present k hj
  · intro k hG hk
    rw [List.mem_append, not_or] at hk
    exact (h₂.frame k hG hk.2).trans (h₁.frame k hG hk.1)

instance : Std.Refl (Grown view G) := ⟨fun _ => Grown.of_frame rfl fun _ _ => rfl⟩

instance : IsTrans (σ × List K) (Grown view G) where
  trans _ _ _ h₁ h₂ := ⟨_, h₁.choose_spec.trans h₂.choose_spec⟩

/-- One watched key, written for the first time. -/
structure FirstWrite (view : σ → K → Option V) (G : K → Prop) (k : K) (s t : σ) : Prop where
  watched : G k
  fresh : view s k = none
  present : view t k ≠ none
  frame : ∀ k', G k' → k' ≠ k → view t k' = view s k'

/-- A first write with its note adds exactly one key to the journal. -/
theorem FirstWrite.adds {k : K} {s t : σ} (h : FirstWrite view G k s t) (js : List K) :
    Adds view G [k] (s, js) (t, js ++ [k]) where
  journal := rfl
  distinct := List.nodup_singleton k
  watched _ hk := List.mem_singleton.mp hk ▸ h.watched
  fresh _ hk := List.mem_singleton.mp hk ▸ h.fresh
  present _ hk := List.mem_singleton.mp hk ▸ h.present
  frame k' hG hk := h.frame k' hG fun he => hk (List.mem_singleton.mpr he)

section Read

variable {js : List K} {a b : σ × List K} {k : K}

/-- Once written, always the same. -/
theorem Adds.settled (h : Adds view G js a b) (hG : G k) (hk : view a.1 k ≠ none) :
    view b.1 k = view a.1 k := h.frame k hG fun hj => hk (h.fresh k hj)

/-- Nothing appears off the journal. -/
theorem Adds.complete (h : Adds view G js a b) (hG : G k) (ha : view a.1 k = none)
    (hb : view b.1 k ≠ none) : k ∈ js := by
  by_contra hk
  exact hb ((h.frame k hG hk).trans ha)

/-- A key is journalled at most once, and not at all if it was there before. -/
theorem Adds.count_le [BEq K] [LawfulBEq K] (h : Adds view G js a b) :
    js.count k ≤ if (view a.1 k).isSome then 0 else 1 := by
  by_cases hk : (view a.1 k).isSome
  · have hold : k ∉ js := by
      intro hj
      rw [h.fresh k hj] at hk
      exact absurd hk nofun
    rw [if_pos hk]
    exact (List.count_eq_zero.mpr hold) ▸ Nat.le_refl 0
  · rw [if_neg hk]
    exact List.nodup_iff_count_le_one.mp h.distinct k

end Read

end Journal

end Handover
