import StellarSave.FootprintProofs

/-! # Typing disciplines — programs that read what was written

    A `Discipline` says, for every entry of persistent storage, which tagged
    values it may hold.  `Sound p D m` says that from a state that obeys `D`
    the program `m` leaves one that obeys `D`, however it ends; and, when `p`
    holds, that it never reads an entry at another type.  With `p` false only
    the WRITES are judged, with `p` true the reads as well.

    `Sound` is a class and every combinator of the host language an instance,
    so a program is judged by instance search along its text.  The lemmas named
    `_bind_mistyped` at the end follow a program up to a read that is NOT
    judged well, and say when it is reached. -/

namespace Typing

open HostProg

variable {ρ σ ε α β K V L : Type}

/-- What each persistent entry may hold. -/
abbrev Discipline (K V : Type) := K → V → Prop

/-- Every entry holds what it may. -/
def Obeys (D : Discipline K V) (s : HostState K V L) : Prop :=
  ∀ k v, s.persistent k = some v → D k v

/-- Everything of type `α` may be stored there. -/
class Stores (D : Discipline K V) (k : K) (α : Type) [Codec V α] : Prop where
  stored : ∀ a : α, D k (Codec.encode a)

/-- When reads are judged: whatever is stored there has type `α`. -/
class Yields (p : Prop) (D : Discipline K V) (k : K) (α : Type) [Codec V α] : Prop where
  typed : p → ∀ v, D k v → ∃ a : α, v = Codec.encode a

/-- Reads that are not judged may be at any type. -/
instance Yields.unjudged (D : Discipline K V) (k : K) [Codec V α] : Yields False D k α where
  typed h := h.elim

/-- An outcome that obeys the discipline; a mistyped read only if reads are
    not judged. -/
def Lawful (p : Prop) (D : Discipline K V) : Outcome (HostState K V L) ε α → Prop
  | .ok _ t => Obeys D t
  | .err _ t => Obeys D t
  | .trap => True
  | .mistyped => ¬ p

/-- **SOUNDNESS**: from a lawful state to lawful states. -/
class Sound (p : Prop) (D : Discipline K V) (m : Prog ρ (HostState K V L) ε α) : Prop where
  lawful : ∀ r s, Obeys D s → Lawful p D (m r s)

/-! ## One instance for each combinator -/

section Instances

variable {p : Prop} {D : Discipline K V}

instance Sound.pure (a : α) : Sound p D (Pure.pure a : Prog ρ (HostState K V L) ε α) where
  lawful _ _ hs := hs

instance Sound.bind (m : Prog ρ (HostState K V L) ε α)
    (f : α → Prog ρ (HostState K V L) ε β) [hm : Sound p D m] [hf : ∀ a, Sound p D (f a)] :
    Sound p D (m >>= f) where
  lawful r s hs := by
    have h₁ := hm.lawful r s hs
    cases hr : m r s with
    | ok a t =>
        rw [hr] at h₁
        rw [bind_of_ok hr]
        exact (hf a).lawful r t h₁
    | err e t =>
        rw [hr] at h₁
        rw [bind_of_err hr]
        exact h₁
    | trap =>
        rw [bind_of_trap hr]
        trivial
    | mistyped =>
        rw [hr] at h₁
        rw [bind_of_mistyped hr]
        exact h₁

instance Sound.throw (e : ε) : Sound p D (throw e : Prog ρ (HostState K V L) ε α) where
  lawful _ _ hs := hs

instance Sound.ask : Sound p D (ask : Prog ρ (HostState K V L) ε ρ) where
  lawful _ _ hs := hs

instance Sound.failIf (c : Prop) [Decidable c] (e : ε) :
    Sound p D (failIf c e : Prog ρ (HostState K V L) ε Unit) where
  lawful r s hs := by
    by_cases hc : c <;> simpa [HostProg.failIf, hc, Lawful] using hs

instance Sound.demand (c : Prop) [Decidable c] :
    Sound p D (demand c : Prog ρ (HostState K V L) ε Unit) where
  lawful r s hs := by
    by_cases hc : c
    · simpa [HostProg.demand, hc, Lawful] using hs
    · simp [HostProg.demand, hc, Lawful]

instance Sound.okOr (o : Option α) (e : ε) :
    Sound p D (okOr o e : Prog ρ (HostState K V L) ε α) where
  lawful r s hs := by
    cases o <;> exact hs

instance Sound.unwrap (o : Option α) :
    Sound p D (unwrap o : Prog ρ (HostState K V L) ε α) where
  lawful r s hs := by
    cases o with
    | none => trivial
    | some a => exact hs

instance Sound.onOption (o : Option α) (n : Prog ρ (HostState K V L) ε β)
    (f : α → Prog ρ (HostState K V L) ε β) [hn : Sound p D n] [hf : ∀ a, Sound p D (f a)] :
    Sound p D (onOption o n f) := by
  cases o with
  | none => exact hn
  | some a => exact hf a

instance Sound.ite (c : Prop) [Decidable c] (m n : Prog ρ (HostState K V L) ε α)
    [hm : Sound p D m] [hn : Sound p D n] : Sound p D (if c then m else n) := by
  by_cases hc : c
  · rw [if_pos hc]
    exact hm
  · rw [if_neg hc]
    exact hn

instance Sound.runIf (c : Prop) [Decidable c] (m : Prog ρ (HostState K V L) ε Unit)
    [hm : Sound p D m] : Sound p D (runIf c m) where
  lawful r s hs := by
    rw [HostProg.runIf]
    by_cases hc : c
    · rw [if_pos hc]
      exact hm.lawful r s hs
    · rw [if_neg hc]
      exact hs

instance Sound.attempt (m : Prog ρ (HostState K V L) ε α) [hm : Sound p D m] :
    Sound p D (attempt m) where
  lawful r s hs := by
    have h := hm.lawful r s hs
    rw [HostProg.attempt]
    cases hr : m r s with
    | ok a t =>
        rw [hr] at h
        exact h
    | err e t =>
        rw [hr] at h
        exact h
    | trap => trivial
    | mistyped =>
        rw [hr] at h
        exact h

instance Sound.forEach (f : α → Prog ρ (HostState K V L) ε Unit) (xs : List α)
    [hf : ∀ x, Sound p D (f x)] : Sound p D (forEach f xs) := by
  induction xs with
  | nil => exact Sound.pure ()
  | cons x xs ih => exact Sound.bind _ _

instance Sound.foldEach (f : β → α → Prog ρ (HostState K V L) ε β) (b : β)
    (xs : List α) [hf : ∀ b x, Sound p D (f b x)] : Sound p D (foldEach f b xs) := by
  induction xs generalizing b with
  | nil => exact Sound.pure b
  | cons x xs ih =>
      have : ∀ b', Sound p D (HostProg.foldEach f b' xs) := ih
      exact Sound.bind _ _

/-- A storage read leaves the state alone; the wrong type is its only other
    ending. -/
theorem fetch_mistyped [Codec V α] {f : K → Option V} {k : K} {r : ρ} {s : σ} :
    (fetch f k : Prog ρ σ ε (Option α)) r s = .mistyped ↔ ¬ TypedAt α f k := by
  constructor
  · intro h ht
    have hok : (fetch f k : Prog ρ σ ε (Option α)) r s = .ok (readAt α f k) s :=
      fetch_ok.mpr ⟨ht, rfl, rfl⟩
    rw [h] at hok
    cases hok
  · intro hnot
    cases hf : (fetch f k : Prog ρ σ ε (Option α)) r s with
    | ok o t => exact absurd (fetch_ok.mp hf).1 hnot
    | err e t => exact (fetch_err.mp hf).elim
    | trap =>
        rw [fetch] at hf
        split at hf
        · cases hf
        · split at hf <;> cases hf
    | mistyped => rfl

instance Sound.getOpt [Codec V α] (k : K) [hy : Yields p D k α] :
    Sound p D (getOpt k : Prog ρ (HostState K V L) ε (Option α)) where
  lawful r s hs := by
    cases hr : (HostProg.getOpt k : Prog ρ (HostState K V L) ε (Option α)) r s with
    | ok o t =>
        obtain ⟨-, rfl⟩ := getOpt_ok.mp hr
        exact hs
    | err e t => exact (fetch_err.mp hr).elim
    | trap => trivial
    | mistyped =>
        intro hp
        exact fetch_mistyped.mp hr fun v hv => hy.typed hp v (hs k v hv)

instance Sound.getD [Codec V α] (k : K) (d : α) [Yields p D k α] :
    Sound p D (getD k d : Prog ρ (HostState K V L) ε α) := Sound.bind _ _

instance Sound.getOr [Codec V α] (k : K) (e : ε) [Yields p D k α] :
    Sound p D (getOr k e : Prog ρ (HostState K V L) ε α) := Sound.bind _ _

instance Sound.has (k : K) : Sound p D (has k : Prog ρ (HostState K V L) ε Bool) where
  lawful _ _ hs := hs

/-- A value of the type its key asks for may be written. -/
theorem Obeys.set [DecidableEq K] {s : HostState K V L} (hs : Obeys D s) {k : K} {v : V}
    (hv : D k v) : Obeys D (s.set k v) := by
  intro k' v' hk
  rw [HostState.set_persistent] at hk
  by_cases he : k' = k
  · rw [if_pos he] at hk
    rw [he, ← Option.some.inj hk]
    exact hv
  · rw [if_neg he] at hk
    exact hs k' v' hk

/-- Anything may be removed. -/
theorem Obeys.remove [DecidableEq K] {s : HostState K V L} (hs : Obeys D s) {k : K} :
    Obeys D (s.remove k) := by
  intro k' v' hk
  rw [HostState.remove_persistent] at hk
  by_cases he : k' = k
  · rw [if_pos he] at hk
    cases hk
  · rw [if_neg he] at hk
    exact hs k' v' hk

instance Sound.put [DecidableEq K] [Codec V α] (k : K) (a : α) [hk : Stores D k α] :
    Sound p D (put k a : Prog ρ (HostState K V L) ε Unit) where
  lawful _ _ hs := hs.set (hk.stored a)

instance Sound.del [DecidableEq K] (k : K) :
    Sound p D (del k : Prog ρ (HostState K V L) ε Unit) where
  lawful _ _ hs := hs.remove

/-- Temporary entries are under no discipline: reading one is never judged. -/
instance Sound.tempGetD [Codec V α] (k : K) (d : α) :
    Sound False D (tempGetD k d : Prog ρ (HostState K V L) ε α) where
  lawful r s hs := by
    cases hr : (HostProg.tempGetD k d : Prog ρ (HostState K V L) ε α) r s with
    | ok a t =>
        obtain rfl := Footprint.Within.eq_of_ok hr
        exact hs
    | err e t =>
        obtain rfl := Footprint.Within.eq_of_err hr
        exact hs
    | trap => trivial
    | mistyped => exact not_false

instance Sound.tempPut [DecidableEq K] [Codec V α] (k : K) (a : α) :
    Sound p D (tempPut k a : Prog ρ (HostState K V L) ε Unit) where
  lawful _ _ hs := hs

instance Sound.queryLedger (q : L → Option β) :
    Sound p D (queryLedger q : Prog ρ (HostState K V L) ε β) where
  lawful r s hs := by
    rw [HostProg.queryLedger]
    cases q s.ledger with
    | none => trivial
    | some b => exact hs

instance Sound.callLedger (q : L → Option L) :
    Sound p D (callLedger q : Prog ρ (HostState K V L) ε Unit) where
  lawful r s hs := by
    rw [HostProg.callLedger]
    cases q s.ledger with
    | none => trivial
    | some l => exact hs

end Instances

/-! ## What soundness says -/

section Rules

variable {p : Prop} {D : Discipline K V} {m : Prog ρ (HostState K V L) ε α} [hm : Sound p D m]
  {r : ρ} {s t : HostState K V L} {a : α} {e : ε}

include hm

/-- A sound program leaves a storage that obeys, if it found one. -/
theorem Sound.obeys_ok (hs : Obeys D s) (h : m r s = .ok a t) : Obeys D t := by
  have hl := hm.lawful r s hs
  rw [h] at hl
  exact hl

/-- And never reads a value of another type. -/
theorem Sound.not_mistyped (hs : Obeys D s) (hp : p) : m r s ≠ .mistyped := by
  intro h
  have hl := hm.lawful r s hs
  rw [h] at hl
  exact hl hp

end Rules

/-! ## Up to a read at another type -/

section Mistyped

variable {m : Prog ρ σ ε α} {f : α → Prog ρ σ ε β} {r : ρ} {s : σ}

/-- A sequence fails on a type in its first part or in its second. -/
theorem bind_mistyped :
    (m >>= f) r s = .mistyped ↔
      m r s = .mistyped ∨ ∃ a u, m r s = .ok a u ∧ f a r u = .mistyped := by
  cases hm : m r s with
  | ok a u =>
      rw [bind_of_ok hm]
      simp
  | err e u =>
      rw [bind_of_err hm]
      simp
  | trap =>
      rw [bind_of_trap hm]
      simp
  | mistyped =>
      rw [bind_of_mistyped hm]
      simp

/-- However it is put together. -/
theorem bind_bind_mistyped {γ : Type} {h : β → Prog ρ σ ε γ} :
    ((m >>= f) >>= h) r s = .mistyped ↔ (m >>= fun a => f a >>= h) r s = .mistyped := by
  cases hm : m r s with
  | ok a u => simp only [bind_mistyped, bind_of_ok hm]
  | err e u => rw [bind_of_err hm, bind_of_err (bind_of_err hm)]
  | trap => rw [bind_of_trap hm, bind_of_trap (bind_of_trap hm)]
  | mistyped => rw [bind_of_mistyped hm, bind_of_mistyped (bind_of_mistyped hm)]

/-- A first step that reads at the right types. -/
theorem Sound.bind_mistyped {p : Prop} {D : Discipline K V}
    {m : Prog ρ (HostState K V L) ε α} [Sound p D m] {f : α → Prog ρ (HostState K V L) ε β}
    {s : HostState K V L} (hs : Obeys D s) (hp : p) :
    (m >>= f) r s = .mistyped ↔ ∃ a u, m r s = .ok a u ∧ f a r u = .mistyped := by
  rw [Typing.bind_mistyped, or_iff_right (Sound.not_mistyped hs hp)]

/-- A value of another type is not caught. -/
theorem attempt_mistyped : attempt m r s = .mistyped ↔ m r s = .mistyped := by
  rw [attempt]
  cases m r s <;> simp

/-- After a check, only where the check was passed. -/
@[simp] theorem failIf_bind_mistyped {c : Prop} [Decidable c] {e : ε}
    {f : Unit → Prog ρ σ ε β} :
    ((failIf c e : Prog ρ σ ε Unit) >>= f) r s = .mistyped ↔ ¬ c ∧ f () r s = .mistyped := by
  by_cases hc : c
  · have hrun : (failIf c e : Prog ρ σ ε Unit) r s = .err e s := if_pos hc
    simp [bind_of_err hrun, hc]
  · have hrun : (failIf c e : Prog ρ σ ε Unit) r s = .ok () s := if_neg hc
    simp [bind_of_ok hrun, hc]

/-- After a program under a condition, whether it ran or not. -/
@[simp] theorem runIf_bind_mistyped {c : Prop} [Decidable c] {n : Prog ρ σ ε Unit}
    {f : Unit → Prog ρ σ ε β} :
    (runIf c n >>= f) r s = .mistyped ↔
      (c ∧ (n >>= f) r s = .mistyped) ∨ (¬ c ∧ f () r s = .mistyped) := by
  by_cases hc : c
  · have hrun : runIf c n r s = n r s := if_pos hc
    rw [Typing.bind_mistyped, Typing.bind_mistyped, hrun]
    simp only [hc, true_and, not_true, false_and, or_false]
  · have hrun : runIf c n r s = .ok () s := if_neg hc
    simp [bind_of_ok hrun, hc]

variable [Codec V α] {k : K} {t : HostState K V L} {e : ε} {d : α}

/-- A read fails on a type exactly if it finds one that is not its own. -/
theorem getOpt_mistyped :
    (getOpt k : Prog ρ (HostState K V L) ε (Option α)) r t = .mistyped ↔
      ¬ TypedAt α t.persistent k := fetch_mistyped

/-- So does one with an error for nothing, or what follows it. -/
@[simp] theorem getOr_bind_mistyped {f : α → Prog ρ (HostState K V L) ε β} :
    ((getOr k e : Prog ρ (HostState K V L) ε α) >>= f) r t = .mistyped ↔
      ¬ TypedAt α t.persistent k ∨
        ∃ a, readAt α t.persistent k = some a ∧ f a r t = .mistyped := by
  have hget : (getOr k e : Prog ρ (HostState K V L) ε α) r t = .mistyped ↔
      ¬ TypedAt α t.persistent k := by
    rw [getOr, Typing.bind_mistyped, getOpt_mistyped]
    constructor
    · rintro (h | ⟨o, u, -, h⟩)
      · exact h
      · cases o <;> cases h
    · exact Or.inl
  rw [Typing.bind_mistyped, hget]
  simp

/-- So does one with a default. -/
@[simp] theorem getD_bind_mistyped {f : α → Prog ρ (HostState K V L) ε β} :
    ((getD k d : Prog ρ (HostState K V L) ε α) >>= f) r t = .mistyped ↔
      ¬ TypedAt α t.persistent k ∨
        (TypedAt α t.persistent k ∧
          f ((readAt α t.persistent k).getD d) r t = .mistyped) := by
  have hget : (getD k d : Prog ρ (HostState K V L) ε α) r t = .mistyped ↔
      ¬ TypedAt α t.persistent k := by
    rw [getD, Typing.bind_mistyped, getOpt_mistyped]
    constructor
    · rintro (h | ⟨o, u, -, h⟩)
      · exact h
      · cases h
    · exact Or.inl
  rw [Typing.bind_mistyped, hget]
  simp

/-- So does one of the temporary storage. -/
@[simp] theorem tempGetD_bind_mistyped {f : α → Prog ρ (HostState K V L) ε β} :
    ((tempGetD k d : Prog ρ (HostState K V L) ε α) >>= f) r t = .mistyped ↔
      ¬ TypedAt α t.temporary k ∨
        (TypedAt α t.temporary k ∧ f ((readAt α t.temporary k).getD d) r t = .mistyped) := by
  have hget : (tempGetD k d : Prog ρ (HostState K V L) ε α) r t = .mistyped ↔
      ¬ TypedAt α t.temporary k := by
    rw [tempGetD, Typing.bind_mistyped, tempGetOpt, fetch_mistyped]
    constructor
    · rintro (h | ⟨o, u, -, h⟩)
      · exact h
      · cases h
    · exact Or.inl
  have hok : ∀ a u, (tempGetD k d : Prog ρ (HostState K V L) ε α) r t = .ok a u ↔
      (TypedAt α t.temporary k ∧ (readAt α t.temporary k).getD d = a) ∧ t = u := by
    intro a u
    rw [tempGetD, tempGetOpt_bind_ok, pure_ok, and_assoc]
  rw [Typing.bind_mistyped, hget]
  simp [hok]

end Mistyped

end Typing
