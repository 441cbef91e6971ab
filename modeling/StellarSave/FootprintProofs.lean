import StellarSave.HostProofs

/-! # Footprints — what a program can touch, read off its text

    A `Scope` names the entries a program is allowed to write.  `Within w m`
    says that however `m` ends, short of a trap, the state it leaves agrees
    with the one it was given OFF the scope.

    `Within` is a class, and every combinator of the host language is an
    instance: the footprint of a program is found by instance search along its
    text, so an edit to the program is re-checked by the same search.  The
    frame rules at the end turn an instance into "this entry is unchanged". -/

namespace Footprint

open HostProg

variable {ρ σ ε α β K V L : Type}

/-- The entries a program may write. -/
structure Scope (K : Type) where
  persistent : K → Prop
  temporary : K → Prop
  ledger : Prop

/-- `t` agrees with `s` everywhere off the scope. -/
structure Agree (w : Scope K) (s t : HostState K V L) : Prop where
  persistent : ∀ k, ¬ w.persistent k → t.persistent k = s.persistent k
  temporary : ∀ k, ¬ w.temporary k → t.temporary k = s.temporary k
  ledger : ¬ w.ledger → t.ledger = s.ledger

theorem Agree.refl (w : Scope K) (s : HostState K V L) : Agree w s s :=
  ⟨fun _ _ => rfl, fun _ _ => rfl, fun _ => rfl⟩

theorem Agree.trans {w : Scope K} {s t u : HostState K V L}
    (h₁ : Agree w s t) (h₂ : Agree w t u) : Agree w s u where
  persistent k hk := (h₂.persistent k hk).trans (h₁.persistent k hk)
  temporary k hk := (h₂.temporary k hk).trans (h₁.temporary k hk)
  ledger hl := (h₂.ledger hl).trans (h₁.ledger hl)

/-- The state an outcome leaves, if it leaves one, satisfies `P`. -/
def Leaves (P : σ → Prop) : Outcome σ ε α → Prop
  | .ok _ s => P s
  | .err _ s => P s
  | .trap => True
  | .mistyped => True

/-- **FOOTPRINT**: `m` writes inside `w` only. -/
class Within (w : Scope K) (m : Prog ρ (HostState K V L) ε α) : Prop where
  leaves : ∀ r s, Leaves (Agree w s) (m r s)

/-- The entry `k` is in the set `W`. -/
class Allows (W : K → Prop) (k : K) : Prop where
  mem : W k

/-- The flag is up. -/
class Granted (p : Prop) : Prop where
  holds : p

/-! ## One instance for each combinator -/

section Instances

variable {w : Scope K}

/-- A program that never changes the state is within every scope. -/
theorem Within.of_readOnly {m : Prog ρ (HostState K V L) ε α}
    (h : ∀ r s, Leaves (fun t => t = s) (m r s)) : Within w m where
  leaves r s := by
    have hm := h r s
    cases hr : m r s with
    | ok a t =>
        rw [hr] at hm
        exact (show t = s from hm) ▸ Agree.refl w s
    | err e t =>
        rw [hr] at hm
        exact (show t = s from hm) ▸ Agree.refl w s
    | trap => trivial
    | mistyped => trivial

instance Within.pure (a : α) : Within w (Pure.pure a : Prog ρ (HostState K V L) ε α) :=
  Within.of_readOnly fun _ _ => rfl

instance Within.bind (m : Prog ρ (HostState K V L) ε α)
    (f : α → Prog ρ (HostState K V L) ε β) [hm : Within w m] [hf : ∀ a, Within w (f a)] :
    Within w (m >>= f) where
  leaves r s := by
    have h₁ := hm.leaves r s
    cases hr : m r s with
    | ok a t =>
        rw [hr] at h₁
        rw [bind_of_ok hr]
        have h₂ := (hf a).leaves r t
        cases hr₂ : f a r t with
        | ok b u =>
            rw [hr₂] at h₂
            exact Agree.trans h₁ h₂
        | err e u =>
            rw [hr₂] at h₂
            exact Agree.trans h₁ h₂
        | trap => trivial
        | mistyped => trivial
    | err e t =>
        rw [hr] at h₁
        rw [bind_of_err hr]
        exact h₁
    | trap =>
        rw [bind_of_trap hr]
        trivial
    | mistyped =>
        rw [bind_of_mistyped hr]
        trivial

instance Within.throw (e : ε) : Within w (throw e : Prog ρ (HostState K V L) ε α) :=
  Within.of_readOnly fun _ _ => rfl

instance Within.ask : Within w (ask : Prog ρ (HostState K V L) ε ρ) :=
  Within.of_readOnly fun _ _ => rfl

instance Within.failIf (c : Prop) [Decidable c] (e : ε) :
    Within w (failIf c e : Prog ρ (HostState K V L) ε Unit) :=
  Within.of_readOnly fun r s => by
    by_cases hc : c <;> simp [HostProg.failIf, hc, Leaves]

instance Within.demand (c : Prop) [Decidable c] :
    Within w (demand c : Prog ρ (HostState K V L) ε Unit) :=
  Within.of_readOnly fun r s => by
    by_cases hc : c <;> simp [HostProg.demand, hc, Leaves]

instance Within.okOr (o : Option α) (e : ε) :
    Within w (okOr o e : Prog ρ (HostState K V L) ε α) :=
  Within.of_readOnly fun r s => by
    cases o <;> simp [HostProg.okOr, Leaves]

instance Within.unwrap (o : Option α) :
    Within w (unwrap o : Prog ρ (HostState K V L) ε α) :=
  Within.of_readOnly fun r s => by
    cases o <;> simp [HostProg.unwrap, Leaves]

instance Within.onOption (o : Option α) (n : Prog ρ (HostState K V L) ε β)
    (f : α → Prog ρ (HostState K V L) ε β) [hn : Within w n] [hf : ∀ a, Within w (f a)] :
    Within w (onOption o n f) := by
  cases o with
  | none => exact hn
  | some a => exact hf a

instance Within.ite (c : Prop) [Decidable c] (m n : Prog ρ (HostState K V L) ε α)
    [hm : Within w m] [hn : Within w n] : Within w (if c then m else n) := by
  by_cases hc : c
  · rw [if_pos hc]
    exact hm
  · rw [if_neg hc]
    exact hn

instance Within.runIf (c : Prop) [Decidable c] (m : Prog ρ (HostState K V L) ε Unit)
    [hm : Within w m] : Within w (runIf c m) where
  leaves r s := by
    rw [HostProg.runIf]
    by_cases hc : c
    · rw [if_pos hc]
      exact hm.leaves r s
    · rw [if_neg hc]
      exact Agree.refl w s

instance Within.attempt (m : Prog ρ (HostState K V L) ε α) [hm : Within w m] :
    Within w (attempt m) where
  leaves r s := by
    have h := hm.leaves r s
    rw [HostProg.attempt]
    cases hr : m r s with
    | ok a t =>
        rw [hr] at h
        exact h
    | err e t =>
        rw [hr] at h
        exact h
    | trap => trivial
    | mistyped => trivial

instance Within.forEach (f : α → Prog ρ (HostState K V L) ε Unit) (xs : List α)
    [hf : ∀ x, Within w (f x)] : Within w (forEach f xs) := by
  induction xs with
  | nil => exact Within.pure ()
  | cons x xs ih => exact Within.bind _ _

instance Within.foldEach (f : β → α → Prog ρ (HostState K V L) ε β) (b : β)
    (xs : List α) [hf : ∀ b x, Within w (f b x)] : Within w (foldEach f b xs) := by
  induction xs generalizing b with
  | nil => exact Within.pure b
  | cons x xs ih =>
      have : ∀ b', Within w (HostProg.foldEach f b' xs) := ih
      exact Within.bind _ _

theorem fetch_leaves [Codec V α] (g : K → Option V) (k : K) (r : ρ) (s : σ) :
    Leaves (fun t => t = s) (fetch g k r s : Outcome σ ε (Option α)) := by
  cases hf : (fetch g k r s : Outcome σ ε (Option α)) with
  | ok o t => exact (fetch_ok.mp hf).2.2.symm
  | err e t => exact (fetch_err.mp hf).elim
  | trap => trivial
  | mistyped => trivial

instance Within.getOpt [Codec V α] (k : K) :
    Within w (getOpt k : Prog ρ (HostState K V L) ε (Option α)) :=
  Within.of_readOnly fun r s => fetch_leaves s.persistent k r s

instance Within.tempGetOpt [Codec V α] (k : K) :
    Within w (tempGetOpt k : Prog ρ (HostState K V L) ε (Option α)) :=
  Within.of_readOnly fun r s => fetch_leaves s.temporary k r s

instance Within.getD [Codec V α] (k : K) (d : α) :
    Within w (getD k d : Prog ρ (HostState K V L) ε α) := Within.bind _ _

instance Within.getOr [Codec V α] (k : K) (e : ε) :
    Within w (getOr k e : Prog ρ (HostState K V L) ε α) := Within.bind _ _

instance Within.tempGetD [Codec V α] (k : K) (d : α) :
    Within w (tempGetD k d : Prog ρ (HostState K V L) ε α) := Within.bind _ _

instance Within.has (k : K) : Within w (has k : Prog ρ (HostState K V L) ε Bool) :=
  Within.of_readOnly fun _ _ => rfl

instance Within.put [DecidableEq K] [Codec V α] (k : K) (a : α)
    [h : Allows w.persistent k] :
    Within w (put k a : Prog ρ (HostState K V L) ε Unit) where
  leaves _ _ :=
    ⟨fun k' hk => if_neg fun he : k' = k => hk (he ▸ h.mem), fun _ _ => rfl, fun _ => rfl⟩

instance Within.del [DecidableEq K] (k : K) [h : Allows w.persistent k] :
    Within w (del k : Prog ρ (HostState K V L) ε Unit) where
  leaves _ _ :=
    ⟨fun k' hk => if_neg fun he : k' = k => hk (he ▸ h.mem), fun _ _ => rfl, fun _ => rfl⟩

instance Within.tempPut [DecidableEq K] [Codec V α] (k : K) (a : α)
    [h : Allows w.temporary k] :
    Within w (tempPut k a : Prog ρ (HostState K V L) ε Unit) where
  leaves _ _ :=
    ⟨fun _ _ => rfl, fun k' hk => if_neg fun he : k' = k => hk (he ▸ h.mem), fun _ => rfl⟩

instance Within.queryLedger (q : L → Option β) :
    Within w (queryLedger q : Prog ρ (HostState K V L) ε β) :=
  Within.of_readOnly fun r s => by
    rw [HostProg.queryLedger]
    cases q s.ledger <;> simp [Leaves]

instance Within.callLedger (q : L → Option L) [h : Granted w.ledger] :
    Within w (callLedger q : Prog ρ (HostState K V L) ε Unit) where
  leaves r s := by
    rw [HostProg.callLedger]
    cases q s.ledger with
    | none => trivial
    | some l => exact ⟨fun _ _ => rfl, fun _ _ => rfl, fun hn => absurd h.holds hn⟩

end Instances

/-! ## The frame rules -/

section Frame

variable {w : Scope K} {m : Prog ρ (HostState K V L) ε α} [hw : Within w m]
  {r : ρ} {s t : HostState K V L} {a : α} {e : ε}

include hw

/-- A program that ends well leaves everything off its scope alone. -/
theorem Within.agree_ok (h : m r s = .ok a t) : Agree w s t := by
  have hl := hw.leaves r s
  rw [h] at hl
  exact hl

/-- So does one that ends in a contract error. -/
theorem Within.agree_err (h : m r s = .err e t) : Agree w s t := by
  have hl := hw.leaves r s
  rw [h] at hl
  exact hl

/-- At the top level the outcome does not matter: an error rolls back. -/
theorem Within.agree_commit : Agree w s (commit m r s) := by
  by_cases h : Succeeds m r s
  · obtain ⟨a, t, ht⟩ := h
    rw [commit_of_ok ht]
    exact Within.agree_ok ht
  · rw [commit_of_not_succeeds h]
    exact Agree.refl w s

end Frame

/-! ## Read-only programs -/

/-- The empty scope. -/
def Scope.nothing : Scope K := ⟨fun _ => False, fun _ => False, False⟩

/-- Agreement off the empty scope is equality. -/
theorem Agree.eq_of_nothing {s t : HostState K V L} (h : Agree Scope.nothing s t) : t = s := by
  obtain ⟨hp, ht, hl⟩ := h
  cases s with
  | mk p q l =>
      cases t with
      | mk p' q' l' =>
          have h₁ : p' = p := funext fun k => hp k id
          have h₂ : q' = q := funext fun k => ht k id
          have h₃ : l' = l := hl id
          rw [h₁, h₂, h₃]

/-- Agreement on all storage leaves only the ledger to change. -/
theorem Agree.eq_setLedger {w : Scope K} {s t : HostState K V L} (h : Agree w s t)
    (hp : ∀ k, ¬ w.persistent k) (ht : ∀ k, ¬ w.temporary k) : s.setLedger t.ledger = t := by
  cases s with
  | mk p q l =>
      cases t with
      | mk p' q' l' =>
          have h₁ : p' = p := funext fun k => h.persistent k (hp k)
          have h₂ : q' = q := funext fun k => h.temporary k (ht k)
          rw [h₁, h₂]
          rfl

/-- A program within the empty scope is read-only. -/
theorem Within.eq_of_ok {m : Prog ρ (HostState K V L) ε α} [Within Scope.nothing m] {r : ρ}
    {s t : HostState K V L} {a : α} (h : m r s = .ok a t) : t = s :=
  (Within.agree_ok (w := Scope.nothing) h).eq_of_nothing

theorem Within.eq_of_err {m : Prog ρ (HostState K V L) ε α} [Within Scope.nothing m] {r : ρ}
    {s t : HostState K V L} {e : ε} (h : m r s = .err e t) : t = s :=
  (Within.agree_err (w := Scope.nothing) h).eq_of_nothing

/-- A read-only step in front changes nothing about where a program can end. -/
theorem Leaves.bind_still {m : Prog ρ (HostState K V L) ε α} [Within Scope.nothing m]
    {f : α → Prog ρ (HostState K V L) ε β} {r : ρ} {s : HostState K V L}
    {P : HostState K V L → Prop} (hs : P s) (hf : ∀ a, Leaves P (f a r s)) :
    Leaves P ((m >>= f) r s) := by
  cases hm : m r s with
  | ok a t =>
      obtain rfl := Within.eq_of_ok hm
      rw [bind_of_ok hm]
      exact hf a
  | err e t =>
      obtain rfl := Within.eq_of_err hm
      rw [bind_of_err hm]
      exact hs
  | trap =>
      rw [bind_of_trap hm]
      trivial
  | mistyped =>
      rw [bind_of_mistyped hm]
      trivial

end Footprint
