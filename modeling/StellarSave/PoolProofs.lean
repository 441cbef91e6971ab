import Mathlib

/-! # Pool — calls in flight and what they add up to

    Calls that wait between their atomic steps form a list: a step rewrites one
    of them, a call that ends leaves the list, a new one joins at its end.  What
    the calls of a pool add up to changes by what the one call does. -/

namespace Pool

variable {π : Type}

/-- What the calls of a pool add up to. -/
def total (f : π → Nat) (ps : List π) : Nat := (ps.map f).sum

@[simp] theorem total_nil (f : π → Nat) : total f [] = 0 := rfl

@[simp] theorem total_cons (f : π → Nat) (p : π) (ps : List π) :
    total f (p :: ps) = f p + total f ps := by
  simp [total]

@[simp] theorem total_append (f : π → Nat) (ps qs : List π) :
    total f (ps ++ qs) = total f ps + total f qs := by
  simp [total]

/-- **ONE CALL REWRITTEN**: the total changes by what it was and what it is. -/
theorem total_set (f : π → Nat) {ps : List π} {k : Nat} {p : π} (h : ps[k]? = some p) (q : π) :
    total f (ps.set k q) + f p = total f ps + f q := by
  induction ps generalizing k with
  | nil => exact absurd h (by simp)
  | cons a ps ih =>
      cases k with
      | zero =>
          obtain rfl : a = p := by simpa using h
          simp only [List.set_cons_zero, total_cons]
          omega
      | succ k =>
          have hrest := ih (k := k) (by simpa using h)
          simp only [List.set_cons_succ, total_cons]
          omega

/-- **ONE CALL ENDED**: the total changes by what it was. -/
theorem total_eraseIdx (f : π → Nat) {ps : List π} {k : Nat} {p : π} (h : ps[k]? = some p) :
    total f (ps.eraseIdx k) + f p = total f ps := by
  induction ps generalizing k with
  | nil => exact absurd h (by simp)
  | cons a ps ih =>
      cases k with
      | zero =>
          obtain rfl : a = p := by simpa using h
          simp only [List.eraseIdx_cons_zero, total_cons]
          omega
      | succ k =>
          have hrest := ih (k := k) (by simpa using h)
          simp only [List.eraseIdx_cons_succ, total_cons]
          omega

theorem le_total (f : π → Nat) {ps : List π} {p : π} (h : p ∈ ps) : f p ≤ total f ps := by
  induction ps with
  | nil => exact absurd h (by simp)
  | cons a ps ih =>
      rw [total_cons]
      obtain rfl | h := List.mem_cons.mp h
      · exact Nat.le_add_right _ _
      · exact Nat.le_trans (ih h) (Nat.le_add_left _ _)

/-- Call by call, in total. -/
theorem total_le_total {f g : π → Nat} {ps : List π} (h : ∀ p ∈ ps, f p ≤ g p) :
    total f ps ≤ total g ps := by
  induction ps with
  | nil => exact Nat.le_refl _
  | cons a ps ih =>
      have ha := h a List.mem_cons_self
      have hps := ih fun p hp => h p (List.mem_cons_of_mem a hp)
      simp only [total_cons]
      omega

/-- A pool none of whose calls counts. -/
theorem total_eq_zero {f : π → Nat} {ps : List π} (h : ∀ p ∈ ps, f p = 0) : total f ps = 0 := by
  induction ps with
  | nil => rfl
  | cons a ps ih =>
      rw [total_cons, h a (List.mem_cons_self), ih fun p hp => h p (List.mem_cons_of_mem a hp)]

/-- One call more. -/
theorem mem_concat {ps : List π} {p q : π} (h : p ∈ ps ++ [q]) : p ∈ ps ∨ p = q := by
  obtain hold | hnew := List.mem_append.mp h
  · exact Or.inl hold
  · exact Or.inr (List.mem_singleton.mp hnew)

/-- A call of a pool after a step is the rewritten one or one of the old. -/
theorem mem_set {ps : List π} {k : Nat} {p q : π} (h : q ∈ ps.set k p) : q = p ∨ q ∈ ps := by
  obtain h | h := List.mem_or_eq_of_mem_set h
  · exact Or.inr h
  · exact Or.inl h

/-- A call of a pool after a step that is not the rewritten one is one of the rest. -/
theorem mem_eraseIdx_of_set {ps : List π} {k : Nat} {p q : π} (h : q ∈ ps.set k p) (hne : q ≠ p) :
    q ∈ ps.eraseIdx k := by
  induction ps generalizing k with
  | nil => exact absurd h (by simp)
  | cons a ps ih =>
      cases k with
      | zero =>
          rw [List.set_cons_zero] at h
          exact (List.mem_cons.mp h).resolve_left hne
      | succ k =>
          rw [List.set_cons_succ] at h
          rw [List.eraseIdx_cons_succ]
          obtain h | h := List.mem_cons.mp h
          · exact List.mem_cons.mpr (Or.inl h)
          · exact List.mem_cons_of_mem a (ih h)

/-- A call that is not the one rewritten stays. -/
theorem mem_set_of_ne {ps : List π} {k : Nat} {p q r : π} (hk : ps[k]? = some p) (hr : r ∈ ps)
    (hne : r ≠ p) : r ∈ ps.set k q := by
  obtain ⟨j, hj⟩ := List.mem_iff_getElem?.mp hr
  have hjk : k ≠ j := by
    rintro rfl
    exact hne (Option.some.inj (hj.symm.trans hk))
  exact List.mem_iff_getElem?.mpr ⟨j, by rwa [List.getElem?_set_ne hjk]⟩

/-- A pool that adds up to at most one counts one call. -/
theorem eq_of_total_le_one {f : π → Nat} {ps : List π} {p q : π} (h : total f ps ≤ 1) (hp : p ∈ ps)
    (hq : q ∈ ps) (hfp : f p = 1) (hfq : f q = 1) : p = q := by
  obtain ⟨k, hk⟩ := List.mem_iff_getElem?.mp hp
  have htotal := total_eraseIdx f hk
  by_contra hne
  have hmem : q ∈ ps.eraseIdx k := by
    refine mem_eraseIdx_of_set (p := p) ?_ (Ne.symm hne)
    obtain ⟨hlt, rfl⟩ := List.getElem?_eq_some_iff.mp hk
    rwa [List.set_getElem_self]
  have hle := le_total f hmem
  omega

end Pool
