import Mathlib

/-! # Frontier — how far a log has been copied

    A log `T` is read in order and copied member by member; `S` is what has been
    copied.  `Front T S p` is what a reader at `p` relies on, `Gapless T S` what
    makes every copied member a place to resume from. -/

namespace Frontier

variable {α : Type} [LinearOrder α] {T S : Set α} {p q t : α}

/-- Between two copied members everything is copied. -/
def Gapless (T S : Set α) : Prop := ∀ lo ∈ S, ∀ hi ∈ S, ∀ t ∈ T, lo < t → t ≤ hi → t ∈ S

/-- Below `p` nothing is missing after the first copied member, and what is
    copied from `p` on began below `p`. -/
structure Front (T S : Set α) (p : α) : Prop where
  done : ∀ lo ∈ S, ∀ t ∈ T, lo < t → t < p → t ∈ S
  low : ∀ hi ∈ S, p ≤ hi → ∃ lo ∈ S, lo < p

theorem gapless_empty (T : Set α) : Gapless T ∅ := fun _ hlo => hlo.elim

/-- Before anything is copied a reader may stand anywhere. -/
theorem front_empty (T : Set α) (p : α) : Front T ∅ p where
  done := fun _ hlo => hlo.elim
  low := fun _ hhi => hhi.elim

/-- A reader moves over what the log does not have. -/
theorem Front.advance (h : Front T S p) (hpq : p ≤ q) (hgap : ∀ t ∈ T, p ≤ t → q ≤ t) :
    Front T S q where
  done := by
    intro lo hlo t ht hlt htq
    refine h.done lo hlo t ht hlt (lt_of_not_ge fun hle => ?_)
    exact absurd htq (not_lt_of_ge (hgap t ht hle))
  low := by
    intro hi hhi hle
    obtain ⟨lo, hlo, hlt⟩ := h.low hi hhi (le_trans hpq hle)
    exact ⟨lo, hlo, lt_of_lt_of_le hlt hpq⟩

/-- **COPIED**: the member under the reader is copied, and the reader moves on. -/
theorem Front.copied (h : Front T S p) (hpq : p < q) (hgap : ∀ t ∈ T, p < t → q ≤ t) :
    Front T (insert p S) q where
  done := by
    intro lo hlo t ht hlt htq
    obtain htp | rfl | htp := lt_trichotomy t p
    · obtain rfl | hlo := hlo
      · exact absurd hlt (not_lt_of_gt htp)
      · exact Set.mem_insert_of_mem p (h.done lo hlo t ht hlt htp)
    · exact Set.mem_insert t S
    · exact absurd htq (not_lt_of_ge (hgap t ht htp))
  low := fun _ _ _ => ⟨p, Set.mem_insert p S, hpq⟩

/-- **PASSED OVER**: harmless where the member is copied already, or nothing
    before it is. -/
theorem Front.passed (h : Front T S p) (hpq : p < q) (hgap : ∀ t ∈ T, p < t → q ≤ t)
    (hskip : p ∈ S ∨ ∀ lo ∈ S, p ≤ lo) : Front T S q where
  done := by
    intro lo hlo t ht hlt htq
    obtain htp | rfl | htp := lt_trichotomy t p
    · exact h.done lo hlo t ht hlt htp
    · obtain hmem | hfirst := hskip
      · exact hmem
      · exact absurd hlt (not_lt_of_ge (hfirst lo hlo))
    · exact absurd htq (not_lt_of_ge (hgap t ht htp))
  low := by
    intro hi hhi hle
    obtain ⟨lo, hlo, hlt⟩ := h.low hi hhi (le_trans hpq.le hle)
    exact ⟨lo, hlo, lt_trans hlt hpq⟩

/-- Copying under the reader leaves no gap. -/
theorem Gapless.copied (h : Gapless T S) (hfront : Front T S p) : Gapless T (insert p S) := by
  rintro lo (rfl | hlo) hi (rfl | hhi) t ht hlt hle
  · exact absurd hlt (not_lt_of_ge hle)
  · obtain ⟨first, hfirst, hbelow⟩ := hfront.low hi hhi (le_trans hlt.le hle)
    exact Set.mem_insert_of_mem _ (h first hfirst hi hhi t ht (lt_trans hbelow hlt) hle)
  · obtain rfl | htp := eq_or_lt_of_le hle
    · exact Set.mem_insert _ _
    · exact Set.mem_insert_of_mem _ (hfront.done lo hlo t ht hlt htp)
  · exact Set.mem_insert_of_mem _ (h lo hlo hi hhi t ht hlt hle)

/-- **RESUMED**: behind any copied member. -/
theorem Gapless.resumed (h : Gapless T S) {r : α} (hr : r ∈ S) (hrq : r < q)
    (hgap : ∀ t ∈ T, r < t → q ≤ t) : Front T S q where
  done := by
    intro lo hlo t ht hlt htq
    refine h lo hlo r hr t ht hlt (le_of_not_gt fun hrt => ?_)
    exact absurd htq (not_lt_of_ge (hgap t ht hrt))
  low := fun _ _ _ => ⟨r, hr, hrq⟩

/-- The log grows at its end. -/
theorem Gapless.grown (h : Gapless T S) (hnew : ∀ s ∈ S, s < t) : Gapless (insert t T) S := by
  rintro lo hlo hi hhi t' (rfl | ht) hlt hle
  · exact absurd hle (not_le_of_gt (hnew hi hhi))
  · exact h lo hlo hi hhi t' ht hlt hle

theorem Front.grown (h : Front T S p) (hnew : p ≤ t) : Front (insert t T) S p where
  done := by
    rintro lo hlo t' (rfl | ht) hlt htp
    · exact absurd htp (not_lt_of_ge hnew)
    · exact h.done lo hlo t' ht hlt htp
  low := h.low

end Frontier
