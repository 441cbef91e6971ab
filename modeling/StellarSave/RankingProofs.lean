import Mathlib

/-! # Ranking — the first of a list, whatever its order

    `TopOf le k all best`: the list `best` holds `k` elements of `all`, or all of
    them where there are fewer, in the order `le`, and none of those left out
    comes before one of them.  Nothing is said of how ties are broken. -/

namespace Ranking

variable {α : Type} {le : α → α → Prop}

/-- The first `k` of a list, in order. -/
def TopOf (le : α → α → Prop) (k : Nat) (all best : List α) : Prop :=
  best.Pairwise le ∧ best.length = min k all.length ∧
    ∃ others, all.Perm (best ++ others) ∧ ∀ a ∈ best, ∀ b ∈ others, le a b

/-- How the list is arranged does not matter. -/
theorem TopOf.of_perm {k : Nat} {all all' best : List α} (h : TopOf le k all best) (hperm : all.Perm all') :
    TopOf le k all' best := by
  obtain ⟨hordered, hlength, others, hall, hle⟩ := h
  refine ⟨hordered, ?_, others, hperm.symm.trans hall, hle⟩
  rw [hlength, hperm.length_eq]

/-- **WHAT WAS LEFT OUT DECIDES**: elements that are taken from a list and put in
    order are its first ones exactly when there are enough of them and none of
    the others comes before one of them. -/
theorem topOf_iff {k : Nat} {all taken others best : List α} (hordered : best.Pairwise le)
    (hbest : best.Perm taken) (hall : all.Perm (taken ++ others)) :
    TopOf le k all best ↔ taken.length = min k all.length ∧ ∀ a ∈ taken, ∀ b ∈ others, le a b := by
  constructor
  · rintro ⟨-, hlength, others', hall', hle⟩
    have hsplit : (taken ++ others).Perm (taken ++ others') :=
      hall.symm.trans (hall'.trans (hbest.append_right others'))
    have hothers : others.Perm others' := (List.perm_append_left_iff taken).mp hsplit
    refine ⟨hbest.length_eq.symm.trans hlength, ?_⟩
    intro a ha b hb
    exact hle a (hbest.mem_iff.mpr ha) b (hothers.mem_iff.mp hb)
  · rintro ⟨hlength, hle⟩
    refine ⟨hordered, hbest.length_eq.trans hlength, others, hall.trans (hbest.symm.append_right others), ?_⟩
    intro a ha b hb
    exact hle a (hbest.mem_iff.mp ha) b hb

end Ranking
