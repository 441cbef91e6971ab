import Mathlib.Data.List.Basic
import Mathlib.Order.Defs.LinearOrder

/-! # Streaks — places visited, and places visited in a row

    A CHAIN is counted visit by visit: how many of the last visits were each to the
    place after the one before.  A ROW is counted place by place: how many of the
    places up to one have been visited without a gap.  Visits that go up make the
    two the same; others make chains that the rows know nothing of. -/

namespace Streak

/-- How many of the last visits were to places one after the other, the latest
    visit first. -/
def chain : List Nat → Nat
  | [] => 0
  | [_] => 1
  | c :: d :: visits => if c = d + 1 then chain (d :: visits) + 1 else 1

/-- How many places in a row, right below `n`, have been visited. -/
def row (visited : Nat → Bool) : Nat → Nat
  | 0 => 0
  | n + 1 => if visited n then row visited n + 1 else 0

variable {visited visited' : Nat → Bool} {c d n : Nat} {visits : List Nat}

@[simp] theorem row_zero : row visited 0 = 0 := rfl

theorem row_succ : row visited (n + 1) = if visited n then row visited n + 1 else 0 := rfl

theorem chain_cons_cons :
    chain (c :: d :: visits) = if c = d + 1 then chain (d :: visits) + 1 else 1 := rfl

theorem row_of_visited (h : visited n = true) : row visited (n + 1) = row visited n + 1 := by
  rw [row_succ, if_pos h]

theorem row_of_not (h : visited n = false) : row visited (n + 1) = 0 := by
  rw [row_succ, h]
  rfl

/-- A row is made by the places below it. -/
theorem row_congr (h : ∀ i, i < n → visited i = visited' i) : row visited n = row visited' n := by
  induction n with
  | zero => rfl
  | succ n ih =>
      have hbelow := ih fun i hi => h i (Nat.lt_succ_of_lt hi)
      rw [row_succ, row_succ, h n (Nat.lt_succ_self n), hbelow]

/-- What ends a row has been visited. -/
theorem visited_of_row (h : 0 < row visited (n + 1)) : visited n = true := by
  rw [row_succ] at h
  by_contra hnot
  rw [if_neg hnot] at h
  exact Nat.lt_irrefl 0 h

/-- **GOING UP**: a chain is then the row that ends at its last visit. -/
theorem chain_eq_row (hup : (c :: visits).Pairwise (· > ·)) :
    chain (c :: visits) = row (fun x => decide (x ∈ c :: visits)) (c + 1) := by
  -- the chain goes on as long as the cycles are consecutive
  induction visits generalizing c with
  | nil =>
      have hnone : row (fun x => decide (x ∈ [c])) c = 0 := by
        cases c with
        | zero => rfl
        | succ c => exact row_of_not (by simp)
      rw [row_of_visited (by simp), hnone]
      rfl
  | cons d visits ih =>
      obtain ⟨habove, htail⟩ := List.pairwise_cons.mp hup
      have hlt : d < c := habove d List.mem_cons_self
      rw [row_of_visited (by simp), chain_cons_cons]
      by_cases hnext : c = d + 1
      · -- the row below is the one the earlier visits made
        have hsame : ∀ i, i < d + 1 →
            decide (i ∈ c :: d :: visits) = decide (i ∈ d :: visits) := by
          intro i hi
          have hne : i ≠ c := by omega
          simp only [List.mem_cons, hne, false_or]
        rw [if_pos hnext, ih htail, ← row_congr hsame, hnext]
      · -- a place was left out, and no row reaches over it
        obtain ⟨e, rfl⟩ := Nat.exists_eq_add_one_of_ne_zero (Nat.pos_iff_ne_zero.mp (Nat.zero_lt_of_lt hlt))
        have hout : e ∉ (e + 1) :: d :: visits := by
          intro hmem
          rcases List.mem_cons.mp hmem with he | hmem
          · omega
          · rcases List.mem_cons.mp hmem with he | hmem
            · omega
            · have hd := (List.pairwise_cons.mp htail).1 e hmem
              omega
        rw [if_neg hnext, row_of_not (by simpa using hout)]

/-- Where the visits go up, the chain at each is the row up to it. -/
theorem chain_of_ascending {before after : List Nat}
    (hup : (before ++ c :: after).Pairwise (· < ·)) :
    chain (c :: before.reverse) = row (fun x => decide (x ∈ before ++ c :: after)) (c + 1) := by
  obtain ⟨hbefore, hafter, hbelow⟩ := List.pairwise_append.mp hup
  have hdown : (c :: before.reverse).Pairwise (· > ·) := by
    rw [List.pairwise_cons]
    refine ⟨fun d hd => hbelow d (List.mem_reverse.mp hd) c List.mem_cons_self, ?_⟩
    exact List.pairwise_reverse.mpr hbefore
  rw [chain_eq_row hdown]
  refine row_congr fun i hi => ?_
  have hout : i ∉ after := by
    intro hmem
    have hlt := (List.pairwise_cons.mp hafter).1 i hmem
    omega
  simp [hout, or_comm]

/-! ## Marks -/

/-- A count that goes up by one, or falls to at most one, passes a mark of two or
    more exactly when it comes to stand on it; so does one that stops at a bound. -/
theorem passes_iff {old new mark bound : Nat} (hmark : 2 ≤ mark) (hbound : mark ≤ bound)
    (h : new = old + 1 ∨ new ≤ 1) :
    min old bound < mark ∧ mark ≤ min new bound ↔ new = mark := by
  omega

/-- The marks passed from one count to the next. -/
def passed (marks : List Nat) (old new : Nat) : List Nat :=
  marks.filter fun mark => decide (old < mark ∧ mark ≤ new)

theorem mem_passed {marks : List Nat} {old new mark : Nat} :
    mark ∈ passed marks old new ↔ mark ∈ marks ∧ old < mark ∧ mark ≤ new := by
  rw [passed, List.mem_filter, decide_eq_true_eq]

end Streak
