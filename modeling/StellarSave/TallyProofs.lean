import Mathlib.Algebra.BigOperators.Group.Finset.Basic
import Mathlib.Algebra.BigOperators.Ring.Finset
import Mathlib.Algebra.Order.Group.Int
import Mathlib.Data.Int.Cast.Basic

/-! # Tallies — a counter kept beside the records it counts

    A counter is bumped each time a record is filed, and trusted ever after.
    `Counted p n` says that exactly `n` things satisfy `p`; `Tallied f n k`
    that the records `f` add up to `n` and are `k` in number.

    Filing under a FREE key is the only step both survive.  What makes the
    counter worth having is the converse: a count that reaches the number of
    members has counted every one of them. -/

namespace Tally

variable {α : Type} [DecidableEq α] {p q : α → Prop} {f f' : α → Option Int} {a : α} {n x : Int}
  {k m : Nat}

/-- Exactly `k` things satisfy `p`. -/
def Counted (p : α → Prop) (k : Nat) : Prop :=
  ∃ P : Finset α, (∀ a, a ∈ P ↔ p a) ∧ P.card = k

/-- The records `f` add up to `n` and are `k` in number. -/
def Tallied (f : α → Option Int) (n : Int) (k : Nat) : Prop :=
  ∃ P : Finset α, (∀ a, a ∈ P ↔ f a ≠ none) ∧ ∑ a ∈ P, (f a).getD 0 = n ∧ P.card = k

omit [DecidableEq α] in
theorem counted_none (h : ∀ a, ¬ p a) : Counted p 0 := by
  refine ⟨∅, ?_, Finset.card_empty⟩
  intro a
  exact iff_of_false (Finset.notMem_empty a) (h a)

omit [DecidableEq α] in
theorem Counted.congr (h : Counted p k) (hq : ∀ a, q a ↔ p a) : Counted q k := by
  obtain ⟨P, hP, hk⟩ := h
  refine ⟨P, ?_, hk⟩
  intro a
  rw [hP, hq]

/-- **ONE MORE**, that was not counted yet. -/
theorem Counted.insert (h : Counted p k) (ha : ¬ p a) (hq : ∀ b, q b ↔ b = a ∨ p b) :
    Counted q (k + 1) := by
  obtain ⟨P, hP, rfl⟩ := h
  refine ⟨Insert.insert a P, ?_, Finset.card_insert_of_notMem (mt (hP a).mp ha)⟩
  intro b
  rw [Finset.mem_insert, hP, hq]

omit [DecidableEq α] in
/-- A count of some that reaches the count of all has counted all. -/
theorem Counted.all_of_le (hp : Counted p k) (hq : Counted q m) (hsub : ∀ a, p a → q a)
    (hle : m ≤ k) : ∀ a, q a → p a := by
  obtain ⟨P, hP, rfl⟩ := hp
  obtain ⟨Q, hQ, rfl⟩ := hq
  have hPQ : P ⊆ Q := by
    intro a ha
    exact (hQ a).mpr (hsub a ((hP a).mp ha))
  have heq := Finset.eq_of_subset_of_card_le hPQ hle
  intro a ha
  exact (hP a).mp (heq ▸ (hQ a).mpr ha)

omit [DecidableEq α] in
/-- A count of some is at most the count of all. -/
theorem Counted.le (hp : Counted p k) (hq : Counted q m) (hsub : ∀ a, p a → q a) : k ≤ m := by
  obtain ⟨P, hP, rfl⟩ := hp
  obtain ⟨Q, hQ, rfl⟩ := hq
  refine Finset.card_le_card ?_
  intro a ha
  exact (hQ a).mpr (hsub a ((hP a).mp ha))

omit [DecidableEq α] in
/-- The number is determined. -/
theorem Counted.unique (hp : Counted p k) (hq : Counted p m) : k = m :=
  Nat.le_antisymm (hp.le hq fun _ h => h) (hq.le hp fun _ h => h)

omit [DecidableEq α] in
/-- A part of what is counted is counted. -/
theorem Counted.part (h : Counted p k) : ∃ m, Counted (fun a => p a ∧ q a) m := by
  classical
  obtain ⟨P, hP, -⟩ := h
  refine ⟨_, P.filter q, ?_, rfl⟩
  intro a
  rw [Finset.mem_filter, hP]

/-- Two parts that make up the whole. -/
theorem Counted.add (hin : Counted (fun a => p a ∧ q a) k) (hout : Counted (fun a => p a ∧ ¬ q a) m) :
    Counted p (k + m) := by
  obtain ⟨P, hP, rfl⟩ := hin
  obtain ⟨Q, hQ, rfl⟩ := hout
  have hapart : Disjoint P Q := by
    rw [Finset.disjoint_left]
    intro a ha hb
    exact ((hQ a).mp hb).2 ((hP a).mp ha).2
  refine ⟨P ∪ Q, ?_, Finset.card_union_of_disjoint hapart⟩
  intro a
  rw [Finset.mem_union, hP, hQ, ← and_or_left, and_iff_left (Classical.em (q a))]

omit [DecidableEq α] in
theorem counted_list {xs : List α} (h : xs.Nodup) : Counted (· ∈ xs) xs.length := by
  refine ⟨⟨xs, h⟩, fun a => Iff.rfl, rfl⟩

omit [DecidableEq α] in
/-- Nothing filed. -/
theorem tallied_none (h : ∀ a, f a = none) : Tallied f 0 0 := by
  refine ⟨∅, ?_, Finset.sum_empty, Finset.card_empty⟩
  intro a
  exact iff_of_false (Finset.notMem_empty a) fun hne => hne (h a)

omit [DecidableEq α] in
theorem Tallied.congr (h : Tallied f n k) (hf : ∀ a, f' a = f a) : Tallied f' n k := by
  have he : f' = f := funext hf
  rwa [he]

omit [DecidableEq α] in
theorem Tallied.counted (h : Tallied f n k) : Counted (fun a => f a ≠ none) k := by
  obtain ⟨P, hP, -, hk⟩ := h
  exact ⟨P, hP, hk⟩

/-- **FILING** under a free key adds the amount and one. -/
theorem Tallied.file (h : Tallied f n k) (ha : f a = none)
    (hf : ∀ b, f' b = if b = a then some x else f b) : Tallied f' (n + x) (k + 1) := by
  obtain ⟨P, hP, rfl, rfl⟩ := h
  have hnotin : a ∉ P := by
    intro hmem
    exact (hP a).mp hmem ha
  refine ⟨Insert.insert a P, ?_, ?_, Finset.card_insert_of_notMem hnotin⟩
  · intro b
    rw [Finset.mem_insert, hP, hf]
    by_cases hb : b = a
    · rw [if_pos hb]
      exact iff_of_true (Or.inl hb) (Option.some_ne_none x)
    · rw [if_neg hb, or_iff_right hb]
  · rw [Finset.sum_insert hnotin, hf, if_pos rfl, Option.getD_some, Int.add_comm]
    refine congrArg (· + x) (Finset.sum_congr rfl ?_)
    intro b hb
    rw [hf, if_neg]
    intro he
    exact hnotin (he ▸ hb)

omit [DecidableEq α] in
/-- Equal amounts add up to their number times the amount. -/
theorem Tallied.const (h : Tallied f n k) (hx : ∀ a y, f a = some y → y = x) : n = x * k := by
  obtain ⟨P, hP, rfl, rfl⟩ := h
  have hsame : ∀ a ∈ P, (f a).getD 0 = x := by
    intro a ha
    obtain ⟨y, hy⟩ := Option.ne_none_iff_exists'.mp ((hP a).mp ha)
    rw [hy, Option.getD_some]
    exact hx a y hy
  rw [Finset.sum_congr rfl hsame, Finset.sum_const, nsmul_eq_mul, Int.mul_comm]

end Tally
