import Mathlib.Algebra.BigOperators.Group.Finset.Basic
import Mathlib.Algebra.BigOperators.Ring.Finset
import Mathlib.Data.Finset.Card
import Mathlib.Logic.Relation
import Mathlib.Tactic.Common

/-! # Fragments — selection sets expanded in place

    A selection set selects fields, spreads fragments by name and has inline fragments.
    Expanding every spread in place, fragments within fragments, comes to an end where
    no fragment spreads itself on the way; what a weight of fields adds up to there is
    the weight each selection set has of its own, times how often it is spread. -/

namespace Fragments

variable {ν : Type}

/-- A selection set, the selections one after the other. -/
inductive Selections (ν : Type) where
  | nil
  | field (name : ν) (selections rest : Selections ν)
  | spread (name : ν) (rest : Selections ν)
  | inline (typeCondition : Option ν) (selections rest : Selections ν)

structure FragmentDefinition (ν : Type) where
  name : ν
  typeCondition : ν
  selections : Selections ν

/-- The names of the fragments spread in a selection set, once for each spread. -/
def Selections.spreads : Selections ν → List ν
  | .nil => []
  | .field _ selections rest => selections.spreads ++ rest.spreads
  | .spread name rest => name :: rest.spreads
  | .inline _ selections rest => selections.spreads ++ rest.spreads

/-- The names of the fields selected. -/
def Selections.fields : Selections ν → List ν
  | .nil => []
  | .field name selections rest => name :: (selections.fields ++ rest.fields)
  | .spread _ rest => rest.fields
  | .inline _ selections rest => selections.fields ++ rest.fields

section Weights

variable (weight : Option ν → ν → Nat) (typeOf : Option ν → ν → Option ν)

/-- What the fields of a selection set weigh, spreads apart, under a parent type. -/
def own (parent : Option ν) : Selections ν → Nat
  | .nil => 0
  | .field name selections rest =>
      weight parent name + own (typeOf parent name) selections + own parent rest
  | .spread _ rest => own parent rest
  | .inline typeCondition selections rest =>
      own (typeCondition <|> parent) selections + own parent rest

/-- What they weigh with every spread weighing what its fragment does. -/
def expand (fragment : ν → Nat) (parent : Option ν) : Selections ν → Nat
  | .nil => 0
  | .field name selections rest =>
      weight parent name + expand fragment (typeOf parent name) selections + expand fragment parent rest
  | .spread name rest => fragment name + expand fragment parent rest
  | .inline typeCondition selections rest =>
      expand fragment (typeCondition <|> parent) selections + expand fragment parent rest

variable {weight typeOf}

/-- **A SPREAD WEIGHS THE SAME ANYWHERE**: its fragment names its own parent type. -/
theorem expand_eq (fragment : ν → Nat) (parent : Option ν) (s : Selections ν) :
    expand weight typeOf fragment parent s =
      own weight typeOf parent s + (s.spreads.map fragment).sum := by
  induction s generalizing parent with
  | nil => rfl
  | field name selections rest ihs ihr =>
      rw [expand, own, ihs, ihr, Selections.spreads, List.map_append, List.sum_append]
      omega
  | spread name rest ihr =>
      rw [expand, own, ihr, Selections.spreads, List.map_cons, List.sum_cons]
      omega
  | inline typeCondition selections rest ihs ihr =>
      rw [expand, own, ihs, ihr, Selections.spreads, List.map_append, List.sum_append]
      omega

end Weights

/-- A sum over a list of sums over a set. -/
theorem sum_map_sum {ι : Type} (xs : List ν) (names : Finset ι) (f : ν → ι → Nat) :
    (xs.map fun x => ∑ i ∈ names, f x i).sum = ∑ i ∈ names, (xs.map fun x => f x i).sum := by
  induction xs with
  | nil => simp
  | cons x xs ih =>
      simp only [List.map_cons, List.sum_cons]
      rw [ih, Finset.sum_add_distrib]

section Definitions

variable [DecidableEq ν] (defs : List (FragmentDefinition ν))

/-- The fragment of a name; the last definition counts. -/
def find (name : ν) : Option (FragmentDefinition ν) :=
  defs.reverse.find? fun fragment => decide (fragment.name = name)

/-- One fragment is spread in another. -/
def SpreadIn (inner outer : ν) : Prop :=
  ∃ fragment, find defs outer = some fragment ∧ inner ∈ fragment.selections.spreads

/-- No fragment spreads itself, on however many ways. -/
def Acyclic : Prop := ∀ name, ¬ Relation.TransGen (SpreadIn defs) name name

/-- The names of fragments spread in any. -/
def spreadNames : Finset ν := (defs.flatMap fun fragment => fragment.selections.spreads).toFinset

/-- Steps enough for any fragment. -/
def depth : Nat := (spreadNames defs).card + 1

/-- What a weight of fragments adds up to over all that one of them spreads, so many levels
    deep. -/
def total (weight : ν → Nat) : Nat → ν → Nat
  | 0, _ => 0
  | n + 1, name =>
      match find defs name with
      | none => 0
      | some fragment => weight name + (fragment.selections.spreads.map (total weight n)).sum

variable {defs}

theorem mem_of_find {name : ν} {fragment : FragmentDefinition ν} (h : find defs name = some fragment) :
    fragment ∈ defs ∧ fragment.name = name := by
  have hname := List.find?_some h
  exact ⟨List.mem_reverse.mp (List.mem_of_find?_eq_some h), of_decide_eq_true hname⟩

open Classical in
/-- The fragments that are spread on the way. -/
noncomputable def within (defs : List (FragmentDefinition ν)) (name : ν) : Finset ν :=
  (spreadNames defs).filter fun inner => Relation.TransGen (SpreadIn defs) inner name

theorem mem_within {inner name : ν} : inner ∈ within defs name ↔
    inner ∈ spreadNames defs ∧ Relation.TransGen (SpreadIn defs) inner name := by
  classical exact Finset.mem_filter

theorem mem_spreadNames {inner outer : ν} (h : SpreadIn defs inner outer) : inner ∈ spreadNames defs := by
  obtain ⟨fragment, hfind, hinner⟩ := h
  exact List.mem_toFinset.mpr (List.mem_flatMap.mpr ⟨fragment, (mem_of_find hfind).1, hinner⟩)

/-- What is spread in a fragment has less within it. -/
theorem card_within_lt (hacyclic : Acyclic defs) {inner outer : ν} (h : SpreadIn defs inner outer) :
    (within defs inner).card < (within defs outer).card := by
  refine Finset.card_lt_card (Finset.ssubset_iff_of_subset ?_ |>.mpr ⟨inner, ?_, ?_⟩)
  · intro name hname
    obtain ⟨hmem, hpath⟩ := mem_within.mp hname
    exact mem_within.mpr ⟨hmem, hpath.tail h⟩
  · exact mem_within.mpr ⟨mem_spreadNames h, .single h⟩
  · -- it would be within itself
    intro hself
    exact hacyclic inner (mem_within.mp hself).2

theorem card_within_lt_depth (name : ν) : (within defs name).card < depth defs :=
  Nat.lt_succ_of_le (Finset.card_le_card fun _ h => (mem_within.mp h).1)

/-- Deeper than what is within a fragment, the depth does not matter. -/
theorem total_stable (hacyclic : Acyclic defs) (weight : ν → Nat) {n m : Nat} {name : ν}
    (hn : (within defs name).card < n) (hm : (within defs name).card < m) :
    total defs weight n name = total defs weight m name := by
  induction n generalizing m name with
  | zero => omega
  | succ n ih =>
      cases m with
      | zero => omega
      | succ m =>
          rw [total, total]
          split
          · rfl
          · next fragment hfind =>
              congr 2
              refine List.map_congr_left fun inner hinner => ?_
              have hless := card_within_lt hacyclic ⟨fragment, hfind, hinner⟩
              exact ih (by omega) (by omega)

/-- **IN PLACE**: at the full depth a fragment adds up to its own and those it spreads. -/
theorem total_unfold (hacyclic : Acyclic defs) (weight : ν → Nat) {name : ν}
    {fragment : FragmentDefinition ν} (h : find defs name = some fragment) :
    total defs weight (depth defs) name =
      weight name + (fragment.selections.spreads.map (total defs weight (depth defs))).sum := by
  have hdepth : (within defs name).card < depth defs := card_within_lt_depth name
  rw [total_stable hacyclic weight hdepth (Nat.lt_succ_of_lt hdepth), total, h]

/-- How often a fragment is spread on the way, itself included. -/
def occurrences (defs : List (FragmentDefinition ν)) (n : Nat) (name outer : ν) : Nat :=
  total defs (fun other => if other = name then 1 else 0) n outer

/-- **WEIGHTS TIMES OCCURRENCES**: what a fragment adds up to, by fragments. -/
theorem total_eq_sum (weight : ν → Nat) (names : Finset ν)
    (hnames : ∀ fragment ∈ defs, fragment.name ∈ names) (n : Nat) (outer : ν) :
    total defs weight n outer = ∑ name ∈ names, occurrences defs n name outer * weight name := by
  induction n generalizing outer with
  | zero =>
      rw [total]
      exact (Finset.sum_eq_zero fun name _ => Nat.zero_mul _).symm
  | succ n ih =>
      have hsplit : ∀ name, occurrences defs (n + 1) name outer = match find defs outer with
          | none => 0
          | some fragment => (if outer = name then 1 else 0) +
              (fragment.selections.spreads.map (occurrences defs n name)).sum := fun _ => rfl
      simp only [hsplit]
      rw [total]
      split
      · exact (Finset.sum_eq_zero fun name _ => Nat.zero_mul _).symm
      · next fragment hfind =>
          obtain ⟨hmem, hname⟩ := mem_of_find hfind
          -- the fragment itself, once; and by induction what it spreads
          have hself : ∑ name ∈ names, (if outer = name then 1 else 0) * weight name = weight outer := by
            simp only [ite_mul, Nat.one_mul, Nat.zero_mul]
            rw [Finset.sum_ite_eq, if_pos (hname ▸ hnames fragment hmem)]
          have hrest : (fragment.selections.spreads.map (total defs weight n)).sum =
              ∑ name ∈ names, (fragment.selections.spreads.map (occurrences defs n name)).sum *
                weight name := by
            rw [List.map_congr_left fun inner _ => ih inner, sum_map_sum]
            exact Finset.sum_congr rfl fun name _ => List.sum_map_mul_right _ _ _
          rw [hrest, ← hself, ← Finset.sum_add_distrib]
          exact Finset.sum_congr rfl fun name _ => (Nat.add_mul _ _ _).symm

section Expansion

variable (weight : Option ν → ν → Nat) (typeOf : Option ν → ν → Option ν)

/-- What the fields of a fragment weigh, with its spreads expanded so many levels deep. -/
def fragmentWeight (defs : List (FragmentDefinition ν)) : Nat → ν → Nat
  | 0, _ => 0
  | n + 1, name =>
      match find defs name with
      | none => 0
      | some fragment =>
          expand weight typeOf (fragmentWeight defs n) (some fragment.typeCondition) fragment.selections

/-- What they weigh without its spreads. -/
def ownWeight (defs : List (FragmentDefinition ν)) (name : ν) : Nat :=
  match find defs name with
  | none => 0
  | some fragment => own weight typeOf (some fragment.typeCondition) fragment.selections

variable {weight typeOf}

theorem fragmentWeight_eq (n : Nat) (name : ν) : fragmentWeight weight typeOf defs n name =
    total defs (ownWeight weight typeOf defs) n name := by
  induction n generalizing name with
  | zero => rfl
  | succ n ih =>
      rw [fragmentWeight, total]
      cases hfind : find defs name with
      | none => rfl
      | some fragment =>
          have hown : ownWeight weight typeOf defs name =
              own weight typeOf (some fragment.typeCondition) fragment.selections := by
            rw [ownWeight, hfind]
          simp only []
          rw [expand_eq, hown, List.map_congr_left fun inner _ => ih inner]

/-- At the full depth every spread is expanded. -/
theorem fragmentWeight_unfold (hacyclic : Acyclic defs) {name : ν} {fragment : FragmentDefinition ν}
    (h : find defs name = some fragment) :
    fragmentWeight weight typeOf defs (depth defs) name =
      expand weight typeOf (fragmentWeight weight typeOf defs (depth defs))
        (some fragment.typeCondition) fragment.selections := by
  rw [fragmentWeight_eq, total_unfold hacyclic _ h, expand_eq, ownWeight, h,
    List.map_congr_left fun inner _ => fragmentWeight_eq (depth defs) inner]

/-- **AN EXPANDED SELECTION SET** weighs its own and what each fragment does, as often as it
    is spread. -/
theorem expand_eq_sum (names : Finset ν) (hnames : ∀ fragment ∈ defs, fragment.name ∈ names)
    (n : Nat) (parent : Option ν) (s : Selections ν) :
    expand weight typeOf (fragmentWeight weight typeOf defs n) parent s =
      own weight typeOf parent s + ∑ name ∈ names,
        (s.spreads.map (occurrences defs n name)).sum * ownWeight weight typeOf defs name := by
  rw [expand_eq, List.map_congr_left fun inner _ => fragmentWeight_eq n inner,
    List.map_congr_left fun inner _ => total_eq_sum _ names hnames n inner, sum_map_sum]
  congr 1
  exact Finset.sum_congr rfl fun name _ => List.sum_map_mul_right _ _ _

end Expansion

end Definitions

end Fragments
