import Mathlib.Data.List.Infix
import Mathlib.Data.Rat.Cast.Order
import StellarSave.FragmentProofs

/-! # Query complexity — every field counted once

    `complexityLimitRule` visits a document and adds up a cost for each field it
    enters.  A fragment is visited where it is defined, however often it is spread; the
    costs it looks up are those of the enclosing field's name, not of the parent type;
    and what it finds under the name of an inherited property is not a number. -/

namespace Complexity

open Fragments

/-- The costs of the rule. -/
def FIELD_COSTS : List (String × Nat) :=
  [("groups", 10), ("members", 10), ("transactions", 10), ("recommendations", 15), ("search", 20),
    ("Group.members", 5), ("Group.transactions", 5), ("Member.groups", 5), ("Recommendation.group", 3)]

/-- The properties every object has, none of which is a number. -/
def inherited : List String :=
  ["constructor", "toString", "toLocaleString", "valueOf", "hasOwnProperty", "isPrototypeOf",
    "propertyIsEnumerable", "__proto__", "__defineGetter__", "__defineSetter__", "__lookupGetter__",
    "__lookupSetter__"]

inductive OperationType where
  | query
  | mutation
  | subscription

structure Operation where
  operation : OperationType
  selections : Selections String

inductive Definition where
  | operation (definition : Operation)
  | fragment (definition : FragmentDefinition String)

def Definition.selections : Definition → Selections String
  | .operation definition => definition.selections
  | .fragment definition => definition.selections

def Definition.fragment? : Definition → Option (FragmentDefinition String)
  | .operation _ => none
  | .fragment definition => some definition

structure Document where
  definitions : List Definition

def Document.fragments (document : Document) : List (FragmentDefinition String) :=
  document.definitions.filterMap Definition.fragment?

/-! ## The rule -/

/-- A number, or nothing once something that is no number was added. -/
def add : Option Nat → Option Nat → Option Nat
  | some a, some b => some (a + b)
  | _, _ => none

/-- `FIELD_COSTS[key]`: a number, something inherited, or `undefined`. -/
def property (key : String) : Option (Option Nat) :=
  match FIELD_COSTS.lookup key with
  | some cost => some (some cost)
  | none => if key ∈ inherited then some none else none

/-- `Parent.field`, or the field alone. -/
def costKey (parentType : Option String) (fieldName : String) : String :=
  match parentType with
  | none => fieldName
  | some parent => if parent = "" then fieldName else parent ++ ("." ++ fieldName)

/-- `FIELD_COSTS[key] ?? FIELD_COSTS[fieldName] ?? 1`. -/
def fieldCost (parentType : Option String) (fieldName : String) : Option Nat :=
  match property (costKey parentType fieldName) with
  | some cost => cost
  | none =>
      match property fieldName with
      | some cost => cost
      | none => some 1

/-- The variables of the rule, the last name of the stack first. -/
structure Visit where
  complexity : Option Nat
  typeStack : List String

def enter (fieldName : String) (v : Visit) : Visit where
  complexity := add v.complexity (fieldCost v.typeStack.head? fieldName)
  typeStack := fieldName :: v.typeStack

def leave (v : Visit) : Visit := { v with typeStack := v.typeStack.tail }

/-- The visitor, over a selection set. -/
def visit : Selections String → Visit → Visit
  | .nil, v => v
  | .field name selections rest, v => visit rest (leave (visit selections (enter name v)))
  | .spread _ rest, v => visit rest v
  | .inline _ selections rest, v => visit rest (visit selections v)

def visitDocument (document : Document) : Visit :=
  document.definitions.foldl (fun v definition => visit definition.selections v) ⟨some 0, []⟩

/-- `complexityLimitRule(maxComplexity)` reports an error. -/
def complexityLimitRule (maxComplexity : ℚ) (document : Document) : Bool :=
  match (visitDocument document).complexity with
  | some complexity => decide (maxComplexity < complexity)
  | none => false

/-! ## The cost of an operation -/

/-- What is read of a schema. -/
structure Schema where
  rootType : OperationType → Option String
  fieldType : String → String → Option String

def Schema.typeOf (schema : Schema) (parent : Option String) (name : String) : Option String :=
  parent.bind fun parent => schema.fieldType parent name

/-- The cost of a field by the table, for a type. -/
def tableCost (parentType : Option String) (name : String) : Nat :=
  ((FIELD_COSTS.lookup (costKey parentType name)) <|> FIELD_COSTS.lookup name).getD 1

/-- A document no fragment of which spreads itself. -/
structure AcyclicDocument where
  document : Document
  acyclic : Acyclic document.fragments

variable (schema : Schema) (d : AcyclicDocument)

/-- The cost of an operation with every spread expanded in place. -/
def expandedCost (op : Operation) : Nat :=
  expand tableCost schema.typeOf
    (fragmentWeight tableCost schema.typeOf d.document.fragments (depth d.document.fragments))
    (schema.rootType op.operation) op.selections

/-- Where the rule has no error to report, the operation costs no more than the limit. -/
def Bounds (op : Operation) (max : ℚ) : Prop :=
  complexityLimitRule max d.document = false → (expandedCost schema d op : ℚ) ≤ max

/-! ## What is counted -/

/-- The fields of a selection set by the table, for the names of the fields around them. -/
def counted (enclosing : Option String) : Selections String → Nat
  | .nil => 0
  | .field name selections rest =>
      tableCost enclosing name + counted (some name) selections + counted enclosing rest
  | .spread _ rest => counted enclosing rest
  | .inline _ selections rest => counted enclosing selections + counted enclosing rest

/-- The fields of every definition, once. -/
def countedOnce (definitions : List Definition) : Nat :=
  (definitions.map fun definition => counted none definition.selections).sum

/-- No field has the name of an inherited property. -/
def Plain (s : Selections String) : Prop := ∀ name ∈ s.fields, name ∉ inherited

instance (s : Selections String) : Decidable (Plain s) :=
  inferInstanceAs (Decidable (∀ name ∈ s.fields, name ∉ inherited))

def PlainDefinitions (definitions : List Definition) : Prop :=
  ∀ definition ∈ definitions, Plain definition.selections

instance (definitions : List Definition) : Decidable (PlainDefinitions definitions) :=
  inferInstanceAs (Decidable (∀ definition ∈ definitions, Plain definition.selections))

def fragmentNames (document : Document) : Finset String :=
  (document.fragments.map FragmentDefinition.name).toFinset

/-- The fields of the operation and of its fragments by the table, for their parent types,
    each fragment as often as it is spread on the way. -/
def spreadCost (op : Operation) : Nat :=
  own tableCost schema.typeOf (schema.rootType op.operation) op.selections +
    ∑ name ∈ fragmentNames d.document,
      (op.selections.spreads.map
        (occurrences d.document.fragments (depth d.document.fragments) name)).sum *
          ownWeight tableCost schema.typeOf d.document.fragments name

section Rule

variable {schema d} {name key : String} {parent : Option String} {s : Selections String} {c : Nat}

/-- Expanded in full: no depth is left over where a fragment is spread. -/
theorem fragment_expanded {fragment : FragmentDefinition String}
    (h : find d.document.fragments name = some fragment) :
    fragmentWeight tableCost schema.typeOf d.document.fragments (depth d.document.fragments) name =
      expand tableCost schema.typeOf
        (fragmentWeight tableCost schema.typeOf d.document.fragments (depth d.document.fragments))
        (some fragment.typeCondition) fragment.selections :=
  fragmentWeight_unfold d.acyclic h

theorem add_zero_right (a : Option Nat) : add a (some 0) = a := by
  cases a <;> rfl

theorem add_assoc (a b c : Option Nat) : add (add a b) c = add a (add b c) := by
  cases a <;> cases b <;> cases c <;> simp [add, Nat.add_assoc]

theorem mem_of_lookup {entries : List (String × Nat)} (h : entries.lookup key = some c) :
    (key, c) ∈ entries := by
  obtain ⟨before, after, rfl, -⟩ := List.lookup_eq_some_iff.mp h
  exact List.mem_append_right before List.mem_cons_self

/-- A key ends with the name of its field. -/
theorem costKey_suffix (parent : Option String) (name : String) :
    name.toList <:+ (costKey parent name).toList := by
  cases parent with
  | none => exact List.suffix_refl _
  | some parent =>
      rw [costKey]
      split
      · exact List.suffix_refl _
      · rw [String.toList_append, String.toList_append]
        exact (List.suffix_append _ _).trans (List.suffix_append _ _)

/-- No cost is set for a field with an inherited name. -/
theorem lookup_of_inherited (h : name ∈ inherited) (hkey : name.toList <:+ key.toList) :
    FIELD_COSTS.lookup key = none := by
  cases hlookup : FIELD_COSTS.lookup key with
  | none => rfl
  | some c =>
      have hall : (FIELD_COSTS.all fun entry => inherited.all fun name =>
          !(name.toList.isSuffixOf entry.1.toList)) = true := by decide +kernel
      have hno := List.all_eq_true.mp (List.all_eq_true.mp hall _ (mem_of_lookup hlookup)) _ h
      rw [List.isSuffixOf_iff_suffix.mpr hkey] at hno
      cases hno

/-- An inherited key is a field name alone. -/
theorem costKey_of_inherited (h : costKey parent name ∈ inherited) : costKey parent name = name := by
  cases parent with
  | none => rfl
  | some parent =>
      rw [costKey] at h ⊢
      split
      · rfl
      · next hparent =>
          rw [if_neg hparent] at h
          have hall : (inherited.all fun name => !(name.toList.contains '.')) = true := by decide +kernel
          have hno := List.all_eq_true.mp hall _ h
          rw [String.toList_append, String.toList_append] at hno
          simp at hno

/-- **WHAT IS ADDED FOR A FIELD**: the table's cost with the name around it for a type,
    unless the name is inherited. -/
theorem fieldCost_eq (parent : Option String) (name : String) :
    fieldCost parent name = if name ∈ inherited then none else some (tableCost parent name) := by
  by_cases h : name ∈ inherited
  · have hkey := lookup_of_inherited h (costKey_suffix parent name)
    have hname := lookup_of_inherited h (List.suffix_refl name.toList)
    rw [if_pos h, fieldCost]
    simp only [property, hkey, hname, if_pos h]
    split
    · next cost hcost =>
        split at hcost
        · exact (Option.some.inj hcost).symm
        · cases hcost
    · rfl
  · rw [if_neg h, fieldCost, tableCost]
    cases hkey : FIELD_COSTS.lookup (costKey parent name) with
    | some cost =>
        simp only [property, hkey]
        rfl
    | none =>
        have hfree : costKey parent name ∉ inherited := by
          intro hin
          exact h (costKey_of_inherited hin ▸ hin)
        simp only [property, hkey, if_neg hfree, if_neg h]
        cases FIELD_COSTS.lookup name <;> rfl

/-- A visit leaves the stack as it was. -/
theorem visit_typeStack (s : Selections String) (v : Visit) : (visit s v).typeStack = v.typeStack := by
  induction s generalizing v with
  | nil => rfl
  | field name selections rest ihs ihr =>
      rw [visit, ihr, leave]
      show (visit selections (enter name v)).typeStack.tail = v.typeStack
      rw [ihs]
      rfl
  | spread name rest ihr => exact ihr v
  | inline typeCondition selections rest ihs ihr => rw [visit, ihr, ihs]

theorem plain_field {selections rest : Selections String} :
    Plain (.field name selections rest) ↔ name ∉ inherited ∧ Plain selections ∧ Plain rest := by
  rw [Plain, Selections.fields, List.forall_mem_cons, List.forall_mem_append]
  exact Iff.rfl

theorem plain_inline {typeCondition : Option String} {selections rest : Selections String} :
    Plain (.inline typeCondition selections rest) ↔ Plain selections ∧ Plain rest := by
  rw [Plain, Selections.fields, List.forall_mem_append]
  exact Iff.rfl

theorem add_none (a : Option Nat) : add a none = none := by
  cases a <;> rfl

/-- **WHAT A VISIT COUNTS**: each field once, or nothing any more. -/
theorem visit_complexity (s : Selections String) (v : Visit) : (visit s v).complexity =
    add v.complexity (if Plain s then some (counted v.typeStack.head? s) else none) := by
  induction s generalizing v with
  | nil =>
      rw [if_pos nofun]
      exact (add_zero_right v.complexity).symm
  | field name selections rest ihs ihr =>
      have hstack : (leave (visit selections (enter name v))).typeStack = v.typeStack := by
        show (visit selections (enter name v)).typeStack.tail = v.typeStack
        rw [visit_typeStack]
        rfl
      have hinner : (leave (visit selections (enter name v))).complexity =
          (visit selections (enter name v)).complexity := rfl
      rw [visit, ihr, hstack, hinner, ihs]
      show add (add (add v.complexity (fieldCost v.typeStack.head? name)) _) _ = _
      rw [add_assoc, add_assoc, fieldCost_eq]
      -- an inherited name anywhere makes the sum no number
      by_cases hname : name ∈ inherited
      · rw [if_pos hname, if_neg fun h => (plain_field.mp h).1 hname]
        rfl
      · by_cases hs : Plain selections
        · by_cases hr : Plain rest
          · rw [if_neg hname, if_pos hs, if_pos hr, if_pos (plain_field.mpr ⟨hname, hs, hr⟩), counted]
            show add _ (some (_ + (_ + _))) = _
            rw [Nat.add_assoc]
            rfl
          · rw [if_neg hr, add_none, add_none, if_neg fun h => hr (plain_field.mp h).2.2]
        · rw [if_neg hs, if_neg fun h => hs (plain_field.mp h).2.1]
          show add _ (add _ none) = _
          rw [add_none]
  | spread name rest ihr => exact ihr v
  | inline typeCondition selections rest ihs ihr =>
      rw [visit, ihr, visit_typeStack, ihs, add_assoc]
      by_cases hs : Plain selections
      · by_cases hr : Plain rest
        · rw [if_pos hs, if_pos hr, if_pos (plain_inline.mpr ⟨hs, hr⟩), counted]
          rfl
        · rw [if_neg hr, add_none, if_neg fun h => hr (plain_inline.mp h).2]
      · rw [if_neg hs, if_neg fun h => hs (plain_inline.mp h).1]
        rfl

theorem plain_cons {definition : Definition} {definitions : List Definition} :
    PlainDefinitions (definition :: definitions) ↔
      Plain definition.selections ∧ PlainDefinitions definitions := List.forall_mem_cons

/-- What the rule counts from definition to definition. -/
theorem foldl_visit (definitions : List Definition) (v : Visit) (hv : v.typeStack = []) :
    (definitions.foldl (fun v definition => visit definition.selections v) v).complexity =
      add v.complexity
        (if PlainDefinitions definitions then some (countedOnce definitions) else none) := by
  induction definitions generalizing v with
  | nil =>
      rw [if_pos nofun]
      exact (add_zero_right v.complexity).symm
  | cons definition definitions ih =>
      have hstack := visit_typeStack definition.selections v
      rw [List.foldl_cons, ih _ (hstack.trans hv), visit_complexity, hv, add_assoc]
      by_cases hone : Plain definition.selections
      · by_cases hrest : PlainDefinitions definitions
        · rw [if_pos hone, if_pos hrest, if_pos (plain_cons.mpr ⟨hone, hrest⟩)]
          rfl
        · rw [if_neg hrest, add_none, if_neg fun h => hrest (plain_cons.mp h).2]
      · rw [if_neg hone, if_neg fun h => hone (plain_cons.mp h).1]
        rfl

theorem visitDocument_complexity (document : Document) : (visitDocument document).complexity =
    if PlainDefinitions document.definitions then some (countedOnce document.definitions)
    else none := by
  rw [visitDocument, foldl_visit document.definitions _ rfl]
  split
  · show some (0 + _) = _
    rw [Nat.zero_add]
  · rfl

theorem expandedCost_eq (op : Operation) : expandedCost schema d op = spreadCost schema d op := by
  refine expand_eq_sum _ (fun fragment hfragment => ?_) _ _ _
  exact List.mem_toFinset.mpr (List.mem_map_of_mem hfragment)

/-- One limit. -/
theorem bounds_iff (op : Operation) (max : ℚ) : Bounds schema d op max ↔
    (PlainDefinitions d.document.definitions ∧ max < countedOnce d.document.definitions) ∨
      (spreadCost schema d op : ℚ) ≤ max := by
  rw [Bounds, complexityLimitRule, visitDocument_complexity, expandedCost_eq]
  by_cases hplain : PlainDefinitions d.document.definitions
  · rw [if_pos hplain]
    simp only [decide_eq_false_iff_not]
    tauto
  · rw [if_neg hplain]
    tauto

/-- **THE RULE BOUNDS AN OPERATION EXACTLY WHEN** no name is inherited and the costs for the
    parent types, each fragment's as often as it is spread, come to no more than those
    of all definitions once for the fields around; or, for one limit, when the latter
    are above it or the former are not. -/
theorem rule_bounds_iff (schema : Schema) (d : AcyclicDocument) (op : Operation) :
    ((∀ max, Bounds schema d op max) ↔
      PlainDefinitions d.document.definitions ∧ spreadCost schema d op ≤ countedOnce d.document.definitions) ∧
    ∀ max, Bounds schema d op max ↔
      (PlainDefinitions d.document.definitions ∧ max < countedOnce d.document.definitions) ∨
        (spreadCost schema d op : ℚ) ≤ max := by
  refine ⟨?_, bounds_iff op⟩
  constructor
  · intro h
    have hplain : PlainDefinitions d.document.definitions := by
      -- a limit just below the cost is exceeded, so the rule has to see all names
      rcases (bounds_iff op _).mp (h ((spreadCost schema d op : ℚ) - 1)) with ⟨hplain, -⟩ | hle
      · exact hplain
      · exact absurd hle (not_le.mpr (sub_one_lt _))
    refine ⟨hplain, ?_⟩
    rcases (bounds_iff op _).mp (h (countedOnce d.document.definitions)) with ⟨-, hlt⟩ | hle
    · exact absurd hlt (lt_irrefl _)
    · exact_mod_cast hle
  · rintro ⟨hplain, hle⟩ max
    refine (bounds_iff op max).mpr ?_
    rcases lt_or_ge max (countedOnce d.document.definitions : ℚ) with hlt | hge
    · exact .inl ⟨hplain, hlt⟩
    · exact .inr (le_trans (by exact_mod_cast hle) hge)

/-- The part of the schema that the sample selects. -/
def groupSchema : Schema where
  rootType := fun _ => some "Query"
  fieldType
    | "Query", "group" => some "Group"
    | "Group", "members" => some "Member"
    | "Member", "groups" => some "Group"
    | _, _ => none

/-- Some groups under aliases, each with the same fragment. -/
def aliasedGroups : Nat → Selections String
  | 0 => .nil
  | n + 1 => .field "group" (.spread "F" .nil) (aliasedGroups n)

/-- The groups of the members of a group. -/
def memberGroups : FragmentDefinition String :=
  ⟨"F", "Group", .field "members" (.field "groups" (.field "id" .nil .nil) .nil) .nil⟩

def tenGroups : AcyclicDocument where
  document := ⟨[.operation ⟨.query, aliasedGroups 10⟩, .fragment memberGroups]⟩
  acyclic := by
    intro name hcycle
    -- nothing is spread in the fragment
    obtain ⟨other, -, hspread⟩ := Relation.TransGen.tail'_iff.mp hcycle
    have hnone := mem_spreadNames hspread
    have hempty : spreadNames [memberGroups] = ∅ := rfl
    rw [show Document.fragments _ = [memberGroups] from rfl, hempty] at hnone
    exact absurd hnone (Finset.notMem_empty other)

/-- Thirty-one is counted and reported as no error; the ten groups cost a hundred and twenty. -/
theorem ten_groups_pass : ¬ Bounds groupSchema tenGroups ⟨.query, aliasedGroups 10⟩ 100 := by
  have hpass : complexityLimitRule 100 tenGroups.document = false := by decide +kernel
  have hcost : expandedCost groupSchema tenGroups ⟨.query, aliasedGroups 10⟩ = 120 := by
    decide +kernel
  intro h
  have hle := h hpass
  rw [hcost] at hle
  have hnat : 120 ≤ 100 := by exact_mod_cast hle
  omega

end Rule

end Complexity
