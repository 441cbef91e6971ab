import Mathlib.Data.List.Induction
import Mathlib.Data.List.Nodup
import Mathlib.Tactic.Common

/-! # Ordered maps — entries in the order their keys were first set

    A key set again keeps its place.  A map whose keys are distinct is determined, up to that
    order, by what `get` finds in it. -/

namespace OrderedMap

variable {K V : Type} [DecidableEq K]

/-- What is under a key. -/
def get (m : List (K × V)) (k : K) : Option V := (m.find? fun e => decide (e.1 = k)).map Prod.snd

def keys (m : List (K × V)) : List K := m.map Prod.fst

def values (m : List (K × V)) : List V := m.map Prod.snd

/-- The value under a key, changed in place. -/
def modify (m : List (K × V)) (k : K) (f : V → V) : List (K × V) :=
  m.map fun e => if e.1 = k then (e.1, f e.2) else e

def set (m : List (K × V)) (k : K) (v : V) : List (K × V) :=
  if (get m k).isSome then modify m k fun _ => v else m ++ [(k, v)]

def delete (m : List (K × V)) (k : K) : List (K × V) := m.filter fun e => decide (e.1 ≠ k)

section Lemmas

variable {m : List (K × V)} {k j : K} {v : V}

/-- The first entry answers for its key. -/
theorem get_cons (e : K × V) : get (e :: m) k = if e.1 = k then some e.2 else get m k := by
  rw [get, List.find?_cons]
  by_cases h : e.1 = k
  · rw [if_pos h, decide_eq_true h]
    rfl
  · rw [if_neg h, decide_eq_false h]
    rfl

/-- Nothing is found where the key is missing. -/
theorem get_eq_none_iff : get m k = none ↔ k ∉ keys m := by
  induction m with
  | nil => exact ⟨fun _ => List.not_mem_nil, fun _ => rfl⟩
  | cons e m ih =>
      rw [get_cons, keys, List.map_cons, List.mem_cons, not_or]
      by_cases h : e.1 = k
      · rw [if_pos h]
        exact ⟨fun hs => absurd hs (Option.some_ne_none e.2), fun hk => absurd h.symm hk.1⟩
      · rw [if_neg h, ih]
        exact ⟨fun hk => ⟨Ne.symm h, hk⟩, fun hk => hk.2⟩

/-- What is found is an entry. -/
theorem mem_of_get (h : get m k = some v) : (k, v) ∈ m := by
  induction m with
  | nil => exact absurd h.symm (Option.some_ne_none v)
  | cons e m ih =>
      rw [get_cons] at h
      by_cases he : e.1 = k
      · rw [if_pos he] at h
        obtain rfl := Option.some.inj h
        exact he ▸ List.mem_cons_self
      · rw [if_neg he] at h
        exact List.mem_cons_of_mem e (ih h)

/-- Where the keys are distinct, each entry is found. -/
theorem get_of_mem (hnodup : (keys m).Nodup) (h : (k, v) ∈ m) : get m k = some v := by
  induction m with
  | nil => exact absurd h List.not_mem_nil
  | cons e m ih =>
      obtain ⟨hnew, hrest⟩ := List.nodup_cons.mp hnodup
      rw [get_cons]
      rcases List.mem_cons.mp h with rfl | htail
      · rw [if_pos rfl]
      · have hne : ¬ e.1 = k := fun he => hnew (he ▸ List.mem_map.mpr ⟨(k, v), htail, rfl⟩)
        rw [if_neg hne]
        exact ih hrest htail

/-- A change at one key is seen there only. -/
theorem get_modify {f : V → V} : get (modify m k f) j = if j = k then (get m k).map f else get m j := by
  induction m with
  | nil => exact (ite_self _).symm
  | cons e m ih =>
      rw [modify, List.map_cons, get_cons, get_cons, get_cons, ← modify, ih]
      by_cases hk : e.1 = k
      · by_cases hj : j = k
        · have he : e.1 = j := hk.trans hj.symm
          rw [if_pos hk, if_pos he, if_pos hj, if_pos hk]
          rfl
        · have he : ¬ e.1 = j := fun h => hj (h.symm.trans hk)
          rw [if_pos hk, if_neg he, if_neg hj, if_neg hj, if_neg he]
      · rw [if_neg hk, if_neg hk]
        by_cases hj : j = k
        · have he : ¬ e.1 = j := fun h => hk (h.trans hj)
          rw [if_neg he, if_pos hj, if_pos hj]
        · rw [if_neg hj, if_neg hj]

/-- It moves no key. -/
theorem keys_modify {f : V → V} : keys (modify m k f) = keys m := by
  rw [keys, modify, List.map_map]
  refine List.map_congr_left fun e _ => ?_
  show (if e.1 = k then (e.1, f e.2) else e).1 = e.1
  split_ifs <;> rfl

/-- An entry under a new key is found, and the others still are. -/
theorem get_append_new (hnone : get m k = none) :
    get (m ++ [(k, v)]) j = if j = k then some v else get m j := by
  induction m with
  | nil =>
      rw [List.nil_append, get_cons]
      by_cases hj : j = k
      · rw [if_pos hj, if_pos hj.symm]
      · rw [if_neg hj, if_neg (Ne.symm hj)]
  | cons e m ih =>
      rw [get_cons] at hnone
      by_cases hk : e.1 = k
      · rw [if_pos hk] at hnone
        exact absurd hnone (Option.some_ne_none e.2)
      · rw [if_neg hk] at hnone
        rw [List.cons_append, get_cons, get_cons, ih hnone]
        by_cases hj : j = k
        · rw [if_pos hj, if_pos hj, if_neg (fun h : e.1 = j => hk (h.trans hj))]
        · rw [if_neg hj, if_neg hj]

/-- **SET, THEN GET**. -/
theorem get_set : get (set m k v) j = if j = k then some v else get m j := by
  rw [set]
  by_cases hsome : (get m k).isSome
  · obtain ⟨w, hw⟩ := Option.isSome_iff_exists.mp hsome
    rw [if_pos hsome, get_modify, hw]
    rfl
  · rw [if_neg hsome, get_append_new (Option.not_isSome_iff_eq_none.mp hsome)]

/-- **DELETE, THEN GET**. -/
theorem get_delete : get (delete m k) j = if j = k then none else get m j := by
  induction m with
  | nil => exact (ite_self _).symm
  | cons e m ih =>
      rw [delete] at ih
      by_cases hk : e.1 = k
      · rw [delete, List.filter_cons_of_neg (by simpa using hk), ih, get_cons]
        by_cases hj : j = k
        · rw [if_pos hj, if_pos hj]
        · rw [if_neg hj, if_neg hj, if_neg (fun h : e.1 = j => hj (h.symm.trans hk))]
      · rw [delete, List.filter_cons_of_pos (by simpa using hk), get_cons, get_cons, ih]
        by_cases hj : j = k
        · rw [if_pos hj, if_neg (fun h : e.1 = j => hk (h.trans hj)), if_pos hj]
        · rw [if_neg hj, if_neg hj]

/-- A key is there exactly if something is found under it. -/
theorem mem_keys_iff : k ∈ keys m ↔ (get m k).isSome := by
  rw [← not_iff_not, ← get_eq_none_iff, Option.not_isSome_iff_eq_none]

/-- A write repeats no key. -/
theorem nodup_set (h : (keys m).Nodup) : (keys (set m k v)).Nodup := by
  rw [set]
  by_cases hsome : (get m k).isSome
  · rw [if_pos hsome, keys_modify]
    exact h
  · rw [if_neg hsome, keys, List.map_append]
    have hnew : k ∉ keys m := get_eq_none_iff.mp (Option.not_isSome_iff_eq_none.mp hsome)
    exact h.append (List.nodup_singleton k) (List.disjoint_singleton.mpr hnew)

/-- Nor does a deletion. -/
theorem nodup_delete (h : (keys m).Nodup) : (keys (delete m k)).Nodup :=
  h.sublist (List.filter_sublist.map Prod.fst)

/-- Where no key has a value there are no entries. -/
theorem eq_nil_of_get (h : ∀ k, get m k = none) : m = [] := by
  cases m with
  | nil => rfl
  | cons e m =>
      have hnone := h e.1
      rw [get_cons, if_pos rfl] at hnone
      exact absurd hnone (Option.some_ne_none e.2)

/-- A value is one under some key. -/
theorem mem_values_iff (h : (keys m).Nodup) : v ∈ values m ↔ ∃ k, get m k = some v := by
  rw [values, List.mem_map]
  constructor
  · rintro ⟨⟨k, w⟩, hmem, rfl⟩
    exact ⟨k, get_of_mem h hmem⟩
  · rintro ⟨k, hk⟩
    exact ⟨(k, v), mem_of_get hk, rfl⟩

end Lemmas

section Folds

variable {W X : Type} {m : List (K × V)} {o : List (K × W)} {k : K}

/-- The values of each key, in their order. -/
def group (key : X → K) (xs : List X) : List (K × List X) :=
  xs.foldl (fun m x => set m (key x) ((get m (key x)).getD [] ++ [x])) []

variable {key : X → K}

end Folds

end OrderedMap
