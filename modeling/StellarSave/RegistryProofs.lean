import StellarSave.OrderedMapProofs

/-! # Registries — a map from keys to sets that drops its empty ones

    The members of each set stand in the order they came in. -/

namespace Registry

open OrderedMap

variable {K V : Type} [DecidableEq K] [DecidableEq V]

/-- An empty set where there is none. -/
def ensure (r : List (K × List V)) (k : K) : List (K × List V) :=
  if (get r k).isSome then r else OrderedMap.set r k []

/-- A member added to the set of a key. -/
def add (r : List (K × List V)) (k : K) (v : V) : List (K × List V) :=
  modify (ensure r k) k fun set => if v ∈ set then set else set ++ [v]

/-- A member taken out; a set left empty goes. -/
def drop (r : List (K × List V)) (k : K) (v : V) : List (K × List V) :=
  let left := modify r k fun set => set.filter fun x => decide (x ≠ v)
  if get left k = some [] then delete left k else left

/-- A set as an entry: none when it is empty. -/
def entry (set : List V) : Option (List V) := if set = [] then none else some set

section Sets

variable {r : List (K × List V)} {k j : K} {v : V} {set : List V}

omit [DecidableEq V] in
theorem get_ensure : get (ensure r k) j = if j = k then some ((get r k).getD []) else get r j := by
  rw [ensure]
  by_cases hsome : (get r k).isSome
  · rw [if_pos hsome]
    obtain ⟨set, hset⟩ := Option.isSome_iff_exists.mp hsome
    by_cases hj : j = k
    · rw [if_pos hj, hj, hset]
      rfl
    · rw [if_neg hj]
  · rw [if_neg hsome, get_set, Option.not_isSome_iff_eq_none.mp hsome]
    rfl

omit [DecidableEq V] in
theorem getD_entry : (entry set).getD [] = set := by
  rw [entry]
  by_cases h : set = []
  · rw [if_pos h, h]
    rfl
  · rw [if_neg h]
    rfl

/-- **A MEMBER IN**: last in the set of its key; the other sets are what they were. -/
theorem get_add (hget : get r k = entry set) (hv : v ∉ set) :
    get (add r k v) j = if j = k then entry (set ++ [v]) else get r j := by
  rw [add, get_modify, get_ensure, get_ensure]
  by_cases hj : j = k
  · have hsome : set ++ [v] ≠ [] := List.append_ne_nil_of_right_ne_nil _ (List.cons_ne_nil v [])
    rw [if_pos hj, if_pos rfl, if_pos hj, hget, getD_entry, Option.map_some, if_neg hv, entry, if_neg hsome]
  · rw [if_neg hj, if_neg hj, if_neg hj]

/-- **A MEMBER OUT**: no empty set stays. -/
theorem get_drop (hget : get r k = entry set) :
    get (drop r k v) j = if j = k then entry (set.filter fun x => decide (x ≠ v)) else get r j := by
  have hleft : get (modify r k fun set => set.filter fun x => decide (x ≠ v)) k =
      (entry set).map fun set => set.filter fun x => decide (x ≠ v) := by
    rw [get_modify, if_pos rfl, hget]
  rw [drop, hleft]
  by_cases hset : set = []
  · have hnone : ¬ (entry set).map (fun set => set.filter fun x => decide (x ≠ v)) = some [] := by
      rw [entry, if_pos hset]
      exact fun h => Option.some_ne_none [] h.symm
    rw [if_neg hnone, get_modify, hget, hset]
    rfl
  · rw [entry, if_neg hset, Option.map_some]
    by_cases hempty : set.filter (fun x => decide (x ≠ v)) = []
    · rw [if_pos (congrArg some hempty), get_delete, get_modify, entry, if_pos hempty]
      by_cases hj : j = k
      · rw [if_pos hj, if_pos hj]
      · rw [if_neg hj, if_neg hj, if_neg hj]
    · rw [if_neg (fun h => hempty (Option.some.inj h)), get_modify, hget, entry, if_neg hset, entry,
        if_neg hempty, Option.map_some]

end Sets

end Registry
