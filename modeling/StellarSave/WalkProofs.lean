import Mathlib

/-! # Walks — loops over a list by index that take elements out of it

    A loop goes through a list by index and removes some elements on the way, each by its
    key.  Going down it sees every element.  Going up it misses the one after each that
    it removes: that one moves to the index the loop has just done with. -/

namespace Walk

variable {α κ β : Type} [DecidableEq κ] (key : α → κ) (drop : α → Bool) (visit : α → β → β)

/-- Take out the element with a key. -/
def remove (k : κ) (xs : List α) : List α := xs.filter fun x => decide (key x ≠ k)

/-- `for (i = 0; i < xs.length; i++)`, for as many rounds as there are elements. -/
def walkUp : Nat → Nat → List α → β → List α × β
  | 0, _, xs, acc => (xs, acc)
  | rounds + 1, i, xs, acc =>
      match xs[i]? with
      | none => (xs, acc)
      | some x =>
          walkUp rounds (i + 1) (if drop x = true then remove key (key x) xs else xs) (visit x acc)

/-- `for (i = xs.length - 1; i >= 0; i--)`. -/
def walkDown : Nat → List α → List α
  | 0, xs => xs
  | i + 1, xs =>
      match xs[i]? with
      | none => walkDown i xs
      | some x => walkDown i (if drop x = true then remove key (key x) xs else xs)

/-- The elements that a walk up sees. -/
def visited : List α → List α
  | [] => []
  | [x] => [x]
  | x :: y :: rest => if drop x = true then x :: visited rest else x :: visited (y :: rest)

/-- The elements that it leaves. -/
def kept : List α → List α
  | [] => []
  | [x] => if drop x = true then [] else [x]
  | x :: y :: rest => if drop x = true then y :: kept rest else x :: kept (y :: rest)

section Removing

variable {key drop} (front rest : List α) {x : α}

/-- Where keys are distinct one element is taken out, at its place. -/
theorem remove_append {front rest : List α} (h : ((front ++ x :: rest).map key).Nodup) :
    remove key (key x) (front ++ x :: rest) = front ++ rest := by
  rw [List.map_append, List.map_cons, List.nodup_append] at h
  obtain ⟨-, hrest, hfront⟩ := h
  obtain ⟨hx, -⟩ := List.nodup_cons.mp hrest
  have hleft : front.filter (fun y => decide (key y ≠ key x)) = front := by
    refine List.filter_eq_self.mpr fun y hy => decide_eq_true ?_
    exact hfront (key y) (List.mem_map_of_mem hy) (key x) List.mem_cons_self
  have hright : rest.filter (fun y => decide (key y ≠ key x)) = rest := by
    refine List.filter_eq_self.mpr fun y hy => decide_eq_true fun hsame => hx ?_
    rw [← hsame]
    exact List.mem_map_of_mem hy
  rw [remove, List.filter_append, List.filter_cons_of_neg (by simp), hleft, hright]

omit [DecidableEq κ] in
theorem nodup_without {front rest : List α} (h : ((front ++ x :: rest).map key).Nodup) : ((front ++ rest).map key).Nodup := by
  refine h.sublist (List.Sublist.map key ?_)
  exact List.Sublist.append (List.Sublist.refl front) (List.sublist_cons_self x rest)

/-- **GOING DOWN** everything is seen. -/
theorem walkDown_append (h : ((front ++ rest).map key).Nodup) :
    walkDown key drop front.length (front ++ rest) = front.filter (fun x => !drop x) ++ rest := by
  induction front using List.reverseRecOn generalizing rest with
  | nil => rfl
  | append_singleton front x ih =>
      rw [List.append_assoc, List.singleton_append] at h ⊢
      rw [List.length_append, List.length_singleton, walkDown, List.getElem?_append_right (le_refl _),
        Nat.sub_self, List.filter_append]
      show walkDown key drop front.length (if drop x = true then _ else _) = _
      cases hdrop : drop x with
      | true =>
          rw [if_pos rfl, remove_append h, ih rest (nodup_without h), List.filter_cons_of_neg (by simp [hdrop])]
          simp
      | false =>
          rw [if_neg Bool.false_ne_true, ih (x :: rest) h, List.filter_cons_of_pos (by simp [hdrop])]
          simp

theorem walkDown_eq {xs : List α} (h : (xs.map key).Nodup) :
    walkDown key drop xs.length xs = xs.filter fun x => !drop x := by
  have hdown : walkDown key drop xs.length (xs ++ []) = _ := walkDown_append xs [] (by rwa [List.append_nil])
  rwa [List.append_nil, List.append_nil] at hdown

end Removing

section Up

variable {key drop visit} {xs : List α} {x : α}

/-- **GOING UP** the loop sees the visited and leaves the kept. -/
theorem walkUp_append (front rest : List α) (rounds : Nat) (hrounds : rest.length ≤ rounds)
    (h : ((front ++ rest).map key).Nodup) (acc : β) :
    walkUp key drop visit rounds front.length (front ++ rest) acc =
      (front ++ kept drop rest, (visited drop rest).foldl (fun a x => visit x a) acc) := by
  induction rest using visited.induct drop generalizing front rounds acc with
  | case1 =>
      rw [List.append_nil]
      cases rounds with
      | zero =>
          rw [kept, List.append_nil]
          rfl
      | succ rounds =>
          rw [walkUp, List.getElem?_eq_none (le_refl _), kept, List.append_nil]
          rfl
  | case2 x =>
      obtain ⟨rounds, rfl⟩ : ∃ n, rounds = n + 1 := ⟨rounds - 1, by simp only [List.length_singleton] at hrounds; omega⟩
      rw [walkUp, List.getElem?_append_right (le_refl _), Nat.sub_self]
      show walkUp key drop visit rounds (front.length + 1) (if drop x = true then _ else _) (visit x acc) = _
      have hend : ∀ ys : List α, ys.length ≤ front.length + 1 →
          walkUp key drop visit rounds (front.length + 1) ys (visit x acc) = (ys, visit x acc) := by
        intro ys hys
        cases rounds with
        | zero => rfl
        | succ rounds => rw [walkUp, List.getElem?_eq_none hys]
      cases hdrop : drop x with
      | true =>
          rw [if_pos rfl, remove_append h, List.append_nil, hend front (Nat.le_succ _), kept, if_pos hdrop,
            List.append_nil]
          rfl
      | false =>
          rw [if_neg Bool.false_ne_true, hend _ (by simp), kept, if_neg (by rw [hdrop]; exact Bool.false_ne_true)]
          rfl
  | case3 x y rest hdrop ih =>
      -- the next element moves to this index and is passed over
      obtain ⟨rounds, rfl⟩ : ∃ n, rounds = n + 1 := ⟨rounds - 1, by simp only [List.length_cons] at hrounds; omega⟩
      rw [walkUp, List.getElem?_append_right (le_refl _), Nat.sub_self]
      show walkUp key drop visit rounds (front.length + 1) (if drop x = true then _ else _) (visit x acc) = _
      rw [if_pos hdrop, remove_append h, kept, visited, if_pos hdrop, if_pos hdrop]
      have hnext := ih (front ++ [y]) rounds
        (by simp only [List.length_cons] at hrounds; omega)
        (by rw [List.append_assoc, List.singleton_append]; exact nodup_without h) (visit x acc)
      rw [List.length_append, List.length_singleton, List.append_assoc, List.append_assoc] at hnext
      exact hnext
  | case4 x y rest hdrop ih =>
      obtain ⟨rounds, rfl⟩ : ∃ n, rounds = n + 1 := ⟨rounds - 1, by simp only [List.length_cons] at hrounds; omega⟩
      rw [walkUp, List.getElem?_append_right (le_refl _), Nat.sub_self]
      show walkUp key drop visit rounds (front.length + 1) (if drop x = true then _ else _) (visit x acc) = _
      rw [if_neg hdrop, kept, visited, if_neg hdrop, if_neg hdrop]
      have hnext := ih (front ++ [x]) rounds
        (by simp only [List.length_cons] at hrounds ⊢; omega)
        (by rw [List.append_assoc, List.singleton_append]; exact h) (visit x acc)
      rw [List.length_append, List.length_singleton, List.append_assoc, List.append_assoc] at hnext
      exact hnext

theorem walkUp_eq (h : (xs.map key).Nodup) (acc : β) :
    walkUp key drop visit xs.length 0 xs acc =
      (kept drop xs, (visited drop xs).foldl (fun a x => visit x a) acc) :=
  walkUp_append [] xs xs.length (le_refl _) h acc

end Up

/-! ## What is missed -/

section Missed

variable {drop} {xs : List α} {x : α}

theorem visited_sublist (xs : List α) : (visited drop xs).Sublist xs := by
  induction xs using visited.induct drop with
  | case1 => exact List.Sublist.refl _
  | case2 y => exact List.Sublist.refl _
  | case3 y z rest hdrop ih =>
      rw [visited, if_pos hdrop]
      exact (ih.cons z).cons_cons y
  | case4 y z rest hdrop ih =>
      rw [visited, if_neg hdrop]
      exact ih.cons_cons y

theorem mem_of_visited (h : x ∈ visited drop xs) : x ∈ xs := (visited_sublist xs).subset h

/-- What is left are the elements that were not seen, and those that were to stay. -/
theorem mem_kept (hnodup : xs.Nodup) :
    x ∈ kept drop xs ↔ x ∈ xs ∧ (x ∈ visited drop xs → drop x = false) := by
  -- the walk goes on past an item it keeps, and skips the one after an item it drops
  induction xs using visited.induct drop with
  | case1 => simp [kept]
  | case2 y =>
      rw [kept, visited]
      cases hdrop : drop y with
      | true =>
          rw [if_pos rfl]
          refine iff_of_false (by simp) ?_
          rintro ⟨hmem, hstays⟩
          have := hstays hmem
          rw [List.mem_singleton.mp hmem, hdrop] at this
          exact nomatch this
      | false =>
          rw [if_neg Bool.false_ne_true]
          refine ⟨fun hmem => ⟨hmem, fun _ => ?_⟩, fun h => h.1⟩
          rw [List.mem_singleton.mp hmem, hdrop]
  | case3 y z rest hdrop ih =>
      obtain ⟨hy, hrest⟩ := List.nodup_cons.mp hnodup
      obtain ⟨hz, hrest⟩ := List.nodup_cons.mp hrest
      have hyrest : y ∉ rest := fun hmem => hy (List.mem_cons_of_mem z hmem)
      rw [kept, visited, if_pos hdrop, if_pos hdrop, List.mem_cons, ih hrest, List.mem_cons, List.mem_cons,
        List.mem_cons]
      constructor
      · rintro (rfl | ⟨hmem, hstays⟩)
        · refine ⟨Or.inr (Or.inl rfl), ?_⟩
          rintro (rfl | hseen)
          · exact absurd List.mem_cons_self hy
          · exact absurd (mem_of_visited hseen) hz
        · refine ⟨Or.inr (Or.inr hmem), ?_⟩
          rintro (rfl | hseen)
          · exact absurd hmem hyrest
          · exact hstays hseen
      · rintro ⟨rfl | rfl | hmem, hstays⟩
        · exact absurd (hstays (Or.inl rfl)) (by rw [hdrop]; exact nofun)
        · exact Or.inl rfl
        · exact Or.inr ⟨hmem, fun hseen => hstays (Or.inr hseen)⟩
  | case4 y z rest hdrop ih =>
      obtain ⟨hy, hrest⟩ := List.nodup_cons.mp hnodup
      rw [kept, visited, if_neg hdrop, if_neg hdrop]
      constructor
      · intro hkept
        obtain rfl | hkept := List.mem_cons.mp hkept
        · exact ⟨List.mem_cons_self, fun _ => Bool.eq_false_iff.mpr hdrop⟩
        · obtain ⟨hmem, hstays⟩ := (ih hrest).mp hkept
          refine ⟨List.mem_cons_of_mem y hmem, fun hseen => ?_⟩
          obtain rfl | hseen := List.mem_cons.mp hseen
          · exact Bool.eq_false_iff.mpr hdrop
          · exact hstays hseen
      · rintro ⟨hmem, hstays⟩
        obtain rfl | hmem := List.mem_cons.mp hmem
        · exact List.mem_cons_self
        · exact List.mem_cons_of_mem y
            ((ih hrest).mpr ⟨hmem, fun hseen => hstays (List.mem_cons_of_mem y hseen)⟩)

/-- **NOTHING THAT COUNTS IS MISSED** exactly when nothing that counts directly follows what
    is removed. -/
theorem visited_all_iff (counts : α → Prop) (hdrops : ∀ x, drop x = true → counts x)
    (hnodup : xs.Nodup) :
    (∀ x ∈ xs, counts x → x ∈ visited drop xs) ↔ xs.IsChain fun x y => drop x = true → ¬ counts y := by
  induction xs using visited.induct drop with
  | case1 => simp
  | case2 y => simp [visited]
  -- the item after a dropped one is skipped, so it must not be one that counts
  | case3 y z rest hdrop ih =>
      obtain ⟨hy, hrest⟩ := List.nodup_cons.mp hnodup
      obtain ⟨hz, hrest⟩ := List.nodup_cons.mp hrest
      rw [visited, if_pos hdrop, List.isChain_cons_cons]
      constructor
      · intro hall
        have hnot : ¬ counts z := by
          intro hcounts
          obtain rfl | hseen := List.mem_cons.mp (hall z (by simp) hcounts)
          · exact hy List.mem_cons_self
          · exact hz (mem_of_visited hseen)
        have hchain := (ih hrest).mp fun x hx hcounts => by
          obtain rfl | hseen := List.mem_cons.mp (hall x (by simp [hx]) hcounts)
          · exact absurd (List.mem_cons_of_mem z hx) hy
          · exact hseen
        refine ⟨fun _ => hnot, ?_⟩
        cases rest with
        | nil => exact List.IsChain.singleton z
        | cons w rest => exact List.isChain_cons_cons.mpr ⟨fun hz => absurd (hdrops z hz) hnot, hchain⟩
      · rintro ⟨hnot, hchain⟩ x hx hcounts
        obtain rfl | hx := List.mem_cons.mp hx
        · exact List.mem_cons_self
        · obtain rfl | hx := List.mem_cons.mp hx
          · exact absurd hcounts (hnot hdrop)
          · exact List.mem_cons_of_mem _ ((ih hrest).mpr hchain.of_cons x hx hcounts)
  | case4 y z rest hdrop ih =>
      obtain ⟨hy, hrest⟩ := List.nodup_cons.mp hnodup
      rw [visited, if_neg hdrop, List.isChain_cons_cons]
      constructor
      · intro hall
        refine ⟨fun hy => absurd hy hdrop, (ih hrest).mp fun x hx hcounts => ?_⟩
        obtain rfl | hseen := List.mem_cons.mp (hall x (List.mem_cons_of_mem y hx) hcounts)
        · exact absurd hx hy
        · exact hseen
      · rintro ⟨-, hchain⟩ x hx hcounts
        obtain rfl | hx := List.mem_cons.mp hx
        · exact List.mem_cons_self
        · exact List.mem_cons_of_mem _ ((ih hrest).mpr hchain x hx hcounts)

end Missed

end Walk
