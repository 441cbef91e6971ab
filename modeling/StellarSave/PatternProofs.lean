import Mathlib.Data.List.Basic
import Mathlib.Tactic.Common

/-! # Patterns — a greedy matcher, a sticky one, and what they look for

    A pattern is a row of atoms: one symbol, the edge of a word, any symbols but
    those a dot leaves out.  `Reads` says what a pattern matches, `matchHere` looks
    for the match the language finds first, and `test` looks on from where it
    stopped the time before. -/

namespace Pattern

/-- Which symbols make up words, and which a dot matches. -/
structure Alphabet (α : Type) where
  isWord : α → Bool
  isDot : α → Bool

/-- One piece of a pattern. -/
inductive Atom (α : Type) where
  | one (accepts : α → Bool)
  | boundary
  | dots

variable {α : Type} (A : Alphabet α)

/-- `\b`: a word begins or ends here. -/
def atBoundary (prev : Option α) (rest : List α) : Bool :=
  prev.any A.isWord != rest.head?.any A.isWord

/-- `.*`: as far as it goes, then back until the rest of the pattern fits. -/
def greedy (next : Option α → List α → Option Nat) : Option α → List α → Option Nat
  | prev, [] => next prev []
  | prev, c :: rest =>
      if A.isDot c = true then
        match greedy next (some c) rest with
        | some n => some (n + 1)
        | none => next prev (c :: rest)
      else next prev (c :: rest)

/-- How much the pattern matches right here, if it does; `prev` is what comes before. -/
def matchHere : List (Atom α) → Option α → List α → Option Nat
  | [] => fun _ _ => some 0
  | .one accepts :: atoms => fun _ rest =>
      match rest with
      | [] => none
      | c :: rest => if accepts c = true then (matchHere atoms (some c) rest).map (· + 1) else none
  | .boundary :: atoms => fun prev rest =>
      if atBoundary A prev rest = true then matchHere atoms prev rest else none
  | .dots :: atoms => greedy A (matchHere atoms)

/-- What is matched, between what comes before and what is left. -/
inductive Reads : List (Atom α) → Option α → List α → List α → Prop
  | done (prev : Option α) (rest : List α) : Reads [] prev [] rest
  | one {accepts : α → Bool} {atoms : List (Atom α)} {c : α} {matched rest : List α}
      (prev : Option α) (hc : accepts c = true) (h : Reads atoms (some c) matched rest) :
      Reads (.one accepts :: atoms) prev (c :: matched) rest
  | boundary {atoms : List (Atom α)} {prev : Option α} {matched rest : List α}
      (hedge : atBoundary A prev (matched ++ rest) = true) (h : Reads atoms prev matched rest) :
      Reads (.boundary :: atoms) prev matched rest
  | stop {atoms : List (Atom α)} {prev : Option α} {matched rest : List α}
      (h : Reads atoms prev matched rest) : Reads (.dots :: atoms) prev matched rest
  | more {atoms : List (Atom α)} {c : α} {matched rest : List α} (prev : Option α)
      (hc : A.isDot c = true) (h : Reads (.dots :: atoms) (some c) matched rest) :
      Reads (.dots :: atoms) prev (c :: matched) rest

section Here

variable {A} {atoms : List (Atom α)} {prev : Option α} {text : List α} {n : Nat}

/-- What `matchHere` says it matched, is matched. -/
def Finds (atoms : List (Atom α)) (prev : Option α) (text : List α) (n : Nat) : Prop :=
  ∃ matched rest, text = matched ++ rest ∧ matched.length = n ∧ Reads A atoms prev matched rest

theorem greedy_sound {next : Option α → List α → Option Nat}
    (hnext : ∀ prev text n, next prev text = some n → Finds (A := A) atoms prev text n)
    (h : greedy A next prev text = some n) : Finds (A := A) (.dots :: atoms) prev text n := by
  -- to stop here is to match nothing more
  have hstop : ∀ {prev text n}, next prev text = some n →
      Finds (A := A) (.dots :: atoms) prev text n := by
    intro prev text n hn
    obtain ⟨matched, rest, hsplit, hlength, hreads⟩ := hnext prev text n hn
    exact ⟨matched, rest, hsplit, hlength, .stop hreads⟩
  -- as far as it goes first, and back from there
  induction text generalizing prev n with
  | nil => exact hstop h
  | cons c text ih =>
      rw [greedy] at h
      by_cases hdot : A.isDot c = true
      · rw [if_pos hdot] at h
        cases hmore : greedy A next (some c) text with
        | none =>
            rw [hmore] at h
            exact hstop h
        | some k =>
            rw [hmore] at h
            obtain rfl := Option.some.inj h
            obtain ⟨matched, rest, rfl, rfl, hreads⟩ := ih hmore
            exact ⟨c :: matched, rest, rfl, rfl, .more prev hdot hreads⟩
      · rw [if_neg hdot] at h
        exact hstop h

/-- **SOUND**, by induction along the pattern. -/
theorem matchHere_sound (h : matchHere A atoms prev text = some n) :
    Finds (A := A) atoms prev text n := by
  -- one atom after the other, each from where the one before it ended
  induction atoms generalizing prev text n with
  | nil =>
      obtain rfl := Option.some.inj h
      exact ⟨[], text, rfl, rfl, .done prev text⟩
  | cons atom atoms ih =>
      cases atom with
      | one accepts =>
          cases text with
          | nil => cases h
          | cons c text =>
              have h' : (if accepts c = true then (matchHere A atoms (some c) text).map (· + 1)
                  else none) = some n := h
              by_cases hc : accepts c = true
              · rw [if_pos hc, Option.map_eq_some_iff] at h'
                obtain ⟨k, hk, rfl⟩ := h'
                obtain ⟨matched, rest, rfl, rfl, hreads⟩ := ih hk
                exact ⟨c :: matched, rest, rfl, rfl, .one prev hc hreads⟩
              · rw [if_neg hc] at h'
                cases h'
      | boundary =>
          have h' : (if atBoundary A prev text = true then matchHere A atoms prev text else none)
              = some n := h
          by_cases hedge : atBoundary A prev text = true
          · rw [if_pos hedge] at h'
            obtain ⟨matched, rest, rfl, hlength, hreads⟩ := ih h'
            exact ⟨matched, rest, rfl, hlength, .boundary hedge hreads⟩
          · rw [if_neg hedge] at h'
            cases h'
      | dots => exact greedy_sound (fun _ _ _ hn => ih hn) h

theorem greedy_of_next {next : Option α → List α → Option Nat} (h : (next prev text).isSome) :
    (greedy A next prev text).isSome := by
  cases text with
  | nil => exact h
  | cons c text =>
      rw [greedy]
      by_cases hdot : A.isDot c = true
      · rw [if_pos hdot]
        cases greedy A next (some c) text with
        | none => exact h
        | some n => rfl
      · rw [if_neg hdot]
        exact h

/-- **COMPLETE**: where there is a match one is found, by induction on the match. -/
theorem matchHere_complete {matched rest : List α} (h : Reads A atoms prev matched rest) :
    (matchHere A atoms prev (matched ++ rest)).isSome := by
  induction h with
  | done prev rest => rfl
  | @one accepts atoms c matched rest prev hc h ih =>
      show (if accepts c = true then (matchHere A atoms (some c) (matched ++ rest)).map (· + 1)
        else none).isSome
      rw [if_pos hc, Option.isSome_map]
      exact ih
  | @boundary atoms prev matched rest hedge h ih =>
      show (if atBoundary A prev (matched ++ rest) = true then
        matchHere A atoms prev (matched ++ rest) else none).isSome
      rw [if_pos hedge]
      exact ih
  | stop h ih => exact greedy_of_next ih
  | @more atoms c matched rest prev hc h ih =>
      show (greedy A (matchHere A atoms) prev (c :: (matched ++ rest))).isSome
      rw [greedy, if_pos hc]
      obtain ⟨n, hn⟩ := Option.isSome_iff_exists.mp ih
      have hmore : greedy A (matchHere A atoms) (some c) (matched ++ rest) = some n := hn
      rw [hmore]
      rfl

end Here

/-! ## Anywhere in a text -/

/-- The symbol before an index. -/
def before (text : List α) (i : Nat) : Option α := (text.take i).getLast?

/-- The pattern matches from the index on. -/
def OccursAt (atoms : List (Atom α)) (text : List α) (i : Nat) : Prop :=
  i ≤ text.length ∧ ∃ matched rest, text.drop i = matched ++ rest ∧
    Reads A atoms (before text i) matched rest

/-- Look for the first place from here on; the end of the match found there. -/
def searchFrom (atoms : List (Atom α)) : Nat → Option α → List α → Option Nat
  | i, prev, [] => (matchHere A atoms prev []).map (i + ·)
  | i, prev, c :: rest =>
      match matchHere A atoms prev (c :: rest) with
      | some n => some (i + n)
      | none => searchFrom atoms (i + 1) (some c) rest

/-- A search from an index. -/
def exec (atoms : List (Atom α)) (text : List α) (lastIndex : Nat) : Option Nat :=
  if text.length < lastIndex then none
  else searchFrom A atoms lastIndex (before text lastIndex) (text.drop lastIndex)

/-- `test` of a pattern with the `g` flag: whether it matches, and the index it
    remembers for the next time. -/
def test (atoms : List (Atom α)) (text : List α) (lastIndex : Nat) : Bool × Nat :=
  match exec A atoms text lastIndex with
  | some index => (true, index)
  | none => (false, 0)

section Anywhere

variable {A} {atoms : List (Atom α)} {text : List α} {i k : Nat}

theorem occursAt_iff (hi : i ≤ text.length) :
    OccursAt A atoms text i ↔ (matchHere A atoms (before text i) (text.drop i)).isSome := by
  constructor
  · rintro ⟨-, matched, rest, hsplit, hreads⟩
    rw [hsplit]
    exact matchHere_complete hreads
  · intro h
    obtain ⟨n, hn⟩ := Option.isSome_iff_exists.mp h
    obtain ⟨matched, rest, hsplit, -, hreads⟩ := matchHere_sound hn
    exact ⟨hi, matched, rest, hsplit, hreads⟩

theorem before_succ {c : α} {rest : List α} (h : text.drop i = c :: rest) :
    before text (i + 1) = some c ∧ text.drop (i + 1) = rest := by
  have hlt : i < text.length := by
    by_contra hge
    rw [List.drop_of_length_le (Nat.le_of_not_lt hge)] at h
    cases h
  have hget : text[i] = c := by
    have hcons := List.drop_eq_getElem_cons hlt
    rw [h] at hcons
    exact (List.cons.inj hcons).1.symm
  constructor
  · rw [before, List.take_succ_eq_append_getElem hlt, List.getLast?_concat, hget]
  · rw [← List.drop_drop, h, List.drop_succ_cons, List.drop_zero]

/-- The search finds something exactly where something is, from the index on: by
    induction along what is left of the text. -/
theorem searchFrom_isSome {rest : List α} (hi : i ≤ text.length) (hrest : text.drop i = rest) :
    (searchFrom A atoms i (before text i) rest).isSome ↔ ∃ j, i ≤ j ∧ OccursAt A atoms text j := by
  -- from each place on, until one matches
  induction rest generalizing i with
  | nil =>
      have hend : i = text.length := Nat.le_antisymm hi (List.drop_eq_nil_iff.mp hrest)
      rw [searchFrom, Option.isSome_map]
      constructor
      · intro h
        exact ⟨i, Nat.le_refl i, (occursAt_iff hi).mpr (hrest ▸ h)⟩
      · rintro ⟨j, hj, hoccurs⟩
        have hsame : j = i := Nat.le_antisymm (hend ▸ hoccurs.1) hj
        have h := (occursAt_iff hi).mp (hsame ▸ hoccurs)
        rwa [hrest] at h
  | cons c rest ih =>
      obtain ⟨hbefore, hdrop⟩ := before_succ hrest
      have hlt : i + 1 ≤ text.length := by
        have hlength := congrArg List.length hrest
        rw [List.length_drop, List.length_cons] at hlength
        omega
      rw [searchFrom]
      cases hhere : matchHere A atoms (before text i) (c :: rest) with
      | some n =>
          refine iff_of_true rfl ⟨i, Nat.le_refl i, (occursAt_iff hi).mpr ?_⟩
          rw [hrest, hhere]
          rfl
      | none =>
          show (searchFrom A atoms (i + 1) (some c) rest).isSome ↔ _
          rw [← hbefore, ih hlt hdrop]
          constructor
          · rintro ⟨j, hj, hoccurs⟩
            exact ⟨j, Nat.le_of_succ_le hj, hoccurs⟩
          · rintro ⟨j, hj, hoccurs⟩
            rcases Nat.lt_or_eq_of_le hj with hlater | rfl
            · exact ⟨j, hlater, hoccurs⟩
            · have h := (occursAt_iff hi).mp hoccurs
              rw [hrest, hhere] at h
              cases h

/-- **A SEARCH FROM AN INDEX** finds what is there from the index on. -/
theorem exec_isSome : (exec A atoms text k).isSome ↔ ∃ i, k ≤ i ∧ OccursAt A atoms text i := by
  rw [exec]
  by_cases hpast : text.length < k
  · rw [if_pos hpast]
    refine iff_of_false (by simp) ?_
    rintro ⟨i, hi, hoccurs⟩
    exact absurd (Nat.le_trans hi hoccurs.1) (Nat.not_le.mpr hpast)
  · rw [if_neg hpast]
    exact searchFrom_isSome (Nat.le_of_not_lt hpast) rfl

theorem test_fst : (test A atoms text k).1 = true ↔ ∃ i, k ≤ i ∧ OccursAt A atoms text i := by
  rw [← exec_isSome, test]
  cases exec A atoms text k with
  | none => simp
  | some n => simp

/-- A failed test starts over. -/
theorem test_snd_of_not (h : (test A atoms text k).1 = false) : (test A atoms text k).2 = 0 := by
  rw [test] at h ⊢
  cases hexec : exec A atoms text k with
  | none => rfl
  | some n =>
      rw [hexec] at h
      cases h

end Anywhere

end Pattern
