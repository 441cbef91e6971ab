import Mathlib.Data.List.Basic
import Mathlib.Tactic.Common

/-! # Replacement — one pass from the left, and back

    A table writes something for each of its symbols and leaves the others alone.
    Where everything it writes begins with one mark, which it never leaves alone,
    and nothing it writes begins something else, one pass from the left over the
    result finds exactly what was written, whatever the text looked like before. -/

namespace Replacement

variable {α : Type} [DecidableEq α]

/-- Write what the table has for each symbol. -/
def encode (table : List (α × List α)) (text : List α) : List α :=
  text.flatMap fun c => (table.lookup c).getD [c]

/-- Replace from the left what matches one of the alternatives, the first of them
    that does; the counter runs through what was matched last. -/
def replaceFrom (alternatives : List (List α)) (f : List α → List α) : Nat → List α → List α
  | _, [] => []
  | skip + 1, _ :: rest => replaceFrom alternatives f skip rest
  | 0, c :: rest =>
      match alternatives.find? fun alternative => alternative.isPrefixOf (c :: rest) with
      | some found => f found ++ replaceFrom alternatives f (found.length - 1) rest
      | none => c :: replaceFrom alternatives f 0 rest

/-- The symbol something was written for. -/
def symbolOf (table : List (α × List α)) (written : List α) : List α :=
  match table.find? fun entry => entry.2 = written with
  | some entry => [entry.1]
  | none => written

/-- Put the symbols back. -/
def decode (table : List (α × List α)) (text : List α) : List α :=
  replaceFrom (table.map Prod.snd) (symbolOf table) 0 text

/-- What makes a table decodable. -/
structure Marked (mark : α) (table : List (α × List α)) : Prop where
  starts : ∀ entry ∈ table, ∃ tail, entry.2 = mark :: tail
  written : ∃ w, table.lookup mark = some w
  apart : ∀ entry ∈ table, ∀ other ∈ table, entry.2 <+: other.2 → entry = other

section Pass

variable {alternatives : List (List α)} {f : List α → List α} {mark c : α} {table : List (α × List α)}
  {entry : α × List α} {rest : List α}

theorem mem_of_lookup {written : List α} (h : table.lookup c = some written) : (c, written) ∈ table := by
  obtain ⟨before, after, rfl, -⟩ := List.lookup_eq_some_iff.mp h
  exact List.mem_append_right before List.mem_cons_self

/-- What was matched is run through. -/
theorem replaceFrom_skip (matched rest : List α) :
    replaceFrom alternatives f matched.length (matched ++ rest) = replaceFrom alternatives f 0 rest := by
  induction matched with
  | nil => rfl
  | cons c matched ih => exact ih

theorem replaceFrom_cons_of_none
    (h : (alternatives.find? fun alternative => alternative.isPrefixOf (c :: rest)) = none) :
    replaceFrom alternatives f 0 (c :: rest) = c :: replaceFrom alternatives f 0 rest := by
  rw [replaceFrom, h]

/-- A symbol that is left alone matches nothing. -/
theorem Marked.decode_other (h : Marked mark table) (hc : table.lookup c = none) :
    decode table (c :: rest) = c :: decode table rest := by
  refine replaceFrom_cons_of_none (List.find?_eq_none.mpr fun written hwritten hprefix => ?_)
  obtain ⟨entry, hentry, rfl⟩ := List.mem_map.mp hwritten
  obtain ⟨tail, htail⟩ := h.starts entry hentry
  have hsame : mark = c := by
    rw [htail, List.isPrefixOf_iff_prefix] at hprefix
    exact (List.cons_prefix_cons.mp hprefix).1
  obtain ⟨w, hw⟩ := h.written
  rw [hsame, hc] at hw
  cases hw

/-- Of all that is written only this begins here. -/
theorem Marked.find_written (h : Marked mark table) (hentry : entry ∈ table) (rest : List α) :
    ((table.map Prod.snd).find? fun written => written.isPrefixOf (entry.2 ++ rest))
      = some entry.2 := by
  have hself : entry.2.isPrefixOf (entry.2 ++ rest) = true :=
    List.isPrefixOf_iff_prefix.mpr (List.prefix_append entry.2 rest)
  have hsome : ((table.map Prod.snd).find? fun written =>
      written.isPrefixOf (entry.2 ++ rest)).isSome := by
    rw [List.find?_isSome]
    exact ⟨entry.2, List.mem_map_of_mem hentry, hself⟩
  obtain ⟨found, hfound⟩ := Option.isSome_iff_exists.mp hsome
  obtain ⟨other, hother, rfl⟩ := List.mem_map.mp (List.mem_of_find?_eq_some hfound)
  have hprefix : other.2.isPrefixOf (entry.2 ++ rest) = true := by
    have h := List.find?_some hfound
    exact h
  have hbegins : other.2 <+: entry.2 ++ rest := List.isPrefixOf_iff_prefix.mp hprefix
  -- two beginnings of one list: one of them begins the other
  have hsame : other = entry := by
    rcases List.prefix_or_prefix_of_prefix hbegins (List.prefix_append entry.2 rest) with hle | hle
    · exact h.apart other hother entry hentry hle
    · exact (h.apart entry hentry other hother hle).symm
  rw [hfound, hsame]

theorem Marked.symbolOf_written (h : Marked mark table) (hentry : entry ∈ table) :
    symbolOf table entry.2 = [entry.1] := by
  have hsome : (table.find? fun other => other.2 = entry.2).isSome := by
    rw [List.find?_isSome]
    exact ⟨entry, hentry, decide_eq_true rfl⟩
  obtain ⟨other, hother⟩ := Option.isSome_iff_exists.mp hsome
  have hsame : other.2 = entry.2 := by
    have h := List.find?_some hother
    exact of_decide_eq_true h
  have hentry' : other = entry :=
    h.apart other (List.mem_of_find?_eq_some hother) entry hentry (hsame ▸ List.prefix_refl _)
  rw [symbolOf, hother, hentry']

/-- What was written is put back as a whole. -/
theorem Marked.decode_written (h : Marked mark table) (hentry : entry ∈ table) :
    decode table (entry.2 ++ rest) = entry.1 :: decode table rest := by
  obtain ⟨tail, htail⟩ := h.starts entry hentry
  have hfind := h.find_written hentry rest
  rw [htail, List.cons_append] at hfind
  have hskip : (mark :: tail).length - 1 = tail.length := rfl
  rw [decode, htail, List.cons_append, replaceFrom, hfind]
  show symbolOf table (mark :: tail) ++ replaceFrom _ _ ((mark :: tail).length - 1) _ = _
  rw [hskip, replaceFrom_skip, ← htail, h.symbolOf_written hentry]
  rfl

/-- **AND BACK**: decoding gives the text again, by induction along it. -/
theorem Marked.decode_encode (h : Marked mark table) (text : List α) :
    decode table (encode table text) = text := by
  induction text with
  | nil => rfl
  | cons c text ih =>
      have hsplit : encode table (c :: text) = (table.lookup c).getD [c] ++ encode table text := rfl
      rw [hsplit]
      cases hc : table.lookup c with
      | none =>
          show decode table (c :: encode table text) = _
          rw [h.decode_other hc, ih]
      | some written =>
          have hentry : (c, written) ∈ table := mem_of_lookup hc
          show decode table ((c, written).2 ++ encode table text) = _
          rw [h.decode_written hentry, ih]

end Pass

end Replacement
