import Mathlib.Data.List.Count
import StellarSave.ReplacementProofs

/-! # Substitution — all at once, or name after name

    A text has holes, each written in it as a mark of its name.  Reading the marks once
    from the left splits it into symbols and holes, which are then filled all at once.
    Replacing one mark after another in the text does the same as long as each mark
    occurs, when its turn comes, no more often than there are holes of its name. -/

namespace Substitution

open Replacement

variable {α ν : Type} [BEq ν]

inductive Segment (α ν : Type) where
  | symbol (c : α)
  | hole (name : ν)
  deriving DecidableEq

/-- The text of a segment; a name without a value keeps its mark. -/
def Segment.text (written : ν → List α) (values : List (ν × List α)) : Segment α ν → List α
  | .symbol c => [c]
  | .hole name => (values.lookup name).getD (written name)

def fill (written : ν → List α) (values : List (ν × List α)) (segments : List (Segment α ν)) : List α :=
  segments.flatMap (Segment.text written values)

section Filling

variable {written : ν → List α} {values : List (ν × List α)} {name : ν} {value : List α}

theorem fill_cons (segment : Segment α ν) (segments : List (Segment α ν)) :
    fill written values (segment :: segments) =
      segment.text written values ++ fill written values segments := rfl

theorem text_hole (hfree : values.lookup name = none) :
    (Segment.hole name : Segment α ν).text written values = written name := by
  rw [Segment.text, hfree]
  rfl

variable [LawfulBEq ν]

/-- A value more, for another name. -/
theorem text_append_of_ne {segment : Segment α ν} (h : segment ≠ .hole name) :
    segment.text written (values ++ [(name, value)]) = segment.text written values := by
  cases segment with
  | symbol c => rfl
  | hole other =>
      have hne : ¬ (other == name) = true := by
        intro hsame
        exact h (congrArg Segment.hole (beq_iff_eq.mp hsame))
      have hlookup : [(name, value)].lookup other = none := by
        rw [List.lookup_cons, Bool.eq_false_iff.mpr hne]
        rfl
      rw [Segment.text, Segment.text, List.lookup_append, hlookup, Option.or_none]

theorem text_append_self (hfree : values.lookup name = none) :
    (Segment.hole name : Segment α ν).text written (values ++ [(name, value)]) = value := by
  rw [Segment.text, List.lookup_append, hfree, List.lookup_cons_self]
  rfl

/-- A name without holes has nothing to fill. -/
theorem fill_append_of_not_mem (segments : List (Segment α ν)) (h : .hole name ∉ segments) :
    fill written (values ++ [(name, value)]) segments = fill written values segments := by
  refine List.flatMap_congr fun segment hsegment => text_append_of_ne ?_
  rintro rfl
  exact h hsegment

end Filling

variable [DecidableEq α]

/-- Read a text once from the left, the first name whose mark is there; the counter runs
    through what was read last. -/
def parse (written : ν → List α) (names : List ν) : Nat → List α → List (Segment α ν)
  | _, [] => []
  | skip + 1, _ :: rest => parse written names skip rest
  | 0, c :: rest =>
      match names.find? fun name => (written name).isPrefixOf (c :: rest) with
      | some name => .hole name :: parse written names ((written name).length - 1) rest
      | none => .symbol c :: parse written names 0 rest

/-- How often a mark begins in a text. -/
def occurrences (mark : List α) : List α → Nat
  | [] => 0
  | c :: rest => (if mark.isPrefixOf (c :: rest) then 1 else 0) + occurrences mark rest

section Marks

variable {written : ν → List α} {names : List ν} {values : List (ν × List α)} {name : ν}
  {mark value block rest : List α} {f : List α → List α}

/-- Nothing is lost: with no values the text is back. -/
theorem fill_parse (hmarks : ∀ name, written name ≠ []) (skip : Nat) (text : List α) :
    fill written [] (parse written names skip text) = text.drop skip := by
  induction text generalizing skip with
  | nil => rw [parse, List.drop_nil]; rfl
  | cons c rest ih =>
      cases skip with
      | succ skip => exact ih skip
      | zero =>
          rw [parse]
          split
          · next name hfound =>
              -- the name found is put back as the mark it was read from
              have hprefix := List.find?_some hfound
              obtain ⟨after, hafter⟩ := List.isPrefixOf_iff_prefix.mp hprefix
              show written name ++ fill written [] (parse written names _ rest) = c :: rest
              rw [ih]
              cases hmark : written name with
              | nil => exact absurd hmark (hmarks name)
              | cons d mark =>
                  rw [hmark, List.cons_append] at hafter
                  obtain ⟨rfl, rfl⟩ := List.cons.inj hafter
                  show d :: (mark ++ (mark ++ after).drop mark.length) = _
                  rw [List.drop_left]
          · show c :: fill written [] (parse written names 0 rest) = c :: rest
            rw [ih]
            rfl

theorem occurrences_le_append (mark block rest : List α) :
    occurrences mark rest ≤ occurrences mark (block ++ rest) := by
  induction block with
  | nil => exact Nat.le_refl _
  | cons c block ih => exact Nat.le_trans ih (Nat.le_add_left _ _)

/-- A mark that begins nowhere in a block is not replaced there. -/
theorem replaceFrom_append (h : occurrences mark (block ++ rest) ≤ occurrences mark rest) :
    replaceFrom [mark] f 0 (block ++ rest) = block ++ replaceFrom [mark] f 0 rest := by
  induction block with
  | nil => rfl
  | cons c block ih =>
      have hle := occurrences_le_append mark block rest
      rw [List.cons_append, occurrences] at h
      -- were the mark here, it would be counted
      have hno : ¬ mark.isPrefixOf (c :: (block ++ rest)) = true := by
        intro hprefix
        rw [if_pos hprefix] at h
        omega
      rw [if_neg hno] at h
      rw [List.cons_append, replaceFrom_cons_of_none, ih (by omega)]
      · rfl
      · rw [List.find?_singleton, if_neg hno]

/-- A mark is replaced where it stands. -/
theorem replaceFrom_mark (hmark : mark ≠ []) :
    replaceFrom [mark] f 0 (mark ++ rest) = f mark ++ replaceFrom [mark] f 0 rest := by
  cases mark with
  | nil => exact absurd rfl hmark
  | cons c mark =>
      have hfound : ([c :: mark].find? fun other => other.isPrefixOf (c :: (mark ++ rest))) =
          some (c :: mark) :=
        List.find?_cons_of_pos (List.isPrefixOf_iff_prefix.mpr (List.prefix_append (c :: mark) rest))
      rw [List.cons_append, replaceFrom, hfound]
      show f (c :: mark) ++ replaceFrom [c :: mark] f mark.length (mark ++ rest) = _
      rw [replaceFrom_skip]

variable [DecidableEq ν]

/-- Each hole shows its mark. -/
theorem count_le_occurrences (hmark : written name ≠ []) (hfree : values.lookup name = none)
    (segments : List (Segment α ν)) :
    segments.count (.hole name) ≤ occurrences (written name) (fill written values segments) := by
  induction segments with
  | nil => exact Nat.le_refl 0
  | cons segment segments ih =>
      rw [List.count_cons, fill_cons]
      split
      · next hsame =>
          rw [beq_iff_eq.mp hsame, text_hole hfree]
          cases hw : written name with
          | nil => exact absurd hw hmark
          | cons c mark =>
              rw [hw] at ih
              have hself : (c :: mark).isPrefixOf (c :: (mark ++ fill written values segments)) = true :=
                List.isPrefixOf_iff_prefix.mpr (List.prefix_append (c :: mark) _)
              have hle := occurrences_le_append (c :: mark) mark
                (fill written values segments)
              rw [List.cons_append, occurrences, if_pos hself]
              omega
      · exact Nat.le_trans ih (occurrences_le_append _ _ _)

variable [LawfulBEq ν]

/-- **ONE NAME AFTER THE OTHERS**: where its mark occurs no more often than it has holes,
    replacing it fills them and nothing else, by induction along the segments. -/
theorem replace_fill (hmark : written name ≠ []) (hfree : values.lookup name = none)
    (segments : List (Segment α ν))
    (h : occurrences (written name) (fill written values segments) ≤ segments.count (.hole name)) :
    replaceFrom [written name] (fun _ => value) 0 (fill written values segments) =
      fill written (values ++ [(name, value)]) segments := by
  induction segments with
  | nil => rfl
  | cons segment segments ih =>
      have hrest := count_le_occurrences hmark hfree segments
      rw [List.count_cons, fill_cons] at h
      rw [fill_cons, fill_cons]
      by_cases hsame : segment = .hole name
      · subst hsame
        rw [if_pos (beq_self_eq_true _), text_hole hfree] at h
        -- the hole's own mark is one of those counted
        have hself : 1 + occurrences (written name) (fill written values segments) ≤
            occurrences (written name) (written name ++ fill written values segments) := by
          cases hw : written name with
          | nil => exact absurd hw hmark
          | cons c mark =>
              have hbegins : (c :: mark).isPrefixOf (c :: (mark ++ fill written values segments)) = true :=
                List.isPrefixOf_iff_prefix.mpr (List.prefix_append (c :: mark) _)
              rw [List.cons_append, occurrences, if_pos hbegins]
              exact Nat.add_le_add_left (occurrences_le_append _ mark _) 1
        rw [text_hole hfree, text_append_self hfree, replaceFrom_mark hmark, ih (by omega)]
      · rw [if_neg (by simpa using hsame)] at h
        -- all that are counted are in the rest, so none begins in this block
        rw [replaceFrom_append (by omega), text_append_of_ne hsame]
        have hle := occurrences_le_append (written name) (segment.text written values)
          (fill written values segments)
        rw [ih (by omega)]

end Marks

end Substitution
