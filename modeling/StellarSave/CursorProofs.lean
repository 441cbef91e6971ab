import Mathlib.Data.Rat.Floor
import StellarSave.NumeralProofs

/-! # Cursor pages — two answers to the same question

    `paginateCursorArray` cuts an array into pages from a numeric cursor.  Whether
    there is a next page it answers by the total, and hands out a cursor by that;
    `computeHasMore`, which fills `hasMore`, answers by the length of the page
    alone, so a last page that is full says there is more. -/

namespace CursorPaging

open Units Numeral

variable {α : Type}

def defaultPageSize : Int := 20
def maxPageSize : Int := 100

structure CursorParams where
  cursor : JsString
  limit : Int

structure CursorPaginatedResult (α : Type) where
  data : List α
  limit : Int
  cursor : JsString
  nextCursor : Option JsString
  hasMore : Bool

/-- What is read of a query: the text of its limit, empty without one, and its cursor
    where that is a string. -/
structure Query where
  limit : JsString
  cursor : Option JsString

/-- Defaults a caller may give. -/
structure Defaults where
  limit : Option ℚ
  cursor : Option JsString

/-- `Number.isFinite` of a whole number: the largest that do not round to infinity. -/
def isFinite (n : Int) : Bool := decide (n.natAbs < 2 ^ 1024 - 2 ^ 970)

def clampLimit (value : ℚ) : Int := min maxPageSize (max 1 ⌊value⌋)

/-- `parseCursorParams`. -/
def parseCursorParams (query : Query) (defaults : Defaults) : CursorParams where
  cursor :=
    match query.cursor with
    | some (u :: rest) => u :: rest
    | _ => defaults.cursor.getD (lit "0")
  limit :=
    match (parseInt query.limit).filter isFinite with
    | some rawLimit => clampLimit rawLimit
    | none => clampLimit (defaults.limit.getD defaultPageSize)

/-- `computeHasMore`. -/
def computeHasMore (data : List α) (limit : Int) (total : Option Int) : Bool :=
  match total with
  | some _ => decide (0 < data.length) && decide (limit ≤ data.length)
  | none => decide (limit ≤ data.length)

/-- `paginateCursor`; the next cursor may be left out, and may be `null`. -/
def paginateCursor (data : List α) (params : CursorParams) (total : Option Int)
    (nextCursor : Option (Option JsString)) : CursorPaginatedResult α :=
  let hasMore := computeHasMore data params.limit total
  let resolvedNextCursor :=
    match nextCursor with
    | some nextCursor => nextCursor
    | none =>
        if hasMore then
          ((parseInt params.cursor).filter isFinite).map fun currentIndex =>
            numeral (currentIndex + params.limit)
        else none
  ⟨data, params.limit, params.cursor, resolvedNextCursor, hasMore⟩

/-- An index of `slice`: one below zero counts from the end. -/
def relative (length : Nat) (index : Int) : Nat :=
  if index < 0 then (length + index).toNat else min index.toNat length

/-- `slice`. -/
def slice (items : List α) (first last : Int) : List α :=
  (items.drop (relative items.length first)).take
    (relative items.length last - relative items.length first)

/-- The index a cursor stands for: zero where it is not a number, and never past the end. -/
def safeStart (items : List α) (cursor : JsString) : Int :=
  let startIndex := max 0 ((parseInt cursor).getD 0)
  min startIndex items.length

/-- `paginateCursorArray`. -/
def paginateCursorArray (items : List α) (params : CursorParams) : CursorPaginatedResult α :=
  let total : Int := items.length
  let start := safeStart items params.cursor
  let data := slice items start (start + params.limit)
  let hasMore := start + data.length < total
  let nextCursor := if hasMore then some (numeral (start + params.limit)) else none
  paginateCursor data ⟨numeral start, params.limit⟩ (some total) (some nextCursor)

/-- Page after page from a cursor, for as long as there is a next one. -/
def responses (items : List α) (limit : Int) : Nat → JsString → Option (List (CursorPaginatedResult α))
  | 0, _ => none
  | calls + 1, cursor =>
      let response := paginateCursorArray items ⟨cursor, limit⟩
      match response.nextCursor with
      | none => some [response]
      | some next => (responses items limit calls next).map (response :: ·)

/-- A response is honest where so many items are left from its page on. -/
def Honest (left : Nat) (response : CursorPaginatedResult α) : Prop :=
  (response.hasMore = true ↔ response.nextCursor ≠ none) ∧
    (response.nextCursor ≠ none ↔ response.data.length < left)

/-- Every response is honest, one after the other. -/
def HonestAll (left : Nat) : List (CursorPaginatedResult α) → Prop
  | [] => True
  | response :: rest => Honest left response ∧ HonestAll (left - response.data.length) rest

section Pages

variable {items : List α} {limit : Int} {cursor : JsString} {start : Nat}

theorem parseCursorParams_limit (query : Query) (defaults : Defaults) :
    1 ≤ (parseCursorParams query defaults).limit ∧ (parseCursorParams query defaults).limit ≤ maxPageSize := by
  have hclamp : ∀ value, 1 ≤ clampLimit value ∧ clampLimit value ≤ maxPageSize := by
    intro value
    rw [clampLimit, maxPageSize]
    omega
  rw [parseCursorParams]
  simp only
  split
  · exact hclamp _
  · exact hclamp _

theorem safeStart_bounds (items : List α) (cursor : JsString) :
    0 ≤ safeStart items cursor ∧ safeStart items cursor ≤ items.length := by
  rw [safeStart]
  omega

theorem safeStart_decimal (h : start ≤ items.length) : safeStart items (decimal start) = start := by
  have hparse : parseInt (decimal start ++ []) = some (start : Int) := parseInt_decimal start (by simp)
  rw [List.append_nil] at hparse
  rw [safeStart, hparse, Option.getD_some]
  omega

theorem slice_eq (hlimit : 1 ≤ limit) (h : start ≤ items.length) :
    slice items start (start + limit) = (items.drop start).take limit.toNat := by
  have hfirst : relative items.length start = start := by
    rw [relative, if_neg (by omega)]
    omega
  have hlast : relative items.length (start + limit) = min (start + limit.toNat) items.length := by
    rw [relative, if_neg (by omega)]
    congr 1
    omega
  rw [slice, hfirst, hlast]
  -- up to the limit, or to the end of the array
  rcases Nat.le_total (start + limit.toNat) items.length with hle | hle
  · rw [Nat.min_eq_left hle, Nat.add_sub_cancel_left]
  · rw [Nat.min_eq_right hle, List.take_of_length_le (by rw [List.length_drop]),
      List.take_of_length_le (by rw [List.length_drop]; omega)]

/-- **ONE RESPONSE**, from the index its cursor stands for. -/
theorem response_spec (hlimit : 1 ≤ limit) (hcursor : safeStart items cursor = start) :
    (paginateCursorArray items ⟨cursor, limit⟩).data = (items.drop start).take limit.toNat ∧
      (paginateCursorArray items ⟨cursor, limit⟩).nextCursor =
        (if start + limit.toNat < items.length then some (decimal (start + limit.toNat)) else none) ∧
      ((paginateCursorArray items ⟨cursor, limit⟩).hasMore = true ↔
        start + limit.toNat ≤ items.length) := by
  have hle : start ≤ items.length := by
    have := (safeStart_bounds items cursor).2
    omega
  have hdata : slice items start (start + limit) = (items.drop start).take limit.toNat :=
    slice_eq hlimit hle
  have hlength : ((items.drop start).take limit.toNat).length = min limit.toNat (items.length - start) := by
    rw [List.length_take, List.length_drop]
  have hnext : numeral (start + limit) = decimal (start + limit.toNat) := by
    rw [numeral, if_neg (by omega)]
    congr 1
    omega
  simp only [paginateCursorArray, paginateCursor, computeHasMore, hcursor, hdata, hlength, hnext]
  refine ⟨trivial, ?_, ?_⟩
  · by_cases hmore : start + limit.toNat < items.length
    · rw [if_pos (by omega), if_pos hmore]
    · rw [if_neg (by omega), if_neg hmore]
  · simp only [Bool.and_eq_true, decide_eq_true_eq]
    omega

/-- A response is honest unless its page is full and the last. -/
theorem honest_iff (hlimit : 1 ≤ limit) (hcursor : safeStart items cursor = start) :
    Honest (items.length - start) (paginateCursorArray items ⟨cursor, limit⟩) ↔
      items.length ≠ start + limit.toNat := by
  obtain ⟨hdata, hnext, hmore⟩ := response_spec hlimit hcursor
  rw [Honest, hdata, hnext, hmore, List.length_take, List.length_drop]
  by_cases hrest : start + limit.toNat < items.length
  · rw [if_pos hrest]
    simp only [ne_eq, reduceCtorEq, not_false_eq_true, iff_true, true_iff]
    omega
  · rw [if_neg hrest]
    simp only [ne_eq, not_true_eq_false, iff_false, false_iff]
    omega

/-- **ALL RESPONSES** from an index on. -/
theorem responses_from (hlimit : 1 ≤ limit) {calls : Nat} (hle : start ≤ items.length)
    (hcalls : items.length - start < calls) :
    ∃ rs, responses items limit calls (decimal start) = some rs ∧
      rs.flatMap CursorPaginatedResult.data = items.drop start ∧
      (HonestAll (items.length - start) rs ↔
        ¬ (start < items.length ∧ limit.toNat ∣ items.length - start)) := by
  -- on each answer the start moves on by the limit
  induction calls generalizing start with
  | zero => omega
  | succ calls ih =>
      have hcursor := safeStart_decimal hle
      obtain ⟨hdata, hnext, -⟩ := response_spec hlimit hcursor
      have hhonest := honest_iff hlimit hcursor
      by_cases hrest : start + limit.toNat < items.length
      · -- a full page, and more to come
        rw [if_pos hrest] at hnext
        have hle' : start + limit.toNat ≤ items.length := Nat.le_of_lt hrest
        obtain ⟨rs, hrs, hflat, hall⟩ := ih hle' (by omega)
        refine ⟨paginateCursorArray items ⟨decimal start, limit⟩ :: rs, ?_, ?_, ?_⟩
        · rw [responses.eq_def]
          simp only [hnext, hrs, Option.map_some]
        · rw [List.flatMap_cons, hflat, hdata, ← List.drop_drop]
          exact List.take_append_drop _ _
        · have hleft : items.length - start - ((items.drop start).take limit.toNat).length =
              items.length - (start + limit.toNat) := by
            rw [List.length_take, List.length_drop]
            omega
          have hdvd : limit.toNat ∣ items.length - start ↔
              limit.toNat ∣ items.length - (start + limit.toNat) := by
            have hsplit : items.length - start = items.length - (start + limit.toNat) + limit.toNat := by omega
            rw [hsplit]
            exact Nat.dvd_add_self_right
          rw [HonestAll, hdata, hleft, hall, hhonest, hdvd]
          constructor
          · rintro ⟨-, hno⟩ ⟨-, hmultiple⟩
            exact hno ⟨hrest, hmultiple⟩
          · intro hno
            exact ⟨by omega, fun hmultiple => hno ⟨by omega, hmultiple.2⟩⟩
      · -- the last page
        rw [if_neg hrest] at hnext
        refine ⟨[paginateCursorArray items ⟨decimal start, limit⟩], ?_, ?_, ?_⟩
        · rw [responses.eq_def]
          simp only [hnext]
        · rw [List.flatMap_singleton, hdata]
          exact List.take_of_length_le (by rw [List.length_drop]; omega)
        · rw [HonestAll, hhonest, HonestAll]
          constructor
          · rintro ⟨hne, -⟩ ⟨hlt, hmultiple⟩
            have := Nat.le_of_dvd (by omega) hmultiple
            omega
          · intro hno
            refine ⟨fun hfull => hno ⟨by omega, ?_⟩, trivial⟩
            have hsame : items.length - start = limit.toNat := by omega
            rw [hsame]

/-- **COMPLETE, AND HONEST WHERE THE LAST PAGE IS NOT FULL**: under any limit the parser
    yields the pages come to an end and hold the array; every response is honest exactly
    where the array is empty or its length no multiple of the limit; and the response
    to any cursor at all is honest exactly where its page does not end with the array. -/
theorem cursor_pages (items : List α) (query : Query) (defaults : Defaults) :
    (∃ rs, (∃ calls, responses items (parseCursorParams query defaults).limit calls (lit "0") = some rs) ∧
      rs.flatMap CursorPaginatedResult.data = items ∧
      (HonestAll items.length rs ↔
        items = [] ∨ ¬ (parseCursorParams query defaults).limit ∣ items.length)) ∧
    ∀ cursor, Honest (items.length - (safeStart items cursor).toNat)
        (paginateCursorArray items ⟨cursor, (parseCursorParams query defaults).limit⟩) ↔
      items.length ≠ safeStart items cursor + (parseCursorParams query defaults).limit := by
  obtain ⟨hlimit, -⟩ := parseCursorParams_limit query defaults
  constructor
  · -- the first cursor is the default of the parser
    have hzero : decimal 0 = lit "0" := by decide
    obtain ⟨rs, hrs, hflat, hall⟩ := responses_from hlimit (Nat.zero_le items.length)
      (Nat.lt_succ_self _)
    refine ⟨rs, ⟨_, hzero ▸ hrs⟩, hflat, ?_⟩
    rw [Nat.sub_zero] at hall
    rw [hall, ← List.length_eq_zero_iff]
    have hdvd : (parseCursorParams query defaults).limit.toNat ∣ items.length ↔
        (parseCursorParams query defaults).limit ∣ items.length := by
      rw [← Int.natCast_dvd_natCast, Int.toNat_of_nonneg (by omega)]
    rw [hdvd]
    -- the last page is full only if the limit divides the length
    constructor
    · intro hno
      by_cases hempty : items.length = 0
      · exact .inl hempty
      · exact .inr fun hmultiple => hno ⟨by omega, hmultiple⟩
    · rintro (hempty | hno) ⟨hlt, hmultiple⟩
      · omega
      · exact hno hmultiple
  -- one answer: honest exactly if the page is the last one or is not full
  · intro cursor
    have hbounds := safeStart_bounds items cursor
    rw [honest_iff hlimit (Int.toNat_of_nonneg hbounds.1).symm]
    omega

end Pages

/-- Twenty items in pages of twenty: there is no next page, and there is said to be one. -/
theorem full_page_says_more :
    (parseCursorParams ⟨lit "", none⟩ ⟨none, none⟩).limit = 20 ∧
      (paginateCursorArray (List.range 20) ⟨lit "0", 20⟩).data = List.range 20 ∧
      (paginateCursorArray (List.range 20) ⟨lit "0", 20⟩).nextCursor = none ∧
      (paginateCursorArray (List.range 20) ⟨lit "0", 20⟩).hasMore = true ∧
      ¬ Honest 20 (paginateCursorArray (List.range 20) ⟨lit "0", 20⟩) := by
  have hnext : (paginateCursorArray (List.range 20) ⟨lit "0", 20⟩).nextCursor = none := by decide +kernel
  have hmore : (paginateCursorArray (List.range 20) ⟨lit "0", 20⟩).hasMore = true := by decide +kernel
  exact ⟨by decide +kernel, by decide +kernel, hnext, hmore, fun h => h.1.mp hmore hnext⟩

end CursorPaging
