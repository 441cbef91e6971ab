import StellarSave.UnitsProofs
import StellarSave.ReplacementProofs
import StellarSave.PatternProofs

/-! # Input sanitization — markup written out, and a screen that remembers

    `encodeHtml` writes an entity for each markup symbol and `decodeHtml` reads the
    entities back.  `sanitizeString` screens for SQL with shared global patterns:
    each goes on from where its last match ended, so what one call found decides
    what the next one looks at. -/

namespace SaveSanitizer

open Units Replacement Pattern

/-- The markup symbols and what stands for them. -/
def htmlEntities : List (UInt16 × JsString) :=
  [(unit '&', lit "&amp;"), (unit '<', lit "&lt;"), (unit '>', lit "&gt;"),
    (unit '"', lit "&quot;"), (unit '\'', lit "&#x27;"), (unit '/', lit "&#x2F;")]

/-- The class `encodeHtml` replaces. -/
def markup : List UInt16 := lit "&<>\"'/"

/-- The alternatives `decodeHtml` replaces. -/
def entities : List JsString :=
  [lit "&amp;", lit "&lt;", lit "&gt;", lit "&quot;", lit "&#x27;", lit "&#x2F;"]

def encodeHtml (text : JsString) : JsString :=
  text.flatMap fun c => if c ∈ markup then (htmlEntities.lookup c).getD [c] else [c]

def decodeHtml (text : JsString) : JsString := replaceFrom entities (symbolOf htmlEntities) 0 text

section Html

variable {c u : UInt16}

/-- Every entity begins with an ampersand and none begins another. -/
theorem htmlEntities_marked : Marked (unit '&') htmlEntities where
  starts := by
    have hall : ∀ entry ∈ htmlEntities, entry.2 = unit '&' :: entry.2.tail := by decide
    exact fun entry hentry => ⟨entry.2.tail, hall entry hentry⟩
  written := ⟨lit "&amp;", by decide⟩
  apart := by decide

/-- What is not in the class is not in the table. -/
theorem lookup_of_not_markup (h : c ∉ markup) : htmlEntities.lookup c = none := by
  cases hc : htmlEntities.lookup c with
  | none => rfl
  | some written =>
      have hall : ∀ entry ∈ htmlEntities, entry.1 ∈ markup := by decide
      exact absurd (hall (c, written) (mem_of_lookup hc)) h

theorem encodeHtml_eq (text : JsString) : encodeHtml text = encode htmlEntities text := by
  rw [encodeHtml, encode]
  refine congrArg (fun f => text.flatMap f) (funext fun c => ?_)
  by_cases hc : c ∈ markup
  · rw [if_pos hc]
  · rw [if_neg hc, lookup_of_not_markup hc]
    rfl

/-- Of the markup symbols only the ampersand is ever written. -/
theorem not_markup_of_mem_encodeHtml {text : JsString} (h : u ∈ encodeHtml text) :
    u ∉ lit "<>\"'/" := by
  rw [encodeHtml, List.mem_flatMap] at h
  obtain ⟨c, -, hu⟩ := h
  by_cases hc : c ∈ markup
  · rw [if_pos hc] at hu
    -- the table is run through, not every unit there is
    have hall : (markup.all fun c => ((htmlEntities.lookup c).getD [c]).all fun u =>
        u ∉ lit "<>\"'/") = true := by decide
    simp only [List.all_eq_true, decide_eq_true_eq] at hall
    exact hall c hc u hu
  · rw [if_neg hc, List.mem_singleton] at hu
    have hsub : ((lit "<>\"'/").all fun u => u ∈ markup) = true := by decide
    simp only [List.all_eq_true, decide_eq_true_eq] at hsub
    intro hmem
    exact hc (hu ▸ hsub u hmem)

/-- **THERE AND BACK**: decoding what was encoded gives the text again, whatever it
    looked like before, and of the symbols markup is made of none is left. -/
theorem html_round_trip (text : JsString) :
    decodeHtml (encodeHtml text) = text ∧ ∀ u ∈ encodeHtml text, u ∉ lit "<>\"'/" := by
  refine ⟨?_, fun u hu => not_markup_of_mem_encodeHtml hu⟩
  rw [encodeHtml_eq]
  exact htmlEntities_marked.decode_encode text

end Html

/-! ## The screen -/

/-- A global regular expression: its pattern and the index it remembers. -/
structure RegExp where
  source : List (Atom UInt16)
  lastIndex : Nat

/-- How the patterns read: words in ASCII, and a dot up to the end of the line. -/
def alphabet : Alphabet UInt16 := ⟨isWord, fun c => !decide (c ∈ lineTerminators)⟩

/-- Symbols in either case, as under the flag `i`. -/
def ignoringCase (s : String) : List (Atom UInt16) :=
  (lit s).map fun c => .one fun u => asciiUpper u == asciiUpper c

def exactly (s : String) : List (Atom UInt16) := (lit s).map fun c => .one fun u => u == c

/-- `\bword\b`. -/
def wholeWord (s : String) : List (Atom UInt16) := .boundary :: (ignoringCase s ++ [.boundary])

/-- The patterns as the module loads them. -/
def sqlInjectionPatterns : List RegExp :=
  [⟨wholeWord "UNION" ++ .dots :: wholeWord "SELECT", 0⟩,
    ⟨wholeWord "INSERT" ++ .dots :: wholeWord "INTO", 0⟩,
    ⟨wholeWord "UPDATE" ++ .dots :: wholeWord "SET", 0⟩,
    ⟨wholeWord "DELETE" ++ .dots :: wholeWord "FROM", 0⟩,
    ⟨wholeWord "DROP" ++ .dots :: wholeWord "TABLE", 0⟩,
    ⟨ignoringCase "'" ++ .dots :: ignoringCase "OR" ++ .dots :: ignoringCase "'='", 0⟩,
    ⟨exactly "--", 0⟩,
    ⟨ignoringCase ";" ++ .dots :: ignoringCase "DROP", 0⟩]

/-- `test`, which moves the index on. -/
def RegExp.test (pattern : RegExp) (text : JsString) : Bool × RegExp :=
  let (found, lastIndex) := Pattern.test alphabet pattern.source text pattern.lastIndex
  (found, { pattern with lastIndex })

/-- The loop over the patterns: the first that matches ends it. -/
def screen (text : JsString) : List RegExp → Bool × List RegExp
  | [] => (false, [])
  | pattern :: patterns =>
      match pattern.test text with
      | (true, pattern) => (true, pattern :: patterns)
      | (false, pattern) =>
          let (found, patterns) := screen text patterns
          (found, pattern :: patterns)

structure SanitizationOptions where
  allowHtml : Bool
  maxLength : Option Int
  stripSql : Bool

/-- The value as it is screened: trimmed, and cut where a length is given and passed. -/
def screened (value : JsString) (maxLength : Option Int) : JsString :=
  let sanitized := trim value
  match maxLength with
  | none => sanitized
  | some maxLength =>
      -- zero is no limit, and a negative one leaves nothing
      if maxLength ≠ 0 ∧ maxLength < sanitized.length then sanitized.take maxLength.toNat
      else sanitized

/-- `sanitizeString`: what it returns or throws, and the patterns it leaves behind. -/
def sanitizeString (patterns : List RegExp) (value : JsString) (options : SanitizationOptions) :
    Except String JsString × List RegExp :=
  let sanitized := screened value options.maxLength
  let (found, patterns) := if options.stripSql then screen sanitized patterns else (false, patterns)
  if found then (.error "Invalid input detected", patterns)
  else (.ok (if options.allowHtml then sanitized else encodeHtml sanitized), patterns)

/-- The patterns after the calls so far. -/
def patternsAfter (calls : List (JsString × SanitizationOptions)) : List RegExp :=
  calls.foldl (fun patterns call => (sanitizeString patterns call.1 call.2).2) sqlInjectionPatterns

/-- The call is refused. -/
def Rejects (patterns : List RegExp) (value : JsString) (options : SanitizationOptions) : Prop :=
  (sanitizeString patterns value options).1 = .error "Invalid input detected"

/-- Some pattern matches somewhere in the text. -/
def Contains (text : JsString) : Prop :=
  ∃ pattern ∈ sqlInjectionPatterns, ∃ i, OccursAt alphabet pattern.source text i

/-- Some pattern matches in the text no earlier than the index it remembers. -/
def ContainsAhead (patterns : List RegExp) (text : JsString) : Prop :=
  ∃ pattern ∈ patterns, ∃ i, pattern.lastIndex ≤ i ∧ OccursAt alphabet pattern.source text i

section Screen

variable {patterns : List RegExp} {text value : JsString} {options : SanitizationOptions}

theorem RegExp.test_fst (pattern : RegExp) (text : JsString) :
    (pattern.test text).1 = true ↔
      ∃ i, pattern.lastIndex ≤ i ∧ OccursAt alphabet pattern.source text i := by
  exact Pattern.test_fst

theorem RegExp.test_lastIndex {pattern : RegExp} (h : (pattern.test text).1 = false) :
    (pattern.test text).2.lastIndex = 0 := by
  exact Pattern.test_snd_of_not h

theorem screen_cons_found {pattern : RegExp} (h : (pattern.test text).1 = true) :
    screen text (pattern :: patterns) = (true, (pattern.test text).2 :: patterns) := by
  rw [screen]
  split
  · next next hnext => rw [hnext]
  · next next hnext => rw [hnext] at h; cases h

theorem screen_cons_not_found {pattern : RegExp} (h : (pattern.test text).1 = false) :
    screen text (pattern :: patterns) =
      ((screen text patterns).1, (pattern.test text).2 :: (screen text patterns).2) := by
  rw [screen]
  split
  · next next hnext => rw [hnext] at h; cases h
  · next next hnext => rw [hnext]

/-- The screen finds what lies ahead of the indices, by induction along the patterns. -/
theorem screen_fst : (screen text patterns).1 = true ↔ ContainsAhead patterns text := by
  induction patterns with
  | nil =>
      refine iff_of_false (by simp [screen]) ?_
      rintro ⟨pattern, hpattern, -⟩
      cases hpattern
  | cons pattern patterns ih =>
      rw [ContainsAhead, List.exists_mem_cons_iff, ← RegExp.test_fst]
      cases hfound : (pattern.test text).1 with
      | true =>
          rw [screen_cons_found hfound]
          exact iff_of_true rfl (.inl rfl)
      | false =>
          rw [screen_cons_not_found hfound]
          constructor
          · intro h
            exact .inr (ih.mp h)
          · rintro (h | h)
            · cases h
            · exact ih.mpr h

theorem screen_sources : (screen text patterns).2.map RegExp.source = patterns.map RegExp.source := by
  induction patterns with
  | nil => rfl
  | cons pattern patterns ih =>
      cases hfound : (pattern.test text).1 with
      | true =>
          rw [screen_cons_found hfound]
          rfl
      | false =>
          rw [screen_cons_not_found hfound, List.map_cons, ih]
          rfl

/-- A text that passes leaves every index at the beginning. -/
theorem screen_rewound (h : (screen text patterns).1 = false) :
    ∀ pattern ∈ (screen text patterns).2, pattern.lastIndex = 0 := by
  induction patterns with
  | nil =>
      intro pattern hpattern
      cases hpattern
  | cons first patterns ih =>
      cases hfound : (first.test text).1 with
      | true =>
          rw [screen_cons_found hfound] at h
          cases h
      | false =>
          rw [screen_cons_not_found hfound] at h ⊢
          rintro pattern (_ | ⟨_, hpattern⟩)
          · exact RegExp.test_lastIndex hfound
          · exact ih h pattern hpattern

theorem sanitizeString_screened (patterns : List RegExp) (value : JsString) (h : options.stripSql = true) :
    (Rejects patterns value options ↔ (screen (screened value options.maxLength) patterns).1 = true) ∧
      (sanitizeString patterns value options).2 =
        (screen (screened value options.maxLength) patterns).2 := by
  rw [Rejects, sanitizeString, if_pos h]
  cases hfound : (screen (screened value options.maxLength) patterns).1 with
  | true => simp [hfound]
  | false => simp [hfound]

theorem sanitizeString_sources :
    (sanitizeString patterns value options).2.map RegExp.source = patterns.map RegExp.source := by
  cases hsql : options.stripSql with
  | true => rw [(sanitizeString_screened _ _ hsql).2, screen_sources]
  | false => simp [sanitizeString, hsql]

/-! ### Runs of calls -/

/-- No call changes what the patterns look for, by induction along the calls. -/
theorem patternsAfter_sources (calls : List (JsString × SanitizationOptions)) :
    (patternsAfter calls).map RegExp.source = sqlInjectionPatterns.map RegExp.source := by
  induction calls using List.reverseRecOn with
  | nil => rfl
  | append_singleton calls call ih =>
      rw [patternsAfter, List.foldl_append]
      exact sanitizeString_sources.trans ih

theorem ContainsAhead.contains {calls : List (JsString × SanitizationOptions)}
    (h : ContainsAhead (patternsAfter calls) text) : Contains text := by
  obtain ⟨pattern, hpattern, i, -, hoccurs⟩ := h
  have hmem : pattern.source ∈ sqlInjectionPatterns.map RegExp.source :=
    patternsAfter_sources calls ▸ List.mem_map_of_mem hpattern
  obtain ⟨loaded, hloaded, hsame⟩ := List.mem_map.mp hmem
  exact ⟨loaded, hloaded, i, hsame ▸ hoccurs⟩

theorem Contains.ahead_of_rewound {calls : List (JsString × SanitizationOptions)}
    (hrewound : ∀ pattern ∈ patternsAfter calls, pattern.lastIndex = 0) (h : Contains text) :
    ContainsAhead (patternsAfter calls) text := by
  obtain ⟨loaded, hloaded, i, hoccurs⟩ := h
  have hmem : loaded.source ∈ (patternsAfter calls).map RegExp.source :=
    patternsAfter_sources calls ▸ List.mem_map_of_mem hloaded
  obtain ⟨pattern, hpattern, hsame⟩ := List.mem_map.mp hmem
  exact ⟨pattern, hpattern, i, (hrewound pattern hpattern).symm ▸ Nat.zero_le i, hsame.symm ▸ hoccurs⟩

theorem rejects_iff (h : options.stripSql = true) :
    Rejects patterns value options ↔ ContainsAhead patterns (screened value options.maxLength) :=
  (sanitizeString_screened _ _ h).1.trans screen_fst

/-- **WHEN THE VERDICT IS RIGHT**: after any calls the screen rejects exactly what
    contains a match, provided that where there is one, one lies no earlier than the
    index its pattern remembers from the calls before. -/
theorem verdict_right_iff (calls : List (JsString × SanitizationOptions)) (value : JsString)
    (allowHtml : Bool) (maxLength : Option Int) :
    (Rejects (patternsAfter calls) value ⟨allowHtml, maxLength, true⟩ ↔
        Contains (screened value maxLength)) ↔
      (Contains (screened value maxLength) →
        ContainsAhead (patternsAfter calls) (screened value maxLength)) := by
  rw [rejects_iff rfl]
  constructor
  · intro hiff hcontains
    exact hiff.mpr hcontains
  · intro hahead
    exact ⟨ContainsAhead.contains, hahead⟩

/-- The same input, refused the first time and let through the second. -/
theorem second_submission_passes :
    Contains (screened (lit "--") none) ∧
      Rejects (patternsAfter []) (lit "--") ⟨false, none, true⟩ ∧
      ¬ Rejects (patternsAfter [(lit "--", ⟨false, none, true⟩)]) (lit "--") ⟨false, none, true⟩ := by
  have hfirst : ContainsAhead (patternsAfter []) (screened (lit "--") none) := by
    rw [← screen_fst]
    decide
  refine ⟨hfirst.contains, (rejects_iff rfl).mpr hfirst, ?_⟩
  rw [rejects_iff rfl, ← screen_fst]
  decide

/-- **RIGHT AFTER A PASS**: an input that was screened and let through leaves nothing
    to remember, and the next verdict is right. -/
theorem verdict_right_of_passed {calls : List (JsString × SanitizationOptions)}
    {call : JsString × SanitizationOptions} (hsql : call.2.stripSql = true)
    (hpassed : ¬ Rejects (patternsAfter calls) call.1 call.2) (h : options.stripSql = true) :
    Rejects (patternsAfter (calls ++ [call])) value options ↔
      Contains (screened value options.maxLength) := by
  have hscreened := sanitizeString_screened (patternsAfter calls) call.1 hsql
  have hnot := Bool.eq_false_iff.mpr (hpassed ∘ hscreened.1.mpr)
  have hafter : patternsAfter (calls ++ [call]) =
      (screen (screened call.1 call.2.maxLength) (patternsAfter calls)).2 := by
    rw [patternsAfter, List.foldl_append]
    exact hscreened.2
  rw [rejects_iff h]
  refine ⟨ContainsAhead.contains, Contains.ahead_of_rewound fun pattern hpattern => ?_⟩
  exact screen_rewound hnot pattern (hafter ▸ hpattern)

end Screen

end SaveSanitizer
