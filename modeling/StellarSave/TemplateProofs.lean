import StellarSave.NumeralProofs
import StellarSave.SubstitutionProofs

/-! # Templates — one key after another

    `renderTemplate` makes a regular expression of each key of a record and replaces it
    by the text of the value, key after key, in the text as the keys before have left
    it.  A value is inserted through the replacement patterns of the language, one that
    counts as false is inserted as nothing, and what was inserted is searched again for
    the keys that follow.  `interpolate` goes through the template once. -/

namespace Template

open Units Numeral Replacement Substitution

/-- A value of a record, with what `String` makes of it.  `falsy` are the values that
    count as false and are neither `undefined` nor the empty string. -/
inductive Value where
  | undefined
  | falsy (text : JsString)
  | string (s : JsString)
  | truthy (text : JsString)
  deriving DecidableEq

/-- `String(value)`. -/
def Value.text : Value → JsString
  | .undefined => lit "undefined"
  | .falsy text => text
  | .string s => s
  | .truthy text => text

/-- `String(value || '')`. -/
def Value.orEmpty : Value → JsString
  | .undefined => []
  | .falsy _ => []
  | .string s => s
  | .truthy text => text

/-- A record, in the order of its entries. -/
structure Record where
  entries : List (JsString × Value)
  nodup : (entries.map Prod.fst).Nodup

def openBrace : UInt16 := 0x7B
def closeBrace : UInt16 := 0x7D

def placeholder (key : JsString) : JsString :=
  openBrace :: openBrace :: (key ++ [closeBrace, closeBrace])

/-! ## Regular expressions and replacements -/

/-- What means something else than itself in a regular expression. -/
def syntaxCharacters : List UInt16 := openBrace :: closeBrace :: lit "^$\\.*+?()[]|"

/-- A key that makes the braces around it a count. -/
def isCount (key : JsString) : Bool :=
  !(key.takeWhile isDigit).isEmpty &&
    match key.dropWhile isDigit with
    | [] => true
    | u :: rest => u == unit ',' && rest.all isDigit

/-- A key whose regular expression finds its placeholder, letter by letter. -/
def isLiteral (key : JsString) : Bool :=
  key.all (fun u => !decide (u ∈ syntaxCharacters)) && !isCount key

def dollar : UInt16 := unit '$'
def ampersand : UInt16 := unit '&'
def backtick : UInt16 := 0x60
def apostrophe : UInt16 := 0x27

/-- What a replacement comes to for a match between two parts of the text; there are no
    groups. -/
def expand (before matched after : JsString) : JsString → JsString
  | [] => []
  | [u] => [u]
  | u :: c :: rest =>
      if u = dollar then
        if c = dollar then dollar :: expand before matched after rest
        else if c = ampersand then matched ++ expand before matched after rest
        else if c = backtick then before ++ expand before matched after rest
        else if c = apostrophe then after ++ expand before matched after rest
        else u :: expand before matched after (c :: rest)
      else u :: expand before matched after (c :: rest)

/-- `text.replace(pattern, replacement)` of a global pattern that is read letter by letter. -/
def replaceAll (pattern replacement : JsString) : Nat → JsString → JsString → JsString
  | _, _, [] => []
  | skip + 1, before, u :: rest => replaceAll pattern replacement skip (before ++ [u]) rest
  | 0, before, u :: rest =>
      if pattern.isPrefixOf (u :: rest) then
        expand before pattern ((u :: rest).drop pattern.length) replacement ++
          replaceAll pattern replacement (pattern.length - 1) (before ++ [u]) rest
      else u :: replaceAll pattern replacement 0 (before ++ [u]) rest

/-- Replacement by a pattern that means more than its letters: nothing where the pattern is
    an error. -/
abbrev Engine := JsString → JsString → JsString → Option JsString

/-- `rendered.replace(new RegExp(placeholder, 'g'), replacement)`. -/
def replace (engine : Engine) (key replacement rendered : JsString) : Option JsString :=
  if isLiteral key then some (replaceAll (placeholder key) replacement 0 [] rendered)
  else engine (placeholder key) replacement rendered

/-- One turn after another of the loop in `renderTemplate`. -/
def renderEntries (engine : Engine) (rendered : JsString) : List (JsString × Value) → Option JsString
  | [] => some rendered
  | (key, value) :: rest =>
      (replace engine key value.orEmpty rendered).bind fun rendered => renderEntries engine rendered rest

/-- `NotificationService.renderTemplate`. -/
def renderTemplate (engine : Engine) (template : JsString) (data : Record) : Option JsString :=
  renderEntries engine template data.entries

/-- `renderTemplate` of the reminders, whose values are strings. -/
def renderReminder (engine : Engine) (template : JsString) (vars : List (JsString × JsString)) :
    Option JsString :=
  vars.foldlM (fun out entry => replace engine entry.1 entry.2 out) template

/-! ## One pass -/

/-- The name of a placeholder of word characters that a text begins with. -/
def wordAt : JsString → Option JsString
  | a :: b :: rest =>
      if a = openBrace ∧ b = openBrace then
        if rest.takeWhile isWord ≠ [] ∧
            [closeBrace, closeBrace].isPrefixOf (rest.dropWhile isWord) = true then
          some (rest.takeWhile isWord)
        else none
      else none
  | _ => none

/-- `interpolate`, of what is found under a name. -/
def interpolateFrom (vars : JsString → Option JsString) : Nat → JsString → JsString
  | _, [] => []
  | skip + 1, _ :: rest => interpolateFrom vars skip rest
  | 0, u :: rest =>
      match wordAt (u :: rest) with
      | some name => (vars name).getD (placeholder name) ++ interpolateFrom vars (name.length + 3) rest
      | none => u :: interpolateFrom vars 0 rest

/-- The names `interpolate` finds in a template. -/
def wordNames : Nat → JsString → List JsString
  | _, [] => []
  | skip + 1, _ :: rest => wordNames skip rest
  | 0, u :: rest =>
      match wordAt (u :: rest) with
      | some name => name :: wordNames (name.length + 3) rest
      | none => wordNames 0 rest

/-- `vars[name]` where it is not `undefined`: an entry, or what the record inherits. -/
def member (inherited : JsString → Option JsString) (data : Record) (name : JsString) : Option JsString :=
  match data.entries.lookup name with
  | some .undefined => none
  | some value => some value.text
  | none => inherited name

def interpolate (inherited : JsString → Option JsString) (template : JsString) (data : Record) : JsString :=
  interpolateFrom (member inherited data) 0 template

/-! ## All at once -/

def texts (entries : List (JsString × Value)) : List (JsString × JsString) :=
  entries.map fun entry => (entry.1, entry.2.text)

/-- The template, split at the placeholders of the record. -/
def segments (template : JsString) (data : Record) : List (Segment UInt16 JsString) :=
  parse placeholder (data.entries.map Prod.fst) 0 template

/-- The template with each placeholder of the record replaced by the text of its value. -/
def substitute (template : JsString) (data : Record) : JsString :=
  fill placeholder (texts data.entries) (segments template data)

/-- Every placeholder `interpolate` finds has an entry with a value. -/
def AllBound (template : JsString) (data : Record) : Prop :=
  ∀ name ∈ wordNames 0 template, ∃ value, data.entries.lookup name = some value ∧ value ≠ .undefined

/-- Simultaneous substitution, and what `interpolate` gives where all placeholders are bound. -/
def Simultaneous (engine : Engine) (inherited : JsString → Option JsString) (template : JsString)
    (data : Record) : Prop :=
  renderTemplate engine template data = some (substitute template data) ∧
    (AllBound template data → renderTemplate engine template data =
      some (interpolate inherited template data))

/-! ## Where nothing goes wrong -/

/-- No replacement pattern is in a text. -/
def inert : JsString → Bool
  | [] => true
  | [_] => true
  | u :: c :: rest =>
      !(decide (u = dollar) && decide (c ∈ [dollar, ampersand, backtick, apostrophe])) && inert (c :: rest)

/-- The expression made of a key finds in a text what the letters of its placeholder would. -/
def ReadByLetter (engine : Engine) (key replacement text : JsString) : Prop :=
  isLiteral key = true ∨
    engine (placeholder key) replacement text = some (replaceAll (placeholder key) replacement 0 [] text)

/-- The turn of an entry, after some are filled: its key is read letter by letter, its
    placeholder is in the text as often as in the template, and where it is in the template
    the value is inserted as its text. -/
def TurnsOut (engine : Engine) (segments : List (Segment UInt16 JsString))
    (filled : List (JsString × JsString)) (key : JsString) (value : Value) : Prop :=
  ReadByLetter engine key value.orEmpty (fill placeholder filled segments) ∧
    occurrences (placeholder key) (fill placeholder filled segments) = segments.count (.hole key) ∧
    (.hole key ∈ segments → value.orEmpty = value.text ∧ inert value.text = true)

/-- Every entry turns out, one after the other. -/
def AllTurnOut (engine : Engine) (segments : List (Segment UInt16 JsString)) :
    List (JsString × JsString) → List (JsString × Value) → Prop
  | _, [] => True
  | filled, (key, value) :: rest =>
      TurnsOut engine segments filled key value ∧
        AllTurnOut engine segments (filled ++ [(key, value.text)]) rest

instance (engine : Engine) (segments : List (Segment UInt16 JsString))
    (filled : List (JsString × JsString)) (key : JsString) (value : Value) :
    Decidable (TurnsOut engine segments filled key value) :=
  inferInstanceAs (Decidable ((_ ∨ _) ∧ _ ∧ _))

instance decidableAllTurnOut (engine : Engine) (segments : List (Segment UInt16 JsString)) :
    ∀ filled entries, Decidable (AllTurnOut engine segments filled entries)
  | _, [] => isTrue trivial
  | filled, (key, value) :: rest =>
      have := decidableAllTurnOut engine segments (filled ++ [(key, value.text)]) rest
      inferInstanceAs (Decidable (TurnsOut engine segments filled key value ∧ _))

/-- A key of word characters. -/
def IsWordKey (key : JsString) : Prop := key ≠ [] ∧ key.all isWord = true

instance (key : JsString) : Decidable (IsWordKey key) := inferInstanceAs (Decidable (_ ∧ _))

/-- A segment that is no placeholder of anything but a word. -/
def WordHole : Segment UInt16 JsString → Prop
  | .symbol _ => True
  | .hole key => IsWordKey key

instance : DecidablePred WordHole
  | .symbol _ => isTrue trivial
  | .hole key => inferInstanceAs (Decidable (IsWordKey key))

section Turns

variable {engine : Engine} {key replacement before after pattern text : JsString} {value : Value}
  {filled : List (JsString × JsString)} {entries : List (JsString × Value)}

theorem placeholder_ne_nil (key : JsString) : placeholder key ≠ [] := List.cons_ne_nil _ _

theorem expand_inert : ∀ {replacement : JsString}, inert replacement = true →
    expand before pattern after replacement = replacement
  | [], _ => rfl
  | [_], _ => rfl
  | u :: c :: rest, h => by
      rw [inert, Bool.and_eq_true] at h
      obtain ⟨hfirst, hrest⟩ := h
      rw [expand, expand_inert hrest]
      by_cases hu : u = dollar
      · have hc : c ∉ [dollar, ampersand, backtick, apostrophe] := by
          intro hmem
          rw [decide_eq_true hu, decide_eq_true hmem] at hfirst
          cases hfirst
        simp only [List.mem_cons, List.not_mem_nil, or_false, not_or] at hc
        rw [if_pos hu, if_neg hc.1, if_neg hc.2.1, if_neg hc.2.2.1, if_neg hc.2.2.2]
      · rw [if_neg hu]

/-- Without patterns it is a replacement of one text by another. -/
theorem replaceAll_inert (h : inert replacement = true) (skip : Nat) :
    replaceAll pattern replacement skip before text =
      replaceFrom [pattern] (fun _ => replacement) skip text := by
  induction text generalizing skip before with
  | nil => rw [replaceAll, replaceFrom]
  | cons u rest ih =>
      cases skip with
      | succ skip => exact ih skip
      | zero =>
          rw [replaceAll]
          split
          · next hprefix =>
              have hfound : [pattern].find? (fun other => other.isPrefixOf (u :: rest)) = some pattern :=
                List.find?_cons_of_pos hprefix
              rw [replaceFrom, hfound, expand_inert h, ih]
          · next hno =>
              rw [replaceFrom_cons_of_none, ih]
              rw [List.find?_singleton, if_neg hno]

/-- A pattern that does not occur changes nothing. -/
theorem replaceAll_none (h : occurrences pattern text = 0) :
    replaceAll pattern replacement 0 before text = text := by
  induction text generalizing before with
  | nil => rw [replaceAll]
  | cons u rest ih =>
      rw [occurrences] at h
      have hno : ¬ pattern.isPrefixOf (u :: rest) = true := by
        intro hprefix
        rw [if_pos hprefix] at h
        omega
      rw [replaceAll, if_neg hno, ih (by omega)]

/-- **ONE TURN** fills the holes of its key. -/
theorem replace_turn {parts : List (Segment UInt16 JsString)} (hfree : filled.lookup key = none)
    (h : TurnsOut engine parts filled key value) :
    replace engine key value.orEmpty (fill placeholder filled parts) =
      some (fill placeholder (filled ++ [(key, value.text)]) parts) := by
  obtain ⟨hread, hcount, hvalue⟩ := h
  -- either way the letters are replaced
  have hletters : replace engine key value.orEmpty (fill placeholder filled parts) =
      some (replaceAll (placeholder key) value.orEmpty 0 [] (fill placeholder filled parts)) := by
    rw [replace]
    by_cases hliteral : isLiteral key = true
    · rw [if_pos hliteral]
    · rw [if_neg hliteral]
      exact hread.resolve_left hliteral
  rw [hletters]
  -- a key without a placeholder left finds nothing, whatever its value is
  by_cases hmem : .hole key ∈ parts
  · obtain ⟨hsame, hinert⟩ := hvalue hmem
    rw [hsame, replaceAll_inert hinert, replace_fill (placeholder_ne_nil key) hfree parts hcount.le]
  · rw [List.count_eq_zero_of_not_mem hmem] at hcount
    rw [replaceAll_none hcount, fill_append_of_not_mem parts hmem]

/-- All turns, by induction along the entries. -/
theorem renderEntries_eq {parts : List (Segment UInt16 JsString)}
    (hnodup : (filled.map Prod.fst ++ entries.map Prod.fst).Nodup)
    (h : AllTurnOut engine parts filled entries) :
    renderEntries engine (fill placeholder filled parts) entries =
      some (fill placeholder (filled ++ texts entries) parts) := by
  induction entries generalizing filled with
  | nil =>
      rw [renderEntries]
      show _ = some (fill placeholder (filled ++ []) parts)
      rw [List.append_nil]
  | cons entry entries ih =>
      obtain ⟨key, value⟩ := entry
      obtain ⟨hturn, hrest⟩ := h
      -- no name is filled twice
      have hfree : filled.lookup key = none := by
        rw [List.lookup_eq_none_iff]
        intro entry hentry
        have hdisjoint := (List.nodup_append.mp hnodup).2.2 entry.1 (List.mem_map_of_mem hentry)
          key List.mem_cons_self
        simpa using Ne.symm hdisjoint
      rw [renderEntries, replace_turn hfree hturn]
      show renderEntries engine _ entries = some (fill placeholder (filled ++ ([(key, value.text)] ++ texts entries)) parts)
      rw [← List.append_assoc]
      refine ih ?_ hrest
      rw [List.map_append, List.append_assoc]
      exact hnodup

/-- With strings alone the reminders' function is the same. -/
theorem renderReminder_eq (engine : Engine) (template : JsString) (vars : List (JsString × JsString)) :
    renderReminder engine template vars =
      renderEntries engine template (vars.map fun entry => (entry.1, .string entry.2)) := by
  induction vars generalizing template with
  | nil => rfl
  | cons entry vars ih =>
      show (replace engine entry.1 entry.2 template).bind _ = (replace engine entry.1 entry.2 template).bind _
      congr 1
      funext rendered
      exact ih rendered

end Turns

section Words

variable {template text name key : JsString} {u : UInt16} {rest : JsString} {keys : List JsString}
  {vars : JsString → Option JsString} {values : List (JsString × JsString)}

/-- The placeholder of a word is found as that word. -/
theorem wordAt_of_prefix (hkey : IsWordKey key) (h : placeholder key <+: text) : wordAt text = some key := by
  obtain ⟨after, rfl⟩ := h
  -- a word ends at the brace, as no word has one
  have hclose : isWord closeBrace = false := by decide
  have hword : ∀ u ∈ key, isWord u = true := List.all_eq_true.mp hkey.2
  have htake : (key ++ closeBrace :: closeBrace :: after).takeWhile isWord = key := by
    rw [List.takeWhile_append_of_pos hword, List.takeWhile_cons_of_neg (by simp [hclose]),
      List.append_nil]
  have hdrop : (key ++ closeBrace :: closeBrace :: after).dropWhile isWord =
      closeBrace :: closeBrace :: after := by
    rw [List.dropWhile_append_of_pos hword, List.dropWhile_cons_of_neg (by simp [hclose])]
  have hshape : placeholder key ++ after =
      openBrace :: openBrace :: (key ++ closeBrace :: closeBrace :: after) := by
    simp [placeholder]
  rw [hshape, wordAt, if_pos ⟨rfl, rfl⟩, htake, hdrop, if_pos]
  refine ⟨hkey.1, List.isPrefixOf_iff_prefix.mpr ?_⟩
  exact List.prefix_append [closeBrace, closeBrace] after

/-- And what is found as a word is its placeholder. -/
theorem prefix_of_wordAt (h : wordAt text = some name) : placeholder name <+: text := by
  rw [wordAt.eq_def] at h
  split at h
  · next a b rest =>
      split at h
      · next hopen =>
          split at h
          · next hword =>
              obtain ⟨rfl, rfl⟩ := hopen
              obtain rfl := Option.some.inj h
              obtain ⟨after, hafter⟩ := List.isPrefixOf_iff_prefix.mp hword.2
              refine ⟨after, ?_⟩
              rw [placeholder, List.cons_append, List.cons_append, List.append_assoc, hafter,
                List.takeWhile_append_dropWhile]
          · cases h
      · cases h
  · cases h

/-- **THE SAME PASS**: where every word found is a key and every key found is a word, both
    read the template alike. -/
theorem interpolateFrom_eq (skip : Nat) (text : JsString)
    (hvars : ∀ name ∈ wordNames skip text, name ∈ keys ∧ vars name = values.lookup name)
    (hwords : ∀ segment ∈ parse placeholder keys skip text, WordHole segment) :
    fill placeholder values (parse placeholder keys skip text) = interpolateFrom vars skip text := by
  induction text generalizing skip with
  | nil => rw [parse, interpolateFrom]; rfl
  | cons u rest ih =>
      cases skip with
      | succ skip => exact ih skip hvars hwords
      | zero =>
          rw [wordNames] at hvars
          rw [parse] at hwords ⊢
          rw [interpolateFrom]
          cases hfound : keys.find? fun key => (placeholder key).isPrefixOf (u :: rest) with
          | some key =>
              rw [hfound] at hwords
              have hbegins := List.find?_some hfound
              have hprefix := List.isPrefixOf_iff_prefix.mp hbegins
              -- a key stands here, so the other pass reads it as a word
              have hword := wordAt_of_prefix (hwords (.hole key) List.mem_cons_self) hprefix
              have hlength : (placeholder key).length - 1 = key.length + 3 := by
                simp [placeholder]
              rw [hword] at hvars ⊢
              simp only [hlength] at hwords ⊢
              have hrest := ih (key.length + 3) (fun name hname => hvars name (List.mem_cons_of_mem _ hname))
                fun other hother => hwords other (List.mem_cons_of_mem _ hother)
              rw [fill_cons, hrest, (hvars key List.mem_cons_self).2]
              rfl
          | none =>
              rw [hfound] at hwords
              -- no key stands here, so no word does: every word found is a key
              have hword : wordAt (u :: rest) = none := by
                cases hword : wordAt (u :: rest) with
                | none => rfl
                | some name =>
                    rw [hword] at hvars
                    have hkey := (hvars name List.mem_cons_self).1
                    have hno := List.find?_eq_none.mp hfound name hkey
                    exact absurd (List.isPrefixOf_iff_prefix.mpr (prefix_of_wordAt hword)) hno
              rw [hword] at hvars ⊢
              have hrest := ih 0 hvars fun other hother => hwords other (List.mem_cons_of_mem _ hother)
              rw [fill_cons, hrest]
              rfl

theorem texts_lookup (entries : List (JsString × Value)) (name : JsString) :
    (texts entries).lookup name = (entries.lookup name).map Value.text := by
  induction entries with
  | nil => rfl
  | cons entry entries ih =>
      obtain ⟨key, value⟩ := entry
      show ((key, value.text) :: texts entries).lookup name = _
      rw [List.lookup_cons, List.lookup_cons, ih]
      split <;> rfl

/-- **SIMULTANEOUS SUBSTITUTION** where every entry turns out; and what `interpolate` gives
    where moreover all placeholders are bound and those of the record are words. -/
theorem simultaneous_of_turns (engine : Engine) (inherited : JsString → Option JsString)
    (template : JsString) (data : Record)
    (hturns : AllTurnOut engine (segments template data) [] data.entries)
    (hwords : AllBound template data → ∀ segment ∈ segments template data, WordHole segment) :
    Simultaneous engine inherited template data := by
  -- the template is its segments, with every placeholder in place
  have htemplate : fill placeholder [] (segments template data) = template :=
    fill_parse placeholder_ne_nil 0 template
  have hrender : renderTemplate engine template data = some (substitute template data) := by
    have hall : renderEntries engine (fill placeholder [] (segments template data)) data.entries =
        some (fill placeholder ([] ++ texts data.entries) (segments template data)) :=
      renderEntries_eq data.nodup hturns
    rw [htemplate] at hall
    exact hall
  refine ⟨hrender, fun hbound => ?_⟩
  rw [hrender, substitute, interpolate]
  congr 1
  refine interpolateFrom_eq 0 template (fun name hname => ?_) (hwords hbound)
  obtain ⟨value, hvalue, hdefined⟩ := hbound name hname
  -- each name is a key of the data, with a value
  constructor
  · obtain ⟨before, after, hentries, -⟩ := List.lookup_eq_some_iff.mp hvalue
    rw [hentries]
    simp
  · rw [texts_lookup, member, hvalue]
    cases value with
    | undefined => exact absurd rfl hdefined
    | _ => rfl

/-- A template of two placeholders, and a record for it. -/
def greeting : JsString := lit "Hi \x7b\x7bname\x7d\x7d, \x7b\x7bamount\x7d\x7d XLM"

def annPays : Record := ⟨[(lit "name", .string (lit "Ann")), (lit "amount", .truthy (lit "50"))], by decide⟩

theorem simultaneous_greeting : Simultaneous (fun _ _ _ => none) (fun _ => none) greeting annPays :=
  simultaneous_of_turns _ _ greeting annPays (by decide +kernel) (fun _ => by decide +kernel)

/-- The value of the first key names the second. -/
def namesNext : Record :=
  ⟨[(lit "name", .string (lit "\x7b\x7bamount\x7d\x7d")), (lit "amount", .truthy (lit "50"))], by decide⟩

/-- A price with a doubled dollar sign, and an amount of zero. -/
def dollarsAndZero : Record :=
  ⟨[(lit "name", .string (lit "$$")), (lit "amount", .falsy (lit "0"))], by decide⟩

/-- What was inserted is searched again, read as a pattern, or dropped. -/
theorem inserted_again :
    ¬ Simultaneous (fun _ _ _ => none) (fun _ => none) greeting namesNext ∧
      ¬ Simultaneous (fun _ _ _ => none) (fun _ => none) greeting dollarsAndZero := by
  have hagain : renderTemplate (fun _ _ _ => none) greeting namesNext ≠
      some (substitute greeting namesNext) := by decide +kernel
  have hdropped : renderTemplate (fun _ _ _ => none) greeting dollarsAndZero ≠
      some (substitute greeting dollarsAndZero) := by decide +kernel
  exact ⟨fun h => hagain h.1, fun h => hdropped h.1⟩

end Words

end Template
