import StellarSave.SanitizerProofs

/-! # Sanitized objects — when a body keeps its shape

    `sanitizeObject` goes through a value and writes every field under its sanitized
    key.  Two keys that agree once trimmed and cut are one field afterwards, and the
    one key that an assignment does not write is `__proto__`, which sets the prototype
    of the object instead.  Escaping itself keeps keys apart. -/

namespace SaveSanitizer

open Units Replacement Pattern

/-- A value as a body gives it and as the sanitizer builds it: an object is its own
    fields in the order they were first written, and whether it still inherits the
    setter of `__proto__`.  A number is whatever the language has for it. -/
inductive Value (ν : Type) where
  | null
  | bool (b : Bool)
  | num (n : ν)
  | str (s : JsString)
  | arr (items : List (Value ν))
  | obj (inherits : Bool) (fields : List (JsString × Value ν))

variable {ν : Type}

/-- The name whose assignment reaches the setter of `Object.prototype`. -/
def protoKey : JsString := lit "__proto__"

/-- What an object finds under `__proto__` when its prototype is set to a value: nothing
    changes for a primitive, there is no setter behind `null`, and an own field of that
    name in the new prototype hides it. -/
def inheritsFrom (inherits : Bool) : Value ν → Bool
  | .null => false
  | .arr _ => true
  | .obj inherits fields => inherits && !decide (protoKey ∈ fields.map Prod.fst)
  | _ => inherits

/-- Write over the field of that name. -/
def overwrite (key : JsString) (value : Value ν) (fields : List (JsString × Value ν)) :
    List (JsString × Value ν) :=
  fields.map fun field => if field.1 = key then (key, value) else field

/-- `object[key] = value`. -/
def assign (object : Bool × List (JsString × Value ν)) (key : JsString) (value : Value ν) :
    Bool × List (JsString × Value ν) :=
  if key ∈ object.2.map Prod.fst then (object.1, overwrite key value object.2)
  else if key = protoKey ∧ object.1 = true then (inheritsFrom object.1 value, object.2)
  else (object.1, object.2 ++ [(key, value)])

/-- What may throw, over the patterns that remember. -/
abbrev Screening (α : Type) := List RegExp → Except String α × List RegExp

/-- The options a key is sanitized under. -/
def SanitizationOptions.forKey (options : SanitizationOptions) : SanitizationOptions :=
  { options with maxLength := some 100 }

mutual

/-- `sanitizeObject`. -/
def sanitizeObject (options : SanitizationOptions) : Value ν → Screening (Value ν)
  | .null, patterns => (.ok .null, patterns)
  | .bool b, patterns => (.ok (.bool b), patterns)
  | .num n, patterns => (.ok (.num n), patterns)
  | .str s, patterns =>
      match sanitizeString patterns s options with
      | (.ok s, patterns) => (.ok (.str s), patterns)
      | (.error e, patterns) => (.error e, patterns)
  | .arr items, patterns =>
      match sanitizeItems options items patterns with
      | (.ok items, patterns) => (.ok (.arr items), patterns)
      | (.error e, patterns) => (.error e, patterns)
  | .obj _ fields, patterns =>
      match sanitizeFields options fields (true, []) patterns with
      | (.ok object, patterns) => (.ok (.obj object.1 object.2), patterns)
      | (.error e, patterns) => (.error e, patterns)

/-- The items of an array, one after the other. -/
def sanitizeItems (options : SanitizationOptions) : List (Value ν) → Screening (List (Value ν))
  | [], patterns => (.ok [], patterns)
  | item :: items, patterns =>
      match sanitizeObject options item patterns with
      | (.error e, patterns) => (.error e, patterns)
      | (.ok item, patterns) =>
          match sanitizeItems options items patterns with
          | (.ok items, patterns) => (.ok (item :: items), patterns)
          | (.error e, patterns) => (.error e, patterns)

/-- The loop over the entries of an object: the key, then the value, then the assignment. -/
def sanitizeFields (options : SanitizationOptions) :
    List (JsString × Value ν) → Bool × List (JsString × Value ν) →
      Screening (Bool × List (JsString × Value ν))
  | [], object, patterns => (.ok object, patterns)
  | (key, value) :: fields, object, patterns =>
      match sanitizeString patterns key options.forKey with
      | (.error e, patterns) => (.error e, patterns)
      | (.ok key, patterns) =>
          match sanitizeObject options value patterns with
          | (.error e, patterns) => (.error e, patterns)
          | (.ok value, patterns) => sanitizeFields options fields (assign object key value) patterns

end

mutual

/-- The same kind of value; arrays of one length and objects of as many fields, whose
    values have the same shape in turn. -/
def SameShape : Value ν → Value ν → Prop
  | .null, .null => True
  | .bool _, .bool _ => True
  | .num _, .num _ => True
  | .str _, .str _ => True
  | .arr items, .arr items' => SameItems items items'
  | .obj _ fields, .obj _ fields' => SameFields fields fields'
  | _, _ => False

def SameItems : List (Value ν) → List (Value ν) → Prop
  | [], [] => True
  | item :: items, item' :: items' => SameShape item item' ∧ SameItems items items'
  | _, _ => False

def SameFields : List (JsString × Value ν) → List (JsString × Value ν) → Prop
  | [], [] => True
  | (_, value) :: fields, (_, value') :: fields' => SameShape value value' ∧ SameFields fields fields'
  | _, _ => False

end

/-- A key as it is screened. -/
def cutKey (key : JsString) : JsString := screened key (some 100)

mutual

/-- In every object, at any depth, the keys are apart once trimmed and cut, and none of
    them is `__proto__` then. -/
def KeysApart : Value ν → Prop
  | .arr items => ItemsApart items
  | .obj _ fields =>
      ((fields.map fun field => cutKey field.1).Nodup ∧ protoKey ∉ fields.map fun field => cutKey field.1) ∧
        FieldsApart fields
  | _ => True

def ItemsApart : List (Value ν) → Prop
  | [] => True
  | item :: items => KeysApart item ∧ ItemsApart items

def FieldsApart : List (JsString × Value ν) → Prop
  | [] => True
  | (_, value) :: fields => KeysApart value ∧ FieldsApart fields

end

/-- What a value can be sanitized to, whatever the patterns remember. -/
def Sanitized (options : SanitizationOptions) (value result : Value ν) : Prop :=
  ∃ patterns patterns', sanitizeObject options value patterns = (.ok result, patterns')

/-- A key as it is written. -/
def cleanKey (options : SanitizationOptions) (key : JsString) : JsString :=
  if options.allowHtml then cutKey key else encodeHtml (cutKey key)

/-- Assignments one after the other. -/
def assignAll (pairs : List (JsString × Value ν)) (object : Bool × List (JsString × Value ν)) :
    Bool × List (JsString × Value ν) :=
  pairs.foldl (fun object pair => assign object pair.1 pair.2) object

section Keys

variable {options : SanitizationOptions} {key other : JsString} {patterns patterns' : List RegExp}

/-- Two strings are not encoded alike. -/
theorem encodeHtml_inj {s t : JsString} (h : encodeHtml s = encodeHtml t) : s = t := by
  rw [encodeHtml_eq, encodeHtml_eq] at h
  rw [← htmlEntities_marked.decode_encode s, h, htmlEntities_marked.decode_encode]

/-- Keys that are cleaned to the same were cut to the same. -/
theorem cleanKey_inj (h : cleanKey options key = cleanKey options other) : cutKey key = cutKey other := by
  rw [cleanKey, cleanKey] at h
  split at h
  · exact h
  · exact encodeHtml_inj h

/-- No markup is in the name of the setter. -/
theorem cleanKey_proto : cleanKey options key = protoKey ↔ cutKey key = protoKey := by
  have hplain : encodeHtml protoKey = protoKey := by decide
  rw [cleanKey]
  split
  · exact Iff.rfl
  · constructor
    · intro h
      exact encodeHtml_inj (h.trans hplain.symm)
    · intro h
      rw [h, hplain]

/-- A key is cleaned without the patterns: it comes out as `cleanKey` says. -/
theorem sanitizeString_key {k : JsString}
    (h : sanitizeString patterns key options.forKey = (.ok k, patterns')) : k = cleanKey options key := by
  have hresult : ∀ screening : Bool × List RegExp,
      (if screening.1 = true then (Except.error "Invalid input detected", screening.2)
        else (.ok (cleanKey options key), screening.2)) = (Except.ok k, patterns') →
      k = cleanKey options key := by
    rintro ⟨found, after⟩ h
    cases found with
    | true => cases h
    | false => exact (Except.ok.inj (Prod.mk.inj h).1).symm
  exact hresult _ h

/-- **KEYS APART, BEFORE AND AFTER**: escaping neither merges keys nor makes one the
    name of the setter. -/
theorem cleanKeys_apart (options : SanitizationOptions) (fields : List (JsString × Value ν)) :
    ((fields.map fun field => cleanKey options field.1).Nodup ∧
        protoKey ∉ fields.map fun field => cleanKey options field.1) ↔
      (fields.map fun field => cutKey field.1).Nodup ∧
        protoKey ∉ fields.map fun field => cutKey field.1 := by
  refine and_congr ?_ (not_congr ?_)
  · simp only [List.Nodup, List.pairwise_map]
    refine List.Pairwise.iff fun field field' => not_congr ⟨cleanKey_inj, fun h => ?_⟩
    rw [cleanKey, cleanKey, h]
  · rw [List.mem_map, List.mem_map]
    exact exists_congr fun field => and_congr_right fun _ => cleanKey_proto

end Keys

section Assign

variable {object : Bool × List (JsString × Value ν)} {key : JsString} {value : Value ν}
  {pairs : List (JsString × Value ν)}

/-- An assignment adds one field at most. -/
theorem length_assign_le (object : Bool × List (JsString × Value ν)) (key : JsString) (value : Value ν) :
    (assign object key value).2.length ≤ object.2.length + 1 := by
  rw [assign]
  split
  · rw [overwrite, List.length_map]
    exact Nat.le_succ _
  · split
    · exact Nat.le_succ _
    · rw [List.length_append, List.length_singleton]

/-- A new key adds one, unless it is the one that sets the prototype. -/
theorem assign_fresh (hkey : key ∉ object.2.map Prod.fst) (hproto : key ≠ protoKey) :
    assign object key value = (object.1, object.2 ++ [(key, value)]) := by
  rw [assign, if_neg hkey, if_neg fun h => hproto h.1]

/-- A field more means a new name that is not the setter's. -/
theorem fresh_of_length_assign {key : JsString} {value : Value ν} (hinherits : object.1 = true)
    (h : (assign object key value).2.length = object.2.length + 1) :
    key ∉ object.2.map Prod.fst ∧ key ≠ protoKey := by
  rw [assign] at h
  split at h
  · rw [overwrite, List.length_map] at h
    omega
  · next hkey =>
      split at h
      · exact absurd h (Nat.ne_of_lt (Nat.lt_succ_self _))
      · next hproto => exact ⟨hkey, fun he => hproto ⟨he, hinherits⟩⟩

/-- Many add as many at most. -/
theorem length_assignAll_le (pairs : List (JsString × Value ν)) (object : Bool × List (JsString × Value ν)) :
    (assignAll pairs object).2.length ≤ object.2.length + pairs.length := by
  induction pairs generalizing object with
  | nil => exact Nat.le_refl _
  | cons pair pairs ih =>
      have hrest := ih (assign object pair.1 pair.2)
      have hfirst := length_assign_le object pair.1 pair.2
      rw [List.length_cons]
      show (assignAll pairs (assign object pair.1 pair.2)).2.length ≤ _
      omega

/-- **NOTHING LOST** among assignments whose names are new, apart and not the setter's. -/
theorem assignAll_fresh (hnew : ∀ pair ∈ pairs, pair.1 ∉ object.2.map Prod.fst)
    (hnodup : (pairs.map Prod.fst).Nodup) (hproto : protoKey ∉ pairs.map Prod.fst) :
    assignAll pairs object = (object.1, object.2 ++ pairs) := by
  induction pairs generalizing object with
  | nil => simp [assignAll]
  | cons pair pairs ih =>
      rw [List.map_cons, List.nodup_cons] at hnodup
      rw [List.map_cons, List.mem_cons, not_or] at hproto
      show assignAll pairs (assign object pair.1 pair.2) = _
      rw [assign_fresh (hnew pair List.mem_cons_self) (Ne.symm hproto.1),
        ih (fun other hother => ?_) hnodup.2 hproto.2]
      · simp
      · rw [List.map_append, List.mem_append, not_or, List.map_singleton, List.mem_singleton]
        refine ⟨hnew other (List.mem_cons_of_mem _ hother), fun he => hnodup.1 ?_⟩
        exact he ▸ List.mem_map_of_mem hother

/-- And only then are there as many fields as assignments. -/
theorem apart_of_length_assignAll (object : Bool × List (JsString × Value ν)) (hinherits : object.1 = true)
    (h : (assignAll pairs object).2.length = object.2.length + pairs.length) :
    (∀ pair ∈ pairs, pair.1 ∉ object.2.map Prod.fst) ∧ (pairs.map Prod.fst).Nodup ∧
      protoKey ∉ pairs.map Prod.fst := by
  induction pairs generalizing object with
  | nil => simp
  | cons pair pairs ih =>
      have hrest := length_assignAll_le pairs (assign object pair.1 pair.2)
      have hfirst := length_assign_le object pair.1 pair.2
      have hall : (assignAll pairs (assign object pair.1 pair.2)).2.length =
          object.2.length + (pairs.length + 1) := h
      -- each assignment adds one field at most, so each of them adds one
      have hone : (assign object pair.1 pair.2).2.length = object.2.length + 1 := by omega
      obtain ⟨hkey, hproto⟩ := fresh_of_length_assign hinherits hone
      rw [assign_fresh hkey hproto] at hall
      have hlength : (assignAll pairs (object.1, object.2 ++ [(pair.1, pair.2)])).2.length =
          (object.2 ++ [(pair.1, pair.2)]).length + pairs.length := by
        rw [hall, List.length_append, List.length_singleton]
        omega
      obtain ⟨hnew, hnodup, hnoproto⟩ :=
        ih (object.1, object.2 ++ [(pair.1, pair.2)]) hinherits hlength
      refine ⟨fun other hother => ?_, ?_, ?_⟩
      · rcases List.mem_cons.mp hother with rfl | hother
        · exact hkey
        · intro hmem
          exact hnew other hother (by rw [List.map_append]; exact List.mem_append_left _ hmem)
      · rw [List.map_cons, List.nodup_cons]
        refine ⟨fun hmem => ?_, hnodup⟩
        obtain ⟨other, hother, he⟩ := List.mem_map.mp hmem
        refine hnew other hother ?_
        rw [List.map_append, he]
        exact List.mem_append_right _ (by simp)
      · rw [List.map_cons, List.mem_cons, not_or]
        exact ⟨Ne.symm hproto, hnoproto⟩

end Assign

section Traversal

variable {options : SanitizationOptions} {patterns patterns' : List RegExp} {value result : Value ν}
  {items results : List (Value ν)} {fields : List (JsString × Value ν)}
  {object object' : Bool × List (JsString × Value ν)}

/-- An array is sanitized item by item. -/
theorem sanitizeObject_arr (h : sanitizeObject options (.arr items) patterns = (.ok result, patterns')) :
    ∃ results, sanitizeItems options items patterns = (.ok results, patterns') ∧ result = .arr results := by
  rw [sanitizeObject] at h
  split at h
  · next results after hitems =>
      cases h
      exact ⟨results, hitems, rfl⟩
  · cases (Prod.mk.inj h).1

/-- An object field by field, into a new object. -/
theorem sanitizeObject_obj {inherits : Bool}
    (h : sanitizeObject options (.obj inherits fields) patterns = (.ok result, patterns')) :
    ∃ object, sanitizeFields options fields (true, []) patterns = (.ok object, patterns') ∧
      result = .obj object.1 object.2 := by
  rw [sanitizeObject] at h
  split at h
  · next object after hfields =>
      cases h
      exact ⟨object, hfields, rfl⟩
  · cases (Prod.mk.inj h).1

/-- The first item, then the others, with the patterns where the first left them. -/
theorem sanitizeItems_cons
    (h : sanitizeItems options (value :: items) patterns = (.ok results, patterns')) :
    ∃ result rest, Sanitized options value result ∧
      (∃ between, sanitizeItems options items between = (.ok rest, patterns')) ∧ results = result :: rest := by
  rw [sanitizeItems] at h
  split at h
  · cases (Prod.mk.inj h).1
  · next result between hvalue =>
      split at h
      · next rest after hitems =>
          cases h
          exact ⟨result, rest, ⟨_, _, hvalue⟩, ⟨_, hitems⟩, rfl⟩
      · cases (Prod.mk.inj h).1

/-- The loop is its assignments, each of a sanitized value under its clean key. -/
theorem sanitizeFields_ok
    (h : sanitizeFields options fields object patterns = (.ok object', patterns')) :
    ∃ results, List.Forall₂ (fun field result => Sanitized options field.2 result) fields results ∧
      object' = assignAll ((fields.map fun field => cleanKey options field.1).zip results) object := by
  induction fields generalizing object patterns with
  | nil =>
      rw [sanitizeFields] at h
      cases h
      exact ⟨[], .nil, rfl⟩
  | cons field fields ih =>
      obtain ⟨key, value⟩ := field
      rw [sanitizeFields] at h
      split at h
      · cases (Prod.mk.inj h).1
      · next k between hkey =>
          split at h
          · cases (Prod.mk.inj h).1
          · next result after hvalue =>
              obtain rfl := sanitizeString_key hkey
              obtain ⟨results, hresults, hobject⟩ := ih h
              exact ⟨result :: results, .cons ⟨_, _, hvalue⟩ hresults, hobject⟩

/-- Same fields, as many of them. -/
theorem SameFields.length_eq {fields fields' : List (JsString × Value ν)} (h : SameFields fields fields') :
    fields.length = fields'.length := by
  induction fields generalizing fields' with
  | nil =>
      cases fields' with
      | nil => rfl
      | cons field' fields' => exact h.elim
  | cons field fields ih =>
      cases fields' with
      | nil => exact h.elim
      | cons field' fields' => rw [List.length_cons, List.length_cons, ih h.2]

mutual

/-- **THE SHAPE OF WHAT IS RETURNED**, by induction on the value. -/
theorem sameShape_iff (options : SanitizationOptions) :
    ∀ (value : Value ν) {result : Value ν}, Sanitized options value result →
      (SameShape value result ↔ KeysApart value)
  | .null, result, ⟨_, _, h⟩ => by
      cases h
      exact Iff.rfl
  | .bool b, result, ⟨_, _, h⟩ => by
      cases h
      exact Iff.rfl
  | .num n, result, ⟨_, _, h⟩ => by
      cases h
      exact Iff.rfl
  | .str s, result, ⟨patterns, _, h⟩ => by
      rw [sanitizeObject] at h
      split at h
      · cases h
        exact Iff.rfl
      · cases (Prod.mk.inj h).1
  | .arr items, result, ⟨_, _, h⟩ => by
      obtain ⟨results, hitems, rfl⟩ := sanitizeObject_arr h
      exact sameItems_iff options items hitems
  | .obj inherits fields, result, ⟨_, _, h⟩ => by
      obtain ⟨object, hfields, rfl⟩ := sanitizeObject_obj h
      obtain ⟨results, hresults, rfl⟩ := sanitizeFields_ok hfields
      have hlength : (fields.map fun field => cleanKey options field.1).length = results.length := by
        rw [List.length_map]
        exact hresults.length_eq
      have hkeys : ((fields.map fun field => cleanKey options field.1).zip results).map Prod.fst =
          fields.map fun field => cleanKey options field.1 := List.map_fst_zip hlength.le
      have hsame := sameFields_iff options fields (fields.map fun field => cleanKey options field.1)
        (List.length_map _) hresults
      have hapart := cleanKeys_apart options fields
      show SameFields fields _ ↔ _ ∧ FieldsApart fields
      rw [← hapart, ← hsame]
      constructor
      · intro h
        -- as many fields as there were, so none was lost
        have hall := h.length_eq
        have hlost : (assignAll ((fields.map fun field => cleanKey options field.1).zip results)
            (true, [])).2.length =
            ([] : List (JsString × Value ν)).length +
              ((fields.map fun field => cleanKey options field.1).zip results).length := by
          rw [← hall, List.length_nil, Nat.zero_add, List.length_zip, ← hlength, Nat.min_self,
            List.length_map]
        obtain ⟨-, hnodup, hproto⟩ := apart_of_length_assignAll _ rfl hlost
        rw [hkeys] at hnodup hproto
        refine ⟨⟨hnodup, hproto⟩, ?_⟩
        rwa [assignAll_fresh (by simp) (by rwa [hkeys]) (by rwa [hkeys])] at h
      · rintro ⟨⟨hnodup, hproto⟩, h⟩
        rwa [assignAll_fresh (by simp) (by rwa [hkeys]) (by rwa [hkeys])]

/-- Items keep their shape exactly if each does. -/
theorem sameItems_iff (options : SanitizationOptions) :
    ∀ (items : List (Value ν)) {results : List (Value ν)} {patterns patterns' : List RegExp},
      sanitizeItems options items patterns = (.ok results, patterns') →
        (SameItems items results ↔ ItemsApart items)
  | [], results, _, _, h => by
      cases h
      exact Iff.rfl
  | value :: items, results, _, _, h => by
      obtain ⟨result, rest, hvalue, ⟨between, hrest⟩, rfl⟩ := sanitizeItems_cons h
      exact and_congr (sameShape_iff options value hvalue) (sameItems_iff options items hrest)

/-- Fields do if each does and no two keys become one. -/
theorem sameFields_iff (options : SanitizationOptions) :
    ∀ (fields : List (JsString × Value ν)) (keys : List JsString) {results : List (Value ν)},
      keys.length = fields.length →
      List.Forall₂ (fun field result => Sanitized options field.2 result) fields results →
        (SameFields fields (keys.zip results) ↔ FieldsApart fields)
  | [], keys, results, hlength, hresults => by
      cases hresults
      obtain rfl := List.length_eq_zero_iff.mp hlength
      exact Iff.rfl
  | (name, value) :: fields, [], results, hlength, hresults => by cases hlength
  | (name, value) :: fields, key :: keys, results, hlength, hresults => by
      cases hresults with
      | cons hvalue hrest =>
          exact and_congr (sameShape_iff options value hvalue)
            (sameFields_iff options fields keys (Nat.succ.inj hlength) hrest)

end

/-- **WHEN A BODY KEEPS ITS SHAPE**: whatever the patterns remember, what is returned has
    the shape of the value exactly where its keys, trimmed and cut, are apart in every
    object and none of them is `__proto__`. -/
theorem body_shape_iff (options : SanitizationOptions) (value : Value ν) {result : Value ν}
    {patterns patterns' : List RegExp}
    (h : sanitizeObject options value patterns = (.ok result, patterns')) :
    SameShape value result ↔ KeysApart value := by
  exact sameShape_iff options value ⟨_, _, h⟩

end Traversal

/-- Fields that are apart: nothing is lost of them. -/
def plainBody : Value Int := .obj true [(lit "name", .str (lit "x")), (lit "amounts", .arr [.num 1, .num 2])]

/-- A plain body keeps its shape. -/
theorem body_shape_iff_plain : SameShape plainBody plainBody := by
  have h : sanitizeObject ⟨false, some 500, false⟩ plainBody [] = (.ok plainBody, []) := rfl
  exact (body_shape_iff _ plainBody h).mpr
    ⟨⟨by decide, by decide⟩, trivial, ⟨trivial, trivial, trivial⟩, trivial⟩

/-- Two fields whose names agree once trimmed. -/
def paddedBody : Value Int := .obj true [(lit "amount", .num 100), (lit " amount", .num 1)]

/-- **TWO FIELDS, THEN ONE**: the second is written over the first. -/
theorem padded_field_overwrites :
    sanitizeObject ⟨false, none, false⟩ paddedBody sqlInjectionPatterns =
        (.ok (.obj true [(lit "amount", .num 1)]), sqlInjectionPatterns) ∧
      ¬ SameShape paddedBody (.obj true [(lit "amount", .num 1)]) := by
  refine ⟨rfl, ?_⟩
  rintro ⟨-, h⟩
  exact h

end SaveSanitizer
