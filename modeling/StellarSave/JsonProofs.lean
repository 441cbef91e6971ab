import Mathlib

/-! # Json — the text of a value names it

    Values as a JSON column gives them and `JSON.stringify` writes them: no
    white space, the keys of an object in its own order, strings quoted with
    the escapes of the language.  A number is kept as the text
    `Number::toString` gives it, which is one-to-one on numbers up to the sign
    of zero.  The text of a value determines it wherever no character of a
    number follows. -/

/-- The characters a number is written with. -/
def numeralChar (c : Char) : Bool := c.isDigit || c == '-' || c == '+' || c == '.' || c == 'e'

/-- A number, as the language prints it. -/
structure Numeral where
  text : List Char
  nonempty : text ≠ []
  chars : ∀ c ∈ text, numeralChar c = true
  deriving DecidableEq

/-- A JSON value; the fields of an object in their order. -/
inductive Json where
  | null
  | bool (b : Bool)
  | num (n : Numeral)
  | str (s : String)
  | arr (items : List Json)
  | obj (fields : List (String × Json))

namespace Json

-- ── Strings ───────────────────────────────────────────────────────────────────

/-- The characters with an escape of two characters, and its letter. -/
def shorts : List (Char × Char) :=
  [('"', '"'), ('\\', '\\'), (Char.ofNat 8, 'b'), (Char.ofNat 12, 'f'), ('\n', 'n'), ('\r', 'r'),
    ('\t', 't')]

def short (c : Char) : Option Char := (shorts.find? fun p => p.1 == c).map (·.2)

/-- A hexadecimal digit, lower case. -/
def hexDigit (n : Nat) : Char := if n < 10 then Char.ofNat (48 + n) else Char.ofNat (87 + n)

/-- One character inside quotes. -/
def escape (c : Char) : List Char :=
  match short c with
  | some e => ['\\', e]
  | none =>
      if c.toNat < 32 then
        ['\\', 'u', '0', '0', hexDigit (c.toNat / 16), hexDigit (c.toNat % 16)]
      else [c]

/-- The characters of a string and the closing quote. -/
def quoteTail : List Char → List Char
  | [] => ['"']
  | c :: cs => escape c ++ quoteTail cs

def quote (s : String) : List Char := '"' :: quoteTail s.toList

/-- The short escapes are those of the table. -/
theorem short_mem {c e : Char} (h : short c = some e) : (c, e) ∈ shorts := by
  obtain ⟨p, hfind, rfl⟩ := Option.map_eq_some_iff.mp h
  have hp : p.1 = c := by simpa using List.find?_some hfind
  exact hp ▸ List.mem_of_find?_eq_some hfind

/-- No two characters share one. -/
theorem short_inj {a b e : Char} (ha : short a = some e) (hb : short b = some e) : a = b := by
  have hall : ∀ p ∈ shorts, ∀ q ∈ shorts, p.2 = q.2 → p.1 = q.1 := by decide
  exact hall _ (short_mem ha) _ (short_mem hb) rfl

/-- And none of them is taken for a numeric escape. -/
theorem short_ne_u {a : Char} : short a ≠ some 'u' := by
  have hall : ∀ p ∈ shorts, p.2 ≠ 'u' := by decide
  exact fun h => hall _ (short_mem h) rfl

/-- Two hexadecimal digits tell a control character. -/
theorem hexDigit_inj {m n : Nat} (hm : m < 32) (hn : n < 32)
    (hhigh : hexDigit (m / 16) = hexDigit (n / 16)) (hlow : hexDigit (m % 16) = hexDigit (n % 16)) :
    m = n := by
  have hall : ∀ i, i < 16 → ∀ j, j < 16 → hexDigit i = hexDigit j → i = j := by decide
  have h₁ := hall (m / 16) (by omega) (n / 16) (by omega) hhigh
  have h₂ := hall (m % 16) (by omega) (n % 16) (by omega) hlow
  omega

/-- The six characters of a control character. -/
def control (n : Nat) : List Char := ['\\', 'u', '0', '0', hexDigit (n / 16), hexDigit (n % 16)]

/-- The three ways a character is written. -/
theorem escape_cases (c : Char) :
    (∃ e, short c = some e ∧ escape c = ['\\', e])
      ∨ (c.toNat < 32 ∧ escape c = control c.toNat)
      ∨ (c ≠ '\\' ∧ c ≠ '"' ∧ escape c = [c]) := by
  simp only [escape]
  cases hc : short c with
  | some e => exact Or.inl ⟨e, rfl, rfl⟩
  | none =>
      by_cases h : c.toNat < 32
      · exact Or.inr (Or.inl ⟨h, if_pos h⟩)
      · refine Or.inr (Or.inr ⟨?_, ?_, if_neg h⟩)
        · rintro rfl
          exact absurd hc (by decide)
        · rintro rfl
          exact absurd hc (by decide)

/-- An escape determines its character and ends where it ends. -/
theorem escape_append_inj {a b : Char} {r s : List Char} (h : escape a ++ r = escape b ++ s) :
    a = b ∧ r = s := by
  obtain ⟨e, ha, hea⟩ | ⟨ha, hea⟩ | ⟨ha, -, hea⟩ := escape_cases a <;>
    obtain ⟨e', hb, heb⟩ | ⟨hb, heb⟩ | ⟨hb, -, heb⟩ := escape_cases b <;>
    rw [hea, heb] at h <;>
    simp only [control, List.cons_append, List.nil_append, List.cons.injEq, true_and] at h
  · obtain ⟨rfl, hrest⟩ := h
    exact ⟨short_inj ha hb, hrest⟩
  · exact absurd (h.1 ▸ ha) short_ne_u
  · exact absurd h.1.symm hb
  · exact absurd (h.1 ▸ hb) short_ne_u
  · obtain ⟨hhigh, hlow, hrest⟩ := h
    exact ⟨Char.toNat_inj.mp (hexDigit_inj ha hb hhigh hlow), hrest⟩
  · exact absurd h.1.symm hb
  · exact absurd h.1 ha
  · exact absurd h.1 ha
  · exact h

/-- No character is written as a closing quote. -/
theorem escape_append_ne_quote {a : Char} {r s : List Char} : escape a ++ r ≠ '"' :: s := by
  intro h
  obtain ⟨e, -, hea⟩ | ⟨-, hea⟩ | ⟨-, hne, hea⟩ := escape_cases a <;>
    rw [hea] at h <;>
    simp only [control, List.cons_append, List.nil_append, List.cons.injEq] at h
  · exact absurd h.1 (by decide)
  · exact absurd h.1 (by decide)
  · exact absurd h.1 hne

/-- A quoted string ends where its closing quote is, whatever follows. -/
theorem quoteTail_append_inj {cs ds r s : List Char} (h : quoteTail cs ++ r = quoteTail ds ++ s) :
    cs = ds ∧ r = s := by
  induction cs generalizing ds with
  | nil =>
      cases ds with
      | nil => exact ⟨rfl, by simpa [quoteTail] using h⟩
      | cons d ds =>
          rw [quoteTail, quoteTail, List.append_assoc] at h
          exact absurd h.symm escape_append_ne_quote
  | cons c cs ih =>
      cases ds with
      | nil =>
          rw [quoteTail, quoteTail, List.append_assoc] at h
          exact absurd h escape_append_ne_quote
      | cons d ds =>
          rw [quoteTail, quoteTail, List.append_assoc, List.append_assoc] at h
          obtain ⟨rfl, htail⟩ := escape_append_inj h
          obtain ⟨rfl, hrest⟩ := ih htail
          exact ⟨rfl, hrest⟩

/-- A quoted string ends itself. -/
theorem quote_append_inj {a b : String} {r s : List Char} (h : quote a ++ r = quote b ++ s) :
    a = b ∧ r = s := by
  rw [quote, quote, List.cons_append, List.cons_append, List.cons.injEq] at h
  obtain ⟨hchars, hrest⟩ := quoteTail_append_inj h.2
  exact ⟨String.toList_inj.mp hchars, hrest⟩

-- ── Values ────────────────────────────────────────────────────────────────────

/-- What stands before an item or a field that is not the first. -/
def comma (first : Bool) : List Char := if first then [] else [',']

mutual

/-- The characters `JSON.stringify` writes for a value. -/
def write : Json → List Char
  | .null => ['n', 'u', 'l', 'l']
  | .bool true => ['t', 'r', 'u', 'e']
  | .bool false => ['f', 'a', 'l', 's', 'e']
  | .num n => n.text
  | .str s => quote s
  | .arr items => '[' :: writeItems true items
  | .obj fields => '{' :: writeFields true fields

def writeItems (first : Bool) : List Json → List Char
  | [] => [']']
  | x :: xs => comma first ++ (write x ++ writeItems false xs)

def writeFields (first : Bool) : List (String × Json) → List Char
  | [] => ['}']
  | (k, v) :: fs => comma first ++ (quote k ++ (':' :: (write v ++ writeFields false fs)))

end

/-- `JSON.stringify`. -/
def stringify (v : Json) : String := String.ofList (write v)

example : stringify (.arr [.str "a\"b", .bool true, .arr [.null, .null]])
    = "[\"a\\\"b\",true,[null,null]]" := by decide

/-- No character of a number comes first. -/
def Stops (r : List Char) : Prop := ∀ c, r.head? = some c → numeralChar c = false

/-- What the first character says of a value. -/
def lead (c : Char) : Nat :=
  if c = 'n' then 0 else if c = 't' then 1 else if c = 'f' then 2 else if c = '"' then 3
  else if c = '[' then 4 else if c = '{' then 5 else if numeralChar c then 6 else 7

def shape : Json → Nat
  | .null => 0
  | .bool true => 1
  | .bool false => 2
  | .str _ => 3
  | .arr _ => 4
  | .obj _ => 5
  | .num _ => 6

/-- A value that begins like a numeral is one. -/
theorem lead_numeral {c : Char} (h : numeralChar c = true) : lead c = 6 := by
  have hne : ∀ d : Char, numeralChar d = false → c ≠ d := by
    intro d hd hcd
    rw [hcd, hd] at h
    exact absurd h (by decide)
  simp [lead, h, hne 'n' (by decide), hne 't' (by decide), hne 'f' (by decide),
    hne '"' (by decide), hne '[' (by decide), hne '{' (by decide)]

/-- The first character of a value shows its shape. -/
theorem write_lead (v : Json) : ∃ c t, write v = c :: t ∧ lead c = shape v := by
  cases v with
  | null => exact ⟨'n', ['u', 'l', 'l'], rfl, by decide⟩
  | bool b =>
      cases b with
      | true => exact ⟨'t', ['r', 'u', 'e'], rfl, by decide⟩
      | false => exact ⟨'f', ['a', 'l', 's', 'e'], rfl, by decide⟩
  | num n =>
      obtain ⟨text, hne, hchars⟩ := n
      cases text with
      | nil => exact absurd rfl hne
      | cons c t => exact ⟨c, t, rfl, lead_numeral (hchars c (by simp))⟩
  | str s => exact ⟨'"', quoteTail s.toList, rfl, by rw [shape]; decide⟩
  | arr items => exact ⟨'[', writeItems true items, rfl, by rw [shape]; decide⟩
  | obj fields => exact ⟨'{', writeFields true fields, rfl, by rw [shape]; decide⟩

/-- There are seven ways for a value to begin. -/
theorem shape_lt (v : Json) : shape v < 7 := by
  cases v with
  | bool b => cases b <;> decide
  | _ => simp [shape]

/-- A value never starts as a list ends. -/
theorem write_append_ne_close {v : Json} {c : Char} {r s : List Char} (hc : lead c = 7) :
    write v ++ r ≠ c :: s := by
  intro h
  obtain ⟨d, t, htext, hlead⟩ := write_lead v
  rw [htext, List.cons_append, List.cons.injEq] at h
  rw [h.1, hc] at hlead
  have := shape_lt v
  omega

/-- Two values with the same text before a rest have one shape. -/
theorem shape_of_append {u v : Json} {r s : List Char} (h : write u ++ r = write v ++ s) :
    shape u = shape v := by
  obtain ⟨c, t, htext, hlead⟩ := write_lead u
  obtain ⟨c', t', htext', hlead'⟩ := write_lead v
  rw [htext, htext', List.cons_append, List.cons_append, List.cons.injEq] at h
  rw [← hlead, ← hlead', h.1]

/-- A number is read to the last of its characters. -/
theorem numeral_append_inj {m n : Numeral} {r s : List Char} (hr : Stops r) (hs : Stops s)
    (h : m.text ++ r = n.text ++ s) : m = n ∧ r = s := by
  have htake : ∀ (k : Numeral) (q : List Char), Stops q →
      (k.text ++ q).takeWhile numeralChar = k.text := by
    intro k q hq
    rw [List.takeWhile_append_of_pos k.chars]
    cases q with
    | nil => simp
    | cons c q => simp [hq c rfl]
  have htext : m.text = n.text := by rw [← htake m r hr, ← htake n s hs, h]
  rw [htext] at h
  refine ⟨?_, List.append_cancel_left h⟩
  cases m
  cases n
  simp_all

/-- A list with an item does not start as the empty one ends. -/
theorem writeItems_cons_ne_close (first : Bool) (x : Json) (xs : List Json) (r s : List Char) :
    writeItems first (x :: xs) ++ r ≠ writeItems first [] ++ s := by
  rw [writeItems, writeItems, List.append_assoc]
  cases first with
  | true =>
      rw [comma, if_pos rfl, List.nil_append, List.append_assoc]
      exact write_append_ne_close (by decide)
  | false => simp [comma]

/-- An object with a field does not look like one without. -/
theorem writeFields_cons_ne_close (first : Bool) (f : String × Json) (fs : List (String × Json))
    (r s : List Char) : writeFields first (f :: fs) ++ r ≠ writeFields first [] ++ s := by
  obtain ⟨k, v⟩ := f
  cases first <;> simp [writeFields, comma, quote]

/-- What follows an item or a field is no part of a number. -/
theorem stops_items (xs : List Json) (r : List Char) : Stops (writeItems false xs ++ r) := by
  cases xs with
  | nil => intro c hc; simp [writeItems] at hc; subst hc; decide
  | cons x xs => intro c hc; simp [writeItems, comma] at hc; subst hc; decide

/-- After a value comes a comma or the end. -/
theorem stops_fields (fs : List (String × Json)) (r : List Char) :
    Stops (writeFields false fs ++ r) := by
  cases fs with
  | nil => intro c hc; simp [writeFields] at hc; subst hc; decide
  | cons f fs =>
      obtain ⟨k, v⟩ := f
      intro c hc
      simp [writeFields, comma] at hc
      subst hc
      decide

mutual

/-- A value, an item list and a field list are read back from their text, one
    case for each shape. -/
theorem write_append_inj (u v : Json) (r s : List Char) (hr : Stops r) (hs : Stops s)
    (h : write u ++ r = write v ++ s) : u = v ∧ r = s := by
  have hshape := shape_of_append h
  -- values of different shape begin differently, so both are of one shape
  match u, v with
  | .null, v =>
      cases v with
      | null => exact ⟨rfl, List.append_cancel_left h⟩
      | bool b => cases b <;> simp [shape] at hshape
      | _ => simp [shape] at hshape
  | .bool a, v =>
      cases v with
      | bool b =>
          cases a <;> cases b <;> simp [shape] at hshape
          · exact ⟨rfl, List.append_cancel_left h⟩
          · exact ⟨rfl, List.append_cancel_left h⟩
      | _ => cases a <;> simp [shape] at hshape
  | .num m, v =>
      cases v with
      | num n =>
          obtain ⟨rfl, hrest⟩ := numeral_append_inj hr hs h
          exact ⟨rfl, hrest⟩
      | bool b => cases b <;> simp [shape] at hshape
      | _ => simp [shape] at hshape
  | .str a, v =>
      cases v with
      | str b =>
          obtain ⟨rfl, hrest⟩ := quote_append_inj h
          exact ⟨rfl, hrest⟩
      | bool b => cases b <;> simp [shape] at hshape
      | _ => simp [shape] at hshape
  | .arr xs, v =>
      cases v with
      | arr ys =>
          rw [write, write, List.cons_append, List.cons_append, List.cons.injEq] at h
          obtain ⟨rfl, hrest⟩ := writeItems_append_inj true xs ys r s h.2
          exact ⟨rfl, hrest⟩
      | bool b => cases b <;> simp [shape] at hshape
      | _ => simp [shape] at hshape
  | .obj fs, v =>
      cases v with
      | obj gs =>
          rw [write, write, List.cons_append, List.cons_append, List.cons.injEq] at h
          obtain ⟨rfl, hrest⟩ := writeFields_append_inj true fs gs r s h.2
          exact ⟨rfl, hrest⟩
      | bool b => cases b <;> simp [shape] at hshape
      | _ => simp [shape] at hshape

/-- Two rows of items written alike are the same row, and so is what follows. -/
theorem writeItems_append_inj (first : Bool) (xs ys : List Json) (r s : List Char)
    (h : writeItems first xs ++ r = writeItems first ys ++ s) : xs = ys ∧ r = s := by
  match xs, ys with
  | [], [] => exact ⟨rfl, List.append_cancel_left h⟩
  | [], y :: ys => exact absurd h.symm (writeItems_cons_ne_close first y ys s r)
  | x :: xs, [] => exact absurd h (writeItems_cons_ne_close first x xs r s)
  | x :: xs, y :: ys =>
      simp only [writeItems, List.append_assoc] at h
      have hvalue := List.append_cancel_left h
      obtain ⟨rfl, hitems⟩ :=
        write_append_inj x y _ _ (stops_items xs r) (stops_items ys s) hvalue
      obtain ⟨rfl, hrest⟩ := writeItems_append_inj false xs ys r s hitems
      exact ⟨rfl, hrest⟩

/-- So are two rows of fields. -/
theorem writeFields_append_inj (first : Bool) (fs gs : List (String × Json)) (r s : List Char)
    (h : writeFields first fs ++ r = writeFields first gs ++ s) : fs = gs ∧ r = s := by
  match fs, gs with
  | [], [] => exact ⟨rfl, List.append_cancel_left h⟩
  | [], g :: gs => exact absurd h.symm (writeFields_cons_ne_close first g gs s r)
  | f :: fs, [] => exact absurd h (writeFields_cons_ne_close first f fs r s)
  | (k, v) :: fs, (k', v') :: gs =>
      simp only [writeFields, List.append_assoc, List.cons_append] at h
      have hkey := List.append_cancel_left h
      obtain ⟨rfl, hcolon⟩ := quote_append_inj hkey
      rw [List.cons.injEq] at hcolon
      obtain ⟨rfl, hfields⟩ :=
        write_append_inj v v' _ _ (stops_fields fs r) (stops_fields gs s) hcolon.2
      obtain ⟨rfl, hrest⟩ := writeFields_append_inj false fs gs r s hfields
      exact ⟨rfl, hrest⟩

end

/-- **A VALUE IS ITS TEXT**: no two values are written alike. -/
theorem stringify_inj {u v : Json} (h : stringify u = stringify v) : u = v := by
  have hwrite : write u ++ [] = write v ++ [] := by
    rw [List.append_nil, List.append_nil]
    exact String.ofList_inj.mp h
  have hnil : Stops [] := by
    intro c hc
    exact absurd hc (by simp)
  exact (write_append_inj u v [] [] hnil hnil hwrite).1

-- ── The same value with its keys in another order ─────────────────────────────

mutual

/-- Two values that differ in the order of object keys, at any depth, only. -/
inductive Reordered : Json → Json → Prop where
  | same (v : Json) : Reordered v v
  | arr {xs ys : List Json} : ReorderedItems xs ys → Reordered (.arr xs) (.arr ys)
  | obj {fs gs hs : List (String × Json)} : ReorderedFields fs gs → gs.Perm hs →
      Reordered (.obj fs) (.obj hs)

inductive ReorderedItems : List Json → List Json → Prop where
  | nil : ReorderedItems [] []
  | cons {v w : Json} {xs ys : List Json} : Reordered v w → ReorderedItems xs ys →
      ReorderedItems (v :: xs) (w :: ys)

inductive ReorderedFields : List (String × Json) → List (String × Json) → Prop where
  | nil : ReorderedFields [] []
  | cons {k : String} {v w : Json} {fs gs : List (String × Json)} : Reordered v w →
      ReorderedFields fs gs → ReorderedFields ((k, v) :: fs) ((k, w) :: gs)

end

/-- The length of a field that is not the first. -/
def fieldLength (f : String × Json) : Nat := (quote f.1).length + (write f.2).length + 2

/-- The length of a field list does not depend on the order of the fields. -/
theorem writeFields_length (first : Bool) (fs : List (String × Json)) :
    (writeFields first fs).length + (if first && !fs.isEmpty then 1 else 0)
      = (fs.map fieldLength).sum + 1 := by
  induction fs generalizing first with
  | nil => simp [writeFields]
  | cons f fs ih =>
      obtain ⟨k, v⟩ := f
      have h := ih false
      cases first <;> simp [writeFields, comma, fieldLength] at h ⊢ <;> omega

mutual

/-- Reordering keys keeps the length of the text. -/
theorem Reordered.length_eq {v w : Json} (h : Reordered v w) :
    (write v).length = (write w).length := by
  cases h with
  | same => rfl
  | arr hitems =>
      have hlen := hitems.length_eq true
      simp [write, hlen]
  | obj hfields hperm =>
      rename_i fs gs hs
      have hempty : fs.isEmpty = hs.isEmpty := by
        rw [hperm.isEmpty_eq.symm]
        cases hfields <;> rfl
      have hsum : (fs.map fieldLength).sum = (hs.map fieldLength).sum :=
        hfields.sum_eq.trans (hperm.map fieldLength).sum_nat
      have h₁ := writeFields_length true fs
      have h₂ := writeFields_length true hs
      rw [hempty, hsum] at h₁
      simp only [write, List.length_cons]
      omega

/-- Another order inside the items is as long in writing. -/
theorem ReorderedItems.length_eq {xs ys : List Json} (h : ReorderedItems xs ys) (first : Bool) :
    (writeItems first xs).length = (writeItems first ys).length := by
  cases h with
  | nil => rfl
  | cons hvalue hrest => simp [writeItems, hvalue.length_eq, hrest.length_eq false]

/-- So is another order of the fields. -/
theorem ReorderedFields.sum_eq {fs gs : List (String × Json)} (h : ReorderedFields fs gs) :
    (fs.map fieldLength).sum = (gs.map fieldLength).sum := by
  cases h with
  | nil => rfl
  | cons hvalue hrest => simp [fieldLength, hvalue.length_eq, hrest.sum_eq]

end

end Json
