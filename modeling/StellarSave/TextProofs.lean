import Mathlib

/-! # Text — what a written text determines

    Numbers padded to a fixed width are read back from the text, whatever
    follows them.  Fields joined by a separator have no such property as a whole
    (a field may contain the separator), but with the LENGTHS of the other
    fields given the text still determines each one. -/

namespace Text

-- ── Decimal fields of a fixed width ───────────────────────────────────────────

/-- The decimal digit of a number below ten. -/
def digit (n : Nat) : Char := Char.ofNat (48 + n)

theorem digit_inj {m n : Nat} (hm : m < 10) (hn : n < 10) (h : digit m = digit n) : m = n := by
  have hall : ∀ i, i < 10 → ∀ j, j < 10 → digit i = digit j → i = j := by decide
  exact hall m hm n hn h

/-- `padStart(width, '0')` of a number of at most that many digits. -/
def padded : Nat → Nat → List Char
  | 0, _ => []
  | w + 1, n => padded w (n / 10) ++ [digit (n % 10)]

@[simp] theorem padded_length (w n : Nat) : (padded w n).length = w := by
  induction w generalizing n with
  | zero => rfl
  | succ w ih => simp [padded, ih]

theorem padded_inj {w m n : Nat} (hm : m < 10 ^ w) (hn : n < 10 ^ w)
    (h : padded w m = padded w n) : m = n := by
  induction w generalizing m n with
  | zero =>
      have hm' : m = 0 := by simpa using hm
      have hn' : n = 0 := by simpa using hn
      rw [hm', hn']
  | succ w ih =>
      obtain ⟨hhigh, hlow⟩ := List.append_inj' h rfl
      have hdiv : m / 10 = n / 10 :=
        ih (by rw [Nat.pow_succ] at hm; omega) (by rw [Nat.pow_succ] at hn; omega) hhigh
      have hmod : m % 10 = n % 10 := by
        have hd : digit (m % 10) = digit (n % 10) := by simpa using hlow
        exact digit_inj (Nat.mod_lt _ (by decide)) (Nat.mod_lt _ (by decide)) hd
      omega

/-- Two padded fields with anything after them. -/
theorem padded_append_inj {w m n : Nat} {r s : List Char} (hm : m < 10 ^ w) (hn : n < 10 ^ w)
    (h : padded w m ++ r = padded w n ++ s) : m = n ∧ r = s := by
  obtain ⟨hp, hr⟩ := List.append_inj h (by simp)
  exact ⟨padded_inj hm hn hp, hr⟩

-- ── Fields joined by a separator ──────────────────────────────────────────────

/-- Two appended texts whose heads are equally long. -/
theorem append_inj {a b r s : String} (hlen : a.length = b.length) (h : a ++ r = b ++ s) :
    a = b ∧ r = s := by
  have hlist : a.toList ++ r.toList = b.toList ++ s.toList := by
    rw [← String.toList_append, ← String.toList_append, h]
  obtain ⟨hhead, htail⟩ := List.append_inj hlist (by rw [String.length_toList, String.length_toList, hlen])
  exact ⟨String.toList_inj.mp hhead, String.toList_inj.mp htail⟩

/-- Fields of known lengths are read back from the joined text. -/
theorem intercalate_inj_of_lengths {sep : String} {xs ys : List String}
    (hlen : xs.map String.length = ys.map String.length)
    (h : sep.intercalate xs = sep.intercalate ys) : xs = ys := by
  -- the separator is skipped, as the lengths say where it stands
  induction xs generalizing ys with
  | nil =>
      cases ys with
      | nil => rfl
      | cons y ys => simp at hlen
  | cons x xs ih =>
      cases ys with
      | nil => simp at hlen
      | cons y ys =>
          rw [List.map_cons, List.map_cons, List.cons.injEq] at hlen
          obtain ⟨hhead, htail⟩ := hlen
          cases xs with
          | nil =>
              cases ys with
              | nil => simpa using h
              | cons y' ys => simp at htail
          | cons x' xs =>
              cases ys with
              | nil => simp at htail
              | cons y' ys =>
                  rw [String.intercalate_cons_cons, String.intercalate_cons_cons,
                    String.append_assoc, String.append_assoc] at h
                  obtain ⟨rfl, hrest⟩ := append_inj hhead h
                  rw [ih htail (append_inj rfl hrest).2]

/-- The length of the joined text. -/
theorem length_intercalate (sep x : String) (xs : List String) :
    (sep.intercalate (x :: xs)).length = x.length + (xs.map fun y => sep.length + y.length).sum := by
  induction xs generalizing x with
  | nil => simp
  | cons y xs ih =>
      rw [String.intercalate_cons_cons, String.length_append, String.length_append, ih]
      simp only [List.map_cons, List.sum_cons]
      omega

/-- Of a joined text and the other fields' lengths, the length of one field. -/
theorem length_of_others {sep a b : String} {xs ys xs' ys' : List String}
    (hxs : xs.map String.length = xs'.map String.length)
    (hys : ys.map String.length = ys'.map String.length)
    (h : sep.intercalate (xs ++ a :: ys) = sep.intercalate (xs' ++ b :: ys')) :
    a.length = b.length := by
  have hsum : ∀ zs zs' : List String, zs.map String.length = zs'.map String.length →
      (zs.map fun y => sep.length + y.length).sum = (zs'.map fun y => sep.length + y.length).sum := by
    intro zs zs' hzs
    have hmap : ∀ us : List String, (us.map fun y => sep.length + y.length)
        = (us.map String.length).map (sep.length + ·) := by
      intro us
      rw [List.map_map]
      rfl
    rw [hmap, hmap, hzs]
  have hlen := congrArg String.length h
  -- the texts around have the same lengths, so the one in the middle has too
  cases xs with
  | nil =>
      cases xs' with
      | nil =>
          rw [List.nil_append, List.nil_append, length_intercalate, length_intercalate,
            hsum ys ys' hys] at hlen
          omega
      | cons x' xs' => simp at hxs
  | cons x xs =>
      cases xs' with
      | nil => simp at hxs
      | cons x' xs' =>
          rw [List.map_cons, List.map_cons, List.cons.injEq] at hxs
          simp only [List.cons_append, length_intercalate, List.map_append, List.map_cons,
            List.sum_append, List.sum_cons] at hlen
          rw [hsum xs xs' hxs.2, hsum ys ys' hys, hxs.1] at hlen
          omega

/-- **ONE FIELD AT A TIME**: with the lengths of the other fields given, the
    joined text determines every field, whatever characters they contain. -/
theorem intercalate_field_inj {sep a b : String} (xs xs' : List String) {ys ys' : List String}
    (hxs : xs.map String.length = xs'.map String.length)
    (hys : ys.map String.length = ys'.map String.length)
    (h : sep.intercalate (xs ++ a :: ys) = sep.intercalate (xs' ++ b :: ys')) :
    xs = xs' ∧ a = b ∧ ys = ys' := by
  have hfield := length_of_others hxs hys h
  have hall := intercalate_inj_of_lengths
    (by simp only [List.map_append, List.map_cons, hxs, hys, hfield]) h
  have hlen : xs.length = xs'.length := by simpa using congrArg List.length hxs
  obtain ⟨hhead, htail⟩ := List.append_inj hall hlen
  rw [List.cons.injEq] at htail
  exact ⟨hhead, htail.1, htail.2⟩

end Text
