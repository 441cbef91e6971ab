import Mathlib.Data.List.Basic
import Mathlib.Data.List.Perm.Basic

/-! # Chain — entries linked by hashes

    Each entry stores the hash of the entry before it and its own hash; `digest`
    computes an entry's hash again from its other fields.  A chain is `Linked`
    from a genesis hash when every stored link and every stored hash is right.
    What a change of one entry does to a chain depends on its digest alone. -/

namespace HashChain

/-- No two of the texts used share a hash. -/
def NoCollisions {P H : Type} (sha : P → H) (texts : List P) : Prop :=
  ∀ s ∈ texts, ∀ t ∈ texts, sha s = sha t → s = t

variable {E H : Type} (prev hash digest : E → H)

/-- Every link and every hash of the chain is right. -/
def Linked : H → List E → Prop
  | _, [] => True
  | p, e :: es => prev e = p ∧ hash e = digest e ∧ Linked (hash e) es

/-- The hash the next entry links to. -/
def lastHash : H → List E → H
  | p, [] => p
  | _, e :: es => lastHash (hash e) es

@[simp] theorem lastHash_nil (p : H) : lastHash hash p [] = p := rfl

@[simp] theorem lastHash_cons (p : H) (e : E) (es : List E) :
    lastHash hash p (e :: es) = lastHash hash (hash e) es := rfl

@[simp] theorem lastHash_concat (p : H) (es : List E) (e : E) :
    lastHash hash p (es ++ [e]) = hash e := by
  induction es generalizing p with
  | nil => rfl
  | cons x es ih => exact ih (hash x)

@[simp] theorem linked_nil (p : H) : Linked prev hash digest p [] ↔ True := Iff.rfl

@[simp] theorem linked_cons (p : H) (e : E) (es : List E) :
    Linked prev hash digest p (e :: es)
      ↔ prev e = p ∧ hash e = digest e ∧ Linked prev hash digest (hash e) es := Iff.rfl

/-- A chain in two parts. -/
theorem linked_append (p : H) (xs ys : List E) :
    Linked prev hash digest p (xs ++ ys)
      ↔ Linked prev hash digest p xs ∧ Linked prev hash digest (lastHash hash p xs) ys := by
  induction xs generalizing p with
  | nil => simp
  | cons x xs ih => simp [ih, and_assoc]

variable {prev hash digest}

/-- Appending an entry that links to the last one. -/
theorem linked_concat {p : H} {es : List E} {e : E} (h : Linked prev hash digest p es)
    (hprev : prev e = lastHash hash p es) (hdigest : hash e = digest e) :
    Linked prev hash digest p (es ++ [e]) :=
  (linked_append prev hash digest p es [e]).mpr ⟨h, hprev, hdigest, trivial⟩

/-- Every entry of a chain has its own hash. -/
theorem Linked.digest_of_mem {p : H} {es : List E} (h : Linked prev hash digest p es) {e : E}
    (he : e ∈ es) : hash e = digest e := by
  induction es generalizing p with
  | nil => exact absurd he (by simp)
  | cons x es ih =>
      obtain ⟨_, hx, hrest⟩ := h
      obtain rfl | hmem := List.mem_cons.mp he
      · exact hx
      · exact ih hrest hmem

/-- Every entry of a chain links to the one before it. -/
theorem Linked.prev_of_append {p : H} {xs ys : List E} {e : E}
    (h : Linked prev hash digest p (xs ++ e :: ys)) : prev e = lastHash hash p xs :=
  ((linked_append prev hash digest p xs (e :: ys)).mp h).2.1

/-- A part at the start of a chain is a chain. -/
theorem Linked.take {p : H} {es : List E} (h : Linked prev hash digest p es) (n : Nat) :
    Linked prev hash digest p (es.take n) := by
  rw [← List.take_append_drop n es] at h
  exact ((linked_append prev hash digest p _ _).mp h).1

/-- **A CHANGED ENTRY**: with its link and its hash left as they were, the chain
    stands exactly when the new entry still digests to the old hash. -/
theorem linked_replace {p : H} {xs ys : List E} {e e' : E}
    (h : Linked prev hash digest p (xs ++ e :: ys)) (hprev : prev e' = prev e)
    (hhash : hash e' = hash e) :
    Linked prev hash digest p (xs ++ e' :: ys) ↔ digest e' = digest e := by
  obtain ⟨hxs, hlink, hdigest, hys⟩ := (linked_append prev hash digest p xs (e :: ys)).mp h
  rw [linked_append, linked_cons, hprev, hhash, hdigest]
  constructor
  · intro hnew
    exact hnew.2.2.1.symm
  · intro heq
    exact ⟨hxs, hlink, heq.symm, hdigest ▸ hys⟩

-- ── The order entries are read in ─────────────────────────────────────────────

/-- Among the first `n` entries each comes strictly before all that follow it. -/
def Strict (key : E → Int) : Nat → List E → Prop
  | 0, _ => True
  | _, [] => True
  | n + 1, x :: xs => (∀ y ∈ xs, key x < key y) ∧ Strict key n xs

/-- **NO CHOICE**: any order by a key starts with the entries that come strictly
    before all that follow them. -/
theorem take_eq_of_strict {key : E → Int} {n : Nat} {xs ys : List E} (hstrict : Strict key n xs)
    (hperm : ys.Perm xs) (hsorted : ys.Pairwise fun e f => key e ≤ key f) :
    ys.take n = xs.take n := by
  induction n generalizing xs ys with
  | zero => rfl
  | succ n ih =>
      cases xs with
      | nil => rw [List.perm_nil.mp hperm]
      | cons x xs =>
          cases ys with
          | nil => exact absurd hperm.symm (by simp)
          | cons y ys =>
              obtain ⟨hx, hrest⟩ := hstrict
              have hxy : y = x := by
                obtain heq | hmem := List.mem_cons.mp (hperm.mem_iff.mp (List.mem_cons_self))
                · exact heq
                · obtain heq | hlater := List.mem_cons.mp (hperm.mem_iff.mpr (List.mem_cons_self))
                  · exact heq.symm
                  · have hle := (List.pairwise_cons.mp hsorted).1 x hlater
                    exact absurd (hx y hmem) (Int.not_lt.mpr hle)
              subst hxy
              rw [List.take_succ_cons, List.take_succ_cons,
                ih hrest (List.Perm.cons_inv hperm) (List.pairwise_cons.mp hsorted).2]

/-- Entries ordered by a key, each of the first `n` strictly before the next. -/
theorem strict_of_next {key : E → Int} {n : Nat} {xs : List E}
    (hsorted : xs.Pairwise fun e f => key e ≤ key f)
    (hnext : ∀ i < n, ∀ e f, xs[i]? = some e → xs[i + 1]? = some f → key e < key f) :
    Strict key n xs := by
  induction n generalizing xs with
  | zero => trivial
  | succ n ih =>
      cases xs with
      | nil => trivial
      | cons x xs =>
          obtain ⟨-, hrest⟩ := List.pairwise_cons.mp hsorted
          refine ⟨?_, ih hrest fun i hi e f he hf => hnext (i + 1) (by omega) e f he hf⟩
          intro y hy
          cases xs with
          | nil => exact absurd hy (by simp)
          | cons z zs =>
              have hxz : key x < key z := hnext 0 (Nat.succ_pos n) x z rfl rfl
              obtain rfl | hmem := List.mem_cons.mp hy
              · exact hxz
              · exact Int.lt_of_lt_of_le hxz ((List.pairwise_cons.mp hrest).1 y hmem)

end HashChain
