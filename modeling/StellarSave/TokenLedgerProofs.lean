import Mathlib.Algebra.Order.Group.Int
import Mathlib.Tactic.Common

/-! # An honest token — a transfer moves exactly the amount or refuses

    One `Token` is one asset seen from a fixed account `own`: what every
    account holds, and what every account lets `own` spend.  Two facts ride
    on the structure: no account is overdrawn, and `own` never granted itself
    anything.  A `Book` is every asset at once, by token address.

    `none` is a refusal; the caller decides what a refusal means. -/

namespace TokenLedger

variable {A : Type} [DecidableEq A] {own : A}

/-- One asset. -/
structure Token (own : A) where
  decimals : Nat
  balance : A → Int
  allowance : A → Int
  balance_nonneg : ∀ a, 0 ≤ balance a
  allowance_own : allowance own = 0

/-- What `a` holds after `n` moved from `src` to `dst`. -/
def moved (balance : A → Int) (src dst : A) (n : Int) (a : A) : Int :=
  balance a - (if a = src then n else 0) + (if a = dst then n else 0)

theorem moved_nonneg {balance : A → Int} {src dst : A} {n : Int}
    (hb : ∀ a, 0 ≤ balance a) (h : 0 ≤ n ∧ n ≤ balance src) (a : A) :
    0 ≤ moved balance src dst n a := by
  rw [moved]
  have ha := hb a
  by_cases hs : a = src
  · subst hs
    by_cases hd : a = dst
    · rw [if_pos rfl, if_pos hd]
      omega
    · rw [if_pos rfl, if_neg hd]
      omega
  · by_cases hd : a = dst
    · rw [if_neg hs, if_pos hd]
      omega
    · rw [if_neg hs, if_neg hd]
      omega

namespace Token

/-- Move `n` from `src` to `dst`. -/
def transfer (t : Token own) (src dst : A) (n : Int) : Option (Token own) :=
  if h : 0 ≤ n ∧ n ≤ t.balance src then
    some { t with
      balance := moved t.balance src dst n
      balance_nonneg := moved_nonneg t.balance_nonneg h }
  else none

/-- `own` moves `n` from `src` to `dst` out of the allowance `src` gave it. -/
def transferFrom (t : Token own) (src dst : A) (n : Int) : Option (Token own) :=
  if h : (0 ≤ n ∧ n ≤ t.balance src) ∧ n ≤ t.allowance src then
    some { t with
      balance := moved t.balance src dst n
      allowance := fun a => if a = src ∧ a ≠ own then t.allowance a - n else t.allowance a
      balance_nonneg := moved_nonneg t.balance_nonneg h.1
      allowance_own := by
        rw [if_neg fun hs => hs.2 rfl]
        exact t.allowance_own }
  else none

end Token

/-- Every asset, by token address. -/
def Book (own : A) := A → Option (Token own)

namespace Book

/-- What account `a` holds of asset `tok`. -/
def holding (b : Book own) (tok a : A) : Int :=
  match b tok with
  | some t => t.balance a
  | none => 0

/-- Replace one asset. -/
def update (b : Book own) (tok : A) (t : Token own) : Book own :=
  fun tok' => if tok' = tok then some t else b tok'

/-- Move `n` of asset `tok`; an unknown asset refuses. -/
def transfer (b : Book own) (tok src dst : A) (n : Int) : Option (Book own) := do
  let t ← b tok
  let t' ← t.transfer src dst n
  pure (b.update tok t')

/-- Move `n` of asset `tok` out of an allowance. -/
def transferFrom (b : Book own) (tok src dst : A) (n : Int) : Option (Book own) := do
  let t ← b tok
  let t' ← t.transferFrom src dst n
  pure (b.update tok t')

/-- The balance query; an unknown asset refuses. -/
def balanceOf (b : Book own) (tok a : A) : Option Int := (b tok).map (·.balance a)

/-- The query for what `a` lets `own` spend. -/
def allowanceOf (b : Book own) (tok a : A) : Option Int := (b tok).map (·.allowance a)

/-- The decimals query. -/
def decimalsOf (b : Book own) (tok : A) : Option Nat := (b tok).map (·.decimals)

section Laws

variable {b b' : Book own} {tok tok' src dst a : A} {n : Int}

theorem holding_update (t : Token own) :
    (b.update tok t).holding tok' a = if tok' = tok then t.balance a else b.holding tok' a := by
  simp only [holding, update]
  by_cases h : tok' = tok
  · rw [if_pos h, if_pos h]
  · rw [if_neg h, if_neg h]

omit [DecidableEq A] in
theorem holding_nonneg : 0 ≤ b.holding tok a := by
  rw [holding]
  cases b tok with
  | none => exact Int.le_refl 0
  | some t => exact t.balance_nonneg a

omit [DecidableEq A] in
/-- The query answers what the account holds. -/
theorem holding_of_balanceOf (h : b.balanceOf tok a = some n) : b.holding tok a = n := by
  rw [balanceOf] at h
  rw [holding]
  obtain ⟨t, ht, rfl⟩ := Option.map_eq_some_iff.mp h
  rw [ht]

/-- **EXACT MOVE**: a transfer that goes through changes the holdings of that
    asset by exactly the amount, and no other asset. -/
theorem holding_transfer (h : b.transfer tok src dst n = some b') :
    b'.holding tok' a =
      if tok' = tok then moved (b.holding tok) src dst n a else b.holding tok' a := by
  rw [transfer] at h
  cases hb : b tok with
  | none =>
      rw [hb] at h
      exact nomatch h
  | some t =>
      rw [hb] at h
      by_cases hc : 0 ≤ n ∧ n ≤ t.balance src
      · simp only [Option.bind_eq_bind, Option.bind_some, Token.transfer, dif_pos hc,
          Option.pure_def, Option.some.injEq] at h
        rw [← h, holding_update]
        simp only [moved, holding, hb]
      · simp only [Option.bind_eq_bind, Option.bind_some, Token.transfer, dif_neg hc,
          Option.bind_none, reduceCtorEq] at h

/-- The same for a move out of an allowance. -/
theorem holding_transferFrom (h : b.transferFrom tok src dst n = some b') :
    b'.holding tok' a =
      if tok' = tok then moved (b.holding tok) src dst n a else b.holding tok' a := by
  rw [transferFrom] at h
  cases hb : b tok with
  | none =>
      rw [hb] at h
      exact nomatch h
  | some t =>
      rw [hb] at h
      by_cases hc : (0 ≤ n ∧ n ≤ t.balance src) ∧ n ≤ t.allowance src
      · simp only [Option.bind_eq_bind, Option.bind_some, Token.transferFrom, dif_pos hc,
          Option.pure_def, Option.some.injEq] at h
        rw [← h, holding_update]
        simp only [moved, holding, hb]
      · simp only [Option.bind_eq_bind, Option.bind_some, Token.transferFrom, dif_neg hc,
          Option.bind_none, reduceCtorEq] at h

/-- A transfer goes through exactly when the asset exists and the sender can
    cover a non-negative amount. -/
theorem transfer_isSome_iff :
    (b.transfer tok src dst n).isSome ↔
      ∃ t, b tok = some t ∧ 0 ≤ n ∧ n ≤ t.balance src := by
  rw [transfer]
  cases hb : b tok with
  | none => simp
  | some t =>
      by_cases hc : 0 ≤ n ∧ n ≤ t.balance src
      · simp [Token.transfer, hc]
      · simp [Token.transfer, hc]

/-- Money paid to someone else leaves `src`'s account. -/
theorem holding_src_of_ne (h : b.transfer tok src dst n = some b') (hne : src ≠ dst) :
    b'.holding tok src = b.holding tok src - n := by
  rw [holding_transfer h, if_pos rfl, moved, if_pos rfl, if_neg hne]
  omega

/-- Pulling from an allowance into `own` needs a granted amount, so the
    payer is someone else and the whole amount arrives. -/
theorem holding_pull (h : b.transferFrom tok src own n = some b') (hn : 0 < n) :
    b'.holding tok own = b.holding tok own + n := by
  have hne : own ≠ src := by
    intro hs
    subst hs
    rw [transferFrom] at h
    cases hb : b tok with
    | none =>
        rw [hb] at h
        exact nomatch h
    | some t =>
        rw [hb] at h
        have hc : ¬ ((0 ≤ n ∧ n ≤ t.balance own) ∧ n ≤ t.allowance own) := by
          rw [t.allowance_own]
          omega
        simp only [Option.bind_eq_bind, Option.bind_some, Token.transferFrom, dif_neg hc,
          Option.bind_none, reduceCtorEq] at h
  rw [holding_transferFrom h, if_pos rfl, moved, if_neg hne, if_pos rfl]
  omega

end Laws

end Book

/-! ## Moving in parts -/

section Parts

/-- Two moves of one asset are one move of the sum. -/
theorem moved_moved (balance : A → Int) (src dst : A) (n m : Int) :
    moved (moved balance src dst n) src dst m = moved balance src dst (n + m) := by
  funext a
  simp only [moved]
  split <;> split <;> omega

theorem Token.transferFrom_add {t t' : Token own} {src dst : A} {n m : Int} (hn : 0 ≤ n) (hm : 0 ≤ m)
    (h : t.transferFrom src dst (n + m) = some t') :
    ∃ t₁, t.transferFrom src dst n = some t₁ ∧ t₁.transferFrom src dst m = some t' := by
  rw [transferFrom] at h
  split at h
  · next hfits =>
      obtain rfl := Option.some.inj h
      have hfirst : (0 ≤ n ∧ n ≤ t.balance src) ∧ n ≤ t.allowance src := by omega
      refine ⟨_, by rw [transferFrom, dif_pos hfirst], ?_⟩
      have hleft : m ≤ moved t.balance src dst n src := by
        rw [moved, if_pos rfl]
        split <;> omega
      have hallowed : m ≤ if src = src ∧ src ≠ own then t.allowance src - n else t.allowance src := by
        split <;> omega
      rw [transferFrom, dif_pos ⟨⟨hm, hleft⟩, hallowed⟩]
      have hallowance : (fun a => if a = src ∧ a ≠ own then
            (if a = src ∧ a ≠ own then t.allowance a - n else t.allowance a) - m
          else if a = src ∧ a ≠ own then t.allowance a - n else t.allowance a) =
          fun a => if a = src ∧ a ≠ own then t.allowance a - (n + m) else t.allowance a := by
        funext a
        split <;> omega
      simp only [moved_moved, hallowance]
  · cases h

theorem Token.transferFrom_zero {t t' : Token own} {src dst : A}
    (h : t.transferFrom src dst 0 = some t') : t' = t := by
  rw [transferFrom] at h
  split at h
  · obtain rfl := Option.some.inj h
    have hbalance : moved t.balance src dst 0 = t.balance := by
      funext a
      rw [moved]
      split <;> split <;> omega
    have hallowance : (fun a => if a = src ∧ a ≠ own then t.allowance a - 0 else t.allowance a) =
        t.allowance := by
      funext a
      split <;> omega
    simp only [hbalance, hallowance]
  · cases h

theorem Book.transferFrom_eq_some_iff {b b' : Book own} {tok src dst : A} {n : Int} :
    b.transferFrom tok src dst n = some b' ↔
      ∃ t t', b tok = some t ∧ t.transferFrom src dst n = some t' ∧ b.update tok t' = b' := by
  simp [transferFrom, Option.bind_eq_some_iff]

/-- **A SUM MOVED AT ONCE** is its parts moved one after the other. -/
theorem Book.transferFrom_add {b b' : Book own} {tok src dst : A} {n m : Int} (hn : 0 ≤ n) (hm : 0 ≤ m)
    (h : b.transferFrom tok src dst (n + m) = some b') :
    ∃ b₁, b.transferFrom tok src dst n = some b₁ ∧ b₁.transferFrom tok src dst m = some b' := by
  obtain ⟨t, t', ht, htransfer, rfl⟩ := transferFrom_eq_some_iff.mp h
  obtain ⟨t₁, hfirst, hsecond⟩ := Token.transferFrom_add hn hm htransfer
  refine ⟨b.update tok t₁, transferFrom_eq_some_iff.mpr ⟨t, t₁, ht, hfirst, rfl⟩,
    transferFrom_eq_some_iff.mpr ⟨t₁, t', if_pos rfl, hsecond, ?_⟩⟩
  funext tok'
  simp only [update]
  split <;> rfl

theorem Book.transferFrom_zero {b b' : Book own} {tok src dst : A}
    (h : b.transferFrom tok src dst 0 = some b') : b' = b := by
  obtain ⟨t, t', ht, htransfer, rfl⟩ := transferFrom_eq_some_iff.mp h
  obtain rfl := Token.transferFrom_zero htransfer
  funext tok'
  simp only [update]
  split
  · next hsame => rw [hsame, ht]
  · rfl

end Parts

end TokenLedger
