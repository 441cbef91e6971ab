import StellarSave.StatusProofs
import StellarSave.RefundGateProofs
import Mathlib.Algebra.Order.BigOperators.Group.Finset
import Mathlib.Algebra.Order.Group.Defs

/-! # Leaving escrow — five ways out, one contribution each

    Refunds, payouts (called or ticked), emergency withdrawals and the sweep of
    a dissolution all send out what was paid into a cycle, and each looks at
    DIFFERENT entries to see what is still owed.  For one cycle of one group
    the outflow is added up along a run; as long as no step takes one of the
    four shortcuts named by `Careful`, it stays within the contributions.

    The account is kept by who is GONE: a contributor whose money has left
    shows it in a refund record, in the cycle's payout note, or by having
    withdrawn. -/

namespace SaveEscrow

open HostProg Footprint TokenLedger SaveData SavePayout SaveRefund SaveRefundGate SaveCall
open SaveStatus Trace

/-! ## What leaves, and on which account -/

/-- The current cycle of a group. -/
def cycleAt (s : State) (g : Nat) : Option Nat := (groupAt s g).map Group.currentCycle

/-- What left the group's escrow in a step. -/
def outflow (g : Nat) (x : Step) (s : State) : Int :=
  groupEscrow s g - groupEscrow (apply x s) g

/-- What a step sends out on account of one cycle of one group.  A withdrawal
    pays all cycles up to the current one at once. -/
def sentFor (g c : Nat) (x : Step) (s : State) : Int :=
  match x with
  | .call _ (.requestRefund g' c' _) => if g' = g ∧ c' = c then outflow g x s else 0
  | .call _ (.executePayout g') | .call _ (.tick g') | .call _ (.voteDissolve g' _) =>
      if g' = g ∧ cycleAt s g = some c then outflow g x s else 0
  | .call _ (.emergencyWithdraw g' member) =>
      if g' = g ∧ outflow g x s ≠ 0 ∧ c ≤ (cycleAt s g).getD 0 then paidIn s g c member else 0
  | _ => 0

/-- The five operations, and what the world does around them. -/
def WayOut : Step → Prop
  | .call _ (.requestRefund _ _ _) | .call _ (.executePayout _) | .call _ (.tick _)
  | .call _ (.emergencyWithdraw _ _) | .call _ (.voteDissolve _ _) | .expire | .external _ => True
  | _ => False

/-- The shortcuts not taken: no refund of a cycle that was paid out or of a
    member who has withdrawn since; no payout of a complete cycle with a refund
    in it; no withdrawal by a member whose share of an earlier cycle was
    refunded or went into its payout. -/
def Careful (g c : Nat) (x : Step) (s : State) : Prop :=
  match x with
  | .call _ (.requestRefund g' c' member) => g' = g → c' = c →
      s.persistent (.payRecip g c) = none ∧
        (s.persistent (.mbrProf g member) ≠ none ∨ ∀ n, cycleAt s g = some n → n ≤ c)
  | .call _ (.executePayout g') | .call _ (.tick g') => g' = g →
      ∀ grp, groupAt s g = some grp → grp.currentCycle = c →
        grp.memberCount ≤ cycCountAt s g c → ∀ a, s.persistent (.refund g c a) = none
  | .call _ (.emergencyWithdraw g' member) => g' = g → contribAt s g c member ≠ none →
      (∀ n, cycleAt s g = some n → c ≤ n →
        s.persistent (.refund g c member) = none ∧ s.persistent (.payRecip g c) = none)
  | _ => True

/-- The books of a cycle: who contributed, and a counter that says how much. -/
structure Books (s : State) (g c : Nat) (P : Finset Address) : Prop where
  contributors : ∀ a, a ∈ P ↔ contribAt s g c a ≠ none
  records : ∀ a record, contribAt s g c a = some record →
    0 < record.amount ∧ record.memberAddress = a
  typed : TypedAt I128 s.persistent (.cycTotal g c)
  total : cycTotalAt s g c = ∑ a ∈ P, paidIn s g c a
  roster : TypedAt MemberMap s.persistent (.grpMbrs g)

/-- No money has left for the cycle. -/
structure Untouched (s : State) (g c : Nat) : Prop where
  refunds : ∀ a, s.persistent (.refund g c a) = none
  payout : s.persistent (.payRecip g c) = none

/-! ## The account -/

/-- The contributor's money for the cycle has left, or may have. -/
def Gone (s : State) (g c : Nat) (a : Address) : Prop :=
  s.persistent (.refund g c a) ≠ none ∨ s.persistent (.payRecip g c) ≠ none ∨
    (s.persistent (.mbrProf g a) = none ∧ ∃ n, cycleAt s g = some n ∧ c < n)

/-- From `s` to `t` the books stand still and nothing that is gone comes back. -/
structure Onward (s t : State) (g c : Nat) : Prop where
  contrib : ∀ a, t.persistent (.contrib g c a) = s.persistent (.contrib g c a)
  total : t.persistent (.cycTotal g c) = s.persistent (.cycTotal g c)
  roster : t.persistent (.grpMbrs g) = s.persistent (.grpMbrs g)
  refund : ∀ a, s.persistent (.refund g c a) ≠ none → t.persistent (.refund g c a) ≠ none
  payRecip : s.persistent (.payRecip g c) ≠ none → t.persistent (.payRecip g c) ≠ none
  profile : ∀ a, s.persistent (.mbrProf g a) = none → t.persistent (.mbrProf g a) = none
  cycle : ∀ n, cycleAt s g = some n → ∃ m, cycleAt t g = some m ∧ n ≤ m

/-- `n` has left since the books were as in `s₀`, all of it for contributors
    that are gone. -/
structure Accounted (s₀ : State) (g c : Nat) (P : Finset Address) (s : State) (n : Int) :
    Prop where
  registry : Registry s
  books : Books s g c P
  amounts : ∀ a, paidIn s g c a = paidIn s₀ g c a
  past : s.persistent (.payRecip g c) ≠ none → ∃ n, cycleAt s g = some n ∧ c < n
  left : ∃ L ⊆ P, n ≤ ∑ a ∈ L, paidIn s₀ g c a ∧ ∀ a ∈ L, Gone s g c a

section Account

variable {s₀ s t u : State} {g c : Nat} {P : Finset Address} {n : Int} {a : Address}

/-- What has left an account does not come back. -/
theorem Onward.gone (h : Onward s t g c) (hs : Gone s g c a) : Gone t g c a := by
  rcases hs with hr | hp | ⟨hm, n, hn, hlt⟩
  · exact Or.inl (h.refund a hr)
  · exact Or.inr (Or.inl (h.payRecip hp))
  · obtain ⟨m, hm', hle⟩ := h.cycle n hn
    exact Or.inr (Or.inr ⟨h.profile a hm, m, hm', by omega⟩)

/-- The records of the cycle stay. -/
theorem Onward.contribAt_eq (h : Onward s t g c) (a : Address) :
    contribAt t g c a = contribAt s g c a :=
  readAt_congr (h.contrib a)

/-- So do the amounts in them. -/
theorem Onward.paidIn_eq (h : Onward s t g c) (a : Address) : paidIn t g c a = paidIn s g c a := by
  rw [paidIn, paidIn, h.contribAt_eq]

/-- The books of a cycle stay in order when the group goes on. -/
theorem Onward.books (h : Onward s t g c) (hb : Books s g c P) : Books t g c P where
  contributors a := by
    rw [h.contribAt_eq]
    exact hb.contributors a
  records a record hr := by
    rw [h.contribAt_eq] at hr
    exact hb.records a record hr
  typed := hb.typed.congr h.total
  total := by
    rw [cycTotalAt, readAt_congr h.total, Finset.sum_congr rfl fun a _ => h.paidIn_eq a]
    exact hb.total
  roster := hb.roster.congr h.roster

/-- Nobody has paid in less than nothing. -/
theorem Books.paidIn_nonneg (hb : Books s g c P) (a : Address) : 0 ≤ paidIn s g c a := by
  cases hr : contribAt s g c a with
  | none => exact (paidIn_of_none hr).ge
  | some record =>
      rw [paidIn_of_record hr]
      exact (hb.records a record hr).1.le

/-- **ONE STEP OF THE ACCOUNT**: what leaves is covered by contributors that
    were not gone and now are. -/
theorem Accounted.step (h : Accounted s₀ g c P s n) (hreg : Registry t) (hon : Onward s t g c)
    (hpast : t.persistent (.payRecip g c) ≠ none → ∃ n, cycleAt t g = some n ∧ c < n)
    {N : Finset Address} {k : Int} (hN : N ⊆ P) (hnew : ∀ a ∈ N, ¬ Gone s g c a)
    (hgone : ∀ a ∈ N, Gone t g c a) (hk : k ≤ ∑ a ∈ N, paidIn s g c a) :
    Accounted s₀ g c P t (n + k) := by
  obtain ⟨L, hL, hn, hall⟩ := h.left
  refine ⟨hreg, hon.books h.books, fun a => (hon.paidIn_eq a).trans (h.amounts a), hpast,
    L ∪ N, Finset.union_subset hL hN, ?_, fun a ha => ?_⟩
  · have hdisj : Disjoint L N := by
      rw [Finset.disjoint_left]
      intro a ha hb
      exact hnew a hb (hall a ha)
    rw [Finset.sum_union hdisj]
    have hk' := hk.trans_eq (Finset.sum_congr rfl fun a _ => h.amounts a)
    exact Int.add_le_add hn hk'
  · rcases Finset.mem_union.mp ha with ha | ha
    · exact hon.gone (hall a ha)
    · exact hgone a ha

/-- Nothing leaves. -/
theorem Accounted.idle (h : Accounted s₀ g c P s n) (hreg : Registry t) (hon : Onward s t g c)
    (hpast : t.persistent (.payRecip g c) ≠ none → ∃ n, cycleAt t g = some n ∧ c < n) :
    Accounted s₀ g c P t (n + 0) :=
  h.step hreg hon hpast (Finset.empty_subset P) nofun nofun (by rw [Finset.sum_empty])

/-- The entries the account looks at, beside the group record. -/
def InAccount (g c : Nat) : Key → Prop
  | .contrib g' c' _ | .refund g' c' _ => g' = g ∧ c' = c
  | .cycTotal g' c' | .payRecip g' c' => g' = g ∧ c' = c
  | .mbrProf g' _ => g' = g
  | .grpMbrs g' => g' = g
  | _ => False

/-- The kinds of these entries. -/
def accountKinds : List Kind := [.contrib, .cycTotal, .grpMbrs, .refund, .payRecip, .mbrProf]

/-- The keys of an account are of few kinds, and of the group. -/
theorem InAccount.place {k : Key} (h : InAccount g c k) : k.kind ∈ accountKinds ∧ k.group = g := by
  cases k <;> simp_all [InAccount, accountKinds]

/-- Steps that leave the account's entries alone. -/
theorem Onward.of_same (hsame : ∀ k, InAccount g c k → t.persistent k = s.persistent k)
    (hcycle : cycleAt t g = cycleAt s g) : Onward s t g c where
  contrib a := hsame (.contrib g c a) ⟨rfl, rfl⟩
  total := hsame (.cycTotal g c) ⟨rfl, rfl⟩
  roster := hsame (.grpMbrs g) rfl
  refund a h := by rwa [hsame (.refund g c a) ⟨rfl, rfl⟩]
  payRecip h := by rwa [hsame (.payRecip g c) ⟨rfl, rfl⟩]
  profile a h := by rwa [hsame (.mbrProf g a) rfl]
  cycle n h := ⟨n, hcycle.trans h, Nat.le_refl n⟩

/-- A step that writes none of them and stays in the cycle spends nothing. -/
theorem Accounted.unmoved (h : Accounted s₀ g c P s n) (hreg : Registry t)
    (hsame : ∀ k, InAccount g c k → t.persistent k = s.persistent k)
    (hcycle : cycleAt t g = cycleAt s g) : Accounted s₀ g c P t (n + 0) := by
  refine h.idle hreg (Onward.of_same hsame hcycle) fun hp => ?_
  rw [hsame (.payRecip g c) ⟨rfl, rfl⟩] at hp
  rw [hcycle]
  exact h.past hp

/-- The cycle is the one in the record. -/
theorem cycleAt_of_group {grp : SaveData.Group} (h : groupAt s g = some grp) :
    cycleAt s g = some grp.currentCycle := by
  rw [cycleAt, h]
  rfl

/-- And depends on nothing else. -/
theorem cycleAt_congr (h : t.persistent (.grp g) = s.persistent (.grp g)) :
    cycleAt t g = cycleAt s g := by
  simp only [cycleAt, groupAt]
  rw [readAt_congr h]

/-- Calls on other groups. -/
theorem Accounted.other {d : Call} {env : Env} (h : Accounted s₀ g c P s n)
    (hd : d.body env s = .ok () t)
    (hfoot : ∀ k : Key, k.group = g → k.kind ∈ accountKinds → ¬ d.footprint.persistent k)
    (hgrp : t.persistent (.grp g) = s.persistent (.grp g)) : Accounted s₀ g c P t (n + 0) :=
  h.unmoved (registry_step h.registry hd)
    (fun k hk => (Within.agree_ok (w := d.footprint) hd).persistent k
      (hfoot k hk.place.2 hk.place.1))
    (cycleAt_congr hgrp)

/-- What a transfer takes out of the escrow is at most its amount. -/
theorem escrow_after_transfer {l : Ledger} {tok dst : Address} {k : Int} (hk : 0 ≤ k)
    (h : Book.transfer s.ledger tok contractAddress dst k = some l) :
    Book.holding s.ledger tok contractAddress - Book.holding l tok contractAddress ≤ k := by
  rw [Book.holding_transfer h, if_pos rfl, moved, if_pos rfl]
  split <;> omega

end Account

/-! ## Way by way -/

section Ways

variable {env : Env} {s₀ s t : State} {g g' c : Nat} {P : Finset Address} {n : Int}
  {member : Address}

/-- A refund changes one entry and pays one amount. -/
theorem requestRefund_change {out : RefundRecord}
    (hrun : requestRefund g c member env s = .ok out t) :
    ∃ record config, contribAt s g c member = some record ∧ tokenAt s g = some config ∧
      s.persistent (.refund g c record.memberAddress) = none ∧
      t.persistent (.refund g c record.memberAddress) ≠ none ∧
      (∀ k, k ≠ .refund g c record.memberAddress → t.persistent k = s.persistent k) ∧
      Book.transfer s.ledger config.tokenAddress contractAddress record.memberAddress
        record.amount = some t.ledger := by
  obtain ⟨-, grp, record, config, l, hopen, hl, -, rfl⟩ := requestRefund_ok.mp hrun
  refine ⟨record, config, hopen.contributed, hopen.token, hopen.once, ?_, fun k hk => ?_, hl⟩
  · simp
  · simp [hk]

/-- What a transfer out of a group's token takes is at most its amount. -/
theorem outflow_le {config : TokenConfig} {dst : Address} {k : Int} (hs : tokenAt s g = some config)
    (ht : tokenAt t g = tokenAt s g) (hk : 0 ≤ k)
    (h : Book.transfer s.ledger config.tokenAddress contractAddress dst k = some t.ledger) :
    groupEscrow s g - groupEscrow t g ≤ k := by
  rw [groupEscrow_of_token hs, groupEscrow_of_token (ht.trans hs)]
  exact escrow_after_transfer hk h

/-- **REFUND**: the caller's contribution, once. -/
theorem refund_accounted {out : RefundRecord} (h : Accounted s₀ g c P s n)
    (hcare : Careful g c (.call env (.requestRefund g c member)) s)
    (hrun : requestRefund g c member env s = .ok out t) (hreg : Registry t) :
    Accounted s₀ g c P t (n + (groupEscrow s g - groupEscrow t g)) := by
  obtain ⟨record, config, hrecord, htoken, hfree, hnow, hframe, hsent⟩ := requestRefund_change hrun
  obtain ⟨hpos, rfl⟩ := h.books.records member record hrecord
  obtain ⟨hunpaid, hstill⟩ := hcare rfl rfl
  -- a refund leaves the cycle where it is
  have hcycle : cycleAt t g = cycleAt s g := cycleAt_congr (hframe _ nofun)
  have hon : Onward s t g c := by
    constructor
    case contrib => exact fun a => hframe _ nofun
    case total => exact hframe _ nofun
    case roster => exact hframe _ nofun
    case refund =>
      intro a ha
      by_cases he : a = record.memberAddress
      · rw [he]
        exact hnow
      · rwa [hframe _ (by simpa using he)]
    case payRecip =>
      intro hp
      rwa [hframe (.payRecip g c) nofun]
    case profile =>
      intro a ha
      rwa [hframe (.mbrProf g a) nofun]
    case cycle =>
      intro m hm
      exact ⟨m, hcycle.trans hm, Nat.le_refl m⟩
  -- what leaves the account is the refunded member's record
  refine h.step hreg hon (N := {record.memberAddress}) ?_ ?_ ?_ ?_ ?_
  · intro hp
    rw [hframe (.payRecip g c) nofun] at hp
    exact absurd hunpaid hp
  · rw [Finset.singleton_subset_iff, h.books.contributors, hrecord]
    exact Option.some_ne_none _
  -- he had not been refunded, nor paid, nor gone
  · intro a ha
    rw [Finset.mem_singleton.mp ha]
    rintro (hr | hp | ⟨hm, m, hcyc, hlt⟩)
    · exact hr hfree
    · exact hp hunpaid
    · rcases hstill with hprofile | hle
      · exact hprofile hm
      · exact absurd (hle m hcyc) (by omega)
  · intro a ha
    rw [Finset.mem_singleton.mp ha]
    exact Or.inl hnow
  · rw [Finset.sum_singleton]
    rw [paidIn_of_record hrecord]
    exact outflow_le htoken (readAt_congr (hframe _ nofun)) hpos.le hsent

/-- **PAYOUT**: the whole pool, while nobody is gone.  `t` is where the call or
    the tick ends, one cycle on. -/
theorem payment_accounted {grp : SaveData.Group} (h : Accounted s₀ g c P s n) (hreg : Registry t)
    (hgrp : groupAt s g = some grp)
    (hcare : grp.currentCycle = c → grp.memberCount ≤ cycCountAt s g c →
      ∀ a, s.persistent (.refund g c a) = none)
    (hnotes : NotPaid s t g ∨ ∃ grp' recipient amount, PaysOut s t g grp' recipient amount)
    (hframe : ∀ k : Key, k.kind ∈ [Kind.contrib, .cycTotal, .grpMbrs, .grpTok, .refund, .mbrProf] →
      t.persistent k = s.persistent k)
    (hcycle : cycleAt t g = some (grp.currentCycle + 1)) :
    Accounted s₀ g c P t
      (n + if cycleAt s g = some c then groupEscrow s g - groupEscrow t g else 0) := by
  -- what the payment leaves alone
  have hnow : cycleAt s g = some grp.currentCycle := cycleAt_of_group hgrp
  have htoken : tokenAt t g = tokenAt s g := readAt_congr (hframe _ (by simp))
  have hon : (s.persistent (.payRecip g c) ≠ none → t.persistent (.payRecip g c) ≠ none) →
      Onward s t g c := by
    intro hp
    refine ⟨fun a => hframe _ (by simp), hframe _ (by simp), hframe _ (by simp), fun a ha => ?_, hp,
      fun a ha => ?_, fun m hm => ⟨_, hcycle, ?_⟩⟩
    · rwa [hframe (.refund g c a) (by simp)]
    · rwa [hframe (.mbrProf g a) (by simp)]
    · rw [hnow] at hm
      have := Option.some.inj hm
      omega
  -- a cycle with a recipient is over
  have hpast : t.persistent (.payRecip g c) = s.persistent (.payRecip g c) →
      t.persistent (.payRecip g c) ≠ none → ∃ m, cycleAt t g = some m ∧ c < m := by
    intro hsame hp
    rw [hsame] at hp
    obtain ⟨m, hm, hlt⟩ := h.past hp
    rw [hnow] at hm
    have := Option.some.inj hm
    exact ⟨_, hcycle, by omega⟩
  rcases hnotes with hnot | ⟨grp', recipient, amount, hpays⟩
  · -- nothing was paid, so nothing left either
    have hsame := hnot.payRecip c
    have hkept : groupEscrow s g - groupEscrow t g = 0 := by
      rw [groupEscrow_congr htoken hnot.ledger]
      exact Int.sub_self _
    rw [hkept, ite_self]
    exact h.idle hreg (hon (by rw [hsame]; exact id)) (hpast hsame)
  · have hsame := hpays.group
    rw [hgrp] at hsame
    obtain rfl := Option.some.inj hsame
    have hrecip := hpays.payRecip c
    -- the pool of this cycle leaves, or that of another cycle
    by_cases hc : grp.currentCycle = c
    · subst hc
      rw [if_pos hnow]
      rw [if_pos rfl] at hrecip
      have hset : t.persistent (.payRecip g grp.currentCycle) ≠ none := by
        rw [hrecip]
        exact Option.some_ne_none _
      have hid := h.registry.own g grp hgrp
      have hfull := hpays.full
      have htotal := hpays.total
      rw [hid] at hfull htotal
      refine h.step hreg (hon fun _ => hset) (N := P) (fun _ => ⟨_, hcycle, Nat.lt_succ_self _⟩)
        (Finset.Subset.refl P) ?_ (fun a _ => Or.inr (Or.inl hset)) ?_
      · rintro a - (hr | hp | ⟨-, m, hm, hlt⟩)
        · exact hr (hcare rfl hfull a)
        · exact hp hpays.unpaid
        · rw [hnow] at hm
          have := Option.some.inj hm
          omega
      · rw [← h.books.total, htotal]
        have hnonneg : 0 ≤ amount := by
          rw [← htotal, h.books.total]
          exact Finset.sum_nonneg fun a _ => h.books.paidIn_nonneg a
        obtain ⟨config, hconfig, hledger | hsent⟩ := hpays.sent
        · rw [groupEscrow_congr htoken hledger, Int.sub_self]
          exact hnonneg
        · exact outflow_le hconfig htoken hnonneg hsent
    · rw [if_neg fun he => hc (Option.some.inj (hnow.symm.trans he))]
      rw [if_neg (Ne.symm hc)] at hrecip
      exact h.idle hreg (hon (by rw [hrecip]; exact id)) (hpast hrecip)

/-- What a payout leaves alone, however it ends. -/
theorem executePayout_frame {v : State} (hmap : TypedAt MemberMap s.persistent (.grpMbrs g))
    (h : EndsIn (executePayout g) env s v) (k : Key)
    (hk : k.kind ∈ [Kind.contrib, .cycTotal, .grpMbrs, .grpTok, .refund, .mbrProf]) :
    v.persistent k = s.persistent k := by
  have hagree : Agree (scope (payoutPlaces g) True True) s v := by
    rcases h with ⟨x, h⟩ | ⟨e, h⟩
    · exact Within.agree_ok h
    · exact Within.agree_err h
  by_cases htotal : k.kind = .cycTotal
  · cases k with
    | cycTotal j c => exact executePayout_total hmap h j c
    | _ => cases htotal
  · refine hagree.persistent k ?_
    rintro ⟨p, hp, hcov⟩
    simp only [payoutPlaces, List.mem_cons, List.not_mem_nil, or_false] at hp hk
    rcases hp with rfl | rfl | rfl | rfl | rfl | rfl
    all_goals
      simp only [Place.covers] at hcov
      simp_all

/-- A payout spends from its own cycle what the escrow loses. -/
theorem executePayout_accounted {u : Unit} (h : Accounted s₀ g c P s n)
    (hcare : Careful g c (.call env (.executePayout g)) s)
    (hrun : executePayout g env s = .ok u t) (hreg : Registry t) :
    Accounted s₀ g c P t
      (n + if cycleAt s g = some c then groupEscrow s g - groupEscrow t g else 0) := by
  have hends : EndsIn (executePayout g) env s t := Or.inl ⟨u, hrun⟩
  obtain ⟨grp, recipient, amount, v, config, l, hp, rfl⟩ := executePayout_ok.mp hrun
  refine payment_accounted h hreg hp.group (hcare rfl grp hp.group)
    (executePayout_notes h.books.roster hends) (executePayout_frame h.books.roster hends) ?_
  have hadv := Group.advanced_currentCycle (marked grp)
  simp [cycleAt, groupAt, paidState, hadv]

/-- A tick does, if it pays. -/
theorem tick_accounted {u : Unit} (h : Accounted s₀ g c P s n)
    (hcare : Careful g c (.call env (.tick g)) s)
    (hrun : tick g env s = .ok u t) (hreg : Registry t) :
    Accounted s₀ g c P t
      (n + if cycleAt s g = some c then groupEscrow s g - groupEscrow t g else 0) := by
  obtain ⟨grp, v, hgrp, -, -, hpay, rfl⟩ := tick_ok hrun
  -- a tick may pay, or only advance
  have hnotes : NotPaid s v g ∨ ∃ grp' recipient amount, PaysOut s v g grp' recipient amount := by
    rcases hpay with ⟨-, rfl⟩ | ⟨-, hends⟩
    · exact Or.inl ⟨rfl, fun _ => rfl, fun _ => rfl⟩
    · exact executePayout_notes h.books.roster hends
  have hframe : ∀ k : Key,
      k.kind ∈ [Kind.contrib, .cycTotal, .grpMbrs, .grpTok, .refund, .mbrProf] →
      v.persistent k = s.persistent k := by
    rcases hpay with ⟨-, rfl⟩ | ⟨-, hends⟩
    · exact fun _ _ => rfl
    · exact executePayout_frame h.books.roster hends
  refine payment_accounted h hreg hgrp (hcare rfl grp hgrp) ?_ (fun k hk => ?_) ?_
  · rcases hnotes with ⟨hl, hp, hr⟩ | ⟨grp', recipient, amount, hp⟩
    · refine Or.inl ⟨hl, fun c' => ?_, fun c' => ?_⟩
      · simpa using hp c'
      · simpa using hr c'
    · refine Or.inr ⟨grp', recipient, amount, hp.group, hp.active, hp.seat, hp.unpaid, hp.full,
        hp.total, hp.sent, ?_, fun c' => ?_⟩
      · obtain ⟨record, hrecord⟩ := hp.payout
        exact ⟨record, fun c' => by simpa using hrecord c'⟩
      · simpa using hp.payRecip c'
  · rw [HostState.set_persistent, if_neg]
    · exact hframe k hk
    · rintro rfl
      simp at hk
  · simp [cycleAt, groupAt, Group.advanced_currentCycle]

/-- A withdrawal reads the running cycle's total at another type, so it only
    gets through while that total is not stored. -/
theorem lt_currentCycle_of_idle {m : Nat} (hb : Books s g c P) (hmem : member ∈ P)
    (hidle : TypedAt U64 s.persistent (.cycTotal g m)) (hle : c ≤ m) : c < m := by
  refine lt_of_le_of_ne hle ?_
  rintro rfl
  obtain ⟨record, hrecord⟩ := Option.ne_none_iff_exists'.mp ((hb.contributors member).mp hmem)
  have hpos : 0 < ∑ a ∈ P, paidIn s g c a := by
    refine Finset.sum_pos' (fun a _ => hb.paidIn_nonneg a) ⟨member, hmem, ?_⟩
    rw [paidIn_of_record hrecord]
    exact (hb.records member record hrecord).1
  rw [← hb.total] at hpos
  cases hread : readAt I128 s.persistent (.cycTotal g c) with
  | none =>
      rw [cycTotalAt, hread] at hpos
      exact absurd hpos (lt_irrefl _)
  | some k =>
      obtain ⟨k', hk'⟩ := hidle _ ((readAt_eq_some _ _ _).mp hread)
      cases hk'

/-- **WITHDRAWAL**: nothing of the running cycle, the member's share of every
    earlier one. -/
theorem withdraw_accounted {u : Unit} (h : Accounted s₀ g c P s n)
    (hcare : Careful g c (.call env (.emergencyWithdraw g member)) s)
    (hrun : emergencyWithdraw g member env s = .ok u t) (hreg : Registry t) :
    Accounted s₀ g c P t (n + if groupEscrow s g - groupEscrow t g ≠ 0 ∧
      c ≤ (cycleAt s g).getD 0 then paidIn s g c member else 0) := by
  obtain ⟨grp, total, received, hopen, hend⟩ := emergencyWithdraw_ok hrun
  have hnow : cycleAt s g = some grp.currentCycle := cycleAt_of_group hopen.group
  have hframe : ∀ k : Key, k.kind ≠ .grpBal → k ≠ .mbrProf g member →
      t.persistent k = s.persistent k := by
    intro k hk hk'
    have hbal : k ≠ .grpBal g := by
      rintro rfl
      exact hk rfl
    rcases hend with ⟨-, -, config, l, -, -, rfl⟩ | ⟨-, rfl⟩
    · simp [hk', hbal]
    · simp [hk']
  have hgone : t.persistent (.mbrProf g member) = none := by
    rcases hend with ⟨-, -, config, l, -, -, rfl⟩ | ⟨-, rfl⟩
    · simp
    · simp
  have hcycle : cycleAt t g = cycleAt s g := cycleAt_congr (hframe _ nofun nofun)
  have hon : Onward s t g c := by
    constructor
    case contrib => exact fun a => hframe _ nofun nofun
    case total => exact hframe _ nofun nofun
    case roster => exact hframe _ nofun nofun
    case refund =>
      intro a ha
      rwa [hframe (.refund g c a) nofun nofun]
    case payRecip =>
      intro hp
      rwa [hframe (.payRecip g c) nofun nofun]
    case profile =>
      intro a ha
      by_cases he : a = member
      · rw [he, hgone]
      · rwa [hframe (.mbrProf g a) nofun (by simpa using he)]
    case cycle =>
      intro m hm
      exact ⟨m, hcycle.trans hm, Nat.le_refl m⟩
  have hpast : t.persistent (.payRecip g c) ≠ none → ∃ m, cycleAt t g = some m ∧ c < m := by
    rw [hframe (.payRecip g c) nofun nofun, hcycle]
    exact h.past
  by_cases hpaid : groupEscrow s g - groupEscrow t g ≠ 0 ∧ c ≤ (cycleAt s g).getD 0
  · rw [if_pos hpaid]
    rw [hnow] at hpaid
    have hle : c ≤ grp.currentCycle := hpaid.2
    cases hrecord : contribAt s g c member with
    | none =>
        rw [paidIn_of_none hrecord]
        exact h.idle hreg hon hpast
    | some record =>
        have hmem : member ∈ P := by
          rw [h.books.contributors, hrecord]
          exact Option.some_ne_none _
        -- no total is stored for the running cycle, so the one paid into is over
        have hlt := lt_currentCycle_of_idle h.books hmem hopen.idle hle
        obtain ⟨hfree, hunpaid⟩ := hcare rfl (by rw [hrecord]; exact Option.some_ne_none _) _ hnow
          hle
        refine h.step hreg hon hpast (N := {member}) (Finset.singleton_subset_iff.mpr hmem) ?_ ?_
          (by rw [Finset.sum_singleton])
        · intro a ha
          rw [Finset.mem_singleton.mp ha]
          rintro (hr | hp | ⟨hm, -⟩)
          · exact hr hfree
          · exact hp hunpaid
          · exact hopen.profile hm
        · intro a ha
          rw [Finset.mem_singleton.mp ha]
          exact Or.inr (Or.inr ⟨hgone, _, hcycle.trans hnow, hlt⟩)
  · rw [if_neg hpaid]
    exact h.idle hreg hon hpast

/-! The sweep of a dissolution refunds whoever is not refunded yet. -/

/-- Since `v`, the contributors in `N` were refunded, and no more than theirs
    has left. -/
structure Swept (g c : Nat) (P : Finset Address) (v w : State) : Prop where
  frame : ∀ k : Key, k.kind ≠ .refund → w.persistent k = v.persistent k
  kept : ∀ j c' a, v.persistent (.refund j c' a) ≠ none → w.persistent (.refund j c' a) ≠ none
  left : ∃ N ⊆ P, (∀ a ∈ N, v.persistent (.refund g c a) = none ∧
      w.persistent (.refund g c a) ≠ none) ∧
    groupEscrow v g - groupEscrow w g ≤ ∑ a ∈ N, paidIn v g c a

/-- No refund yet. -/
theorem Swept.refl (v : State) : Swept g c P v v :=
  ⟨fun _ _ => rfl, fun _ _ _ h => h, ∅, Finset.empty_subset P, nofun, by
    rw [Int.sub_self, Finset.sum_empty]⟩

/-- One member of the sweep. -/
theorem refundOnDissolution_swept {v w w' : State} {config : TokenConfig} {time : Nat} {u : Unit}
    (hb : Books v g c P) (hconfig : tokenAt v g = some config) (hw : Swept g c P v w)
    (hrun : refundOnDissolution g c config.tokenAddress time member env w = .ok u w') :
    Swept g c P v w' := by
  rcases refundOnDissolution_ok hrun with rfl | ⟨record, l, hrecord, hfree, hl, rfl⟩
  · exact hw
  obtain ⟨hframe, hkept, N, hN, hmarks, hleft⟩ := hw
  have hcontrib : contribAt v g c member = some record :=
    (readAt_congr (hframe (.contrib g c member) nofun)).symm.trans hrecord
  have htoken : tokenAt w g = some config := (readAt_congr (hframe (.grpTok g) nofun)).trans hconfig
  have hbefore : v.persistent (.refund g c member) = none := by
    by_contra hne
    exact hkept g c member hne hfree
  have hnotin : member ∉ N := fun hm => (hmarks member hm).2 hfree
  have hpos := (hb.records member record hcontrib).1
  refine ⟨fun k hk => ?_, fun j c' a ha => ?_, insert member N, ?_, fun a ha => ?_, ?_⟩
  · have hne : k ≠ .refund g c member := by
      rintro rfl
      exact hk rfl
    simpa [hne] using hframe k hk
  · by_cases he : Key.refund j c' a = .refund g c member
    · rw [he]
      simp
    · simpa [he] using hkept j c' a ha
  · refine Finset.insert_subset_iff.mpr ⟨?_, hN⟩
    rw [hb.contributors, hcontrib]
    exact Option.some_ne_none _
  · rcases Finset.mem_insert.mp ha with rfl | ha'
    · exact ⟨hbefore, by simp⟩
    · have hne : a ≠ member := fun he => hnotin (he ▸ ha')
      obtain ⟨h₁, h₂⟩ := hmarks a ha'
      exact ⟨h₁, by simpa [hne] using h₂⟩
  · rw [Finset.sum_insert hnotin]
    have hpaid : paidIn v g c member = record.amount := paidIn_of_record hcontrib
    have hstep : groupEscrow w g - groupEscrow ((w.set (.refund g c member) (Codec.encode
        (RefundRecord.mk g member c record.amount time))).setLedger l) g ≤ record.amount :=
      outflow_le htoken (readAt_congr (by simp)) hpos.le hl
    rw [hpaid]
    omega

/-- The whole sweep, member after member. -/
theorem sweep_swept {v w : State} {config : TokenConfig} {time : Nat} {u : Unit}
    {members : List Address} (hb : Books v g c P) (hconfig : tokenAt v g = some config)
    (hrun : forEach (refundOnDissolution g c config.tokenAddress time) members env v = .ok u w) :
    Swept g c P v w :=
  forEach_invariant (I := Swept g c P v)
    (fun _ _ _ _ hw hstep => refundOnDissolution_swept hb hconfig hw hstep) (Swept.refl v) hrun

/-- **DISSOLUTION**: refunds like any other. -/
theorem dissolve_accounted {u : Unit} (h : Accounted s₀ g c P s n)
    (hrun : voteDissolve g member env s = .ok u t) (hreg : Registry t) :
    Accounted s₀ g c P t
      (n + if cycleAt s g = some c then groupEscrow s g - groupEscrow t g else 0) := by
  obtain ⟨grp, hgrp, -, hend⟩ := voteDissolve_ok hrun
  have hnow : cycleAt s g = some grp.currentCycle := cycleAt_of_group hgrp
  rcases hend with ⟨-, config, hconfig, hloop⟩ | ⟨-, rfl⟩
  · -- `v`: the vote is counted and the group cancelled, nothing has moved yet
    generalize hv : dissolved (voted s g member (dissolveVotes s g)) g grp = v at hloop
    have hcycle : cycleAt v g = cycleAt s g := by
      rw [hnow, ← hv]
      simp [cycleAt, groupAt, dissolved]
    have hframe : ∀ k : Key, k.kind ∈ .grpTok :: accountKinds →
        v.persistent k = s.persistent k := by
      intro k hk
      rw [← hv]
      rw [dissolved, voted]
      iterate 4 rw [persistent_set_of_mem hk (by simp [accountKinds])]
    have hsame : ∀ k, InAccount g c k → v.persistent k = s.persistent k :=
      fun k hk => hframe k (List.mem_cons_of_mem _ hk.place.1)
    have htoken : tokenAt v g = tokenAt s g := readAt_congr (hframe _ (by simp))
    have hescrow : groupEscrow v g = groupEscrow s g := groupEscrow_congr htoken (by rw [← hv]; rfl)
    have hcycle' : cycleAt t g = cycleAt s g :=
      (cycleAt_congr (sweep_frame hloop _ (by simp))).trans hcycle
    have hrest : ∀ k, InAccount g c k → (∀ a, k ≠ .refund g grp.currentCycle a) →
        t.persistent k = s.persistent k := by
      intro k hk hne
      rw [sweep_frame hloop k hne]
      exact hsame k hk
    by_cases hc : grp.currentCycle = c
    · subst hc
      rw [if_pos hnow, ← hescrow]
      have hv' := Onward.of_same hsame hcycle
      have hon : Onward s t g grp.currentCycle := by
        constructor
        case contrib => exact fun a => hrest _ ⟨rfl, rfl⟩ (by simp)
        case total => exact hrest _ ⟨rfl, rfl⟩ (by simp)
        case roster => exact hrest _ rfl (by simp)
        case refund => exact fun a ha => sweep_kept hloop a (hv'.refund a ha)
        case payRecip =>
          intro hp
          rwa [hrest (.payRecip g _) ⟨rfl, rfl⟩ (by simp)]
        case profile =>
          intro a ha
          rwa [hrest (.mbrProf g a) rfl (by simp)]
        case cycle =>
          intro m hm
          exact ⟨m, hcycle'.trans hm, Nat.le_refl m⟩
      have hbusy : ¬ ∃ m, cycleAt s g = some m ∧ grp.currentCycle < m := by
        rintro ⟨m, hm, hlt⟩
        rw [hnow] at hm
        have := Option.some.inj hm
        omega
      obtain ⟨-, -, N, hN, hmarks, hleft⟩ :=
        sweep_swept (hv'.books h.books) (htoken.trans hconfig) hloop
      refine h.step hreg hon ?_ hN ?_ (fun a ha => Or.inl (hmarks a ha).2) ?_
      · rw [hrest (.payRecip g _) ⟨rfl, rfl⟩ (by simp), hcycle']
        exact h.past
      · rintro a ha (hr | hp | ⟨-, hlater⟩)
        · rw [← hsame (.refund g _ a) ⟨rfl, rfl⟩] at hr
          exact hr (hmarks a ha).1
        · exact hbusy (h.past hp)
        · exact hbusy hlater
      · rwa [Finset.sum_congr rfl fun a _ => hv'.paidIn_eq a] at hleft
    · rw [if_neg fun he => hc (Option.some.inj (hnow.symm.trans he))]
      refine h.unmoved hreg (fun k hk => hrest k hk ?_) hcycle'
      rintro a rfl
      exact hc hk.2
  · have hsame : ∀ k, InAccount g c k →
        (voted s g member (dissolveVotes s g)).persistent k = s.persistent k := by
      intro k hk
      rw [voted]
      iterate 2 rw [persistent_set_of_mem hk.place.1 (by simp [accountKinds])]
    have hkept : groupEscrow s g - groupEscrow (voted s g member (dissolveVotes s g)) g = 0 := by
      have htoken : tokenAt (voted s g member (dissolveVotes s g)) g = tokenAt s g :=
        readAt_congr (by simp [voted])
      rw [groupEscrow_congr htoken rfl]
      exact Int.sub_self _
    rw [hkept, ite_self]
    exact h.unmoved hreg hsame (cycleAt_congr (by simp [voted]))

end Ways

/-! ## Step and run -/

section Runs

variable {env : Env} {s₀ s t : State} {g c : Nat} {P : Finset Address} {n : Int}

/-- A step that changes nothing sends nothing. -/
theorem sentFor_of_apply_eq {x : Step} (h : apply x s = s) : sentFor g c x s = 0 := by
  have hzero : outflow g x s = 0 := by
    rw [outflow, h, Int.sub_self]
  simp only [sentFor]
  split
  all_goals simp [hzero]

/-- Calls on other groups leave the record of `g` alone. -/
theorem grp_of_footprint {d : Call} (hd : d.body env s = .ok () t)
    (hfoot : ¬ d.footprint.persistent (.grp g)) : t.persistent (.grp g) = s.persistent (.grp g) :=
  (Within.agree_ok (w := d.footprint) hd).persistent _ hfoot

/-- **ONE STEP**: any way out, taken with care, stays accounted for. -/
theorem accounted_step (x : Step) (hx : WayOut x) (hcare : Careful g c x s)
    (h : Accounted s₀ g c P s n) : Accounted s₀ g c P (apply x s) (n + sentFor g c x s) := by
  have hreg := registry_apply x s h.registry
  cases x with
  | expire => exact h.unmoved hreg (fun _ _ => rfl) rfl
  | external l => exact h.unmoved hreg (fun _ _ => rfl) rfl
  | call env d =>
      rcases commit_eq_or d env s with ⟨t, ht, he⟩ | ⟨-, he⟩
      · have happly : apply (.call env d) s = t := he
        rw [happly] at hreg ⊢
        cases d with
        | requestRefund g' c' member =>
            obtain ⟨out, hout⟩ := quietly_ok.mp ht
            by_cases hg : g' = g ∧ c' = c
            · obtain ⟨rfl, rfl⟩ := hg
              simpa [sentFor, outflow, happly] using refund_accounted h hcare hout hreg
            · -- a refund for another cycle leaves a mark this account does not read
              obtain ⟨record, config, -, -, -, -, hframe, -⟩ := requestRefund_change hout
              simp only [sentFor, if_neg hg]
              refine h.unmoved hreg (fun k hk => hframe k ?_) (cycleAt_congr (hframe _ nofun))
              rintro rfl
              exact hg hk
        | executePayout g' =>
            by_cases hg : g' = g
            · subst hg
              simpa [sentFor, outflow, happly] using executePayout_accounted h hcare ht hreg
            · have hgrp := executePayout_groups (h.registry.own g') (Or.inl ⟨_, ht⟩) (Ne.symm hg)
              simp only [sentFor, hg, false_and, if_false]
              exact h.other ht (Place.not_covered (by simp [Place.Spares, accountKinds, hg])) hgrp
        | tick g' =>
            by_cases hg : g' = g
            · subst hg
              simpa [sentFor, outflow, happly] using tick_accounted h hcare ht hreg
            · simp only [sentFor, hg, false_and, if_false]
              exact h.other ht (Place.not_covered (by simp [Place.Spares, accountKinds, hg]))
                (tick_groups h.registry ht (Ne.symm hg))
        | emergencyWithdraw g' member =>
            by_cases hg : g' = g
            · subst hg
              simpa [sentFor, outflow, happly] using withdraw_accounted h hcare ht hreg
            · simp only [sentFor, hg, false_and, if_false]
              exact h.other ht (Place.not_covered (by simp [Place.Spares, accountKinds, hg]))
                (grp_of_footprint ht (by simp))
        | voteDissolve g' member =>
            by_cases hg : g' = g
            · subst hg
              simpa [sentFor, outflow, happly] using dissolve_accounted h ht hreg
            · simp only [sentFor, hg, false_and, if_false]
              exact h.other ht (Place.not_covered (by simp [Place.Spares, accountKinds, hg]))
                (grp_of_footprint ht (by simp [Ne.symm hg]))
        | _ => exact absurd hx not_false
      · have happly : apply (.call env d) s = s := he
        rw [sentFor_of_apply_eq happly, happly, Int.add_zero]
        exact h

/-- The account opens empty. -/
theorem accounted_start (hreg : Registry s) (hbooks : Books s g c P) (hfresh : Untouched s g c) :
    Accounted s g c P s 0 :=
  ⟨hreg, hbooks, fun _ => rfl, fun hp => absurd hfresh.payout hp, ∅, Finset.empty_subset P,
    by rw [Finset.sum_empty], nofun⟩

/-- **NO CONTRIBUTION LEAVES TWICE**, as long as no step takes a shortcut: from
    any state in which nothing has left for the cycle, along every run of the
    five operations, what is sent out for it stays within its contributions. -/
theorem cycle_spent_once (s : State) (g c : Nat) (P : Finset Address) (hreg : Registry s)
    (hbooks : Books s g c P) (hfresh : Untouched s g c) (steps : List Step)
    (hrun : Along apply (fun x s => WayOut x ∧ Careful g c x s) steps s) :
    total apply (sentFor g c) steps s ≤ ∑ a ∈ P, paidIn s g c a := by
  have hend := total_invariant (I := Accounted s g c P)
    (fun x u n hx hu => accounted_step x hx.1 hx.2 hu)
    (accounted_start hreg hbooks hfresh) hrun
  obtain ⟨L, hL, hle, -⟩ := hend.left
  rw [Int.zero_add] at hle
  exact hle.trans (Finset.sum_le_sum_of_subset_of_nonneg hL fun a _ _ => hbooks.paidIn_nonneg a)

end Runs

/-! The funded pair, with other people's money beside theirs. -/

/-- The two contributors. -/
def pair : Finset Address := {⟨1⟩, ⟨2⟩}

/-- Both members of the example have paid a hundred. -/
theorem pairState_contrib (k n : Nat) (a : Address) :
    contribAt (pairState k n) 1 0 a =
      if a = ⟨2⟩ then some ⟨⟨2⟩, 1, 0, 100, 10⟩
      else if a = ⟨1⟩ then some ⟨⟨1⟩, 1, 0, 100, 10⟩ else none := by
  by_cases h₂ : a = ⟨2⟩
  · simp [pairState, pairMembers, pairContributions, contribAt, h₂]
  · by_cases h₁ : a = ⟨1⟩ <;>
      simp [pairState, pairMembers, pairContributions, contribAt, h₁, h₂, deployed, readAt]

/-- Their books are in order. -/
theorem pairState_books (k n : Nat) : Books (pairState k n) 1 0 pair where
  contributors a := by
    rw [pairState_contrib]
    by_cases h₂ : a = ⟨2⟩
    · simp [pair, h₂]
    · by_cases h₁ : a = ⟨1⟩ <;> simp [pair, h₁, h₂]
  records a record h := by
    rw [pairState_contrib] at h
    by_cases h₂ : a = ⟨2⟩
    · rw [if_pos h₂] at h
      cases h
      exact ⟨by decide, h₂.symm⟩
    · rw [if_neg h₂] at h
      by_cases h₁ : a = ⟨1⟩
      · rw [if_pos h₁] at h
        cases h
        exact ⟨by decide, h₁.symm⟩
      · rw [if_neg h₁] at h
        cases h
  typed := typedAt_of_readAt (a := I128.mk 200) rfl
  total := rfl
  roster := typedAt_of_readAt (a := ((∅ : MemberMap).insert 0 ⟨1⟩).insert 1 ⟨2⟩) rfl

/-- And nothing has been spent. -/
theorem pairState_untouched (k n : Nat) : Untouched (pairState k n) 1 0 :=
  ⟨fun _ => rfl, rfl⟩

/-- **PAID OUT AND REFUNDED**: the payout sends the pair's `200` to the first
    member, the refund sends another `100` to the second. -/
theorem pair_spent_twice :
    Registry (pairState 3 400) ∧ Books (pairState 3 400) 1 0 pair ∧
      Untouched (pairState 3 400) 1 0 ∧
      (∀ x ∈ [Step.call idleEnv (.executePayout 1), .call memberEnv (.requestRefund 1 0 ⟨2⟩)],
        WayOut x) ∧
      ¬ total apply (sentFor 1 0)
          [.call idleEnv (.executePayout 1), .call memberEnv (.requestRefund 1 0 ⟨2⟩)]
          (pairState 3 400) ≤ ∑ a ∈ pair, paidIn (pairState 3 400) 1 0 a := by
  refine ⟨pairState_registry 3 400, pairState_books 3 400, pairState_untouched 3 400, ?_, ?_⟩
  · intro x hx
    rcases List.mem_pair.mp hx with rfl | rfl
    · trivial
    · trivial
  · have hsent : total apply (sentFor 1 0)
        [.call idleEnv (.executePayout 1), .call memberEnv (.requestRefund 1 0 ⟨2⟩)]
        (pairState 3 400) = 300 := rfl
    have hin : ∑ a ∈ pair, paidIn (pairState 3 400) 1 0 a = 200 := rfl
    rw [hsent, hin]
    decide

/-- The theorem for a refund of the second member and then a vote. -/
theorem cycle_spent_once_instance :
    total apply (sentFor 1 0)
      [.call memberEnv (.requestRefund 1 0 ⟨2⟩), .call memberEnv (.voteDissolve 1 ⟨2⟩)]
      (pairState 3 200) ≤ ∑ a ∈ pair, paidIn (pairState 3 200) 1 0 a := by
  refine cycle_spent_once (pairState 3 200) 1 0 pair (pairState_registry 3 200)
    (pairState_books 3 200) (pairState_untouched 3 200) _ ?_
  refine ⟨⟨trivial, fun _ _ => ⟨rfl, Or.inl nofun⟩⟩, ⟨trivial, trivial⟩, trivial⟩

end SaveEscrow
