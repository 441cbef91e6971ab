import StellarSave.BalanceProofs
import StellarSave.CompletionProofs

/-! # Emergency withdrawals — a profile goes, the seat stays

    `emergency_withdraw` measures idleness from the start of the group, adds up all
    the member ever paid in, and takes away the profile alone: the roster, the count
    and the member's payout position are as before, so whoever waits for that seat's
    turn waits for a recipient who is no member. -/

namespace SaveWithdrawal

open HostProg Footprint TokenLedger SaveData SaveRefund SaveEscrow SavePayout SaveBalance SaveDissolution SaveCall
open SaveMembership (rosterAt)
open SaveReward (Positive)
open SaveRoster (trioEnv openGroup)
open SaveCompletion (startedDuo)

/-- The money of a cycle has gone back to the member or into a payout. -/
def Settled (s : State) (g c : Nat) (m : Address) : Prop :=
  s.persistent (.refund g c m) ≠ none ∨ s.persistent (.payRecip g c) ≠ none

instance (s : State) (g c : Nat) (m : Address) : Decidable (Settled s g c m) :=
  inferInstanceAs (Decidable (_ ∨ _))

/-- The member's contributions so far that are neither refunded nor paid out. -/
def owedTo (s : State) (g : Nat) (grp : SaveData.Group) (m : Address) : Int :=
  ∑ c ∈ Finset.range (grp.currentCycle + 1) with ¬ Settled s g c m, paidIn s g c m

/-- The member has left everything that counts members. -/
structure Departed (s t : State) (g : Nat) (m : Address) : Prop where
  count : ∀ grp, groupAt s g = some grp →
    ∃ grp', groupAt t g = some grp' ∧ grp'.memberCount + 1 = grp.memberCount
  roster : ∀ a, a ∈ (rosterAt t g).members ↔ a ∈ (rosterAt s g).members ∧ a ≠ m
  position : t.persistent (.mbrPElig g m) = none ∧
    ∀ i, readAt Address t.persistent (.grpPosIx g i) ≠ some m

/-- What a withdrawal should be. -/
structure BoundedAndClean (env : Env) (s t : State) (g : Nat) (m : Address) : Prop where
  /-- Nothing was contributed for two cycles. -/
  idle : ∀ grp, groupAt s g = some grp → ∀ c a record, contribAt s g c a = some record →
    record.timestamp + grp.cycleDuration * 2 ≤ env.timestamp
  amount : ∀ grp, groupAt s g = some grp → ∀ tok,
    Book.holding t.ledger tok m ≤ Book.holding s.ledger tok m + owedTo s g grp m
  once : ∀ env', ¬ Succeeds (emergencyWithdraw g m) env' t
  departed : Departed s t g m

section Withdrawn

variable {env : Env} {s t : State} {g : Nat} {m : Address} {u : Unit}

/-- Of the member's entries only the profile goes. -/
theorem withdrawn_frame (h : emergencyWithdraw g m env s = .ok u t) {k : Key}
    (hk : k ≠ .grpBal g ∧ k ≠ .mbrProf g m) : t.persistent k = s.persistent k := by
  obtain ⟨grp, total, received, -, ⟨-, -, config, l, -, -, rfl⟩ | ⟨-, rfl⟩⟩ := emergencyWithdraw_ok h
  · simp [hk.1, hk.2]
  · simp [hk.2]

theorem withdrawn_profile (h : emergencyWithdraw g m env s = .ok u t) :
    t.persistent (.mbrProf g m) = none := by
  obtain ⟨grp, total, received, -, ⟨-, -, config, l, -, -, rfl⟩ | ⟨-, rfl⟩⟩ := emergencyWithdraw_ok h
  · simp
  · simp

/-- **NOT TWICE**: without a profile there is nothing more to withdraw. -/
theorem withdrawn_once (h : emergencyWithdraw g m env s = .ok u t) (env' : Env) :
    ¬ Succeeds (emergencyWithdraw g m) env' t := by
  rintro ⟨u', t', h'⟩
  obtain ⟨grp, total, received, hopen, -⟩ := emergencyWithdraw_ok h'
  exact hopen.profile (withdrawn_profile h)

/-- The count of members stays. -/
theorem not_departed (h : emergencyWithdraw g m env s = .ok u t) : ¬ Departed s t g m := by
  intro hleft
  obtain ⟨grp, total, received, hopen, -⟩ := emergencyWithdraw_ok h
  obtain ⟨grp', hgrp', hcount⟩ := hleft.count grp hopen.group
  have hsame : groupAt t g = some grp := by
    rw [groupAt, readAt_congr (withdrawn_frame h ⟨by simp, by simp⟩)]
    exact hopen.group
  rw [hsame] at hgrp'
  obtain rfl := Option.some.inj hgrp'
  omega

/-- **NEVER CLEAN**: a withdrawal that goes through, in whatever state and at whatever
    time, leaves the member counted, listed and seated. -/
theorem emergencyWithdraw_never_clean (h : emergencyWithdraw g m env s = .ok u t) :
    ¬ BoundedAndClean env s t g m := by
  intro hclean
  exact not_departed h hclean.departed

/-- **A TURN THAT NEVER COMES**: while the index names the one who left, and nothing
    brings the profile back, the payout of that cycle cannot be made. -/
theorem turn_blocked {grp : SaveData.Group} (htyped : TypedAt MemberMap s.persistent (.grpMbrs g))
    (hgrp : groupAt s g = some grp) (hturn : posIxAt s g grp.currentCycle = some m)
    (hgone : s.persistent (.mbrProf g m) = none) : ¬ Succeeds (executePayout g) env s := by
  rintro ⟨x, t, h⟩
  obtain ⟨grp', recipient, amount, v, config, l, hpaid, -⟩ := executePayout_ok.mp h
  have hsame := hpaid.group
  rw [hgrp] at hsame
  obtain rfl := Option.some.inj hsame
  have hagree := hpaid.valid.agree
  have hroster : TypedAt MemberMap v.persistent (.grpMbrs g) :=
    htyped.congr ((hagree.persistent _ (by simp)).trans (by simp [locked]))
  obtain ⟨-, hchosen, -⟩ := (identifyRecipient_ok hroster).mp hpaid.valid.chosen
  have hindex : posIxAt v g grp.currentCycle = posIxAt s g grp.currentCycle :=
    readAt_congr ((hagree.persistent _ (by simp)).trans (by simp [locked]))
  have hprofile : v.persistent (.mbrProf g m) = s.persistent (.mbrProf g m) :=
    (hagree.persistent _ (by simp)).trans (by simp [locked])
  have hrecipient : m = recipient := Option.some.inj (hturn.symm.trans (hindex.symm.trans hchosen))
  exact hpaid.valid.member (hrecipient ▸ hprofile.trans hgone)

/-! ### What is paid -/

/-- What the member has paid in so far, settled or not. -/
theorem sum_settled (s : State) (g : Nat) (grp : SaveData.Group) (m : Address) :
    ∑ c ∈ Finset.range (grp.currentCycle + 1), paidIn s g c m =
      owedTo s g grp m +
        ∑ c ∈ Finset.range (grp.currentCycle + 1) with Settled s g c m, paidIn s g c m := by
  rw [owedTo, Int.add_comm]
  exact (Finset.sum_filter_add_sum_filter_not _ _ _).symm

theorem paidIn_nonneg (hpos : Positive s) (c : Nat) : 0 ≤ paidIn s g c m := by
  cases h : contribAt s g c m with
  | none => rw [paidIn_of_none h]
  | some record =>
      rw [paidIn_of_record h]
      exact (hpos g c m record h).le

/-- **WHAT IS PAID IS OWED** unless the member, not paid out in its own turn, has a
    contribution that was refunded or went into somebody's payout. -/
theorem withdrawn_amount_iff {grp : SaveData.Group} (hpos : Positive s) (hgrp : groupAt s g = some grp)
    (h : emergencyWithdraw g m env s = .ok u t) :
    (∀ tok, Book.holding t.ledger tok m ≤ Book.holding s.ledger tok m + owedTo s g grp m) ↔
      (paidInTurn s g m = true ∨
        ∀ c ≤ grp.currentCycle, Settled s g c m → contribAt s g c m = none) := by
  obtain ⟨grp', total, received, hopen, hend⟩ := emergencyWithdraw_ok h
  have hsame := hopen.group
  rw [hgrp] at hsame
  obtain rfl := Option.some.inj hsame
  have htotal := memberTotal_eq hgrp hopen.total
  have hreceived := received_eq hopen.received
  have howed : 0 ≤ owedTo s g grp m := Finset.sum_nonneg fun c _ => paidIn_nonneg hpos c
  have hsplit := sum_settled s g grp m
  -- the whole total is paid, or nothing
  rcases hend with ⟨rfl, hpaid, config, l, -, hsent, rfl⟩ | ⟨hnothing, rfl⟩
  · -- the whole total is paid: it is owed where nothing of it is settled
    have hne : m ≠ contractAddress := fun he => env.contract_not_signer (he ▸ hopen.signed)
    have hholding : ∀ tok, Book.holding l tok m =
        Book.holding s.ledger tok m + if tok = config.tokenAddress then total else 0 := by
      intro tok
      rw [Book.holding_transfer hsent]
      by_cases htok : tok = config.tokenAddress
      · rw [if_pos htok, if_pos htok, moved, if_neg hne, if_pos rfl, htok]
        omega
      · rw [if_neg htok, if_neg htok, Int.add_zero]
    rw [← hreceived]
    constructor
    · intro hbound
      refine .inr fun c hc hsettled => ?_
      have hle := hbound config.tokenAddress
      rw [HostState.setLedger_ledger, hholding, if_pos rfl] at hle
      have hzero : ∑ c ∈ Finset.range (grp.currentCycle + 1) with Settled s g c m, paidIn s g c m = 0 :=
        Int.le_antisymm (by omega) (Finset.sum_nonneg fun c _ => paidIn_nonneg hpos c)
      have hnone := (Finset.sum_eq_zero_iff_of_nonneg fun c _ => paidIn_nonneg hpos c).mp hzero c
        (Finset.mem_filter.mpr ⟨Finset.mem_range.mpr (Nat.lt_succ_of_le hc), hsettled⟩)
      cases hrecord : contribAt s g c m with
      | none => rfl
      | some record =>
          rw [paidIn_of_record hrecord] at hnone
          exact absurd hnone (hpos g c m record hrecord).ne'
    · rintro (hturn | hfree) tok
      · cases hturn
      · have hzero : ∑ c ∈ Finset.range (grp.currentCycle + 1) with Settled s g c m, paidIn s g c m = 0 := by
          refine Finset.sum_eq_zero fun c hc => ?_
          obtain ⟨hrange, hsettled⟩ := Finset.mem_filter.mp hc
          exact paidIn_of_none (hfree c (Nat.le_of_lt_succ (Finset.mem_range.mp hrange)) hsettled)
        rw [HostState.setLedger_ledger, hholding]
        split <;> omega
  · refine iff_of_true (fun tok => ?_) ?_
    · show Book.holding s.ledger tok m ≤ _
      omega
    · rcases hnothing with htrue | hle
      · exact .inl (hreceived ▸ htrue)
      · refine .inr fun c hc hsettled => ?_
        have hzero : ∑ c ∈ Finset.range (grp.currentCycle + 1), paidIn s g c m = 0 :=
          Int.le_antisymm (htotal ▸ hle) (Finset.sum_nonneg fun c _ => paidIn_nonneg hpos c)
        have hnone := (Finset.sum_eq_zero_iff_of_nonneg fun c _ => paidIn_nonneg hpos c).mp hzero c
          (Finset.mem_range.mpr (Nat.lt_succ_of_le hc))
        cases hrecord : contribAt s g c m with
        | none => rfl
        | some record =>
            rw [paidIn_of_record hrecord] at hnone
            exact absurd hnone (hpos g c m record hrecord).ne'

end Withdrawn

/-! Two members, started at time `10` with cycles of `1000` seconds, pay nothing. -/

theorem both_sign : contractAddress ∉ [Address.mk 1, Address.mk 2] := by decide

/-- Two cycles later. -/
def lateEnv : Env := .plain 2010 [⟨1⟩, ⟨2⟩] both_sign

/-- The first member has withdrawn. -/
def withdrawnDuo : State := commit (emergencyWithdraw 1 ⟨1⟩) lateEnv startedDuo

theorem duo_withdraws : emergencyWithdraw 1 ⟨1⟩ lateEnv startedDuo = .ok () withdrawnDuo := rfl

theorem emergencyWithdraw_never_clean_duo : ¬ BoundedAndClean lateEnv startedDuo withdrawnDuo 1 ⟨1⟩ :=
  emergencyWithdraw_never_clean duo_withdraws

/-- Two are still counted and listed, the first turn is still the first member's, and no
    payout can be made of it, so the second member's turn never comes. -/
theorem seat_of_the_withdrawn :
    ¬ BoundedAndClean lateEnv startedDuo withdrawnDuo 1 ⟨1⟩ ∧
      (groupAt withdrawnDuo 1).map SaveData.Group.memberCount = some 2 ∧
      (rosterAt withdrawnDuo 1).members = [⟨1⟩, ⟨2⟩] ∧
      withdrawnDuo.persistent (.mbrProf 1 ⟨1⟩) = none ∧
      ∀ env, ¬ Succeeds (executePayout 1) env withdrawnDuo := by
  refine ⟨fun hclean => not_departed duo_withdraws hclean.departed, rfl, rfl, rfl, fun env => ?_⟩
  have hgrp : ∃ grp, groupAt withdrawnDuo 1 = some grp ∧ grp.currentCycle = 0 := ⟨_, rfl, rfl⟩
  obtain ⟨grp, hgrp, hcycle⟩ := hgrp
  have hturn : posIxAt withdrawnDuo 1 grp.currentCycle = some ⟨1⟩ := by
    rw [hcycle]
    rfl
  exact turn_blocked (typedAt_of_readAt
    (rfl : membersAt withdrawnDuo 1 = some (rosterAt withdrawnDuo 1))) hgrp hturn rfl

end SaveWithdrawal
