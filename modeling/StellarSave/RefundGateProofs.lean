import StellarSave.CallProofs
import StellarSave.ExecutorProofs

/-! # The refund gate — what a payout tells it

    `request_refund` asks a payout flag whether the cycle was paid.  The
    executor records a payout under two other keys and NO CALL AT ALL writes
    the flag, so the gate never hears of a payout: whatever happened to the
    cycle, a refund goes through exactly when the caller, the records and the
    contract's balance allow it. -/

namespace SaveRefundGate

open HostProg Footprint TokenLedger SaveData SavePayout SaveRefund SaveCall Trace

/-- Everything `request_refund` looks at; `processed` is its payout flag. -/
structure RefundOpen (env : Env) (s : State) (g cycle : Nat) (caller : Address)
    (processed : Bool) (grp : SaveData.Group) (record : ContributionRecord) (config : TokenConfig) :
    Prop where
  signed : caller ∈ env.signers
  group : groupAt s g = some grp
  status : TypedAt GroupStatus s.persistent (.grpStat g) ∧
    refundEligible ((statusAt s g).getD .pending) processed = true
  contributed : contribAt s g cycle caller = some record
  entitled : caller = record.memberAddress ∨ caller = grp.creator
  once : s.persistent (.refund g cycle record.memberAddress) = none
  token : tokenAt s g = some config
  covered : ∃ tok, s.ledger config.tokenAddress = some tok ∧ 0 ≤ record.amount ∧
    record.amount ≤ tok.balance contractAddress

section Gate

variable {env : Env} {s t : State} {g cycle : Nat} {caller : Address} {out : RefundRecord}

/-- The refund record written for a contribution. -/
def refundFor (g cycle : Nat) (record : ContributionRecord) (time : Nat) : RefundRecord :=
  RefundRecord.mk g record.memberAddress cycle record.amount time

/-- **THE REFUND SPEC**. -/
theorem requestRefund_ok :
    requestRefund g cycle caller env s = .ok out t ↔
      TypedAt Bool s.persistent (.payStat g cycle) ∧
      ∃ grp record config l, RefundOpen env s g cycle caller
        ((readAt Bool s.persistent (.payStat g cycle)).getD false) grp record config ∧
        Book.transfer s.ledger config.tokenAddress contractAddress record.memberAddress
          record.amount = some l ∧
        refundFor g cycle record env.timestamp = out ∧
        (s.set (.refund g cycle record.memberAddress)
          (Codec.encode (refundFor g cycle record env.timestamp))).setLedger l = t := by
  simp [requestRefund]
  constructor
  · rintro ⟨hsig, grp, hgrp, hst, record, hrec, hent, honce, htyped, helig, config, htok, l, hl,
      hout, ht⟩
    refine ⟨htyped, grp, record, config, ?_, l, hl, hout, ht⟩
    have hcov := Book.transfer_isSome_iff.mp (Option.isSome_of_eq_some hl)
    exact ⟨hsig, hgrp, ⟨hst, helig⟩, hrec, Decidable.or_iff_not_imp_left.mpr hent, honce, htok,
      hcov⟩
  · rintro ⟨htyped, grp, record, config, h, l, hl, hout, ht⟩
    exact ⟨h.signed, grp, h.group, h.status.1, record, h.contributed,
      Decidable.or_iff_not_imp_left.mp h.entitled, h.once, htyped, h.status.2, config, h.token,
      l, hl, hout, ht⟩

theorem requestRefund_succeeds_iff :
    Succeeds (requestRefund g cycle caller) env s ↔
      TypedAt Bool s.persistent (.payStat g cycle) ∧
      ∃ grp record config, RefundOpen env s g cycle caller
        ((readAt Bool s.persistent (.payStat g cycle)).getD false) grp record config := by
  constructor
  · rintro ⟨out, t, h⟩
    obtain ⟨htyped, grp, record, config, l, hopen, -⟩ := requestRefund_ok.mp h
    exact ⟨htyped, grp, record, config, hopen⟩
  · rintro ⟨htyped, grp, record, config, hopen⟩
    have hsome : (Book.transfer s.ledger config.tokenAddress contractAddress
        record.memberAddress record.amount).isSome := Book.transfer_isSome_iff.mpr hopen.covered
    obtain ⟨l, hl⟩ := Option.isSome_iff_exists.mp hsome
    exact ⟨_, _, requestRefund_ok.mpr ⟨htyped, grp, record, config, l, hopen, hl, rfl, rfl⟩⟩

end Gate

/-! ## The flag nobody writes -/

/-- No call has the payout flag in its footprint. -/
theorem payStat_not_in_footprint (c : Call) (g cycle : Nat) :
    ¬ c.footprint.persistent (.payStat g cycle) := by
  cases c <;> exact Place.other_kind rfl

/-- **THE FLAG IS FROZEN**: along every run. -/
theorem payStat_run (steps : List Step) (s : State) (g cycle : Nat) :
    (run steps s).persistent (.payStat g cycle) = s.persistent (.payStat g cycle) :=
  exec_frozen (f := fun s : State => s.persistent (.payStat g cycle))
    (persistent_apply fun c => payStat_not_in_footprint c g cycle) steps s

/-- Nor does a payout write it. -/
theorem payStat_executePayout {env : Env} {s t : State} {g : Nat} (g' cycle : Nat)
    (h : executePayout g env s = .ok () t) :
    t.persistent (.payStat g' cycle) = s.persistent (.payStat g' cycle) :=
  (Within.agree_ok (w := (Call.executePayout g).footprint) h).persistent _
    (payStat_not_in_footprint (.executePayout g) g' cycle)

/-- The refund request is turned away and no token moves. -/
def Refused (env : Env) (s : State) (g cycle : Nat) (member : Address) : Prop :=
  ¬ Succeeds (requestRefund g cycle member) env s ∧
    (commit (requestRefund g cycle member) env s).ledger = s.ledger

theorem refused_iff {env : Env} {s : State} {g cycle : Nat} {member : Address} :
    Refused env s g cycle member ↔ ¬ Succeeds (requestRefund g cycle member) env s := by
  constructor
  · intro h
    exact h.1
  · intro h
    exact ⟨h, by rw [commit_of_not_succeeds h]⟩

/-- Some contribution of the caller can be refunded, going by the flag as it
    was in `s₀`. -/
def Refundable (s₀ : State) (env : Env) (s : State) (g cycle : Nat) (member : Address) : Prop :=
  TypedAt Bool s₀.persistent (.payStat g cycle) ∧
    ∃ grp record config, RefundOpen env s g cycle member
      ((readAt Bool s₀.persistent (.payStat g cycle)).getD false) grp record config

/-- **THE GATE NEVER HEARS OF THE PAYOUT**: after a cycle is paid, and whatever
    the run does next, a refund of it is refused exactly when something OTHER
    than the payout refuses it: the flag the gate reads is the one from before
    the payout. -/
theorem refused_after_payout_iff (env₀ : Env) (s₀ s₁ : State) (g : Nat) (grp₀ : SaveData.Group)
    (_hgrp : groupAt s₀ g = some grp₀) (hpaid : executePayout g env₀ s₀ = .ok () s₁)
    (steps : List Step) (env : Env) (member : Address) :
    Refused env (run steps s₁) g grp₀.currentCycle member ↔
      ¬ Refundable s₀ env (run steps s₁) g grp₀.currentCycle member := by
  have hflag : (run steps s₁).persistent (.payStat g grp₀.currentCycle) =
      s₀.persistent (.payStat g grp₀.currentCycle) := by
    rw [payStat_run, payStat_executePayout _ _ hpaid]
  rw [refused_iff, requestRefund_succeeds_iff]
  simp only [Refundable, TypedAt, readAt]
  rw [hflag]

/-- Member `2` signs, time `20`. -/
def memberEnv : Env := .plain 20 [⟨2⟩] second_signs

/-- **PAID, THEN REFUNDED**: with another group's money in the contract, the
    cycle is paid out in full and a member gets the contribution back all the
    same. -/
theorem refund_after_payout :
    ∃ s₁, groupAt (pairState 3 400) 1 = some (pairGroup 3) ∧
      executePayout 1 idleEnv (pairState 3 400) = .ok () s₁ ∧
      ¬ Refused memberEnv (run [] s₁) 1 (pairGroup 3).currentCycle ⟨2⟩ := by
  have hrun : ∃ s₁, executePayout 1 idleEnv (pairState 3 400) = .ok () s₁ ∧
      ∃ out t, requestRefund 1 0 ⟨2⟩ memberEnv s₁ = .ok out t := ⟨_, rfl, _, _, rfl⟩
  obtain ⟨s₁, hpaid, hrefund⟩ := hrun
  exact ⟨s₁, rfl, hpaid, fun h => h.1 hrefund⟩

/-- The theorem after that payout, for the member that gets nothing back. -/
theorem refused_after_payout_instance :
    ∃ s₁, executePayout 1 idleEnv (pairState 3 200) = .ok () s₁ ∧
      (Refused memberEnv (run [] s₁) 1 (pairGroup 3).currentCycle ⟨2⟩ ↔
        ¬ Refundable (pairState 3 200) memberEnv (run [] s₁) 1 (pairGroup 3).currentCycle ⟨2⟩) := by
  have hrun : ∃ s₁, executePayout 1 idleEnv (pairState 3 200) = .ok () s₁ := ⟨_, rfl⟩
  obtain ⟨s₁, hpaid⟩ := hrun
  exact ⟨s₁, hpaid, refused_after_payout_iff idleEnv (pairState 3 200) s₁ 1 (pairGroup 3) rfl
    hpaid [] memberEnv ⟨2⟩⟩

end SaveRefundGate
