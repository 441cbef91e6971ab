import StellarSave.PayoutProofs

/-! # What a payout can do — said once

    The executor and the tick are taken apart here and nowhere else.  For each
    phase there is one lemma on how it can END WELL; for the executor as a
    whole there is one on how it can ERR, because `tick` carries on from
    whatever an error left behind.

    The shape to keep in mind: the lock is taken before anything is checked,
    the books are settled before money moves, and once the books are settled
    the only way out other than success is a trap. -/

namespace SavePayout

open HostProg Footprint TokenLedger SaveData

/-- The reentrancy guard lets a guarded call in: absent, or a `u64` zero. -/
structure GuardClear (s : State) : Prop where
  typed : TypedAt U64 s.temporary .guard
  zero : ((readAt U64 s.temporary .guard).getD ⟨0⟩).val = 0

/-- The program ends in `v`, well or with an error. -/
def EndsIn {α : Type} (m : SaveM α) (env : Env) (s v : State) : Prop :=
  (∃ a, m env s = .ok a v) ∨ ∃ e, m env s = .err e v

/-- The state once both reentrancy marks are set. -/
def locked (s : State) (g : Nat) (grp : Group) : State :=
  (s.tempSet .guard (Codec.encode (I32.mk 1))).set (.grp g)
    (Codec.encode { grp with payoutInProgress := true })

/-- The entries the penalty pass may touch. -/
@[reducible] def penaltyScope (g : Nat) : Scope Key :=
  scope [.of .mbrPen g, .of .cycTotal g] False False

/-- The state once the payout is noted, before the running total is. -/
def noted (s : State) (g cycle : Nat) (recipient : Address) (amount : Int)
    (timestamp : Nat) : State :=
  (s.set (.payout g cycle)
    (Codec.encode (PayoutRecord.mk recipient g cycle amount timestamp))).set
    (.payRecip g cycle) (Codec.encode recipient)

/-- The state once the books are settled. -/
def settled (s : State) (g : Nat) (grp : Group) (recipient : Address) (amount : Int)
    (timestamp : Nat) : State :=
  ((noted s g grp.currentCycle recipient amount timestamp).set
    (.grpPaid g) (Codec.encode (I128.mk (grpPaidAt s g + amount)))).set
    (.grp grp.id) (Codec.encode grp.advanced)

section Phases

variable {env : Env} {s t u v : State} {g : Nat} {grp grp' : Group} {recipient : Address}
  {amount : Int} {plan : Address × Int} {e : SaveError} {x : Unit}

theorem lockPayout_ok :
    lockPayout g env s = .ok grp' t ↔
      GuardClear s ∧ ∃ grp, groupAt s g = some grp ∧ grp.payoutInProgress = false ∧
        { grp with payoutInProgress := true } = grp' ∧ locked s g grp = t := by
  simp [lockPayout, locked]
  constructor
  · rintro ⟨h₁, h₂, h⟩
    exact ⟨⟨h₁, h₂⟩, h⟩
  · rintro ⟨⟨h₁, h₂⟩, h⟩
    exact ⟨h₁, h₂, h⟩

/-- The penalty pass of one payout. -/
abbrev penaltyPass (g : Nat) (grp : Group) : SaveM Unit :=
  runIf (grp.penaltyEnabled = true ∧ grp.penaltyAmount > 0)
    (applyMissedContributionPenalties g grp.currentCycle grp)

/-- What validation checks, about the group it was handed, the state `s` it
    starts from and the state `t` it leaves. -/
structure Validated (env : Env) (s : State) (g : Nat) (grp : Group) (recipient : Address)
    (amount : Int) (t : State) : Prop where
  running : grp.paused = false ∧ grp.status = .active ∧ grp.disputeActive = false
  unpaid : s.persistent (.payRecip g grp.currentCycle) = none
  amount_eq : grp.contributionAmount * grp.memberCount = amount
  amount_pos : 0 < grp.contributionAmount ∧ grp.memberCount ≠ 0
  amount_fits : amount < i128Bound
  typed : TypedAt I128 s.persistent (.cycTotal grp.id grp.currentCycle) ∧
    TypedAt U32 s.persistent (.cycCount grp.id grp.currentCycle)
  full : grp.memberCount ≤ cycCountAt s grp.id grp.currentCycle
  total : cycTotalAt s grp.id grp.currentCycle = amount
  penalized : penaltyPass g grp env s = .ok () t
  chosen : identifyRecipient g grp.currentCycle grp.memberCount grp.payoutOrder env t
    = .ok recipient t
  member : t.persistent (.mbrProf g recipient) ≠ none
  funded : ∃ config n, tokenAt t g = some config ∧
    Book.balanceOf t.ledger config.tokenAddress contractAddress = some n ∧ amount ≤ n

theorem getPoolInfoForGroup_bind_ok {β : Type} {b : β} {cycle : Nat} {f : PoolInfo → SaveM β} :
    (getPoolInfoForGroup grp cycle >>= f) env s = .ok b t ↔
      (0 < grp.contributionAmount ∧ grp.memberCount ≠ 0 ∧
        (-i128Bound ≤ grp.contributionAmount * grp.memberCount ∧
          grp.contributionAmount * grp.memberCount < i128Bound)) ∧
      (TypedAt I128 s.persistent (.cycTotal grp.id cycle) ∧
        TypedAt U32 s.persistent (.cycCount grp.id cycle)) ∧
      f ⟨grp.contributionAmount * grp.memberCount, cycTotalAt s grp.id cycle,
        cycCountAt s grp.id cycle,
        decide (cycCountAt s grp.id cycle ≥ grp.memberCount)⟩ env s = .ok b t := by
  simp [getPoolInfoForGroup, calculateTotalPool, and_assoc]

/-- The penalty pass leaves everything but penalties and the pool alone. -/
theorem penaltyPass_agree (h : penaltyPass g grp env s = .ok x t) :
    Agree (penaltyScope g) s t := Within.agree_ok h

/-- The checks after the recipient is known. -/
theorem payableTo_ok {pool : PoolInfo} {b : Address × Int} :
    (do
      verifyRecipientEligibility g recipient grp.currentCycle
      let amount ← calculateAndValidatePayoutAmount pool
      verifyContractBalance g amount
      pure (recipient, amount) : SaveM (Address × Int)) env s = .ok b t ↔
    s.persistent (.mbrProf g recipient) ≠ none ∧
      s.persistent (.payRecip g grp.currentCycle) = none ∧
      (0 < pool.totalPoolAmount ∧ pool.totalPoolAmount < i128Bound) ∧
      (∃ config n, tokenAt s g = some config ∧
        Book.balanceOf s.ledger config.tokenAddress contractAddress = some n ∧
        pool.totalPoolAmount ≤ n) ∧
      (recipient, pool.totalPoolAmount) = b ∧ s = t := by
  simp [verifyRecipientEligibility, calculateAndValidatePayoutAmount, calculatePayoutAmount,
    verifyContractBalance]
  intro _ _
  have hsmall : -i128Bound ≤ 0 := by decide
  constructor
  · rintro ⟨-, ⟨-, hlt⟩, hpos, config, hconf, n, hn, hle, hb, ht⟩
    exact ⟨⟨hpos, hlt⟩, ⟨config, hconf, n, hn, hle⟩, hb, ht⟩
  · rintro ⟨⟨hpos, hlt⟩, ⟨config, hconf, n, hn, hle⟩, hb, ht⟩
    exact ⟨by omega, ⟨by omega, hlt⟩, hpos, config, hconf, n, hn, hle, hb, ht⟩

theorem validatePayout_ok :
    validatePayout g grp env s = .ok plan t ↔ Validated env s g grp plan.1 plan.2 t := by
  rw [validatePayout]
  simp only [failIf_bind_ok, has_bind_ok, getPoolInfoForGroup_bind_ok,
    validatePoolReadyForPayout, bind_bind_ok]
  constructor
  -- the checks in the order of the code, the penalties and the scan among them
  · rintro ⟨hpaused, hstatus, hdispute, hpaid, ⟨hpos, hcount, hfits⟩, htyped, hfull, htotal, h⟩
    obtain ⟨⟨⟩, u, hpen, h₁⟩ := bind_ok.mp h
    obtain ⟨recipient, u', hrec, h₂⟩ := bind_ok.mp h₁
    obtain rfl := Within.eq_of_ok hrec
    obtain ⟨hmem, -, ⟨-, hlt⟩, hfund, rfl, rfl⟩ := payableTo_ok.mp h₂
    constructor
    case running => simp_all
    case unpaid => simpa using hpaid
    case amount_eq => rfl
    case amount_pos => exact ⟨hpos, hcount⟩
    case amount_fits => exact hlt
    case typed => exact htyped
    case full => simpa using hfull
    case total => simpa using htotal
    case penalized => exact hpen
    case chosen => exact hrec
    case member => exact hmem
    case funded => exact hfund
  -- and the other way: with these facts every check is passed
  · intro h
    obtain ⟨hpaused, hstatus, hdispute⟩ := h.running
    obtain ⟨hpos, hcount⟩ := h.amount_pos
    have hprod : 0 < grp.contributionAmount * (grp.memberCount : Int) :=
      Int.mul_pos hpos (by omega)
    have hsmall : -i128Bound ≤ 0 := by decide
    have hfits := h.amount_fits
    rw [← h.amount_eq] at hfits
    refine ⟨by simp [hpaused], by simp [hstatus], by simp [hdispute], by simp [h.unpaid],
      ⟨hpos, hcount, by omega, hfits⟩, h.typed, by simpa using h.full,
      by simpa [h.amount_eq] using h.total, ?_⟩
    refine bind_ok.mpr ⟨(), t, h.penalized, bind_ok.mpr ⟨plan.1, t, h.chosen, ?_⟩⟩
    have hunpaid : t.persistent (.payRecip g grp.currentCycle) = none := by
      rw [(penaltyPass_agree h.penalized).persistent _ (by simp)]
      exact h.unpaid
    refine payableTo_ok.mpr ⟨h.member, hunpaid, ⟨hprod, hfits⟩, ?_, ?_, rfl⟩
    · simpa only [h.amount_eq] using h.funded
    · rw [h.amount_eq]

/-- What the books need: a total that still fits, a profile, a next cycle. -/
structure CanSettle (s : State) (g : Nat) (grp : Group) (recipient : Address) (amount : Int) :
    Prop where
  amount_pos : 0 < amount
  paid_typed : TypedAt I128 s.persistent (.grpPaid g)
  paid_fits : -i128Bound ≤ grpPaidAt s g + amount ∧ grpPaidAt s g + amount < i128Bound
  profile : ∃ profile, profileAt s g recipient = some profile
  cycle : grp.isComplete = false ∧ grp.currentCycle + 1 ≤ u32Max

theorem settlePayout_ok :
    settlePayout g grp recipient amount env s = .ok grp' t ↔
      CanSettle s g grp recipient amount ∧ grp.advanced = grp' ∧
        settled s g grp recipient amount env.timestamp = t := by
  simp [settlePayout, recordPayout, updateMemberStatus, advanceCycleOrComplete, typedAt_set_of_ne,
    settled, noted]
  constructor
  · rintro ⟨hpos, htyped, hfits, hprof, hcomp, hcyc, hgrp, ht⟩
    exact ⟨⟨hpos, htyped, hfits, hprof, hcomp, hcyc⟩, hgrp, ht⟩
  · rintro ⟨⟨hpos, htyped, hfits, hprof, hcomp, hcyc⟩, hgrp, ht⟩
    exact ⟨hpos, htyped, hfits, hprof, hcomp, hcyc, hgrp, ht⟩

theorem advanceCycleOrComplete_ne_err : advanceCycleOrComplete grp env s ≠ .err e t := by
  intro h
  rcases bind_err.mp h with h | ⟨grp', u, -, h⟩
  · exact Group.advanceCycle_ne_err h
  · rw [put_bind_err] at h
    exact pure_err.mp h

/-- Settling errs in one way only: the running total overflows, AFTER the
    payout has been noted. -/
theorem settlePayout_err (hmem : s.persistent (.mbrProf g recipient) ≠ none)
    (h : settlePayout g grp recipient amount env s = .err e v) :
    checkedI128 (grpPaidAt s g + amount) = none ∧
      noted s g grp.currentCycle recipient amount env.timestamp = v := by
  simp [settlePayout, recordPayout, updateMemberStatus, hmem,
    advanceCycleOrComplete_ne_err] at h
  obtain ⟨hpos, ⟨hneg, -⟩ | ⟨-, -, hover, -, hv⟩⟩ := h
  · omega
  · exact ⟨checkedI128_eq_none.mpr fun hfits => absurd hfits.2 (not_lt.mpr (hover hfits.1)), hv⟩

/-- A positive amount of a known token is sent or the call traps. -/
theorem executeTransfer_ne_err (hpos : 0 < amount) (htok : ∃ config, tokenAt s g = some config) :
    executeTransfer g recipient amount env s ≠ .err e t := by
  intro h
  obtain ⟨config, hconf⟩ := htok
  have hstored : s.persistent (.grpTok g) ≠ none := by
    rw [(readAt_eq_some _ _ _).mp hconf]
    exact Option.some_ne_none _
  simp [executeTransfer, hstored] at h
  omega

theorem executeTransfer_ok :
    executeTransfer g recipient amount env s = .ok x t ↔
      0 < amount ∧ ∃ config, tokenAt s g = some config ∧ ∃ l,
        Book.transfer s.ledger config.tokenAddress contractAddress recipient amount = some l ∧
          s.setLedger l = t := by
  simp [executeTransfer]

/-! The roster is read as a vector and stored as a map, so whatever needs to
    walk it traps. -/

theorem no_vector (h : TypedAt MemberMap s.persistent (.grpMbrs g)) :
    readAt (List Address) s.persistent (.grpMbrs g) = none := by
  rw [readAt]
  cases hv : s.persistent (.grpMbrs g) with
  | none => rfl
  | some v =>
      obtain ⟨roster, rfl⟩ := h v hv
      rfl

/-- Only the position index can name a recipient. -/
theorem identifyRecipient_ok (h : TypedAt MemberMap s.persistent (.grpMbrs g))
    {cycle n : Nat} {order : PayoutOrder} :
    identifyRecipient g cycle n order env s = .ok recipient t ↔
      order = .sequential ∧ posIxAt s g cycle = some recipient ∧ cycle < n ∧ s = t := by
  have hscan : ∀ {a u}, scanForPosition g cycle n env s ≠ .ok a u := by
    intro a u hs
    simp [scanForPosition, no_vector h] at hs
  cases order with
  | random => simp [identifyRecipient, identifyRecipientRandom, no_vector h]
  | bid => simp [identifyRecipient, identifyRecipientBid, no_vector h]
  | sequential =>
      simp [identifyRecipient, identifyRecipientSequential, hscan]
      intro ha _ _
      exact typedAt_of_readAt ha

/-- Penalties that are switched on are never applied. -/
theorem penaltyPass_ok (h : TypedAt MemberMap s.persistent (.grpMbrs g)) :
    penaltyPass g grp env s = .ok x t ↔
      ¬ (grp.penaltyEnabled = true ∧ grp.penaltyAmount > 0) ∧ s = t := by
  simp [penaltyPass, applyMissedContributionPenalties, no_vector h]

theorem penaltyPass_err (h : TypedAt MemberMap s.persistent (.grpMbrs g))
    (hp : penaltyPass g grp env s = .err e t) : t = s := by
  rw [penaltyPass, runIf] at hp
  by_cases hc : grp.penaltyEnabled = true ∧ grp.penaltyAmount > 0
  · rw [if_pos hc] at hp
    rcases bind_err.mp hp with hget | ⟨members, v, hget, -⟩
    · exact Within.eq_of_err hget
    · rw [getOr_ok, no_vector h] at hget
      exact absurd hget.1 nofun
  · rw [if_neg hc] at hp
    exact absurd hp nofun

end Phases

/-! ## The executor as a whole -/

/-- The group as the executor carries it, marked as being paid. -/
abbrev marked (grp : Group) : Group := { grp with payoutInProgress := true }

/-- How a payout ends well: the cycle's group `grp`, the state `u` after the
    checks, the token and the ledger `l` after the transfer. -/
structure Paid (env : Env) (s : State) (g : Nat) (grp : Group) (recipient : Address)
    (amount : Int) (u : State) (config : TokenConfig) (l : Ledger) : Prop where
  clear : GuardClear s
  group : groupAt s g = some grp
  free : grp.payoutInProgress = false
  valid : Validated env (locked s g grp) g (marked grp) recipient amount u
  settles : CanSettle u g (marked grp) recipient amount
  token : tokenAt u g = some config
  sent : Book.transfer u.ledger config.tokenAddress contractAddress recipient amount = some l

/-- The state a payout leaves. -/
def paidState (u : State) (g : Nat) (grp : Group) (recipient : Address) (amount : Int)
    (timestamp : Nat) (l : Ledger) : State :=
  ((settled u g (marked grp) recipient amount timestamp).setLedger l).set (.grp g)
    (Codec.encode { (marked grp).advanced with payoutInProgress := false })

section Executor

variable {env : Env} {s t u v : State} {g : Nat} {grp : Group} {recipient : Address}
  {amount : Int} {e : SaveError} {x : Unit}

/-- **THE EXECUTOR, ENDING WELL**. -/
theorem executePayout_ok :
    executePayout g env s = .ok x t ↔
      ∃ grp recipient amount u config l, Paid env s g grp recipient amount u config l ∧
        paidState u g grp recipient amount env.timestamp l = t := by
  rw [executePayout]
  constructor
  · intro h
    obtain ⟨grp', s₁, hlock, h₁⟩ := bind_ok.mp h
    obtain ⟨hclear, grp, hgrp, hfree, rfl, rfl⟩ := lockPayout_ok.mp hlock
    obtain ⟨plan, u, hval, h₂⟩ := bind_ok.mp h₁
    obtain ⟨grp'', s₂, hset, h₃⟩ := bind_ok.mp h₂
    obtain ⟨hcan, rfl, rfl⟩ := settlePayout_ok.mp hset
    obtain ⟨⟨⟩, s₃, htr, h₄⟩ := bind_ok.mp h₃
    obtain ⟨-, config, hconf, l, hl, rfl⟩ := executeTransfer_ok.mp htr
    refine ⟨grp, plan.1, plan.2, u, config, l,
      ⟨hclear, hgrp, hfree, validatePayout_ok.mp hval, hcan, ?_, hl⟩, put_ok.mp h₄⟩
    simpa [tokenAt, settled, noted] using hconf
  · rintro ⟨grp, recipient, amount, u, config, l, h, rfl⟩
    refine bind_ok.mpr ⟨_, _, lockPayout_ok.mpr ⟨h.clear, grp, h.group, h.free, rfl, rfl⟩, ?_⟩
    refine bind_ok.mpr ⟨(recipient, amount), u, validatePayout_ok.mpr h.valid, ?_⟩
    refine bind_ok.mpr ⟨_, _, settlePayout_ok.mpr ⟨h.settles, rfl, rfl⟩, ?_⟩
    refine bind_ok.mpr ⟨(), _, executeTransfer_ok.mpr ⟨h.settles.amount_pos, config, ?_, l,
      h.sent, rfl⟩, put_ok.mpr rfl⟩
    simpa [tokenAt, settled, noted] using h.token

/-- Where an error can come from: the lock, a check, or the running total
    after the payout has been noted. -/
theorem executePayout_err_cases (h : executePayout g env s = .err e v) :
    lockPayout g env s = .err e v ∨
      ∃ grp, (GuardClear s ∧ groupAt s g = some grp ∧ grp.payoutInProgress = false) ∧
        (validatePayout g (marked grp) env (locked s g grp) = .err e v ∨
          ∃ recipient amount u,
            Validated env (locked s g grp) g (marked grp) recipient amount u ∧
            checkedI128 (grpPaidAt u g + amount) = none ∧
            noted u g grp.currentCycle recipient amount env.timestamp = v) := by
  rw [executePayout] at h
  rcases bind_err.mp h with h₁ | ⟨grp', s₁, hlock, h₁⟩
  · exact Or.inl h₁
  obtain ⟨hclear, grp, hgrp, hfree, rfl, rfl⟩ := lockPayout_ok.mp hlock
  refine Or.inr ⟨grp, ⟨hclear, hgrp, hfree⟩, ?_⟩
  -- the checks may fail, with the lock taken
  rcases bind_err.mp h₁ with h₂ | ⟨plan, u, hval, h₂⟩
  · exact Or.inl h₂
  have hv := validatePayout_ok.mp hval
  -- the settlement may, with the recipient noted
  rcases bind_err.mp h₂ with h₃ | ⟨grp'', s₂, hset, h₃⟩
  · have hnoted := settlePayout_err hv.member h₃
    exact Or.inr ⟨plan.1, plan.2, u, hv, hnoted⟩
  obtain ⟨hcan, rfl, rfl⟩ := settlePayout_ok.mp hset
  -- the transfer of a positive amount that was funded cannot
  rcases bind_err.mp h₃ with h₄ | ⟨⟨⟩, s₃, -, h₄⟩
  · obtain ⟨config, -, hconf, -⟩ := hv.funded
    refine absurd h₄ (executeTransfer_ne_err hcan.amount_pos ⟨config, ?_⟩)
    simpa [tokenAt, settled, noted] using hconf
  · cases h₄

theorem locked_agree (s : State) (g : Nat) (grp : Group) :
    Agree (scope [.of .grp g] True False) s (locked s g grp) where
  persistent k hk := by
    have hne : k ≠ .grp g := by
      rintro rfl
      exact hk (by simp)
    simp [locked, hne]
  temporary k hk := by
    have hne : k ≠ .guard := by
      rintro rfl
      exact hk ⟨rfl, trivial⟩
    simp [locked, hne]
  ledger _ := rfl

/-- **THE EXECUTOR, ENDING IN AN ERROR**: either only the marks, the penalties
    and the pool were touched, or the payout was noted and its total
    overflowed. -/
theorem executePayout_err (h : executePayout g env s = .err e v) :
    Agree (scope [.of .grp g, .of .mbrPen g, .of .cycTotal g] True False) s v ∨
      ∃ grp recipient amount u, GuardClear s ∧ groupAt s g = some grp ∧
        grp.payoutInProgress = false ∧
        Validated env (locked s g grp) g (marked grp) recipient amount u ∧
        noted u g grp.currentCycle recipient amount env.timestamp = v := by
  rcases executePayout_err_cases h with hlock | ⟨grp, ⟨hclear, hgrp, hfree⟩, hval | hnoted⟩
  · exact Or.inl (Within.agree_err hlock)
  · have hlock : lockPayout g env s = .ok (marked grp) (locked s g grp) :=
      lockPayout_ok.mpr ⟨hclear, grp, hgrp, hfree, rfl, rfl⟩
    exact Or.inl ((Within.agree_ok hlock).trans (Within.agree_err hval))
  · obtain ⟨recipient, amount, u, hv, -, rfl⟩ := hnoted
    exact Or.inr ⟨grp, recipient, amount, u, hclear, hgrp, hfree, hv, rfl⟩

/-- Validation leaves what the penalty pass leaves. -/
theorem Validated.agree {s u : State} (h : Validated env s g grp recipient amount u) :
    Agree (penaltyScope g) s u := penaltyPass_agree h.penalized

/-- A record under its own id is the only one a payout touches. -/
theorem executePayout_groups (hown : ∀ grp, groupAt s g = some grp → grp.id = g)
    (h : EndsIn (executePayout g) env s v) {j : Nat} (hj : j ≠ g) :
    v.persistent (.grp j) = s.persistent (.grp j) := by
  have hvalid : ∀ {grp recipient amount u},
      Validated env (locked s g grp) g (marked grp) recipient amount u →
      u.persistent (.grp j) = s.persistent (.grp j) := by
    intro grp recipient amount u hv
    rw [hv.agree.persistent _ (by simp)]
    simp [locked, hj]
  rcases h with ⟨x, h⟩ | ⟨e, h⟩
  · obtain ⟨grp, recipient, amount, u, config, l, hp, rfl⟩ := executePayout_ok.mp h
    have hid := hown grp hp.group
    rw [← hvalid hp.valid]
    simp [paidState, settled, noted, hid, hj]
  · rcases executePayout_err h with hagree | ⟨grp, recipient, amount, u, -, -, -, hv, rfl⟩
    · exact hagree.persistent _ (by simp [hj])
    · rw [← hvalid hv]
      simp [noted]

/-- From a clear guard the lock is taken before anything can go wrong. -/
theorem lockPayout_guard (hs : GuardClear s) (h : EndsIn (lockPayout g) env s v) :
    v.temporary .guard = some (Codec.encode (I32.mk 1)) := by
  rcases h with ⟨grp', h⟩ | ⟨e, h⟩
  · obtain ⟨-, grp, -, -, -, rfl⟩ := lockPayout_ok.mp h
    rfl
  · simp [lockPayout, hs.zero] at h
    obtain ⟨-, ⟨-, -, rfl⟩ | ⟨grp, -, -, -, rfl⟩⟩ := h
    · rfl
    · rfl

/-- **THE GUARD IS NEVER GIVEN BACK**: from a clear guard every ending of the
    executor, good or bad, leaves the `i32` mark in place. -/
theorem executePayout_guard (hs : GuardClear s) (h : EndsIn (executePayout g) env s v) :
    v.temporary .guard = some (Codec.encode (I32.mk 1)) := by
  rw [executePayout] at h
  have hframe : ∀ {u : State}, Agree (scope (payoutPlaces g) False True) u v →
      v.temporary .guard = u.temporary .guard := fun ha => ha.temporary _ fun hk => hk.2
  rcases h with ⟨a, h⟩ | ⟨e, h⟩
  · obtain ⟨grp, u, hlock, hrest⟩ := bind_ok.mp h
    rw [hframe (Within.agree_ok hrest)]
    exact lockPayout_guard hs (Or.inl ⟨grp, hlock⟩)
  · rcases bind_err.mp h with hlock | ⟨grp, u, hlock, hrest⟩
    · exact lockPayout_guard hs (Or.inr ⟨e, hlock⟩)
    · rw [hframe (Within.agree_err hrest)]
      exact lockPayout_guard hs (Or.inl ⟨grp, hlock⟩)

/-! ## What a payout leaves behind -/

/-- With a roster of the right type, validation changes nothing at all. -/
theorem validatePayout_still (hmap : TypedAt MemberMap s.persistent (.grpMbrs g)) :
    Leaves (fun t => t = s) (validatePayout g grp env s) := by
  rw [validatePayout]
  iterate 7 refine Leaves.bind_still rfl fun _ => ?_
  cases hpen : penaltyPass g grp env s with
  | ok x t =>
      obtain ⟨-, rfl⟩ := (penaltyPass_ok hmap).mp hpen
      rw [bind_of_ok hpen]
      iterate 4 refine Leaves.bind_still rfl fun _ => ?_
      rfl
  | err e t =>
      rw [bind_of_err hpen]
      exact penaltyPass_err hmap hpen
  | trap =>
      rw [bind_of_trap hpen]
      trivial
  | mistyped =>
      rw [bind_of_mistyped hpen]
      trivial

theorem locked_roster (hmap : TypedAt MemberMap s.persistent (.grpMbrs g)) :
    TypedAt MemberMap (locked s g grp).persistent (.grpMbrs g) := by
  simpa [locked, typedAt_set_of_ne] using hmap

/-- A cycle that was paid: what held before, what is noted, and what moved.
    The ledger stays behind when the paid-out total overflows. -/
structure PaysOut (s v : State) (g : Nat) (grp : Group) (recipient : Address) (amount : Int) :
    Prop where
  group : groupAt s g = some grp
  active : grp.status = .active
  seat : posIxAt s g grp.currentCycle = some recipient ∧ grp.currentCycle < grp.memberCount
  unpaid : s.persistent (.payRecip g grp.currentCycle) = none
  full : grp.memberCount ≤ cycCountAt s grp.id grp.currentCycle
  total : cycTotalAt s grp.id grp.currentCycle = amount
  sent : ∃ config, tokenAt s g = some config ∧ (v.ledger = s.ledger ∨
    Book.transfer s.ledger config.tokenAddress contractAddress recipient amount = some v.ledger)
  payout : ∃ record, ∀ c, v.persistent (.payout g c) =
    if c = grp.currentCycle then some record else s.persistent (.payout g c)
  payRecip : ∀ c, v.persistent (.payRecip g c) =
    if c = grp.currentCycle then some (Codec.encode recipient) else s.persistent (.payRecip g c)

/-- Nothing was paid: no token moved and nothing was noted. -/
structure NotPaid (s v : State) (g : Nat) : Prop where
  ledger : v.ledger = s.ledger
  payout : ∀ c, v.persistent (.payout g c) = s.persistent (.payout g c)
  payRecip : ∀ c, v.persistent (.payRecip g c) = s.persistent (.payRecip g c)

/-- What validation finds, read off the state before the lock. -/
theorem Validated.before (hmap : TypedAt MemberMap s.persistent (.grpMbrs g))
    (h : Validated env (locked s g grp) g (marked grp) recipient amount u) :
    u = locked s g grp ∧ grp.status = .active ∧
      (posIxAt s g grp.currentCycle = some recipient ∧ grp.currentCycle < grp.memberCount) ∧
      s.persistent (.payRecip g grp.currentCycle) = none ∧
      grp.memberCount ≤ cycCountAt s grp.id grp.currentCycle ∧
      cycTotalAt s grp.id grp.currentCycle = amount ∧ ∃ config, tokenAt s g = some config := by
  obtain ⟨-, rfl⟩ := (penaltyPass_ok (locked_roster hmap)).mp h.penalized
  obtain ⟨-, hindex, hseat, -⟩ := (identifyRecipient_ok (locked_roster hmap)).mp h.chosen
  obtain ⟨config, -, hconfig, -⟩ := h.funded
  have hunpaid := h.unpaid
  have hfull := h.full
  have htotal := h.total
  simp only [locked, HostState.set_persistent, HostState.tempSet_persistent, posIxAt, tokenAt,
    cycCountAt, cycTotalAt, readAt_set, reduceCtorEq, if_false]
    at hindex hconfig hunpaid hfull htotal
  exact ⟨rfl, h.running.2.1, ⟨hindex, hseat⟩, hunpaid, hfull, htotal, config, hconfig⟩

/-- An error leaves the marks, or the notes of a payout whose total overflowed. -/
theorem executePayout_err_marks (hmap : TypedAt MemberMap s.persistent (.grpMbrs g))
    (h : executePayout g env s = .err e v) :
    Agree (scope [.of .grp g] True False) s v ∨
      ∃ grp recipient amount, groupAt s g = some grp ∧
        Validated env (locked s g grp) g (marked grp) recipient amount (locked s g grp) ∧
        checkedI128 (grpPaidAt s g + amount) = none ∧
        noted (locked s g grp) g grp.currentCycle recipient amount env.timestamp = v := by
  rcases executePayout_err_cases h with hlock | ⟨grp, ⟨-, hgrp, -⟩, hval | hnoted⟩
  · exact Or.inl (Within.agree_err hlock)
  · have hstill : Leaves (fun t => t = locked s g grp)
        (validatePayout g (marked grp) env (locked s g grp)) :=
      validatePayout_still (locked_roster hmap)
    rw [hval] at hstill
    obtain rfl : v = locked s g grp := hstill
    exact Or.inl (locked_agree s g grp)
  · obtain ⟨recipient, amount, u, hv, hover, rfl⟩ := hnoted
    obtain ⟨rfl, -⟩ := hv.before hmap
    refine Or.inr ⟨grp, recipient, amount, hgrp, hv, ?_, rfl⟩
    simpa [locked, grpPaidAt] using hover

/-- A payout, however it ends, never adds a penalty to a pool. -/
theorem executePayout_total (hmap : TypedAt MemberMap s.persistent (.grpMbrs g))
    (h : EndsIn (executePayout g) env s v) (j c : Nat) :
    v.persistent (.cycTotal j c) = s.persistent (.cycTotal j c) := by
  rcases h with ⟨x, h⟩ | ⟨e, h⟩
  · obtain ⟨grp, recipient, amount, u, config, l, hp, rfl⟩ := executePayout_ok.mp h
    obtain ⟨rfl, -⟩ := hp.valid.before hmap
    simp [paidState, settled, noted, locked]
  · rcases executePayout_err_marks hmap h with hagree | ⟨grp, recipient, amount, -, -, -, rfl⟩
    · exact hagree.persistent _ (by simp)
    · simp [noted, locked]

/-- The two notes. -/
theorem noted_notes (s : State) (g cycle c : Nat) (recipient : Address) (amount : Int)
    (timestamp : Nat) :
    (noted s g cycle recipient amount timestamp).persistent (.payout g c)
        = (if c = cycle then
            some (Codec.encode (PayoutRecord.mk recipient g cycle amount timestamp))
          else s.persistent (.payout g c)) ∧
      (noted s g cycle recipient amount timestamp).persistent (.payRecip g c)
        = if c = cycle then some (Codec.encode recipient) else s.persistent (.payRecip g c) := by
  constructor
  · simp [noted]
  · simp [noted]

/-- A payout that ends well pays its cycle. -/
theorem Paid.paysOut {config : TokenConfig} {l : Ledger}
    (hmap : TypedAt MemberMap s.persistent (.grpMbrs g))
    (hp : Paid env s g grp recipient amount u config l) :
    PaysOut s (paidState u g grp recipient amount env.timestamp l) g grp recipient amount := by
  obtain ⟨rfl, hactive, hseat, hunpaid, hfull, htotal, -⟩ := hp.valid.before hmap
  have htoken : tokenAt s g = some config := by
    simpa [locked, tokenAt] using hp.token
  refine ⟨hp.group, hactive, hseat, hunpaid, hfull, htotal, ⟨config, htoken, Or.inr hp.sent⟩,
    ⟨Codec.encode (PayoutRecord.mk recipient g grp.currentCycle amount env.timestamp),
      fun c => ?_⟩, fun c => ?_⟩
  · simpa [paidState, settled, locked] using
      (noted_notes (locked s g grp) g grp.currentCycle c recipient amount env.timestamp).1
  · simpa [paidState, settled, locked] using
      (noted_notes (locked s g grp) g grp.currentCycle c recipient amount env.timestamp).2

/-- **PAID OR NOT**: however the executor ends. -/
theorem executePayout_notes (hmap : TypedAt MemberMap s.persistent (.grpMbrs g))
    (h : EndsIn (executePayout g) env s v) :
    NotPaid s v g ∨ ∃ grp recipient amount, PaysOut s v g grp recipient amount := by
  rcases h with ⟨x, h⟩ | ⟨e, h⟩
  · obtain ⟨grp, recipient, amount, u, config, l, hp, rfl⟩ := executePayout_ok.mp h
    exact Or.inr ⟨grp, recipient, amount, hp.paysOut hmap⟩
  · rcases executePayout_err_marks hmap h with hagree | ⟨grp, recipient, amount, hgrp, hv, -, rfl⟩
    · -- it failed before the notes were written
      refine Or.inl ⟨hagree.ledger not_false, fun c => ?_, fun c => ?_⟩
      · exact hagree.persistent _ (by simp)
      · exact hagree.persistent _ (by simp)
    · -- it failed after them: noted, and nothing sent
      obtain ⟨-, hactive, hseat, hunpaid, hfull, htotal, config, hconfig⟩ := hv.before hmap
      refine Or.inr ⟨grp, recipient, amount, hgrp, hactive, hseat, hunpaid, hfull, htotal,
        ⟨config, hconfig, Or.inl rfl⟩,
        ⟨Codec.encode (PayoutRecord.mk recipient g grp.currentCycle amount env.timestamp),
          fun c => ?_⟩, fun c => ?_⟩
      · simpa [locked] using
          (noted_notes (locked s g grp) g grp.currentCycle c recipient amount env.timestamp).1
      · simpa [locked] using
          (noted_notes (locked s g grp) g grp.currentCycle c recipient amount env.timestamp).2

/-! ## The tick -/

/-- **THE TICK**: the stale copy, advanced, over whatever the payout left. -/
theorem tick_ok (h : tick g env s = .ok x t) :
    ∃ grp v, groupAt s g = some grp ∧ grp.isActive = true ∧ grp.isComplete = false ∧
      ((cycCountAt s g grp.currentCycle < grp.memberCount ∧ s = v) ∨
        (grp.memberCount ≤ cycCountAt s g grp.currentCycle ∧
          EndsIn (executePayout g) env s v)) ∧
      v.set (.grp g) (Codec.encode grp.advanced) = t := by
  rw [tick] at h
  simp only [getOr_bind_ok, failIf_bind_ok, now_bind_ok] at h
  obtain ⟨grp, hgrp, hact, h⟩ := h
  obtain ⟨passed, s₁, hpass, h₁⟩ := bind_ok.mp h
  obtain rfl := Within.eq_of_ok hpass
  simp only [failIf_bind_ok, getD_bind_ok] at h₁
  obtain ⟨-, -, h₂⟩ := h₁
  obtain ⟨⟨⟩, v, hpay, h₃⟩ := bind_ok.mp h₂
  simp only [Group.advanceCycle_bind_ok, put_bind_ok] at h₃
  obtain ⟨hcomp, -, h₄⟩ := h₃
  have ht := Within.eq_of_ok h₄
  -- the tick goes on only where the group is running and not complete
  refine ⟨grp, v, hgrp, ?_, hcomp, ?_, ht.symm⟩
  · cases hb : grp.isActive with
    | true => rfl
    | false => exact absurd (Or.inl hb) hact
  · rcases runIf_ok.mp hpay with ⟨hcount, hrun⟩ | ⟨hcount, rfl⟩
    · -- an error of the payout is swallowed, with the state it left
      obtain ⟨r, v', hatt, hpure⟩ := bind_ok.mp hrun
      obtain ⟨-, rfl⟩ := pure_ok.mp hpure
      refine Or.inr ⟨hcount, ?_⟩
      rcases attempt_ok.mp hatt with ⟨a, -, ha⟩ | ⟨e, -, he⟩
      · exact Or.inl ⟨a, ha⟩
      · exact Or.inr ⟨e, he⟩
    · exact Or.inl ⟨Nat.lt_of_not_le hcount, rfl⟩

end Executor

/-! ## A funded pair

    Two members, positions `0` and `1`, both paid into cycle `0`; the
    contract holds exactly what they paid. -/

/-- Group `1`: two of at most `maxMembers` members, `100` each, started. -/
def pairGroup (maxMembers : Nat) : Group :=
  { Group.fresh 1 ⟨1⟩ 100 1000 maxMembers 2 0 0 false 0 with
    memberCount := 2, started := true, startedAt := 10 }

/-- A token of which the contract holds `n`. -/
def heldToken (n : Nat) : Token contractAddress where
  decimals := 7
  balance a := if a = contractAddress then n else 0
  allowance _ := 0
  balance_nonneg a := by
    by_cases h : a = contractAddress
    · rw [if_pos h]
      exact Int.natCast_nonneg n
    · rw [if_neg h]
  allowance_own := Int.natCast_zero

/-- The members' five copies. -/
def pairMembers (s : State) : State :=
  ((((((s.set (.grpMbrs 1)
    (Codec.encode (((∅ : MemberMap).insert 0 ⟨1⟩).insert 1 ⟨2⟩ : MemberMap))).set
    (.mbrProf 1 ⟨1⟩) (Codec.encode (MemberProfile.mk ⟨1⟩ 1 0 0 false))).set
    (.mbrProf 1 ⟨2⟩) (Codec.encode (MemberProfile.mk ⟨2⟩ 1 1 0 false))).set
    (.mbrPElig 1 ⟨1⟩) (Codec.encode (U32.mk 0))).set
    (.mbrPElig 1 ⟨2⟩) (Codec.encode (U32.mk 1))).set
    (.grpPosIx 1 0) (Codec.encode (Address.mk 1))).set
    (.grpPosIx 1 1) (Codec.encode (Address.mk 2))

/-- The members' contributions to cycle `0`. -/
def pairContributions (s : State) : State :=
  ((((s.set (.contrib 1 0 ⟨1⟩)
    (Codec.encode (ContributionRecord.mk ⟨1⟩ 1 0 100 10))).set
    (.contrib 1 0 ⟨2⟩) (Codec.encode (ContributionRecord.mk ⟨2⟩ 1 0 100 10))).set
    (.cycTotal 1 0) (Codec.encode (I128.mk 200))).set
    (.cycCount 1 0) (Codec.encode (U32.mk 2))).set
    (.grpBal 1) (Codec.encode (I128.mk 200))

/-- The funded pair, `n` of the token in the contract's hands. -/
def pairState (maxMembers n : Nat) : State :=
  pairContributions (pairMembers
    (((((deployed fun tok => if tok = ⟨9⟩ then some (heldToken n) else none).set
      .cntNextG (Codec.encode (U64.mk 1))).set
      (.grp 1) (Codec.encode (pairGroup maxMembers))).set
      (.grpStat 1) (Codec.encode GroupStatus.active)).set
      (.grpTok 1) (Codec.encode (TokenConfig.mk ⟨9⟩ 7))))

/-- Nobody signs, time `20`. -/
def idleEnv : Env := .plain 20 [] (by decide)

example : ∃ t, executePayout 1 idleEnv (pairState 3 200) = .ok () t := ⟨_, rfl⟩

end SavePayout
