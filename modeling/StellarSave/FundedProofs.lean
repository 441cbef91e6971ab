import StellarSave.ExecutorProofs
import StellarSave.RosterProofs
import Mathlib

/-! # Funded cycles — when a complete cycle is really paid

    A running group whose members have ALL paid into the current cycle, with
    counters that say so.  Four things can still keep the executor from paying:
    the guard that an earlier call left taken, a cycle number beyond the seats
    of a group that is not full, a penalty pass that is switched on, and
    amounts the contract does not hold or cannot add up. -/

namespace SaveFunded

open HostProg Footprint TokenLedger SaveData SaveMembership SavePayout SaveRoster Seating

/-- A well-formed running group with sequential order whose current cycle is
    complete: everybody paid exactly the amount, and the counters agree with
    the records. -/
structure FundedCycle (s : State) (g : Nat) (grp : Group) (config : TokenConfig) : Prop where
  wellFormed : WellFormed s g
  group : groupAt s g = some grp
  own : grp.id = g
  amount_pos : 0 < grp.contributionAmount
  members : 2 ≤ grp.minMembers ∧ grp.minMembers ≤ grp.memberCount ∧
    grp.memberCount ≤ grp.maxMembers ∧ grp.maxMembers ≤ u32Max
  running : grp.started = true ∧ grp.status = .active ∧ grp.paused = false ∧
    grp.disputeActive = false ∧ grp.payoutInProgress = false
  order : grp.payoutOrder = .sequential
  cycle : grp.currentCycle < grp.maxMembers
  unpaid : s.persistent (.payRecip g grp.currentCycle) = none
  contributed : ∀ a ∈ (rosterAt s g).members, ∃ record,
    contribAt s g grp.currentCycle a = some record ∧ record.amount = grp.contributionAmount
  count : cycCountAt s g grp.currentCycle = (rosterAt s g).size
  total : cycTotalAt s g grp.currentCycle
    = ((rosterAt s g).members.map (paidIn s g grp.currentCycle)).sum
  total_fits : cycTotalAt s g grp.currentCycle < i128Bound
  paid : TypedAt I128 s.persistent (.grpPaid g) ∧ 0 ≤ grpPaidAt s g
  token : tokenAt s g = some config ∧ s.ledger config.tokenAddress ≠ none

/-- The pool of a cycle. -/
def pool (grp : Group) : Int := grp.contributionAmount * grp.memberCount

/-- The cycle is paid: the call goes through, one member is sent the whole
    pool, and the group moves on, or is completed after its last cycle. -/
def PaysCycle (env : Env) (s : State) (g : Nat) (grp : Group) (config : TokenConfig) : Prop :=
  ∃ t, executePayout g env s = .ok () t ∧
    (∃ recipient ∈ (rosterAt s g).members,
      Book.transfer s.ledger config.tokenAddress contractAddress recipient (pool grp)
        = some t.ledger) ∧
    ∃ grp', groupAt t g = some grp' ∧ grp'.currentCycle = grp.currentCycle + 1 ∧
      grp'.status = if grp.maxMembers ≤ grp.currentCycle + 1 then .completed else .active

/-- What it takes beyond a complete cycle. -/
structure Payable (s : State) (g : Nat) (grp : Group) (config : TokenConfig) : Prop where
  clear : GuardClear s
  seat : grp.currentCycle < grp.memberCount
  noPenalty : ¬ (grp.penaltyEnabled = true ∧ grp.penaltyAmount > 0)
  held : pool grp ≤ escrow s config.tokenAddress
  fits : grpPaidAt s g + pool grp < i128Bound

section Funded

variable {env : Env} {s t : State} {g : Nat} {grp : Group} {config : TokenConfig}

/-- The counters of a complete cycle are the pool and the member count. -/
theorem FundedCycle.counters (h : FundedCycle s g grp config) :
    cycTotalAt s g grp.currentCycle = pool grp ∧
      cycCountAt s g grp.currentCycle = grp.memberCount := by
  obtain ⟨grp', hgrp', hsize⟩ := h.wellFormed.count
  rw [h.group] at hgrp'
  obtain rfl := Option.some.inj hgrp'
  refine ⟨?_, by rw [h.count, hsize]⟩
  have hsame : (rosterAt s g).members.map (paidIn s g grp.currentCycle)
      = List.replicate (rosterAt s g).members.length grp.contributionAmount := by
    refine List.eq_replicate_iff.mpr ⟨List.length_map _, ?_⟩
    intro n hn
    obtain ⟨a, ha, rfl⟩ := List.mem_map.mp hn
    obtain ⟨record, hrecord, hamount⟩ := h.contributed a ha
    rw [paidIn_of_record hrecord]
    exact hamount
  rw [h.total, hsame, List.sum_replicate, length_members, ← hsize, pool, Int.nsmul_eq_mul,
    Int.mul_comm]

/-- Locking touches the guard and one record. -/
theorem locked_readAt {α : Type} [Codec Val α] {k : Key} (hk : k ≠ .grp g) :
    readAt α (locked s g grp).persistent k = readAt α s.persistent k := by
  simp [locked, hk]

/-- A running group has its roster stored, as a map. -/
theorem FundedCycle.roster (h : FundedCycle s g grp config) :
    TypedAt MemberMap (locked s g grp).persistent (.grpMbrs g) := by
  obtain ⟨grp', hgrp', hsize⟩ := h.wellFormed.count
  rw [h.group] at hgrp'
  obtain rfl := Option.some.inj hgrp'
  cases hm : membersAt s g with
  | some roster => exact typedAt_of_readAt ((locked_readAt (by simp)).trans hm)
  | none =>
      have hempty : rosterAt s g = ∅ := by
        rw [rosterAt, hm]
        rfl
      have hsize' : grp.memberCount = 0 := by
        rw [hsize, hempty]
        rfl
      have := h.members
      omega

/-- The advanced record of a running group. -/
theorem FundedCycle.advanced_status (h : FundedCycle s g grp config) :
    (marked grp).advanced.status
      = if grp.maxMembers ≤ grp.currentCycle + 1 then .completed else .active := by
  have hrunning : (marked grp).isComplete = false := by
    rw [Group.isComplete_eq_false]
    exact ⟨h.cycle, by rw [h.running.2.1]; decide⟩
  rw [Group.advanced_status hrunning, h.running.2.1]

/-- The member in the seat of the current cycle. -/
theorem FundedCycle.recipient (h : FundedCycle s g grp config)
    (hseat : grp.currentCycle < grp.memberCount) :
    ∃ a ∈ (rosterAt s g).members, posIxAt s g grp.currentCycle = some a ∧
      ∃ profile, profileAt s g a = some profile := by
  obtain ⟨grp', hgrp', hsize⟩ := h.wellFormed.count
  rw [h.group] at hgrp'
  obtain rfl := Option.some.inj hgrp'
  have hs := h.wellFormed.seated
  obtain ⟨a, ha⟩ := hs.full grp.currentCycle (by rw [length_members, ← hsize]; exact hseat)
  refine ⟨a, (hs.only a).mpr ⟨_, ha⟩, (hs.inverse a _).mp ha, ?_⟩
  obtain ⟨profile, hp, -⟩ := Option.map_eq_some_iff.mp ha
  exact ⟨profile, hp⟩

/-- Whoever the index names is a member. -/
theorem FundedCycle.indexed (h : FundedCycle s g grp config) {p : Nat} {a : Address}
    (ha : posIxAt s g p = some a) : a ∈ (rosterAt s g).members :=
  (h.wellFormed.seated.only a).mpr ⟨p, (h.wellFormed.seated.inverse a p).mpr ha⟩

theorem FundedCycle.pool_pos (h : FundedCycle s g grp config) : 0 < pool grp := by
  refine Int.mul_pos h.amount_pos ?_
  have := h.members
  omega

/-- A counter that is not at its default is stored, at its own type. -/
theorem FundedCycle.typed (h : FundedCycle s g grp config) :
    TypedAt I128 (locked s g grp).persistent (.cycTotal g grp.currentCycle) ∧
      TypedAt U32 (locked s g grp).persistent (.cycCount g grp.currentCycle) := by
  obtain ⟨htotal, hcount⟩ := h.counters
  have hpos := h.pool_pos
  have hmembers := h.members
  constructor
  · cases hr : readAt I128 s.persistent (.cycTotal g grp.currentCycle) with
    | none =>
        rw [cycTotalAt, hr] at htotal
        exact absurd htotal hpos.ne
    | some n => exact typedAt_of_readAt ((locked_readAt (by simp)).trans hr)
  · cases hr : readAt U32 s.persistent (.cycCount g grp.currentCycle) with
    | none =>
        rw [cycCountAt, hr] at hcount
        have : 0 = grp.memberCount := hcount
        omega
    | some n => exact typedAt_of_readAt ((locked_readAt (by simp)).trans hr)

/-- The checks pass for the member in the seat of the cycle. -/
theorem FundedCycle.validated (env : Env) (h : FundedCycle s g grp config)
    (hpay : Payable s g grp config)
    {a : Address} {profile : MemberProfile} (hindex : posIxAt s g grp.currentCycle = some a)
    (hprofile : profileAt s g a = some profile) :
    Validated env (locked s g grp) g (marked grp) a (pool grp) (locked s g grp) := by
  obtain ⟨htotal, hcount⟩ := h.counters
  obtain ⟨-, hactive, hpaused, hdispute, -⟩ := h.running
  have hmap := h.roster
  have hown : (marked grp).id = g := h.own
  have hmembers := h.members
  -- every check of the executor holds of a cycle everybody has paid into
  constructor
  case running => exact ⟨hpaused, hactive, hdispute⟩
  case unpaid => simpa [locked] using h.unpaid
  case amount_eq => rfl
  case amount_pos =>
    refine ⟨h.amount_pos, ?_⟩
    show grp.memberCount ≠ 0
    omega
  case amount_fits => exact htotal ▸ h.total_fits
  case typed =>
    rw [hown]
    exact h.typed
  case full =>
    rw [hown, cycCountAt, locked_readAt (by simp)]
    exact hcount.ge
  case total =>
    rw [hown, cycTotalAt, locked_readAt (by simp)]
    exact htotal
  case penalized => exact (penaltyPass_ok hmap).mpr ⟨hpay.noPenalty, rfl⟩
  case chosen =>
    refine (identifyRecipient_ok hmap).mpr ⟨h.order, ?_, hpay.seat, rfl⟩
    exact (locked_readAt (by simp)).trans hindex
  case member =>
    have hstored : s.persistent (.mbrProf g a) ≠ none := by
      rw [(readAt_eq_some _ _ _).mp hprofile]
      exact Option.some_ne_none _
    simpa [locked] using hstored
  case funded =>
    obtain ⟨tok, htok⟩ := Option.ne_none_iff_exists'.mp h.token.2
    refine ⟨config, tok.balance contractAddress, (locked_readAt (by simp)).trans h.token.1, ?_, ?_⟩
    · show (s.ledger config.tokenAddress).map _ = _
      rw [htok]
      rfl
    · have hheld := hpay.held
      rw [escrow, Book.holding, htok] at hheld
      exact hheld

/-- The books can be settled. -/
theorem FundedCycle.settles (h : FundedCycle s g grp config) (hpay : Payable s g grp config)
    {a : Address} {profile : MemberProfile} (hprofile : profileAt s g a = some profile) :
    CanSettle (locked s g grp) g (marked grp) a (pool grp) := by
  have hpos := h.pool_pos
  have hsmall : -i128Bound ≤ 0 := by decide
  obtain ⟨htyped, hnonneg⟩ := h.paid
  have hmembers := h.members
  have hcycle := h.cycle
  constructor
  case amount_pos => exact hpos
  case paid_typed => simpa [locked, typedAt_set_of_ne] using htyped
  case paid_fits =>
    have hfits := hpay.fits
    have hsame : grpPaidAt (locked s g grp) g = grpPaidAt s g := by
      rw [grpPaidAt, locked_readAt (by simp)]
    omega
  case profile => exact ⟨profile, (locked_readAt (by simp)).trans hprofile⟩
  case cycle =>
    refine ⟨?_, ?_⟩
    · rw [Group.isComplete_eq_false]
      exact ⟨h.cycle, by rw [h.running.2.1]; decide⟩
    · show grp.currentCycle + 1 ≤ u32Max
      omega

/-- **EXACTLY WHEN A COMPLETE CYCLE IS PAID**. -/
theorem funded_cycle_paid_iff (env : Env) (s : State) (g : Nat) (grp : Group)
    (config : TokenConfig) (h : FundedCycle s g grp config) :
    PaysCycle env s g grp config ↔ Payable s g grp config := by
  obtain ⟨htotal, hcount⟩ := h.counters
  have hmap := h.roster
  constructor
  -- what was paid passed the checks, the price and the seat among them
  · rintro ⟨t, hrun, -, -⟩
    obtain ⟨grp', recipient, amount, u, config', l, hp, rfl⟩ := executePayout_ok.mp hrun
    have hsame := hp.group
    rw [h.group] at hsame
    obtain rfl := Option.some.inj hsame
    obtain ⟨hpen, rfl⟩ := (penaltyPass_ok hmap).mp hp.valid.penalized
    obtain ⟨-, -, hseat, -⟩ := (identifyRecipient_ok hmap).mp hp.valid.chosen
    have hamount : amount = pool grp := hp.valid.amount_eq.symm
    subst hamount
    obtain ⟨config', n, hconfig, hbalance, hle⟩ := hp.valid.funded
    have hsame' : config' = config := by
      rw [tokenAt, locked_readAt (by simp)] at hconfig
      exact Option.some.inj (hconfig.symm.trans h.token.1)
    subst hsame'
    refine ⟨hp.clear, hseat, hpen, ?_, ?_⟩
    · exact hle.trans_eq (Book.holding_of_balanceOf hbalance).symm
    · have hfits := hp.settles.paid_fits.2
      rw [grpPaidAt, locked_readAt (by simp)] at hfits
      exact hfits
  -- and the other way: the transfer is covered, so nothing stops the payout
  · intro hpay
    obtain ⟨a, ha, hindex, profile, hprofile⟩ := h.recipient hpay.seat
    obtain ⟨tok, htok⟩ := Option.ne_none_iff_exists'.mp h.token.2
    have hheld : Book.holding s.ledger config.tokenAddress contractAddress
        = tok.balance contractAddress := by
      rw [Book.holding, htok]
    have hsome : (Book.transfer s.ledger config.tokenAddress contractAddress a
        (pool grp)).isSome :=
      Book.transfer_isSome_iff.mpr ⟨tok, htok, h.pool_pos.le, hheld ▸ hpay.held⟩
    obtain ⟨l, hl⟩ := Option.isSome_iff_exists.mp hsome
    have hvalid := h.validated env hpay hindex hprofile
    have hsettles := h.settles hpay hprofile
    have htoken : tokenAt (locked s g grp) g = some config :=
      (locked_readAt (by simp)).trans h.token.1
    refine ⟨_, executePayout_ok.mpr ⟨grp, a, pool grp, locked s g grp, config, l,
      ⟨hpay.clear, h.group, h.running.2.2.2.2, hvalid, hsettles, htoken, hl⟩, rfl⟩,
      ⟨a, ha, hl⟩, ?_⟩
    refine ⟨{ (marked grp).advanced with payoutInProgress := false }, ?_, ?_, ?_⟩
    · simp [paidState, groupAt]
    · exact Group.advanced_currentCycle _
    · exact h.advanced_status

end Funded

/-! Two members of a group for three, everybody paid into the cycle. -/

/-- The open group started with two of three members, in some cycle. -/
def startedGroup (cycle : Nat) : Group :=
  { Group.fresh 1 ⟨1⟩ 100 1000 3 2 0 0 false 0 with
    memberCount := 2, currentCycle := cycle, started := true, startedAt := 10 }

/-- One token, of which the contract holds `200`. -/
def heldLedger : Ledger := fun tok => if tok = ⟨9⟩ then some (heldToken 200) else none

/-- Both paid `100` into that cycle. -/
def fundedState (cycle : Nat) : State :=
  ((((((duoState.set (.grp 1) (Codec.encode (startedGroup cycle))).set
    (.grpTok 1) (Codec.encode (TokenConfig.mk ⟨9⟩ 7))).set
    (.contrib 1 cycle ⟨1⟩) (Codec.encode (ContributionRecord.mk ⟨1⟩ 1 cycle 100 10))).set
    (.contrib 1 cycle ⟨2⟩) (Codec.encode (ContributionRecord.mk ⟨2⟩ 1 cycle 100 10))).set
    (.cycTotal 1 cycle) (Codec.encode (I128.mk 200))).set
    (.cycCount 1 cycle) (Codec.encode (U32.mk 2))).setLedger heldLedger

theorem fundedState_wellFormed (cycle : Nat) : WellFormed (fundedState cycle) 1 := by
  refine duoState_wellFormed.congr rfl fun k _ hk => ?_
  rw [fundedState, HostState.setLedger_persistent]
  iterate 6 rw [persistent_set_of_mem hk (by simp [seatKinds])]

theorem fundedState_funded (cycle : Nat) (h : cycle < 3) :
    FundedCycle (fundedState cycle) 1 (startedGroup cycle) ⟨⟨9⟩, 7⟩ := by
  have hroster : (rosterAt (fundedState cycle) 1).members = [⟨1⟩, ⟨2⟩] := rfl
  have hfirst : contribAt (fundedState cycle) 1 cycle ⟨1⟩ = some ⟨⟨1⟩, 1, cycle, 100, 10⟩ := by
    simp [fundedState, contribAt]
  have hsecond : contribAt (fundedState cycle) 1 cycle ⟨2⟩ = some ⟨⟨2⟩, 1, cycle, 100, 10⟩ := by
    simp [fundedState, contribAt]
  have htotal : cycTotalAt (fundedState cycle) 1 cycle = 200 := by
    simp [fundedState, cycTotalAt]
  constructor
  case wellFormed => exact fundedState_wellFormed cycle
  case group => rfl
  case own => rfl
  case amount_pos => exact (by decide : (0 : Int) < 100)
  case members => exact (by decide : 2 ≤ 2 ∧ 2 ≤ 2 ∧ 2 ≤ 3 ∧ 3 ≤ u32Max)
  case running => exact ⟨rfl, rfl, rfl, rfl, rfl⟩
  case order => rfl
  case cycle => exact h
  case unpaid => rfl
  case contributed =>
    rw [hroster]
    intro a ha
    rcases List.mem_pair.mp ha with rfl | rfl
    · exact ⟨_, hfirst, rfl⟩
    · exact ⟨_, hsecond, rfl⟩
  case count =>
    show cycCountAt (fundedState cycle) 1 cycle = 2
    simp [fundedState, cycCountAt]
  case total =>
    rw [hroster]
    show cycTotalAt (fundedState cycle) 1 cycle
      = [paidIn (fundedState cycle) 1 cycle ⟨1⟩, paidIn (fundedState cycle) 1 cycle ⟨2⟩].sum
    rw [htotal, paidIn_of_record hfirst, paidIn_of_record hsecond]
    rfl
  case total_fits =>
    show cycTotalAt (fundedState cycle) 1 cycle < i128Bound
    rw [htotal]
    decide
  case paid => exact ⟨typedAt_of_none rfl, le_refl _⟩
  case token =>
    refine ⟨rfl, fun hn => ?_⟩
    cases hn

/-- **A COMPLETE CYCLE NOBODY IS PAID FOR**: in the third cycle of a group for
    three with two members, both have paid, and the executor traps on the type
    of the roster. -/
theorem third_cycle_not_paid :
    FundedCycle (fundedState 2) 1 (startedGroup 2) ⟨⟨9⟩, 7⟩ ∧
      executePayout 1 idleEnv (fundedState 2) = .mistyped ∧
      ¬ PaysCycle idleEnv (fundedState 2) 1 (startedGroup 2) ⟨⟨9⟩, 7⟩ := by
  have htrap : executePayout 1 idleEnv (fundedState 2) = .mistyped := rfl
  refine ⟨fundedState_funded 2 (by decide), htrap, ?_⟩
  rintro ⟨t, ht, -⟩
  rw [htrap] at ht
  cases ht

/-- The theorem in the first cycle, which is paid. -/
theorem funded_cycle_paid_iff_instance :
    PaysCycle idleEnv (fundedState 0) 1 (startedGroup 0) ⟨⟨9⟩, 7⟩ := by
  refine (funded_cycle_paid_iff idleEnv (fundedState 0) 1 (startedGroup 0) ⟨⟨9⟩, 7⟩
    (fundedState_funded 0 (by decide))).mpr ?_
  refine ⟨⟨typedAt_of_none rfl, rfl⟩, by decide, by decide, ?_, ?_⟩
  · exact (by decide : (200 : Int) ≤ 200)
  · exact (by decide : (0 : Int) + 200 < i128Bound)

end SaveFunded
