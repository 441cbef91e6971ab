import Mathlib
import StellarSave.FundedProofs
import StellarSave.LayoutProofs

/-! # Selection — who is to be paid, asked in three ways

    The executor asks the position index, or walks the roster for a position, a
    bid or a draw (`payout_executor.rs`); the published schedule asks for every
    member's position (`contract.rs`).  The walks read the roster as a vector and
    the schedule reads a position as a profile, and neither is what is stored:
    only the index ever names anybody. -/

namespace SaveSelection

open HostProg Footprint TokenLedger SaveData SaveMembership SavePayout SaveView SaveDeadline
open SaveLayout SaveCall SaveRoster SaveRotation SaveFunded Typing Trace Seating

variable {env : Env} {s t : State} {g cycle n : Nat} {grp : Group}

/-! ## Bids and draws -/

/-- A member's bid for a cycle, the latest one placed. -/
abbrev bidAt (s : State) (g c : Nat) (a : Address) : Int :=
  ((readAt I128 s.persistent (.grpBid g c a)).getD ⟨0⟩).val

/-- No cycle of the group was paid to the member. -/
def Unpaid (s : State) (g : Nat) (a : Address) : Prop := ∀ c, payRecipAt s g c ≠ some a

/-- Nobody unpaid bid more, and nobody in front of the member as much. -/
def HighestBid (s : State) (g cycle : Nat) (a : Address) : Prop :=
  ∃ before after, (rosterAt s g).members = before ++ a :: after ∧
    (∀ b ∈ before, Unpaid s g b → bidAt s g cycle b < bidAt s g cycle a) ∧
    ∀ b ∈ after, Unpaid s g b → bidAt s g cycle b ≤ bidAt s g cycle a

/-- The cycle is paid to a member who was not paid yet and, where there are bids,
    has placed the highest. -/
def PaysRightMember (env : Env) (s : State) (g : Nat) (grp : Group) : Prop :=
  ∃ t recipient, executePayout g env s = .ok () t ∧
    payRecipAt t g grp.currentCycle = some recipient ∧ Unpaid s g recipient ∧
    (grp.payoutOrder = .bid → HighestBid s g grp.currentCycle recipient)

/-- **NEITHER BIDS NOR DRAWS PAY ANYBODY**: the walk over the members asks for a
    vector where a map is stored. -/
theorem choice_never_pays (hroster : TypedAt MemberMap s.persistent (.grpMbrs g))
    (hgrp : groupAt s g = some grp) (horder : grp.payoutOrder = .bid ∨ grp.payoutOrder = .random) :
    ¬ PaysRightMember env s g grp := by
  rintro ⟨t, -, hrun, -⟩
  obtain ⟨grp', recipient, amount, u, config, l, hpaid, rfl⟩ := executePayout_ok.mp hrun
  obtain rfl := Option.some.inj (hgrp.symm.trans hpaid.group)
  have hmap : TypedAt MemberMap (locked s g grp).persistent (.grpMbrs g) := locked_roster hroster
  obtain ⟨-, rfl⟩ := (penaltyPass_ok hmap).mp hpaid.valid.penalized
  obtain ⟨hsequential, -⟩ := (identifyRecipient_ok hmap).mp hpaid.valid.chosen
  have hmarked : grp.payoutOrder = .sequential := hsequential
  rw [hmarked] at horder
  cases horder with
  | inl hbid => cases hbid
  | inr hrandom => cases hrandom

/-! ## The index and the walk -/

/-- An outcome, whatever it leaves behind. -/
def answer {α : Type} : Outcome State SaveError α → Outcome Unit SaveError α
  | .ok a _ => .ok a ()
  | .err e _ => .err e ()
  | .trap => .trap
  | .mistyped => .mistyped

/-- The position index of a group is deleted. -/
def unindexed (s : State) (g : Nat) : State :=
  { s with persistent := fun k =>
      match k with
      | .grpPosIx g' _ => if g' = g then none else s.persistent k
      | _ => s.persistent k }

/-- With the index and without it the same member is named, or the same failure. -/
def LookupsAgree (env : Env) (s : State) (g cycle n : Nat) : Prop :=
  answer (identifyRecipientSequential g cycle n env s)
    = answer (identifyRecipientSequential g cycle n env (unindexed s g))

/-- The walk names nobody: there is no roster, or it is not the vector asked for. -/
theorem scan_eq (hroster : TypedAt MemberMap s.persistent (.grpMbrs g)) :
    scanForPosition g cycle n env s
      = if s.persistent (.grpMbrs g) = none then .err .groupNotFound s else .mistyped := by
  rw [scanForPosition]
  cases hstored : s.persistent (.grpMbrs g) with
  | none =>
      rw [if_pos rfl]
      refine bind_of_err ?_
      rw [getOr]
      have habsent : readAt (List Address) s.persistent (.grpMbrs g) = none := by
        simp [readAt, hstored]
      exact bind_of_ok (getOpt_ok.mpr ⟨⟨typedAt_of_none hstored, habsent⟩, rfl⟩)
  | some v =>
      rw [if_neg (Option.some_ne_none v)]
      -- what is stored is a map from positions, and the walk asks for a vector
      obtain ⟨roster, rfl⟩ := hroster v hstored
      refine bind_of_mistyped (bind_of_mistyped ?_)
      rw [getOpt, fetch, hstored]
      rfl

/-- What the lookup makes of the index entry of a cycle. -/
theorem lookup_eq (hindex : TypedAt Address s.persistent (.grpPosIx g cycle)) :
    identifyRecipientSequential g cycle n env s
      = onOption (posIxAt s g cycle) (scanForPosition g cycle n) (fun recipient =>
          if cycle < n then pure recipient else scanForPosition g cycle n) env s := by
  rw [identifyRecipientSequential]
  exact bind_of_ok (getOpt_ok.mpr ⟨⟨hindex, rfl⟩, rfl⟩)

theorem lookups_agree_of_typed (hroster : TypedAt MemberMap s.persistent (.grpMbrs g))
    (hindex : TypedAt Address s.persistent (.grpPosIx g cycle)) :
    LookupsAgree env s g cycle n ↔ posIxAt s g cycle = none ∨ n ≤ cycle := by
  -- without its index entry the cycle is looked up by the scan
  have hnone : (unindexed s g).persistent (.grpPosIx g cycle) = none := if_pos rfl
  have hempty : posIxAt (unindexed s g) g cycle = none := by rw [posIxAt, readAt, hnone]; rfl
  have hwalk : answer (scanForPosition g cycle n env (unindexed s g))
      = answer (scanForPosition g cycle n env s) := by
    have hroster' : TypedAt MemberMap (unindexed s g).persistent (.grpMbrs g) := hroster
    rw [scan_eq hroster, scan_eq hroster']
    show answer (if s.persistent (.grpMbrs g) = none then _ else _) = _
    split <;> rfl
  rw [LookupsAgree, lookup_eq hindex, lookup_eq (typedAt_of_none hnone), hempty]
  -- an index entry that the scan would not find is the only difference
  cases hentry : posIxAt s g cycle with
  | none => exact iff_of_true hwalk.symm (Or.inl rfl)
  | some recipient =>
      by_cases hlt : cycle < n
      · refine iff_of_false ?_ ?_
        · -- the index names somebody, which the walk never does
          intro hagree
          have hnamed : answer (scanForPosition g cycle n env s) = .ok recipient () := by
            rw [← hwalk]
            refine hagree.symm.trans ?_
            show answer ((if cycle < n then pure recipient else scanForPosition g cycle n) env s) = _
            rw [if_pos hlt]
            rfl
          rw [scan_eq hroster] at hnamed
          split at hnamed
          · cases hnamed
          · cases hnamed
        · rintro (h | h)
          · cases h
          · omega
      · refine iff_of_true ?_ (Or.inr (Nat.le_of_not_lt hlt))
        show answer ((if cycle < n then pure recipient else scanForPosition g cycle n) env s) = _
        rw [if_neg hlt]
        exact hwalk.symm

/-- **WITHOUT THE INDEX NOBODY IS FOUND**: in every state that calls lead to from a
    well-typed storage, the lookup and the walk agree exactly on the cycles the
    index does not know, or that are beyond the members. -/
theorem lookups_agree_iff (hlaw : Obeys layout s) (steps : List Step) (env : Env) (g cycle n : Nat) :
    LookupsAgree env (run steps s) g cycle n ↔ posIxAt (run steps s) g cycle = none ∨ n ≤ cycle := by
  have hrun : Obeys layout (run steps s) :=
    exec_invariant_always (I := Obeys layout) obeys_apply hlaw steps
  exact lookups_agree_of_typed (typed_of_obeys hrun) (typed_of_obeys hrun)

/-! ## The schedule -/

/-- A step that moves nobody to another position. -/
def KeepsSeats (g : Nat) (x : Step) (s : State) : Prop :=
  rosterAt (apply x s) g = rosterAt s g ∧ eligAt (apply x s) g = eligAt s g ∧
    posIxAt (apply x s) g = posIxAt s g

/-- Every cycle is paid to whom the schedule names for it. -/
def Foretells (schedule : List PayoutScheduleEntry) (s : State) (g : Nat) : Prop :=
  ∀ steps, Along apply (KeepsSeats g) steps s → ∀ env t grp, groupAt (run steps s) g = some grp →
    executePayout g env (run steps s) = .ok () t → ∀ entry ∈ schedule, entry.cycle = grp.currentCycle →
      payRecipAt t g grp.currentCycle = some entry.recipient

/-- The schedule is given, lists every member once, each for another cycle and
    with its deadline, and it is what happens. -/
def Published (env : Env) (s : State) (g : Nat) (grp : Group) : Prop :=
  ∃ schedule, getPayoutSchedule g env s = .ok schedule s ∧
    (schedule.map PayoutScheduleEntry.recipient).Perm (rosterAt s g).members ∧
    (schedule.map PayoutScheduleEntry.cycle).Nodup ∧
    (∀ entry ∈ schedule, getCycleDeadline grp entry.cycle env s = .ok entry.payoutDate s) ∧
    Foretells schedule s g

/-- A stored position is not a profile. -/
theorem getPayoutPosition_ne_ok {a : Address} {position : U32} (h : eligAt s g a = some position)
    (p : Nat) (t : State) : getPayoutPosition g a env s ≠ .ok p t := by
  intro hrun
  rw [getPayoutPosition, getOr_bind_ok] at hrun
  obtain ⟨profile, hprofile, -⟩ := hrun
  have hposition := (readAt_eq_some _ _ _).mp h
  rw [readAt_eq_some, hposition] at hprofile
  cases hprofile

/-- **NO SCHEDULE IS EVER PUBLISHED** for a group with members: the position of the
    first of them is read as a whole profile. -/
theorem schedule_never_published (hwf : WellFormed s g) (hgrp : groupAt s g = some grp)
    (hmembers : 0 < grp.memberCount) : ¬ Published env s g grp := by
  rintro ⟨schedule, hrun, -⟩
  obtain ⟨grp', hgrp', hsize⟩ := hwf.count
  obtain rfl := Option.some.inj (hgrp.symm.trans hgrp')
  simp only [getPayoutSchedule, getGroup, getOr_bind_ok, failIf_bind_ok] at hrun
  obtain ⟨started, -, -, roster, hroster, hloop⟩ := hrun
  have hlength : roster.members.length = grp.memberCount := by
    rw [length_members, ← rosterAt_eq hroster, hsize]
  cases hlist : roster.members with
  | nil =>
      rw [hlist] at hlength
      have hzero : 0 = grp.memberCount := hlength
      omega
  | cons first rest =>
      have hfirst : first ∈ (rosterAt s g).members := by
        rw [rosterAt_eq hroster, hlist]
        exact List.mem_cons_self
      obtain ⟨position, hseat⟩ := (hwf.seated.only first).mp hfirst
      have hstored : eligAt s g first = some ⟨position⟩ := by
        rw [hwf.eligible, hseat]
        rfl
      -- the loop does not get past the first member
      rw [hlist, foldEach_cons, scheduleMember, bind_ok] at hloop
      obtain ⟨entries, u, hentry, -⟩ := hloop
      rw [bind_ok] at hentry
      obtain ⟨p, v, hposition, -⟩ := hentry
      exact getPayoutPosition_ne_ok hstored p v hposition

/-! ## Two members and everything paid in -/

/-- The same two members, but the highest bid is to be paid. -/
def biddingGroup : Group := { startedGroup 0 with payoutOrder := .bid }

def biddingState : State :=
  ((fundedState 0).set (.grp 1) (Codec.encode biddingGroup)).set (.grpBid 1 0 ⟨2⟩) (Codec.encode (I128.mk 50))

theorem biddingState_wellFormed : WellFormed biddingState 1 := by
  refine (fundedState_wellFormed 0).congr rfl fun k _ hk => ?_
  rw [biddingState]
  iterate 2 rw [persistent_set_of_mem hk (by simp [seatKinds])]

/-- **A BID IS NEVER HONOURED**: both members have paid and one has placed a bid,
    and the executor traps. -/
theorem highest_bid_not_paid :
    WellFormed biddingState 1 ∧ cycCountAt biddingState 1 0 = 2 ∧ cycTotalAt biddingState 1 0 = 200 ∧
      executePayout 1 idleEnv biddingState = .mistyped ∧
      ¬ PaysRightMember idleEnv biddingState 1 biddingGroup := by
  have htrap : executePayout 1 idleEnv biddingState = .mistyped := rfl
  refine ⟨biddingState_wellFormed, rfl, rfl, htrap, ?_⟩
  rintro ⟨t, -, hrun, -⟩
  rw [htrap] at hrun
  cases hrun

theorem choice_never_pays_instance :
    groupAt biddingState 1 = some biddingGroup ∧ ¬ PaysRightMember idleEnv biddingState 1 biddingGroup :=
  ⟨rfl, choice_never_pays (typedAt_of_readAt (a := ((∅ : MemberMap).insert 0 ⟨1⟩).insert 1 ⟨2⟩) rfl) rfl
    (Or.inl rfl)⟩

/-- Somebody joins the open group. -/
def firstJoin : List Step := [.call trioEnv (.joinGroup 1 ⟨1⟩ none)]

/-- **THE WALK FINDS NOBODY** where the index names the first member. -/
theorem first_seat_not_found :
    Obeys layout fundedOpen ∧ posIxAt (run firstJoin fundedOpen) 1 0 = some ⟨1⟩ ∧
      (groupAt (run firstJoin fundedOpen) 1).map Group.memberCount = some 1 ∧
      ¬ LookupsAgree trioEnv (run firstJoin fundedOpen) 1 0 1 := by
  have hindex : posIxAt (run firstJoin fundedOpen) 1 0 = some ⟨1⟩ := rfl
  have hlaw : Obeys layout (run firstJoin fundedOpen) :=
    exec_invariant_always (I := Obeys layout) obeys_apply fundedOpen_obeys firstJoin
  refine ⟨fundedOpen_obeys, hindex, rfl, ?_⟩
  rw [lookups_agree_of_typed (typed_of_obeys hlaw) (typed_of_obeys hlaw), hindex]
  rintro (h | h)
  · cases h
  · omega

/-- The cycle of nobody's position. -/
theorem lookups_agree_iff_empty_seat :
    LookupsAgree trioEnv (run firstJoin fundedOpen) 1 2 3 :=
  (lookups_agree_iff fundedOpen_obeys firstJoin trioEnv 1 2 3).mpr (Or.inl rfl)

/-- **THE SCHEDULE OF A STARTED GROUP**: two members in their positions, and the
    view traps. -/
theorem started_schedule_not_published :
    WellFormed (fundedState 0) 1 ∧ getPayoutSchedule 1 idleEnv (fundedState 0) = .mistyped ∧
      ¬ Published idleEnv (fundedState 0) 1 (startedGroup 0) := by
  have htrap : getPayoutSchedule 1 idleEnv (fundedState 0) = .mistyped := rfl
  refine ⟨fundedState_wellFormed 0, htrap, ?_⟩
  rintro ⟨schedule, hrun, -⟩
  rw [htrap] at hrun
  cases hrun

theorem schedule_never_published_instance :
    ¬ Published idleEnv (fundedState 0) 1 (startedGroup 0) :=
  schedule_never_published (fundedState_wellFormed 0) rfl (by decide)

end SaveSelection
