import StellarSave.LayoutProofs
import StellarSave.BalanceProofs
import StellarSave.BallotProofs
import StellarSave.CreatorProofs

/-! # Reading payouts — six answers to one question

    Who has been paid, and how much, is answered six times over: from the
    member's own slot, from the payout records, from a scan of the recipients,
    from the roster, from a running total and, by `get_group_statistics`, from
    `current_cycle × contribution_amount × max_members`, whatever was paid.

    The six agree along every run whose steps are REGULAR: cycles end with a
    payout to a full group and not otherwise, the terms stand once the first
    payout is made, and seats are handed out once each. -/

namespace SaveReading

open HostProg Footprint TokenLedger SaveData SavePayout SaveRefund SaveMembership SaveLifecycle
open SaveAdmin SaveCall SaveStatus SaveStanding SaveRoster SaveRecord SaveMerge SaveCreator
open SaveDissolution SaveBalance SaveView SaveBallot SaveLayout Seating Tally Trace Typing
open SaveRotation (fundedOpen fundedOpen_registry)

/-- The record of a cycle's payout. -/
abbrev payoutAt (s : State) (g c : Nat) : Option PayoutRecord :=
  readAt PayoutRecord s.persistent (.payout g c)

/-- Some cycle's payout went to the member. -/
def Named (s : State) (g : Nat) (a : Address) : Prop := ∃ c, payRecipAt s g c = some a

/-! ## What each reader answers -/

section Answers

variable {env : Env} {s : State} {g : Nat} {grp : SaveData.Group} {a : Address}

/-- `has_received_payout` looks at the one cycle that is the member's own turn. -/
theorem hasReceivedPayout_eq (hs : Obeys layout s) (hgrp : groupAt s g = some grp) :
    hasReceivedPayout g a env s = .ok (paidInTurn s g a) s := by
  have hexists : s.persistent (.grp g) ≠ none := stored_of_read hgrp
  rw [hasReceivedPayout, getOpt_bind_ok, onOption_ok]
  refine ⟨typed_of_obeys hs, ?_⟩
  rw [paidInTurn]
  cases helig : eligAt s g a with
  | none =>
      refine Or.inl ⟨helig, ?_⟩
      simp [hexists]
  | some p =>
      refine Or.inr ⟨p, helig, ?_⟩
      rw [getOpt_bind_ok]
      exact ⟨typed_of_obeys hs, rfl⟩

/-- The first record that names the member. -/
def firstRecord (s : State) (g : Nat) (a : Address) (cycles : List Nat) : Option PayoutRecord :=
  cycles.findSome? fun c => (payoutAt s g c).filter fun record => decide (record.recipient = a)

/-- The scan from any point on, by induction along the cycles left. -/
theorem firstRecord_loop (hs : Obeys layout s) {found : Option PayoutRecord} {cycles : List Nat} :
    foldEach (fun (found : Option PayoutRecord) cycle =>
      onOption found
        (do
          let record : Option PayoutRecord ← getOpt (.payout g cycle)
          pure (record.filter fun record => decide (record.recipient = a)))
        fun record => (pure (some record) : SaveM _)) found cycles env s
      = .ok (found.or (firstRecord s g a cycles)) s := by
  induction cycles generalizing found with
  | nil =>
      cases found with
      | none => rfl
      | some record => rfl
  | cons c cycles ih =>
      rw [foldEach_cons, bind_ok]
      cases found with
      -- once a record is found the later cycles are not read
      | some record => exact ⟨some record, s, rfl, ih⟩
      | none =>
          -- none yet: this cycle's record is the one if it is the member's own
          refine ⟨(payoutAt s g c).filter fun record => decide (record.recipient = a), s, ?_, ?_⟩
          · rw [onOption_ok]
            refine Or.inl ⟨rfl, ?_⟩
            rw [getOpt_bind_ok]
            exact ⟨typed_of_obeys hs, rfl⟩
          · rw [ih, firstRecord, firstRecord, List.findSome?_cons, Option.none_or]
            cases (payoutAt s g c).filter fun record => decide (record.recipient = a) with
            | none => rfl
            | some record => rfl

/-- A record is found among the first cycles exactly if one of them paid the member. -/
theorem firstRecord_isSome {n : Nat} :
    (firstRecord s g a (List.range n)).isSome = true ↔
      ∃ c < n, ∃ record, payoutAt s g c = some record ∧ record.recipient = a := by
  rw [firstRecord, List.findSome?_isSome_iff]
  simp [Option.any_eq_true]

/-- `get_member_payout` goes through the cycles up to the current one for the first record
    of the member. -/
theorem getMemberPayout_eq (hs : Obeys layout s) (hgrp : groupAt s g = some grp)
    (hmem : s.persistent (.mbrProf g a) ≠ none) :
    getMemberPayout g a env s
      = .ok (firstRecord s g a (List.range (grp.currentCycle + 1))) s := by
  rw [getMemberPayout, getGroup]
  simp only [getOr_bind_ok, has_bind_ok, failIf_bind_ok]
  refine ⟨grp, hgrp, by simpa using hmem, ?_⟩
  exact firstRecord_loop hs

/-- A flag that is only ever raised is raised by one of the rounds. -/
theorem foldl_or {f : Nat → Bool} {b : Bool} {xs : List Nat} :
    xs.foldl (fun b x => b || f x) b = (b || xs.any f) := by
  induction xs generalizing b with
  | nil => simp
  | cons x xs ih => rw [List.foldl_cons, ih, List.any_cons, Bool.or_assoc]

/-- The statistics of a member raise the flag for any cycle whose recipient it is. -/
theorem getMemberStatistics_eq (env : Env) (hs : Obeys layout s) (hgrp : groupAt s g = some grp)
    (hmem : s.persistent (.mbrProf g a) ≠ none) :
    ∃ stats, getMemberStatistics g a env s = .ok stats s ∧
      stats.receivedPayout
        = (List.range (grp.currentCycle + 1)).any fun c => decide (payRecipAt s g c = some a) := by
  -- the two sums are read by a loop of their own; only the flag matters here
  obtain ⟨paid, hpaid⟩ : ∃ paid, paid = (List.range grp.currentCycle).foldl
      (fun (paid : Nat × Int) cycle => (contribAt s g cycle a).elim paid fun record =>
        (paid.1 + 1, saturatingI128 (paid.2 + record.amount))) (0, 0) := ⟨_, rfl⟩
  have hreceived : foldEach (fun (received : Bool) cycle =>
      if received = true then (pure true : SaveM Bool) else do
        let recipient : Option Address ← getOpt (.payRecip g cycle)
        pure (decide (recipient = some a))) false (List.range (grp.currentCycle + 1)) env s
        = .ok ((List.range (grp.currentCycle + 1)).any
          fun c => decide (payRecipAt s g c = some a)) s := by
    rw [foldEach_of_value (f := fun received c => received || decide (payRecipAt s g c = some a)),
      foldl_or, Bool.false_or]
    intro received cycle
    cases received with
    | true => rfl
    -- as long as the flag is down the recipient of the cycle is read
    | false =>
        rw [if_neg Bool.false_ne_true, getOpt_bind_ok]
        exact ⟨typed_of_obeys hs, rfl⟩
  refine ⟨⟨paid.1, paid.2, if grp.currentCycle > 0 then paid.1 * 100 / grp.currentCycle else 100,
    _⟩, ?_, rfl⟩
  rw [getMemberStatistics, getGroup]
  simp only [getOr_bind_ok, has_bind_ok, failIf_bind_ok]
  refine ⟨grp, hgrp, by simpa using hmem, ?_⟩
  refine bind_ok.mpr ⟨paid, s, ?_, bind_ok.mpr ⟨_, s, hreceived, rfl⟩⟩
  rw [hpaid]
  -- the loop of the sums ends well whatever it adds up
  refine foldEach_of_value (fun paid cycle => ?_) _ _
  rw [getOpt_bind_ok]
  refine ⟨typed_of_obeys hs, ?_⟩
  unfold contribAt
  cases readAt ContributionRecord s.persistent (.contrib g cycle a) with
  | none => rfl
  | some record => rfl

/-- `get_total_paid_out` is the second counter of the group. -/
theorem getTotalPaidOut_eq (hs : Obeys layout s) (hgrp : groupAt s g = some grp) :
    getTotalPaidOut g env s = .ok (grpPaidAt s g) s := by
  have hexists : s.persistent (.grp g) ≠ none := stored_of_read hgrp
  rw [getTotalPaidOut]
  simp only [has_bind_ok, failIf_bind_ok, getD_bind_ok]
  exact ⟨by simpa using hexists, typed_of_obeys hs, rfl⟩

/-- The records of the cycles gone by. -/
def history (s : State) (g n : Nat) : List PayoutRecord :=
  (List.range n).flatMap fun c => (payoutAt s g c).toList

/-- The records in the order of the cycles, those without one left out. -/
theorem payoutRecords_eq (hs : Obeys layout s) (n : Nat) :
    payoutRecords g n env s = .ok (history s g n) s := by
  rw [payoutRecords, foldEach_of_value (f := fun records c => records ++ (payoutAt s g c).toList)]
  · rw [history, List.flatMap_eq_foldl]
  · intro records c
    rw [getOpt_bind_ok]
    exact ⟨typed_of_obeys hs, rfl⟩

/-- `get_payout_history` is a page of these records. -/
theorem getPayoutHistory_eq (hs : Obeys layout s) (hgrp : groupAt s g = some grp)
    {offset limit : Nat} (hfits : offset + limit ≤ u32Max) :
    getPayoutHistory g offset limit env s
      = .ok (page (history s g grp.currentCycle) offset limit) s := by
  rw [getPayoutHistory, getGroup]
  simp only [getOr_bind_ok, okOr_bind_ok]
  refine ⟨grp, hgrp, offset + limit, ?_, ?_⟩
  · rw [checkedU32, if_pos hfits]
  · rw [bind_of_ok (payoutRecords_eq hs _)]
    rfl

/-- The pages, end to end. -/
theorem pages_append {α : Type} (xs : List α) (limit n : Nat) :
    (List.range n).flatMap (fun k => page xs (k * limit) limit) = xs.take (n * limit) := by
  induction n with
  | zero => rw [Nat.zero_mul, List.take_zero, List.range_zero, List.flatMap_nil]
  | succ n ih =>
      rw [List.range_succ, List.flatMap_append, ih, List.flatMap_singleton, page, Nat.succ_mul,
        List.take_add]

/-- A checked sum that does not overflow is the sum. -/
theorem checked_of_fits {n : Int} (h : checkedI128 n ≠ none) : checkedI128 n = some n := by
  rw [checkedI128] at h ⊢
  by_cases hfits : -i128Bound ≤ n ∧ n < i128Bound
  · rw [if_pos hfits]
  · rw [if_neg hfits] at h
    exact absurd rfl h

/-- The pool of a full group. -/
abbrev pool (grp : SaveData.Group) : Int := grp.contributionAmount * grp.maxMembers

/-- `get_group_statistics` never looks at a payout. -/
theorem getGroupStatistics_eq (hs : Obeys layout s) (hgrp : groupAt s g = some grp)
    (hscaled : grp.currentCycle * 100 ≤ u32Max) (hpool : checkedI128 (pool grp) ≠ none)
    (htotal : checkedI128 (grp.currentCycle * pool grp) ≠ none) :
    ∃ stats, getGroupStatistics g env s = .ok stats s ∧
      stats.totalDistributed = grp.currentCycle * pool grp := by
  obtain ⟨contributions, hcontributions⟩ : ∃ n, foldEach (fun (total : Int) cycle => (do
      let cycleTotal : I128 ← getD (.cycTotal g cycle) ⟨0⟩
      pure (saturatingI128 (total + cycleTotal.val)) : SaveM Int)) 0 (List.range grp.currentCycle)
        env s = .ok n s := by
    refine ⟨_, foldEach_of_value (f := fun total cycle =>
      saturatingI128 (total + cycTotalAt s g cycle)) ?_ _ _⟩
    intro total cycle
    rw [getD_bind_ok]
    exact ⟨typed_of_obeys hs, rfl⟩
  let stats (rate : Nat) : GroupStatistics := ⟨rate, contributions, grp.currentCycle * pool grp,
    grp.memberCount, saturatingI128 (contributions - grp.currentCycle * pool grp)⟩
  have hstats : ∀ rate, (do
      let pool ← okOr (checkedI128 (grp.contributionAmount * grp.maxMembers)) .overflow
      let distributed ← okOr (checkedI128 (grp.currentCycle * pool)) .overflow
      pure ⟨rate, contributions, distributed, grp.memberCount,
        saturatingI128 (contributions - distributed)⟩ : SaveM GroupStatistics) env s
      = .ok (stats rate) s := by
    intro rate
    rw [okOr_bind_ok]
    refine ⟨pool grp, checked_of_fits hpool, ?_⟩
    rw [okOr_bind_ok]
    exact ⟨_, checked_of_fits htotal, rfl⟩
  rw [getGroupStatistics, getGroup]
  simp only [getOr_bind_ok]
  -- the rate is worked out first, if anybody can join
  by_cases hmax : grp.maxMembers > 0
  · refine ⟨stats (grp.currentCycle * 100 / grp.maxMembers), ⟨grp, hgrp, ?_⟩, rfl⟩
    rw [if_pos hmax, checkedU32, if_pos hscaled]
    exact bind_ok.mpr ⟨_, s, rfl, bind_ok.mpr ⟨_, s, rfl,
      bind_ok.mpr ⟨_, s, hcontributions, hstats _⟩⟩⟩
  · refine ⟨stats 0, ⟨grp, hgrp, ?_⟩, rfl⟩
    rw [if_neg hmax]
    exact bind_ok.mpr ⟨_, s, rfl, bind_ok.mpr ⟨_, s, hcontributions, hstats _⟩⟩

/-- The seat the queue has in mind: the member's own, as long as its slot is not
    paid. -/
def openSeat (s : State) (g : Nat) (a : Address) : Option Nat :=
  (eligAt s g a).bind fun p => if (s.persistent (.payRecip g p.val)).isSome then none else some p.val

/-- One round of the queue puts the member into the slot of its open seat. -/
theorem queueMember_eq (hs : Obeys layout s) {n : Nat} {slots : List (Option Address)}
    (hlen : slots.length = n) :
    queueMember g n slots a env s = .ok (place (openSeat s g) slots a) s := by
  rw [queueMember, getOpt_bind_ok, onOption_ok]
  refine ⟨typed_of_obeys hs, ?_⟩
  rw [place, openSeat]
  cases helig : eligAt s g a with
  | none => exact Or.inl ⟨helig, rfl⟩
  | some p =>
      refine Or.inr ⟨p, helig, ?_⟩
      rw [has_bind_ok]
      cases hpaid : (s.persistent (.payRecip g p.val)).isSome with
      | true => simp [hpaid]
      | false =>
          by_cases hlt : p.val < n
          · simp [hpaid, hlt]
          · simp [hpaid, hlt, List.set_eq_of_length_le (Nat.le_of_not_lt (hlen ▸ hlt))]

/-- `get_payout_queue` lists the members with an open seat, slot by slot. -/
theorem getPayoutQueue_eq (hs : Obeys layout s) (hgrp : groupAt s g = some grp)
    (hroster : membersAt s g ≠ none) :
    getPayoutQueue g env s
      = .ok (queue (openSeat s g) grp.maxMembers (rosterAt s g).members) s := by
  have hloop : ∀ (xs : List Address) (slots : List (Option Address)),
      slots.length = grp.maxMembers →
        foldEach (queueMember g grp.maxMembers) slots xs env s
          = .ok (xs.foldl (place (openSeat s g)) slots) s := by
    intro xs
    induction xs with
    | nil => exact fun slots _ => rfl
    | cons x xs ih =>
        intro slots hlen
        rw [foldEach_cons, bind_of_ok (queueMember_eq hs hlen)]
        exact ih _ (by rw [length_place, hlen])
  obtain ⟨roster, hroster⟩ := Option.ne_none_iff_exists'.mp hroster
  rw [getPayoutQueue, getGroup]
  simp only [getOr_bind_ok]
  refine ⟨grp, hgrp, roster, hroster, ?_⟩
  rw [bind_of_ok (hloop roster.members _ List.length_replicate), rosterAt_eq hroster]
  rfl

end Answers

/-! ## Books in step -/

/-- **IN STEP**: everybody with a seat has one of its own, on the roster; a slot
    is paid exactly to whoever sits in it; every cycle gone by has its payout, of
    the pool of a full group, and no other has one. -/
structure InStep (s : State) (g : Nat) (grp : SaveData.Group) : Prop where
  gathering : grp.status = .pending → grp.currentCycle = 0
  seated : ∀ a p, seatOf s g a = some p → eligAt s g a = some ⟨p⟩
  alone : ∀ a b p, eligAt s g a = some p → eligAt s g b = some p → a = b
  below : ∀ a p, eligAt s g a = some p → p.val < grp.maxMembers
  listed : ∀ a, eligAt s g a ≠ none → a ∈ (rosterAt s g).members
  left : ∀ a p, eligAt s g a = some p → seatOf s g a ≠ none ∨ payRecipAt s g p.val = some a
  slots : ∀ a b p, eligAt s g a = some p → payRecipAt s g p.val = some b → b = a
  named : ∀ a c, payRecipAt s g c = some a → eligAt s g a ≠ none → eligAt s g a = some ⟨c⟩
  past : ∀ c < grp.currentCycle, ∃ a time, payRecipAt s g c = some a ∧
    payoutAt s g c = some ⟨a, g, c, pool grp, time⟩
  ahead : ∀ c, grp.currentCycle ≤ c →
    s.persistent (.payRecip g c) = none ∧ s.persistent (.payout g c) = none
  total : grpPaidAt s g = grp.currentCycle * pool grp
  fits : -i128Bound ≤ grpPaidAt s g ∧ grpPaidAt s g < i128Bound

/-- What a page holds adds up to. -/
def amounts (records : List PayoutRecord) : Int := (records.map PayoutRecord.amount).sum

/-- **THE READERS AGREE**.  Pages are asked for by `u32` bounds, and the
    statistics have to fit their types. -/
structure ReadsAgree (env : Env) (s : State) (g : Nat) (grp : SaveData.Group) : Prop where
  member : ∀ a, s.persistent (.mbrProf g a) ≠ none → ∃ received record stats,
    hasReceivedPayout g a env s = .ok received s ∧
      getMemberPayout g a env s = .ok record s ∧
      getMemberStatistics g a env s = .ok stats s ∧
      (received = true ↔ Named s g a) ∧ (record.isSome = true ↔ Named s g a) ∧
      (stats.receivedPayout = true ↔ Named s g a)
  queue : membersAt s g ≠ none → ∃ q, getPayoutQueue g env s = .ok q s ∧
    (∀ a, a ∈ q ↔ s.persistent (.mbrProf g a) ≠ none ∧ ¬ Named s g a) ∧
    q.Pairwise fun a b => ∃ p p', seatOf s g a = some p ∧ seatOf s g b = some p' ∧ p < p'
  rosterless : membersAt s g = none → ∀ a, s.persistent (.mbrProf g a) = none
  totals : ∃ paid, getTotalPaidOut g env s = .ok paid s ∧
    (∀ limit n, grp.currentCycle ≤ n * limit → n * limit ≤ u32Max →
      ∃ pages : Nat → List PayoutRecord,
        (∀ k < n, getPayoutHistory g (k * limit) limit env s = .ok (pages k) s) ∧
          amounts ((List.range n).flatMap pages) = paid) ∧
    (grp.currentCycle * 100 ≤ u32Max → checkedI128 (pool grp) ≠ none →
      ∃ stats, getGroupStatistics g env s = .ok stats s ∧ stats.totalDistributed = paid)

section Agreement

variable {env : Env} {s : State} {g : Nat} {grp : SaveData.Group} {a : Address}

/-- In a lawful state the members are those with a seat. -/
theorem member_iff_seat (hs : Obeys layout s) :
    s.persistent (.mbrProf g a) ≠ none ↔ ∃ p, seatOf s g a = some p := by
  constructor
  · intro hne
    cases hread : profileAt s g a with
    | none => exact absurd ((readAt_eq_none (typed_of_obeys hs)).mp hread) hne
    | some profile => exact ⟨_, seatOf_of_profile hread⟩
  · rintro ⟨p, hp⟩ hnone
    rw [seatOf_none hnone] at hp
    cases hp

/-- Only cycles gone by have a recipient. -/
theorem InStep.paid_lt (h : InStep s g grp) {c : Nat} (hc : payRecipAt s g c = some a) :
    c < grp.currentCycle := by
  by_contra hle
  exact stored_of_read hc (h.ahead c (Nat.le_of_not_lt hle)).1

/-- A member is named exactly if the slot of its own seat is. -/
theorem InStep.named_iff (h : InStep s g grp) {p : Nat} (hseat : seatOf s g a = some p) :
    Named s g a ↔ payRecipAt s g p = some a := by
  have helig := h.seated a p hseat
  constructor
  · rintro ⟨c, hc⟩
    have hown := h.named a c hc (by rw [helig]; simp)
    rw [helig] at hown
    obtain rfl : p = c := congrArg U32.val (Option.some.inj hown)
    exact hc
  · exact fun hp => ⟨p, hp⟩

/-- The scan of the records finds one exactly for whoever was a recipient. -/
theorem InStep.record_iff (h : InStep s g grp) :
    (∃ c < grp.currentCycle + 1, ∃ record, payoutAt s g c = some record ∧ record.recipient = a) ↔
      Named s g a := by
  constructor
  · rintro ⟨c, -, record, hrecord, rfl⟩
    have hlt : c < grp.currentCycle := by
      by_contra hle
      exact stored_of_read hrecord (h.ahead c (Nat.le_of_not_lt hle)).2
    obtain ⟨b, time, hb, hpaid⟩ := h.past c hlt
    rw [hpaid] at hrecord
    obtain rfl := Option.some.inj hrecord
    exact ⟨c, hb⟩
  · rintro ⟨c, hc⟩
    have hlt := h.paid_lt hc
    obtain ⟨b, time, hb, hpaid⟩ := h.past c hlt
    rw [hc] at hb
    obtain rfl := Option.some.inj hb
    exact ⟨c, Nat.lt_succ_of_lt hlt, _, hpaid, rfl⟩

/-- The scan of the recipients finds the same. -/
theorem InStep.scan_iff (h : InStep s g grp) :
    ((List.range (grp.currentCycle + 1)).any fun c => decide (payRecipAt s g c = some a)) = true ↔
      Named s g a := by
  rw [List.any_eq_true]
  constructor
  · rintro ⟨c, -, hc⟩
    exact ⟨c, of_decide_eq_true hc⟩
  · rintro ⟨c, hc⟩
    exact ⟨c, List.mem_range.mpr (Nat.lt_succ_of_lt (h.paid_lt hc)), decide_eq_true hc⟩

/-- A seat is open if its cycle has no recipient yet. -/
theorem openSeat_eq_some {p : Nat} :
    openSeat s g a = some p ↔
      eligAt s g a = some ⟨p⟩ ∧ s.persistent (.payRecip g p) = none := by
  rw [openSeat, Option.bind_eq_some_iff]
  constructor
  · rintro ⟨q, hq, hopen⟩
    cases hpaid : s.persistent (.payRecip g q.val) with
    | none =>
        rw [hpaid] at hopen
        obtain rfl : q.val = p := by simpa using hopen
        exact ⟨hq, hpaid⟩
    | some v =>
        rw [hpaid] at hopen
        cases hopen
  · rintro ⟨helig, hfree⟩
    exact ⟨⟨p⟩, helig, by rw [hfree]; rfl⟩

/-- No two members wait for one slot. -/
theorem InStep.openSeat_alone (h : InStep s g grp) (a b : Address) (p : Nat)
    (ha : openSeat s g a = some p) (hb : openSeat s g b = some p) : a = b :=
  h.alone a b ⟨p⟩ (openSeat_eq_some.mp ha).1 (openSeat_eq_some.mp hb).1

/-- Whoever has an open seat is a member who has not been paid. -/
theorem InStep.openSeat_iff (h : InStep s g grp) (hs : Obeys layout s) {p : Nat} :
    openSeat s g a = some p ↔ seatOf s g a = some p ∧ ¬ Named s g a := by
  rw [openSeat_eq_some]
  constructor
  · rintro ⟨helig, hfree⟩
    have hunpaid : payRecipAt s g p ≠ some a := fun he => stored_of_read he hfree
    have hseat : seatOf s g a = some p := by
      rcases h.left a ⟨p⟩ helig with hne | hpaid
      · obtain ⟨q, hq⟩ := Option.ne_none_iff_exists'.mp hne
        have hown := h.seated a q hq
        rw [helig] at hown
        obtain rfl : p = q := congrArg U32.val (Option.some.inj hown)
        exact hq
      · exact absurd hpaid hunpaid
    exact ⟨hseat, fun hnamed => hunpaid ((h.named_iff hseat).mp hnamed)⟩
  · rintro ⟨hseat, hunpaid⟩
    have helig := h.seated a p hseat
    refine ⟨helig, ?_⟩
    cases hread : payRecipAt s g p with
    | none => exact (readAt_eq_none (typed_of_obeys hs)).mp hread
    | some b =>
        rw [h.slots a b ⟨p⟩ helig hread] at hread
        exact absurd ⟨p, hread⟩ hunpaid

/-- In the queue are exactly the members who were not paid yet. -/
theorem InStep.mem_queue_iff (h : InStep s g grp) (hs : Obeys layout s) :
    a ∈ queue (openSeat s g) grp.maxMembers (rosterAt s g).members ↔
      s.persistent (.mbrProf g a) ≠ none ∧ ¬ Named s g a := by
  rw [mem_queue h.openSeat_alone]
  constructor
  · rintro ⟨-, p, -, hp⟩
    obtain ⟨hseat, hunpaid⟩ := (h.openSeat_iff hs).mp hp
    exact ⟨(member_iff_seat hs).mpr ⟨p, hseat⟩, hunpaid⟩
  · rintro ⟨hmem, hunpaid⟩
    obtain ⟨p, hseat⟩ := (member_iff_seat hs).mp hmem
    have helig := h.seated a p hseat
    exact ⟨h.listed a (by rw [helig]; simp), p, h.below a ⟨p⟩ helig,
      (h.openSeat_iff hs).mpr ⟨hseat, hunpaid⟩⟩

/-- The history of the cycles gone by: one record each. -/
theorem InStep.history_sum (h : InStep s g grp) :
    (history s g grp.currentCycle).length = grp.currentCycle ∧
      amounts (history s g grp.currentCycle) = grp.currentCycle * pool grp := by
  have hprefix : ∀ n, n ≤ grp.currentCycle →
      (history s g n).length = n ∧ amounts (history s g n) = n * pool grp := by
    intro n
    induction n with
    | zero => simp [history, amounts]
    | succ n ih =>
        intro hle
        obtain ⟨hlen, hsum⟩ := ih (by omega)
        obtain ⟨a, time, -, hpaid⟩ := h.past n (by omega)
        have hsucc : history s g (n + 1) = history s g n ++ [⟨a, g, n, pool grp, time⟩] := by
          rw [history, List.range_succ, List.flatMap_append, List.flatMap_singleton, hpaid]
          rfl
        rw [hsucc, List.length_append, hlen]
        refine ⟨rfl, ?_⟩
        rw [amounts, List.map_append, List.sum_append, ← amounts, hsum]
        push_cast
        simp [Int.add_mul]
  exact hprefix _ (Nat.le_refl _)

/-- **AGREEMENT**: books in step are read the same way by everybody. -/
theorem InStep.readsAgree (h : InStep s g grp) (hs : Obeys layout s)
    (hgrp : groupAt s g = some grp) : ReadsAgree env s g grp where
  -- the three readings of a member come down to being somebody's recipient
  member a hmem := by
    obtain ⟨p, hseat⟩ := (member_iff_seat hs).mp hmem
    obtain ⟨stats, hstats, hreceived⟩ := getMemberStatistics_eq env hs hgrp hmem
    refine ⟨_, _, stats, hasReceivedPayout_eq hs hgrp, getMemberPayout_eq hs hgrp hmem, hstats,
      ?_, ?_, ?_⟩
    · rw [paidInTurn, h.seated a p hseat, h.named_iff hseat]
      exact decide_eq_true_iff
    · rw [firstRecord_isSome]
      exact h.record_iff
    · rw [hreceived]
      exact h.scan_iff
  -- the queue is in the order of the slots
  queue hroster := by
    refine ⟨_, getPayoutQueue_eq hs hgrp hroster, fun a => h.mem_queue_iff hs, ?_⟩
    refine (queue_sorted h.openSeat_alone).imp ?_
    rintro a b ⟨p, q, ha, hb, hlt⟩
    exact ⟨p, q, ((h.openSeat_iff hs).mp ha).1, ((h.openSeat_iff hs).mp hb).1, hlt⟩
  -- without a roster nobody has a seat, so nobody is a member
  rosterless hnone a := by
    by_contra hmem
    obtain ⟨p, hseat⟩ := (member_iff_seat hs).mp hmem
    have hlisted := h.listed a (by rw [h.seated a p hseat]; simp)
    rw [show rosterAt s g = ∅ from congrArg (Option.getD · ∅) hnone] at hlisted
    obtain ⟨k, hk⟩ := mem_members.mp hlisted
    simp at hk
  totals := by
    obtain ⟨hlen, hsum⟩ := h.history_sum
    refine ⟨_, getTotalPaidOut_eq hs hgrp, ?_, ?_⟩
    -- the pages are cut from the history, whose amounts add up to the counter
    · intro limit n hcover hfits
      refine ⟨fun k => page (history s g grp.currentCycle) (k * limit) limit, ?_, ?_⟩
      · intro k hk
        refine getPayoutHistory_eq hs hgrp ?_
        calc k * limit + limit = (k + 1) * limit := (Nat.succ_mul k limit).symm
          _ ≤ n * limit := Nat.mul_le_mul_right limit hk
          _ ≤ u32Max := hfits
      · rw [pages_append, List.take_of_length_le (by rw [hlen]; exact hcover), hsum, h.total]
    · intro hscaled hpool
      rw [h.total]
      refine getGroupStatistics_eq hs hgrp hscaled hpool ?_
      rw [← h.total, checkedI128, if_pos h.fits]
      exact Option.some_ne_none _

end Agreement

/-! ## Regular steps -/

/-- The group is full, and the member the index names for the running cycle sits
    in that slot. -/
def PaysInTurn (s : State) (g : Nat) (grp : SaveData.Group) : Prop :=
  grp.memberCount = grp.maxMembers ∧
    ∀ a, posIxAt s g grp.currentCycle = some a → eligAt s g a = some ⟨grp.currentCycle⟩

/-- The positions an assignment hands out are distinct and have slots. -/
def Distinct (s : State) (g n : Nat) : AssignmentMode → Prop
  | .manual positions => positions.Nodup ∧ ∀ p ∈ positions, p < n
  | _ => (rosterAt s g).size ≤ n

/-- **REGULAR**: when a call on the group, whose record is `grp`, leaves the
    readers in agreement. -/
def Regular (env : Env) (s : State) (g : Nat) (grp : SaveData.Group) : Call → Prop
  | .joinGroup g' m _ => g' = g → ∀ a, a ≠ m → eligAt s g a ≠ none →
      eligAt s g a ≠ some ⟨grp.memberCount⟩ ∧
        a ∈ MemberMap.members ((rosterAt s g).insert grp.memberCount m)
  | .removeMember g' m => g' = g → ∀ p, seatOf s g m = some p →
      ∀ a, a ≠ m → eligAt s g a ≠ none → a ∈ MemberMap.members ((rosterAt s g).erase p)
  | .assignPayoutPositions g' _ mode => g' = g →
      grp.currentCycle = 0 ∧ Distinct s g grp.maxMembers mode
  | .emergencyWithdraw g' m => g' = g → Named s g m
  | .updateGroup g' n _ m => g' = g → (grp.currentCycle = 0 ∨ n * m = pool grp) ∧
      ∀ a p, eligAt s g a = some p → p.val < m
  | .voteContributionChange g' _ => g' = g → grp.memberCount < 2 * (tallyAt s g + 1) →
      ∀ n, pendingAt s g = some n → grp.currentCycle = 0 ∨ n.val * grp.maxMembers = pool grp
  | .tryAdvanceCycle g' => g' = g → getCurrentCycle grp env.timestamp ≤ grp.currentCycle
  | .executePayout g' => g' = g → PaysInTurn s g grp
  | .tick g' => g' = g → PaysInTurn s g grp ∧
      grp.memberCount ≤ cycCountAt s g grp.currentCycle ∧ Succeeds (executePayout g) env s
  | _ => True

/-- A merge that makes the group has a slot for everybody. -/
def MergeFits (s : State) (g : Nat) : Call → Prop
  | .mergeGroups g₁ g₂ => g = lastId s + 1 → ∀ grp₁ grp₂, groupAt s g₁ = some grp₁ →
      groupAt s g₂ = some grp₂ → (mergedRoster s g₁ g₂).size ≤ grp₁.maxMembers + grp₂.maxMembers
  | _ => True

/-- Nothing that the readers look at is stored under the id. -/
structure Unstored (s : State) (g : Nat) : Prop where
  seats : ∀ a, seatOf s g a = none
  eligible : ∀ a, eligAt s g a = none
  recipients : ∀ c, s.persistent (.payRecip g c) = none
  payouts : ∀ c, s.persistent (.payout g c) = none
  paid : grpPaidAt s g = 0

/-- What the readers look at, beside the record, is as it was. -/
structure Unmoved (s t : State) (g : Nat) : Prop where
  roster : rosterAt t g = rosterAt s g
  seats : ∀ a, seatOf t g a = seatOf s g a
  eligible : ∀ a, eligAt t g a = eligAt s g a
  recipients : ∀ c, t.persistent (.payRecip g c) = s.persistent (.payRecip g c)
  payouts : ∀ c, t.persistent (.payout g c) = s.persistent (.payout g c)
  paid : grpPaidAt t g = grpPaidAt s g

/-- The calls that do move something of it. -/
def Moving (s : State) (g : Nat) : Call → Prop
  | .joinGroup g' _ _ | .removeMember g' _ | .assignPayoutPositions g' _ _
  | .emergencyWithdraw g' _ | .executePayout g' | .tick g' => g' = g
  | .mergeGroups _ _ => g = lastId s + 1
  | _ => False

/-- The entries the readers look at, profiles and the total apart. -/
def readKinds : List Kind := [.grpMbrs, .mbrPElig, .payRecip, .payout]

section Moves

variable {env : Env} {s t : State} {g : Nat} {grp grp' : SaveData.Group} {c : Call}

/-- A call that writes none of what the readings look at moves nothing of them. -/
theorem Unmoved.of_frame
    (h : ∀ k : Key, k.group = g → k.kind ∈ readKinds → t.persistent k = s.persistent k)
    (hseats : ∀ a, seatOf t g a = seatOf s g a) (hpaid : grpPaidAt t g = grpPaidAt s g) :
    Unmoved s t g where
  roster := congrArg (Option.getD · ∅) (readAt_congr (h (.grpMbrs g) rfl (by simp [readKinds])))
  seats := hseats
  eligible a := readAt_congr (h (.mbrPElig g a) rfl (by simp [readKinds]))
  recipients c := h (.payRecip g c) rfl (by simp [readKinds])
  payouts c := h (.payout g c) rfl (by simp [readKinds])
  paid := hpaid

/-- The seat is in the profile. -/
theorem seatOf_congr {a : Address} (h : t.persistent (.mbrProf g a) = s.persistent (.mbrProf g a)) :
    seatOf t g a = seatOf s g a := congrArg (Option.map _) (readAt_congr h)

/-- The second counter is one entry. -/
theorem grpPaidAt_congr (h : t.persistent (.grpPaid g) = s.persistent (.grpPaid g)) :
    grpPaidAt t g = grpPaidAt s g :=
  congrArg (fun o : Option I128 => (o.getD ⟨0⟩).val) (readAt_congr h)

/-- The same, for a call that leaves the profiles alone altogether. -/
theorem Unmoved.of_same
    (h : ∀ k : Key, k.group = g → k.kind ∈ Kind.mbrProf :: .grpPaid :: readKinds →
      t.persistent k = s.persistent k) : Unmoved s t g :=
  Unmoved.of_frame
    (fun k hg hk => h k hg (List.mem_cons_of_mem _ (List.mem_cons_of_mem _ hk)))
    (fun a => seatOf_congr (h (.mbrProf g a) rfl (by simp)))
    (grpPaidAt_congr (h (.grpPaid g) rfl (by simp)))

/-- A group of which nothing is stored stays one. -/
theorem Unmoved.unstored (h : Unmoved s t g) (hs : Unstored s g) : Unstored t g where
  seats a := (h.seats a).trans (hs.seats a)
  eligible a := (h.eligible a).trans (hs.eligible a)
  recipients c := (h.recipients c).trans (hs.recipients c)
  payouts c := (h.payouts c).trans (hs.payouts c)
  paid := h.paid.trans hs.paid

/-- **NOTHING MOVES** under any other call. -/
theorem unmoved_step (h : c.body env s = .ok () t) (hc : ¬ Moving s g c) : Unmoved s t g := by
  have hagree := Within.agree_ok (w := c.footprint) h
  cases c with
  -- these four write a profile, but not the seat in it, or nothing of a group
  | enableAutoContribute g' m =>
      refine Unmoved.of_frame (fun k hg hk => hagree.persistent k ?_)
        (fun a => autoContribute_seat (Or.inl h)) (grpPaidAt_congr (hagree.persistent _ (by simp)))
      exact Place.not_covered (Place.spares_of_kinds rfl) k hg hk
  | disableAutoContribute g' m =>
      refine Unmoved.of_frame (fun k hg hk => hagree.persistent k ?_)
        (fun a => autoContribute_seat (Or.inr h)) (grpPaidAt_congr (hagree.persistent _ (by simp)))
      exact Place.not_covered (Place.spares_of_kinds rfl) k hg hk
  | updateConfig config =>
      refine Unmoved.of_frame (fun k hg hk => hagree.persistent k ?_)
        (fun a => seatOf_congr (hagree.persistent _ (by simp))) (updateConfig_counters h).paid
      exact Place.not_covered (Place.spares_of_kinds rfl) k hg hk
  | migrateStorage caller =>
      refine Unmoved.of_frame (fun k hg hk => hagree.persistent k ?_)
        (fun a => seatOf_congr (hagree.persistent _ (by simp))) (migrateStorage_counters h).paid
      exact Place.not_covered (Place.spares_of_kinds rfl) k hg hk
  -- a merge writes to its own groups, which this one is not
  | mergeGroups g₁ g₂ =>
      obtain ⟨n, hn⟩ := quietly_ok.mp h
      refine Unmoved.of_same fun k hg hk => mergeGroups_frame hn k (hg ▸ hc) ⟨?_, ?_⟩
      · intro he
        simp [he, readKinds] at hk
      · intro he
        simp [he, readKinds] at hk
  -- the calls that move a group are excluded by the hypothesis
  | joinGroup g' m referrer | removeMember g' m | assignPayoutPositions g' m mode
  | emergencyWithdraw g' m | executePayout g' | tick g' =>
      refine Unmoved.of_same fun k hg hk => hagree.persistent k ?_
      exact Place.not_covered (by simp [Place.Spares, readKinds, show g' ≠ g from hc]) k hg hk
  | _ =>
      refine Unmoved.of_same fun k hg hk => hagree.persistent k ?_
      exact Place.not_covered (Place.spares_of_kinds rfl) k hg hk

/-- The books stay in step while nothing moves; the record may change, its cycle
    not, nor its pool once a cycle is paid. -/
theorem InStep.congr (h : InStep s g grp) (hu : Unmoved s t g)
    (hcycle : grp'.currentCycle = grp.currentCycle)
    (hpool : grp.currentCycle = 0 ∨ pool grp' = pool grp)
    (hmax : ∀ a p, eligAt s g a = some p → p.val < grp'.maxMembers)
    (hstatus : grp'.status = .pending → grp.status = .pending) : InStep t g grp' := by
  have hrecip : ∀ c, payRecipAt t g c = payRecipAt s g c := fun c => readAt_congr (hu.recipients c)
  have hpayout : ∀ c, payoutAt t g c = payoutAt s g c := fun c => readAt_congr (hu.payouts c)
  -- one field after the other: each reads keys that were not moved
  constructor
  · intro hpending
    rw [hcycle]
    exact h.gathering (hstatus hpending)
  · intro a p
    rw [hu.seats, hu.eligible]
    exact h.seated a p
  · intro a b p
    rw [hu.eligible, hu.eligible]
    exact h.alone a b p
  · intro a p
    rw [hu.eligible]
    exact hmax a p
  · intro a
    rw [hu.eligible, hu.roster]
    exact h.listed a
  · intro a p
    rw [hu.eligible, hu.seats, hrecip]
    exact h.left a p
  · intro a b p
    rw [hu.eligible, hrecip]
    exact h.slots a b p
  · intro a c
    rw [hu.eligible, hrecip]
    exact h.named a c
  · intro c hc
    rw [hcycle] at hc
    rw [hrecip, hpayout, hpool.resolve_left (by omega)]
    exact h.past c hc
  · intro c hc
    rw [hcycle] at hc
    rw [hu.recipients, hu.payouts]
    exact h.ahead c hc
  -- before the first payout the pool may change, since nothing was paid from it
  · rw [hu.paid, h.total, hcycle]
    rcases hpool with hzero | hsame
    · simp [hzero]
    · rw [hsame]
  · rw [hu.paid]
    exact h.fits

/-- Nobody has been paid yet. -/
structure Unpaid (s : State) (g : Nat) : Prop where
  recipients : ∀ c, s.persistent (.payRecip g c) = none
  payouts : ∀ c, s.persistent (.payout g c) = none
  paid : grpPaidAt s g = 0

/-- Before the first payout only the seats matter. -/
theorem Unpaid.inStep (h : Unpaid s g) (hcycle : grp.currentCycle = 0)
    (hseated : ∀ a p, seatOf s g a = some p → eligAt s g a = some ⟨p⟩)
    (halone : ∀ a b p, eligAt s g a = some p → eligAt s g b = some p → a = b)
    (hbelow : ∀ a p, eligAt s g a = some p → p.val < grp.maxMembers)
    (hlisted : ∀ a, eligAt s g a ≠ none → a ∈ (rosterAt s g).members)
    (hhere : ∀ a, eligAt s g a ≠ none → seatOf s g a ≠ none) : InStep s g grp := by
  have hrecip : ∀ c, payRecipAt s g c = none := by
    intro c
    exact (readAt_eq_none (typedAt_of_none (h.recipients c))).mpr (h.recipients c)
  -- with nothing paid, all that is said of payouts holds of nobody
  refine ⟨fun _ => hcycle, hseated, halone, hbelow, hlisted, ?_, ?_, ?_, ?_, ?_, ?_, ?_⟩
  · intro a p hp
    exact Or.inl (hhere a (by rw [hp]; simp))
  · intro a b p _ hpaid
    rw [hrecip] at hpaid
    cases hpaid
  · intro a c hpaid
    rw [hrecip] at hpaid
    cases hpaid
  · intro c hc
    omega
  · exact fun c _ => ⟨h.recipients c, h.payouts c⟩
  · rw [h.paid, hcycle]
    simp
  · rw [h.paid]
    decide

/-- Books before the first payout. -/
theorem InStep.unpaid (h : InStep s g grp) (hcycle : grp.currentCycle = 0) : Unpaid s g where
  recipients c := (h.ahead c (by omega)).1
  payouts c := (h.ahead c (by omega)).2
  paid := by
    rw [h.total, hcycle]
    simp

/-- Then everybody with a seat is there. -/
theorem InStep.here (h : InStep s g grp) (hcycle : grp.currentCycle = 0) {a : Address}
    (ha : eligAt s g a ≠ none) : seatOf s g a ≠ none := by
  obtain ⟨p, hp⟩ := Option.ne_none_iff_exists'.mp ha
  rcases h.left a p hp with hhere | hpaid
  · exact hhere
  · exact absurd (h.paid_lt hpaid) (by omega)

/-- Books that have just been opened. -/
theorem Unstored.inStep (h : Unstored s g) (hcycle : grp.currentCycle = 0) : InStep s g grp := by
  refine Unpaid.inStep ⟨h.recipients, h.payouts, h.paid⟩ hcycle ?_ ?_ ?_ ?_ ?_
  · intro a p hp
    rw [h.seats] at hp
    cases hp
  · intro a b p hp
    rw [h.eligible] at hp
    cases hp
  · intro a p hp
    rw [h.eligible] at hp
    cases hp
  · exact fun a ha => absurd (h.eligible a) ha
  · exact fun a ha => absurd (h.eligible a) ha

/-- What the record may become while nothing moves. -/
theorem quiet_rewrite (hs : InStep s g grp) (hr : Rewrites g grp c grp') (hc : ¬ Moving s g c)
    (hvote : ∀ a, c ≠ .voteContributionChange g a) (hadvance : c ≠ .tryAdvanceCycle g)
    (hregular : Regular env s g grp c) :
    grp'.currentCycle = grp.currentCycle ∧ (grp.currentCycle = 0 ∨ pool grp' = pool grp) ∧
      ∀ a p, eligAt s g a = some p → p.val < grp'.maxMembers := by
  cases hr with
  | update n d m => exact ⟨rfl, (hregular rfl).1, (hregular rfl).2⟩
  | amount a n => exact absurd rfl (hvote a)
  | advance => exact absurd rfl hadvance
  | payout | tick | join | remove => exact absurd rfl hc
  | _ => exact ⟨rfl, Or.inr rfl, hs.below⟩

/-- **NO MEMBER COMES OR GOES, NOBODY IS PAID**. -/
theorem quiet_step (hreg : Registry s) (hopen : lastId s < g → Unstored s g)
    (hs : ∀ grp, groupAt s g = some grp → InStep s g grp ∧ Regular env s g grp c)
    (hc : ¬ Moving s g c) (h : c.body env s = .ok () t) (hgrp' : groupAt t g = some grp') :
    InStep t g grp' := by
  have hu := unmoved_step h hc
  -- a vote may carry and an advance may be due: those two say what they write
  by_cases hvote : ∃ a, c = .voteContributionChange g a
  · obtain ⟨a, rfl⟩ := hvote
    obtain ⟨grp, amount, hcan, hend⟩ := voteContributionChange_ok.mp h
    obtain ⟨hin, hregular⟩ := hs grp hcan.group
    rcases hend with ⟨hcarries, -, rfl⟩ | ⟨-, rfl⟩
    · obtain rfl : { grp with contributionAmount := amount } = grp' := by
        simpa [changed, groupAt] using hgrp'
      exact hin.congr hu rfl (hregular rfl hcarries ⟨amount⟩ hcan.pending) hin.below id
    · obtain rfl : grp = grp' := by
        have hsame : groupAt (tallied s g a) g = groupAt s g := by simp [tallied, groupAt]
        rw [hsame, hcan.group] at hgrp'
        exact Option.some.inj hgrp'
      exact hin.congr hu rfl (Or.inr rfl) hin.below id
  by_cases hadvance : c = .tryAdvanceCycle g
  · subst hadvance
    obtain ⟨b, hb⟩ := quietly_ok.mp h
    obtain ⟨grp, hgrp, -, -, -, hend⟩ := tryAdvanceCycle_ok hb
    obtain ⟨hin, hregular⟩ := hs grp hgrp
    rcases hend with ⟨-, rfl⟩ | ⟨hlate, -⟩
    · obtain rfl : grp = grp' := Option.some.inj (hgrp.symm.trans hgrp')
      exact hin
    · exact absurd (hregular rfl) (Nat.not_le_of_lt hlate)
  rcases record_rewritten hreg h g grp' hgrp' with ⟨grp, hgrp, rfl | hr⟩ | ⟨rfl, hborn⟩
  · obtain ⟨hin, -⟩ := hs _ hgrp
    exact hin.congr hu rfl (Or.inr rfl) hin.below id
  · obtain ⟨hin, hregular⟩ := hs grp hgrp
    obtain ⟨hcycle, hpool, hmax⟩ := quiet_rewrite hin hr hc (fun a he => hvote ⟨a, he⟩) hadvance
      hregular
    exact hin.congr hu hcycle hpool hmax (rewrites_pending hr)
  · obtain ⟨_, _, _, _, _, _, _, _, _, rfl⟩ := hborn
    exact (hu.unstored (hopen (Nat.lt_succ_self _))).inStep rfl

/-- So does a group without any payout. -/
theorem Unpaid.congr (h : Unpaid s g)
    (hsame : ∀ k : Key, k.kind ∈ [Kind.payRecip, .payout, .grpPaid] →
      t.persistent k = s.persistent k) : Unpaid t g where
  recipients c := (hsame _ (by simp)).trans (h.recipients c)
  payouts c := (hsame _ (by simp)).trans (h.payouts c)
  paid := (grpPaidAt_congr (hsame _ (by simp))).trans h.paid

/-- **JOINING**: a pending group has paid nobody. -/
theorem join_inStep {m : Address} {referrer : Option Address} (hs : InStep s g grp)
    (hgrp : groupAt s g = some grp) (hregular : Regular env s g grp (.joinGroup g m referrer))
    (h : joinGroup g m referrer env s = .ok () t) (hgrp' : groupAt t g = some grp') :
    InStep t g grp' := by
  have hagree := Within.agree_ok (w := Call.footprint (.joinGroup g m referrer)) h
  obtain ⟨grp₀, hopen, rfl⟩ := joinGroup_ok h
  obtain rfl := Option.some.inj (hgrp.symm.trans hopen.group)
  obtain ⟨hgrp₁, hroster, hprofile, helig, -⟩ := joined_views (s := s) (g := g) m grp env.timestamp
    referrer
  obtain rfl := Option.some.inj (hgrp₁.symm.trans hgrp')
  have hcycle := hs.gathering hopen.pending
  have hseat : ∀ a, seatOf (joined s g grp m env.timestamp referrer) g a
      = if a = m then some grp.memberCount else seatOf s g a := by
    intro a
    rw [seatOf, hprofile]
    by_cases ha : a = m
    · rw [if_pos ha, if_pos ha]
      rfl
    · rw [if_neg ha, if_neg ha]
      rfl
  -- the roster has no seat beyond its count: the newcomer's number is free
  have hfree := hregular rfl
  refine Unpaid.inStep ((hs.unpaid hcycle).congr fun k hk => hagree.persistent k ?_) hcycle
    ?_ ?_ ?_ ?_ ?_
  · exact Place.not_covered (g := k.group) (Place.spares_of_kinds rfl) k rfl hk
  -- seats are those of before, and the newcomer's
  · intro a p
    rw [hseat, helig]
    by_cases ha : a = m
    · rw [if_pos ha, if_pos ha]
      rintro ⟨⟩
      rfl
    · rw [if_neg ha, if_neg ha]
      exact hs.seated a p
  -- two on one seat would have the newcomer on a seat that was taken
  · intro a b p
    rw [helig, helig]
    by_cases ha : a = m
    · by_cases hb : b = m
      · exact fun _ _ => ha.trans hb.symm
      · rw [if_pos ha, if_neg hb]
        rintro ⟨⟩ hp
        exact absurd hp (hfree b hb (by rw [hp]; simp)).1
    · by_cases hb : b = m
      · rw [if_neg ha, if_pos hb]
        rintro hp ⟨⟩
        exact absurd hp (hfree a ha (by rw [hp]; simp)).1
      · rw [if_neg ha, if_neg hb]
        exact hs.alone a b p
  · intro a p
    rw [helig]
    by_cases ha : a = m
    · rw [if_pos ha]
      rintro ⟨⟩
      exact hopen.room
    · rw [if_neg ha]
      exact hs.below a p
  · intro a
    rw [helig, hroster]
    by_cases ha : a = m
    · intro _
      rw [ha]
      exact mem_members.mpr ⟨grp.memberCount, by simp⟩
    · rw [if_neg ha]
      exact fun hne => (hfree a ha hne).2
  · intro a
    rw [helig, hseat]
    by_cases ha : a = m
    · rw [if_pos ha, if_pos ha]
      simp
    · rw [if_neg ha, if_neg ha]
      exact hs.here hcycle

/-- Seats may go, as long as nobody is paid meanwhile. -/
theorem InStep.fewer (h : InStep s g grp)
    (hframe : ∀ k : Key, k.kind ∈ [Kind.payRecip, .payout, .grpPaid] →
      t.persistent k = s.persistent k)
    (hcycle : grp'.currentCycle = grp.currentCycle) (hpool : pool grp' = pool grp)
    (hmax : grp'.maxMembers = grp.maxMembers) (hstatus : grp'.status = grp.status)
    (hkept : ∀ a p, eligAt t g a = some p → eligAt s g a = some p)
    (hseated : ∀ a p, seatOf t g a = some p → eligAt t g a = some ⟨p⟩)
    (hlisted : ∀ a, eligAt t g a ≠ none → a ∈ (rosterAt t g).members)
    (hleft : ∀ a p, eligAt t g a = some p → seatOf t g a ≠ none ∨ payRecipAt s g p.val = some a) :
    InStep t g grp' := by
  have hrecip : ∀ c, payRecipAt t g c = payRecipAt s g c := fun c => readAt_congr (hframe _ (by simp))
  have hpayout : ∀ c, payoutAt t g c = payoutAt s g c := fun c => readAt_congr (hframe _ (by simp))
  have hpaid : grpPaidAt t g = grpPaidAt s g := grpPaidAt_congr (hframe _ (by simp))
  -- seats that are left are seats that were there
  constructor
  · intro hpending
    rw [hcycle]
    exact h.gathering (hstatus ▸ hpending)
  · exact hseated
  · intro a b p ha hb
    exact h.alone a b p (hkept a p ha) (hkept b p hb)
  · intro a p hp
    rw [hmax]
    exact h.below a p (hkept a p hp)
  · exact hlisted
  · intro a p hp
    rw [hrecip]
    exact hleft a p hp
  · intro a b p hp
    rw [hrecip]
    exact h.slots a b p (hkept a p hp)
  · intro a c hc ha
    obtain ⟨p, hp⟩ := Option.ne_none_iff_exists'.mp ha
    have hold := hkept a p hp
    rw [hrecip] at hc
    rw [hp, ← hold]
    exact h.named a c hc (by rw [hold]; simp)
  · intro c hc
    rw [hcycle] at hc
    rw [hrecip, hpayout, hpool]
    exact h.past c hc
  · intro c hc
    rw [hcycle] at hc
    rw [hframe _ (by simp), hframe _ (by simp)]
    exact h.ahead c hc
  · rw [hpaid, hcycle, hpool]
    exact h.total
  · rw [hpaid]
    exact h.fits

/-- **REMOVING**: one seat fewer. -/
theorem remove_inStep {m : Address} (hs : InStep s g grp) (hgrp : groupAt s g = some grp)
    (hregular : Regular env s g grp (.removeMember g m))
    (h : removeMember g m env s = .ok () t) (hgrp' : groupAt t g = some grp') :
    InStep t g grp' := by
  have hagree := Within.agree_ok (w := Call.footprint (.removeMember g m)) h
  obtain ⟨grp₀, profile, hopen, rfl⟩ := removeMember_ok h
  obtain rfl := Option.some.inj (hgrp.symm.trans hopen.group)
  obtain ⟨hgrp₁, hroster, hprofile, helig, -⟩ := removed_views (s := s) (g := g) m grp
    profile.payoutPosition
  obtain rfl := Option.some.inj (hgrp₁.symm.trans hgrp')
  -- whoever is eligible afterwards was so before, and is not the one removed
  have hstays : ∀ {a : Address} {p : U32},
      eligAt (removed s g grp m profile.payoutPosition) g a = some p →
      a ≠ m ∧ eligAt s g a = some p := by
    intro a p hp
    rw [helig] at hp
    by_cases ha : a = m
    · rw [if_pos ha] at hp
      cases hp
    · rw [if_neg ha] at hp
      exact ⟨ha, hp⟩
  refine hs.fewer (fun k hk => hagree.persistent k ?_) rfl rfl rfl rfl (fun a p hp => (hstays hp).2)
    ?_ ?_ ?_
  · exact Place.not_covered (g := k.group) (Place.spares_of_kinds rfl) k rfl hk
  -- the seat that goes is the removed member's, and so is its slot
  · intro a p
    rw [seatOf, hprofile, helig]
    by_cases ha : a = m
    · rw [if_pos ha]
      rintro ⟨⟩
    · rw [if_neg ha, if_neg ha]
      exact hs.seated a p
  -- the roster keeps the others: the number taken out is not one of theirs
  · intro a ha
    obtain ⟨p, hp⟩ := Option.ne_none_iff_exists'.mp ha
    obtain ⟨hne, hold⟩ := hstays hp
    rw [hroster]
    exact hregular rfl _ (seatOf_of_profile hopen.profile) a hne (by rw [hold]; simp)
  · intro a p hp
    obtain ⟨hne, hold⟩ := hstays hp
    rw [seatOf, hprofile, if_neg hne]
    exact hs.left a p hold

/-- **WITHDRAWING**, once paid: the seat stays behind, in a paid slot. -/
theorem withdraw_inStep {m : Address} (hs : InStep s g grp) (hgrp : groupAt s g = some grp)
    (hregular : Regular env s g grp (.emergencyWithdraw g m))
    (h : emergencyWithdraw g m env s = .ok () t) (hgrp' : groupAt t g = some grp') :
    InStep t g grp' := by
  have hagree := Within.agree_ok (w := Call.footprint (.emergencyWithdraw g m)) h
  have hframe : ∀ k : Key, k.kind ∈ Kind.grp :: .grpPaid :: readKinds →
      t.persistent k = s.persistent k := by
    intro k hk
    exact hagree.persistent k
      (Place.not_covered (g := k.group) (Place.spares_of_kinds rfl) k rfl hk)
  -- the profile goes, the slot in the order stays
  have hseat : ∀ a, seatOf t g a = if a = m then none else seatOf s g a := by
    intro a
    obtain ⟨-, total, received, -, ⟨-, -, config, l, -, -, rfl⟩ | ⟨-, rfl⟩⟩ := emergencyWithdraw_ok h
    · by_cases ha : a = m
      · rw [if_pos ha]
        exact seatOf_none (by simp [ha])
      · rw [if_neg ha]
        exact seatOf_congr (by simp [ha])
    · by_cases ha : a = m
      · rw [if_pos ha]
        exact seatOf_none (by simp [ha])
      · rw [if_neg ha]
        exact seatOf_congr (by simp [ha])
  have helig : ∀ a, eligAt t g a = eligAt s g a :=
    fun a => readAt_congr (hframe _ (by simp [readKinds]))
  have hroster : rosterAt t g = rosterAt s g :=
    congrArg (Option.getD · ∅) (readAt_congr (hframe (.grpMbrs g) (by simp [readKinds])))
  obtain rfl : grp = grp' := by
    rw [groupAt, readAt_congr (hframe _ (by simp))] at hgrp'
    exact Option.some.inj (hgrp.symm.trans hgrp')
  refine hs.fewer (fun k hk => hframe k ?_) rfl rfl rfl rfl (fun a p => (helig a).symm ▸ id) ?_ ?_ ?_
  · simp only [List.mem_cons, List.not_mem_nil, or_false, readKinds] at hk ⊢
    rcases hk with hk | hk | hk <;> simp [hk]
  · intro a p
    rw [hseat, helig]
    by_cases ha : a = m
    · rw [if_pos ha]
      rintro ⟨⟩
    · rw [if_neg ha]
      exact hs.seated a p
  · intro a
    rw [helig, hroster]
    exact hs.listed a
  · intro a p
    rw [helig, hseat]
    intro hp
    by_cases ha : a = m
    · -- the profile that goes is of somebody who was paid, and in its own slot
      obtain ⟨c, hc⟩ := hregular rfl
      have hown := hs.named m c hc (by rw [← ha, hp]; simp)
      rw [← ha, hp] at hown
      obtain rfl := Option.some.inj hown
      exact Or.inr (ha ▸ hc)
    · rw [if_neg ha]
      exact hs.left a p hp

/-- Dealing out positions: whoever is on the list ends up with one dealt to it,
    by induction along the list. -/
theorem dealt_seats {positions : List Nat} {xs : List Address} {i n : Nat}
    (h : foldEach (assignPosition g positions) i xs env s = .ok n t) (a : Address) :
    (a ∈ xs → ∃ j p, xs[j]? = some a ∧ positions[i + j]? = some p ∧ seatOf t g a = some p ∧
        eligAt t g a = some ⟨p⟩) ∧
      (a ∉ xs → seatOf t g a = seatOf s g a ∧ eligAt t g a = eligAt s g a) := by
  induction xs generalizing i s with
  | nil =>
      obtain ⟨-, rfl⟩ := pure_ok.mp h
      exact ⟨fun ha => absurd ha (List.not_mem_nil), fun _ => ⟨rfl, rfl⟩⟩
  | cons b xs ih =>
      obtain ⟨_, v, hstep, hrest⟩ := bind_ok.mp h
      obtain ⟨p, hp, profile, hprofile, rfl, rfl⟩ := assignPosition_ok.mp hstep
      obtain ⟨hin, hout⟩ := ih hrest
      constructor
      · intro ha
        by_cases hlater : a ∈ xs
        · obtain ⟨j, q, hj, hq, hseat⟩ := hin hlater
          refine ⟨j + 1, q, hj, ?_, hseat⟩
          rw [← hq]
          congr 1
          omega
        · obtain rfl := (List.mem_cons.mp ha).resolve_right hlater
          obtain ⟨hseat, helig⟩ := hout hlater
          refine ⟨0, p, rfl, hp, hseat.trans ?_, helig.trans ?_⟩
          · exact @seatOf_of_profile _ _ _ { profile with payoutPosition := p } (by simp)
          · simp
      · intro ha
        obtain ⟨hne, hlater⟩ := not_or.mp (mt List.mem_cons.mpr ha)
        obtain ⟨hseat, helig⟩ := hout hlater
        refine ⟨hseat.trans (seatOf_congr ?_), helig.trans ?_⟩
        · simp [hne]
        · simp [hne]

/-- What an assignment deals out. -/
theorem assign_positions {caller : Address} {mode : AssignmentMode} {n : Nat}
    (h : assignPayoutPositions g caller mode env s = .ok () t) (hmode : Distinct s g n mode) :
    ∃ (positions : List Nat) (v : State) (m : Nat), positions.Nodup ∧ (∀ p ∈ positions, p < n) ∧
      (∀ k : Key, k.kind ≠ .grpSeq → v.persistent k = s.persistent k) ∧
      foldEach (assignPosition g positions) 0 (rosterAt s g).members env v = .ok m t := by
  -- positions that permute the members' numbers are each below the size
  have hperm : (rosterAt s g).size ≤ n → Permutes (rosterAt s g).size mode →
      ∃ (positions : List Nat) (v : State) (m : Nat), positions.Nodup ∧ (∀ p ∈ positions, p < n) ∧
        (∀ k : Key, k.kind ≠ .grpSeq → v.persistent k = s.persistent k) ∧
        foldEach (assignPosition g positions) 0 (rosterAt s g).members env v = .ok m t := by
    intro hle hpermutes
    obtain ⟨-, positions, v, m, -, hperm, hframe, hloop⟩ := assignPayoutPositions_ok h
    have hdealt := hperm.mpr hpermutes
    refine ⟨positions, v, m, hdealt.nodup_iff.mpr List.nodup_range, ?_, hframe, hloop⟩
    intro p hp
    exact Nat.lt_of_lt_of_le (List.mem_range.mp (hdealt.mem_iff.mp hp)) hle
  -- each mode deals such positions, or is checked to
  cases mode with
  | sequential => exact hperm hmode trivial
  | randomized => exact hperm hmode trivial
  | manual positions =>
      obtain ⟨grp, roster, dealt, v, m, h⟩ := assignPayoutPositions_iff.mp h
      have hchosen := h.chosen
      simp only [chosenPositions, failIf_bind_ok, pure_ok] at hchosen
      obtain ⟨-, rfl, rfl⟩ := hchosen
      refine ⟨positions, s, m, hmode.1, hmode.2, fun _ _ => rfl, ?_⟩
      rw [rosterAt_eq h.listed]
      exact h.dealt

/-- **ASSIGNING**, before the first payout. -/
theorem assign_inStep {caller : Address} {mode : AssignmentMode} (hs : InStep s g grp)
    (hgrp : groupAt s g = some grp)
    (hregular : Regular env s g grp (.assignPayoutPositions g caller mode))
    (h : assignPayoutPositions g caller mode env s = .ok () t) (hgrp' : groupAt t g = some grp') :
    InStep t g grp' := by
  have hagree := Within.agree_ok (w := Call.footprint (.assignPayoutPositions g caller mode)) h
  have hframe : ∀ k : Key, k.kind ∈ [Kind.grp, .grpMbrs, .payRecip, .payout, .grpPaid] →
      t.persistent k = s.persistent k := by
    intro k hk
    exact hagree.persistent k
      (Place.not_covered (g := k.group) (Place.spares_of_kinds rfl) k rfl hk)
  obtain rfl : grp = grp' := by
    rw [groupAt, readAt_congr (hframe _ (by simp))] at hgrp'
    exact Option.some.inj (hgrp.symm.trans hgrp')
  obtain ⟨hcycle, hmode⟩ := hregular rfl
  obtain ⟨positions, v, m, hnodup, hlt, hv, hloop⟩ := assign_positions h hmode
  have hroster : rosterAt t g = rosterAt s g :=
    congrArg (Option.getD · ∅) (readAt_congr (hframe (.grpMbrs g) (by simp)))
  have helig : ∀ a, eligAt v g a = eligAt s g a := fun a => readAt_congr (hv _ (by simp))
  -- everybody with a seat is on the roster, so everybody is dealt a new one
  have hdealt : ∀ a, eligAt t g a ≠ none → ∃ j p, (rosterAt s g).members[j]? = some a ∧
      positions[0 + j]? = some p ∧ seatOf t g a = some p ∧ eligAt t g a = some ⟨p⟩ := by
    intro a ha
    obtain ⟨hin, hout⟩ := dealt_seats hloop a
    by_cases hmem : a ∈ (rosterAt s g).members
    · exact hin hmem
    · rw [(hout hmem).2, helig] at ha
      exact absurd (hs.listed a ha) hmem
  refine Unpaid.inStep ((hs.unpaid hcycle).congr fun k hk => hframe k ?_) hcycle ?_ ?_ ?_ ?_ ?_
  · simp only [List.mem_cons, List.not_mem_nil, or_false] at hk ⊢
    rcases hk with hk | hk | hk <;> simp [hk]
  · intro a p hp
    obtain ⟨hin, hout⟩ := dealt_seats hloop a
    by_cases hmem : a ∈ (rosterAt s g).members
    · obtain ⟨j, q, -, -, hseat, hq⟩ := hin hmem
      rw [hseat] at hp
      obtain rfl := Option.some.inj hp
      exact hq
    · rw [(hout hmem).1, seatOf_congr (hv (.mbrProf g a) (by simp))] at hp
      exact absurd (hs.listed a (by rw [hs.seated a p hp]; simp)) hmem
  · intro a b p ha hb
    obtain ⟨i, q, hi, hqi, -, hq⟩ := hdealt a (by rw [ha]; simp)
    obtain ⟨j, r, hj, hrj, -, hr⟩ := hdealt b (by rw [hb]; simp)
    rw [ha] at hq
    rw [hb] at hr
    obtain rfl := Option.some.inj hq
    obtain rfl : q = r := congrArg U32.val (Option.some.inj hr)
    -- the positions dealt are distinct, so it is one entry of the list
    have hij : 0 + i = 0 + j := by
      obtain ⟨hilt, hig⟩ := List.getElem?_eq_some_iff.mp hqi
      obtain ⟨hjlt, hjg⟩ := List.getElem?_eq_some_iff.mp hrj
      exact (hnodup.getElem_inj_iff).mp (hig.trans hjg.symm)
    obtain rfl : i = j := by omega
    exact Option.some.inj (hi.symm.trans hj)
  · intro a p hp
    obtain ⟨j, q, -, hq, -, hown⟩ := hdealt a (by rw [hp]; simp)
    rw [hp] at hown
    obtain rfl := Option.some.inj hown
    exact hlt q (List.mem_of_getElem? hq)
  · intro a ha
    obtain ⟨j, p, hj, -⟩ := hdealt a ha
    rw [hroster]
    exact List.mem_of_getElem? hj
  · intro a ha
    obtain ⟨j, p, -, -, hseat, -⟩ := hdealt a ha
    rw [hseat]
    simp

/-- What a payout that ends well notes, and of what. -/
structure Notes (env : Env) (s v : State) (g : Nat) (grp : SaveData.Group) (a : Address) :
    Prop where
  active : grp.status = .active
  index : posIxAt s g grp.currentCycle = some a
  recipients : ∀ c, v.persistent (.payRecip g c) =
    if c = grp.currentCycle then some (Codec.encode a) else s.persistent (.payRecip g c)
  payouts : ∀ c, v.persistent (.payout g c) =
    if c = grp.currentCycle then some (Codec.encode (PayoutRecord.mk a g grp.currentCycle
      (grp.contributionAmount * grp.memberCount) env.timestamp))
    else s.persistent (.payout g c)
  paid : grpPaidAt v g = grpPaidAt s g + grp.contributionAmount * grp.memberCount
  fits : -i128Bound ≤ grpPaidAt v g ∧ grpPaidAt v g < i128Bound

/-- A payout that goes through names its recipient, records it and counts it. -/
theorem executePayout_noted {v : State} (hlaw : Obeys layout s) (hgrp : groupAt s g = some grp)
    (h : executePayout g env s = .ok () v) : ∃ a, Notes env s v g grp a := by
  obtain ⟨grp₀, a, amount, u, config, l, hp, rfl⟩ := executePayout_ok.mp h
  obtain rfl := Option.some.inj (hgrp.symm.trans hp.group)
  obtain ⟨rfl, hactive, hseat, -⟩ := hp.valid.before (typed_of_obeys hlaw)
  obtain rfl := hp.valid.amount_eq
  have hpaid : grpPaidAt (paidState (locked s g grp) g grp a
      (grp.contributionAmount * grp.memberCount) env.timestamp l) g
        = grpPaidAt s g + grp.contributionAmount * grp.memberCount := by
    simp [paidState, settled, noted, locked, grpPaidAt]
  refine ⟨a, hactive, hseat.1, fun c => ?_, fun c => ?_, hpaid, ?_⟩
  · simp [paidState, settled, noted, locked]
  · simp [paidState, settled, noted, locked]
  · rw [hpaid]
    have hfits := hp.settles.paid_fits
    simpa [locked, grpPaidAt] using hfits

/-- **PAYING IN TURN**: the next slot is paid to whoever sits in it. -/
theorem paid_inStep {v : State} (hs : InStep s g grp) (hlaw : Obeys layout s)
    (hgrp : groupAt s g = some grp) (hturn : PaysInTurn s g grp)
    (h : executePayout g env s = .ok () v)
    (hsame : ∀ k, k ≠ .grp g → t.persistent k = v.persistent k)
    (hcycle : grp'.currentCycle = grp.currentCycle + 1) (hpool : pool grp' = pool grp)
    (hmax : grp'.maxMembers = grp.maxMembers)
    (hstatus : grp'.status = .pending → grp.status = .pending) : InStep t g grp' := by
  have hagree := Within.agree_ok (w := Call.footprint (.executePayout g)) h
  obtain ⟨r, hnotes⟩ := executePayout_noted hlaw hgrp h
  -- what the payout leaves alone
  have hframe : ∀ k : Key, k.kind ∈ [Kind.grpMbrs, .mbrProf, .mbrPElig] →
      t.persistent k = s.persistent k := by
    intro k hk
    rw [hsame k (by rintro rfl; simp at hk)]
    exact hagree.persistent k
      (Place.not_covered (g := k.group) (Place.spares_of_kinds rfl) k rfl hk)
  have hseat : ∀ a, seatOf t g a = seatOf s g a := fun a => seatOf_congr (hframe _ (by simp))
  have helig : ∀ a, eligAt t g a = eligAt s g a := fun a => readAt_congr (hframe _ (by simp))
  have hroster : rosterAt t g = rosterAt s g :=
    congrArg (Option.getD · ∅) (readAt_congr (hframe (.grpMbrs g) (by simp)))
  -- the two entries it writes are those of the current cycle
  have hrecip : ∀ c, payRecipAt t g c
      = if c = grp.currentCycle then some r else payRecipAt s g c := by
    intro c
    have hstored := (hsame (.payRecip g c) (by simp)).trans (hnotes.recipients c)
    by_cases hc : c = grp.currentCycle
    · rw [if_pos hc] at hstored ⊢
      exact (readAt_eq_some _ _ _).mpr hstored
    · rw [if_neg hc] at hstored ⊢
      exact readAt_congr hstored
  have hpayout : ∀ c, payoutAt t g c = if c = grp.currentCycle then
      some ⟨r, g, grp.currentCycle, pool grp, env.timestamp⟩ else payoutAt s g c := by
    intro c
    have hstored := (hsame (.payout g c) (by simp)).trans (hnotes.payouts c)
    rw [hturn.1] at hstored
    by_cases hc : c = grp.currentCycle
    · rw [if_pos hc] at hstored ⊢
      exact (readAt_eq_some _ _ _).mpr hstored
    · rw [if_neg hc] at hstored ⊢
      exact readAt_congr hstored
  have hpaid : grpPaidAt t g = grpPaidAt v g := grpPaidAt_congr (hsame _ (by simp))
  -- the recipient is the holder of the current slot, and nobody was paid there
  have hown : eligAt s g r = some ⟨grp.currentCycle⟩ := hturn.2 r hnotes.index
  have hunpaid : ∀ {a : Address}, payRecipAt s g grp.currentCycle ≠ some a := by
    intro a ha
    exact absurd (hs.paid_lt ha) (Nat.lt_irrefl _)
  constructor
  · intro hpending
    have hold := hstatus hpending
    rw [hnotes.active] at hold
    cases hold
  · intro a p
    rw [hseat, helig]
    exact hs.seated a p
  · intro a b p
    rw [helig, helig]
    exact hs.alone a b p
  · intro a p
    rw [helig, hmax]
    exact hs.below a p
  · intro a
    rw [helig, hroster]
    exact hs.listed a
  · intro a p
    rw [helig, hseat, hrecip]
    intro hp
    -- the holder of the slot is seated, or was paid in it before this cycle
    rcases hs.left a p hp with hhere | hold
    · exact Or.inl hhere
    · right
      rw [if_neg]
      · exact hold
      · intro he
        rw [he] at hold
        exact hunpaid hold
  · intro a b p
    rw [helig, hrecip]
    intro hp hb
    -- the slot of the current cycle is paid to its holder
    by_cases hc : p.val = grp.currentCycle
    · rw [if_pos hc] at hb
      obtain rfl := Option.some.inj hb
      refine hs.alone _ _ p ?_ hp
      rw [hown, ← hc]
    · rw [if_neg hc] at hb
      exact hs.slots a b p hp hb
  · intro a c
    rw [helig, hrecip]
    intro hc ha
    by_cases he : c = grp.currentCycle
    · rw [if_pos he] at hc
      obtain rfl := Option.some.inj hc
      rw [hown, he]
    · rw [if_neg he] at hc
      exact hs.named a c hc ha
  · intro c hc
    rw [hrecip, hpayout, hpool]
    -- the cycle that is over now is the one just paid
    by_cases he : c = grp.currentCycle
    · rw [if_pos he, if_pos he, he]
      exact ⟨r, env.timestamp, rfl, rfl⟩
    · rw [if_neg he, if_neg he]
      exact hs.past c (by omega)
  · intro c hc
    have hne : c ≠ grp.currentCycle := by omega
    rw [hsame _ (by simp), hsame _ (by simp), hnotes.recipients, hnotes.payouts, if_neg hne,
      if_neg hne]
    exact hs.ahead c (by omega)
  -- the counter grows by one pool
  · rw [hpaid, hnotes.paid, hs.total, hcycle, hpool, hturn.1]
    push_cast
    rw [Int.add_mul, Int.one_mul]
  · rw [hpaid]
    exact hnotes.fits

/-- What an advance leaves of the record. -/
theorem advanced_terms (grp : SaveData.Group) :
    pool grp.advanced = pool grp ∧ grp.advanced.maxMembers = grp.maxMembers := by
  rw [pool, pool, Group.advanced]
  by_cases hc : ({ grp with currentCycle := grp.currentCycle + 1 } : SaveData.Group).isComplete
  · rw [if_pos hc]
    exact ⟨rfl, rfl⟩
  · rw [if_neg hc]
    exact ⟨rfl, rfl⟩

/-- The members of a merged group, one after the other. -/
theorem merged_seats {id time : Nat} {roster : MemberMap} {positions : List Nat}
    (h : forEach (mergeMember id time roster) positions env s = .ok () t)
    (hs : ∀ a, seatOf s id a = none ∧ eligAt s id a = none) (a : Address) :
    (seatOf t id a = none ∧ eligAt t id a = none) ∨
      ∃ p ∈ positions, roster[p]? = some a ∧ seatOf t id a = some p ∧ eligAt t id a = some ⟨p⟩ := by
  refine forEach_invariant (I := fun v : State => (seatOf v id a = none ∧ eligAt v id a = none) ∨
    ∃ p ∈ positions, roster[p]? = some a ∧ seatOf v id a = some p ∧ eligAt v id a = some ⟨p⟩)
    ?_ (Or.inl (hs a)) h
  intro p hp u v hu hstep
  simp only [mergeMember, unwrap_bind_ok, put_bind_ok, put_ok] at hstep
  obtain ⟨member, hmember, rfl⟩ := hstep
  by_cases ha : a = member
  · refine Or.inr ⟨p, hp, ha ▸ hmember, ?_, ?_⟩
    · refine @seatOf_of_profile _ _ _ ⟨member, id, p, time, false⟩ ?_
      simp [ha]
    · simp [ha]
  · have hseat : seatOf ((u.set (.mbrProf id member)
        (Codec.encode (MemberProfile.mk member id p time false))).set (.mbrPElig id member)
        (Codec.encode (U32.mk p))) id a = seatOf u id a := seatOf_congr (by simp [ha])
    have helig : eligAt ((u.set (.mbrProf id member)
        (Codec.encode (MemberProfile.mk member id p time false))).set (.mbrPElig id member)
        (Codec.encode (U32.mk p))) id a = eligAt u id a := by simp [ha]
    rw [hseat, helig]
    exact hu

/-- **MERGING** seats everybody in a slot of its own. -/
theorem merge_inStep {g₁ g₂ : Nat} (hopen : Unstored s (lastId s + 1))
    (hroom : MergeFits s (lastId s + 1) (.mergeGroups g₁ g₂))
    (h : (Call.mergeGroups g₁ g₂).body env s = .ok () t)
    (hgrp' : groupAt t (lastId s + 1) = some grp') : InStep t (lastId s + 1) grp' := by
  obtain ⟨n, hn⟩ := quietly_ok.mp h
  have hroster : rosterAt t (lastId s + 1) = mergedRoster s g₁ g₂ :=
    rosterAt_eq (mergeGroups_roster hn)
  have hagree := Within.agree_ok (w := Call.footprint (.mergeGroups g₁ g₂)) hn
  obtain ⟨grp₁, grp₂, hcan, hbase⟩ := mergeGroups_base hn
  obtain rfl : mergedGroup s g₁ g₂ grp₁ grp₂ env.timestamp = grp' := by
    rw [groupAt, readAt_congr (hbase _ (by simp) (by simp) (by simp))] at hgrp'
    simpa [mergeBase] using hgrp'
  have hunpaid : Unpaid s (lastId s + 1) := ⟨hopen.recipients, hopen.payouts, hopen.paid⟩
  -- in the new group everybody has no seat, or a slot of its own
  have hseats : ∀ a, (seatOf t (lastId s + 1) a = none ∧ eligAt t (lastId s + 1) a = none) ∨
      ∃ p < (mergedRoster s g₁ g₂).size, (mergedRoster s g₁ g₂)[p]? = some a ∧
        seatOf t (lastId s + 1) a = some p ∧ eligAt t (lastId s + 1) a = some ⟨p⟩ := by
    intro a
    obtain ⟨rfl, grp₁', grp₂', v, -, hloop, rfl⟩ := mergeGroups_ok hn
    have hstart : ∀ b, seatOf (mergeBase s g₁ g₂ grp₁' grp₂' env.timestamp) (lastId s + 1) b = none ∧
        eligAt (mergeBase s g₁ g₂ grp₁' grp₂' env.timestamp) (lastId s + 1) b = none := by
      intro b
      refine ⟨(seatOf_congr ?_).trans (hopen.seats b), ?_⟩
      · simp [mergeBase]
      · have helig := hopen.eligible b
        simpa [mergeBase, eligAt] using helig
    have hseat : seatOf ((v.set (.grpStat g₁) (Codec.encode GroupStatus.cancelled)).set
        (.grpStat g₂) (Codec.encode GroupStatus.cancelled)) (lastId s + 1) a
          = seatOf v (lastId s + 1) a := seatOf_congr (by simp)
    have helig : eligAt ((v.set (.grpStat g₁) (Codec.encode GroupStatus.cancelled)).set
        (.grpStat g₂) (Codec.encode GroupStatus.cancelled)) (lastId s + 1) a
          = eligAt v (lastId s + 1) a := by simp
    rw [hseat, helig]
    rcases merged_seats hloop hstart a with hnone | ⟨p, hp, hslot⟩
    · exact Or.inl hnone
    · exact Or.inr ⟨p, List.mem_range.mp hp, hslot⟩
  -- whoever has a slot sits in the place that the new roster gives him
  have hslot : ∀ {a : Address} {p : U32}, eligAt t (lastId s + 1) a = some p →
      p.val < (mergedRoster s g₁ g₂).size ∧ (mergedRoster s g₁ g₂)[p.val]? = some a ∧
        seatOf t (lastId s + 1) a = some p.val := by
    intro a p hp
    rcases hseats a with ⟨-, hnone⟩ | ⟨q, hq, hslot, hseat, helig⟩
    · rw [hnone] at hp
      cases hp
    · rw [helig] at hp
      obtain rfl := Option.some.inj hp
      exact ⟨hq, hslot, hseat⟩
  refine Unpaid.inStep (hunpaid.congr fun k hk => hagree.persistent k ?_) rfl ?_ ?_ ?_ ?_ ?_
  · exact Place.not_covered (g := k.group) (Place.spares_of_kinds rfl) k rfl hk
  · intro a p hp
    rcases hseats a with ⟨hnone, -⟩ | ⟨q, -, -, hseat, helig⟩
    · rw [hnone] at hp
      cases hp
    · rw [hseat] at hp
      obtain rfl := Option.some.inj hp
      exact helig
  · intro a b p ha hb
    exact Option.some.inj ((hslot ha).2.1.symm.trans (hslot hb).2.1)
  · intro a p hp
    exact Nat.lt_of_lt_of_le (hslot hp).1 (hroom rfl grp₁ grp₂ hcan.first hcan.second)
  · intro a ha
    obtain ⟨p, hp⟩ := Option.ne_none_iff_exists'.mp ha
    rw [hroster]
    exact mem_members.mpr ⟨p.val, (hslot hp).2.1⟩
  -- nobody in the new group was paid, so nobody has lost the seat
  · intro a ha
    obtain ⟨p, hp⟩ := Option.ne_none_iff_exists'.mp ha
    rw [(hslot hp).2.2]
    simp

/-- **ONE CALL**, regular, keeps the books in step. -/
theorem inStep_step (hreg : Registry s) (hlaw : Obeys layout s)
    (hopen : lastId s < g → Unstored s g)
    (hs : ∀ grp, groupAt s g = some grp → InStep s g grp ∧ Regular env s g grp c)
    (hroom : MergeFits s g c) (h : c.body env s = .ok () t) (hgrp' : groupAt t g = some grp') :
    InStep t g grp' := by
  -- the call is one that moves the group, or leaves the readings alone
  by_cases hc : Moving s g c
  · cases c with
    | joinGroup g' m referrer =>
        obtain rfl : g' = g := hc
        obtain ⟨grp, hcan, -⟩ := joinGroup_ok h
        obtain ⟨hin, hregular⟩ := hs grp hcan.group
        exact join_inStep hin hcan.group hregular h hgrp'
    | removeMember g' m =>
        obtain rfl : g' = g := hc
        obtain ⟨grp, profile, hcan, -⟩ := removeMember_ok h
        obtain ⟨hin, hregular⟩ := hs grp hcan.group
        exact remove_inStep hin hcan.group hregular h hgrp'
    | assignPayoutPositions g' caller mode =>
        obtain rfl : g' = g := hc
        obtain ⟨-, hrest⟩ := requireAuth_bind_ok.mp h
        obtain ⟨grp, hgrp, -⟩ := getOr_bind_ok.mp hrest
        obtain ⟨hin, hregular⟩ := hs grp hgrp
        exact assign_inStep hin hgrp hregular h hgrp'
    | emergencyWithdraw g' m =>
        obtain rfl : g' = g := hc
        obtain ⟨grp, total, received, hcan, -⟩ := emergencyWithdraw_ok h
        obtain ⟨hin, hregular⟩ := hs grp hcan.group
        exact withdraw_inStep hin hcan.group hregular h hgrp'
    | executePayout g' =>
        obtain rfl : g' = g := hc
        obtain ⟨grp, recipient, amount, v, config, l, hp, rfl⟩ := executePayout_ok.mp h
        obtain ⟨hin, hregular⟩ := hs grp hp.group
        obtain rfl : { grp.advanced with payoutInProgress := false } = grp' := by
          rw [← advanced_marked]
          simpa [groupAt, paidState] using hgrp'
        obtain ⟨hpool, hmax⟩ := advanced_terms grp
        exact paid_inStep hin hlaw hp.group (hregular rfl) h (fun k _ => rfl)
          (Group.advanced_currentCycle grp) hpool hmax advanced_pending
    | tick g' =>
        obtain rfl : g' = g := hc
        obtain ⟨grp, v, hgrp, -, -, hpay, rfl⟩ := tick_ok h
        obtain ⟨hin, hregular⟩ := hs grp hgrp
        obtain ⟨hturn, hfull, u, v', hpaid⟩ := hregular rfl
        obtain rfl : grp.advanced = grp' := by simpa [groupAt] using hgrp'
        obtain ⟨hpool, hmax⟩ := advanced_terms grp
        rcases hpay with ⟨hshort, -⟩ | ⟨-, ⟨⟨⟩, hends⟩ | ⟨e, hends⟩⟩
        · omega
        · exact paid_inStep hin hlaw hgrp hturn hends (fun k hk => by simp [hk])
            (Group.advanced_currentCycle grp) hpool hmax advanced_pending
        · rw [hpaid] at hends
          cases hends
    | mergeGroups g₁ g₂ =>
        obtain rfl : g = lastId s + 1 := hc
        exact merge_inStep (hopen (Nat.lt_succ_self _)) hroom h hgrp'
    | _ => exact hc.elim
  · exact quiet_step hreg hopen hs hc h hgrp'

/-- Ids not handed out yet stay unused. -/
theorem unstored_step (hreg : Registry s) (hopen : lastId s < g → Unstored s g)
    (h : c.body env s = .ok () t) (hg : lastId t < g) : Unstored t g := by
  have hlast := (grows_step hreg h).last
  refine (unmoved_step h ?_).unstored (hopen (by omega))
  have hnone : ∀ grp, groupAt s g ≠ some grp := by
    intro grp hgrp
    rw [(hreg.below g (by omega)).1] at hgrp
    cases hgrp
  intro hc
  -- the calls that move a group need its record, and there is none yet
  cases c with
  | joinGroup g' m referrer =>
      obtain rfl : g' = g := hc
      obtain ⟨grp, hcan, -⟩ := joinGroup_ok h
      exact hnone grp hcan.group
  | removeMember g' m =>
      obtain rfl : g' = g := hc
      obtain ⟨grp, profile, hcan, -⟩ := removeMember_ok h
      exact hnone grp hcan.group
  | assignPayoutPositions g' caller mode =>
      obtain rfl : g' = g := hc
      obtain ⟨-, hrest⟩ := requireAuth_bind_ok.mp h
      obtain ⟨grp, hgrp, -⟩ := getOr_bind_ok.mp hrest
      exact hnone grp hgrp
  | emergencyWithdraw g' m =>
      obtain rfl : g' = g := hc
      obtain ⟨grp, total, received, hcan, -⟩ := emergencyWithdraw_ok h
      exact hnone grp hcan.group
  | executePayout g' =>
      obtain rfl : g' = g := hc
      obtain ⟨grp, recipient, amount, v, config, l, hp, -⟩ := executePayout_ok.mp h
      exact hnone grp hp.group
  | tick g' =>
      obtain rfl : g' = g := hc
      obtain ⟨grp, v, hgrp, -⟩ := tick_ok h
      exact hnone grp hgrp
  | mergeGroups g₁ g₂ =>
      obtain rfl : g = lastId s + 1 := hc
      obtain ⟨n, hn⟩ := quietly_ok.mp h
      rw [mergeGroups_lastId hn] at hg
      exact Nat.lt_irrefl _ hg
  | _ => exact hc

end Moves

/-! ## Runs -/

/-- Before its first payout: the group is not there yet, or seated as it should
    be, with nobody paid. -/
structure Beforehand (s : State) (g : Nat) : Prop where
  registry : Registry s
  lawful : Obeys layout s
  unused : lastId s < g → Unstored s g
  seated : ∀ grp, groupAt s g = some grp →
    WellFormed s g ∧ grp.memberCount ≤ grp.maxMembers ∧ grp.currentCycle = 0 ∧ Unpaid s g

/-- A step is regular for the group if the call, when it goes through, is. -/
def RegularStep (g : Nat) : Step → State → Prop
  | .call env c, s => Succeeds c.body env s →
      (∀ grp, groupAt s g = some grp → Regular env s g grp c) ∧ MergeFits s g c
  | _, _ => True

/-- What every regular step keeps. -/
structure Consistent (g : Nat) (s : State) : Prop where
  registry : Registry s
  lawful : Obeys layout s
  unused : lastId s < g → Unstored s g
  booked : ∀ grp, groupAt s g = some grp → InStep s g grp

section Runs

variable {s t : State} {g : Nat}

/-- A well-formed group in its first cycle, with no payout yet, is in step. -/
theorem wellFormed_inStep {grp : SaveData.Group} (hwf : WellFormed s g)
    (hgrp : groupAt s g = some grp) (hroom : grp.memberCount ≤ grp.maxMembers)
    (hcycle : grp.currentCycle = 0) (hunpaid : Unpaid s g) : InStep s g grp := by
  -- eligibility and seat are one in a well-formed group
  have hseat : ∀ {a : Address} {p : U32}, eligAt s g a = some p → seatOf s g a = some p.val := by
    intro a p hp
    rw [hwf.eligible, Option.map_eq_some_iff] at hp
    obtain ⟨q, hq, rfl⟩ := hp
    exact hq
  obtain ⟨grp₀, hgrp₀, hcount⟩ := hwf.count
  obtain rfl := Option.some.inj (hgrp.symm.trans hgrp₀)
  refine hunpaid.inStep hcycle ?_ ?_ ?_ ?_ ?_
  · intro a p hp
    rw [hwf.eligible, hp]
    rfl
  · intro a b p ha hb
    exact hwf.seated.inj (hseat ha) (hseat hb)
  · intro a p hp
    have hlt := hwf.seated.lt a p.val (hseat hp)
    rw [length_members, ← hcount] at hlt
    omega
  · intro a ha
    obtain ⟨p, hp⟩ := Option.ne_none_iff_exists'.mp ha
    exact (hwf.seated.only a).mpr ⟨p.val, hseat hp⟩
  · intro a ha
    obtain ⟨p, hp⟩ := Option.ne_none_iff_exists'.mp ha
    rw [hseat hp]
    simp

/-- A group before its first payout answers all questions alike. -/
theorem Beforehand.consistent (hs : Beforehand s g) : Consistent g s where
  registry := hs.registry
  lawful := hs.lawful
  unused := hs.unused
  booked grp hgrp := by
    obtain ⟨hwf, hroom, hcycle, hunpaid⟩ := hs.seated grp hgrp
    exact wellFormed_inStep hwf hgrp hroom hcycle hunpaid

/-- Tokens and guards do not matter. -/
theorem Consistent.congr (hs : Consistent g s) (h : t.persistent = s.persistent) :
    Consistent g t := by
  have hu : Unmoved s t g := Unmoved.of_same fun k _ _ => congrFun h k
  have hgroup : ∀ j, groupAt t j = groupAt s j := fun j => readAt_congr (congrFun h _)
  have hlast : lastId t = lastId s :=
    congrArg (fun o : Option U64 => (o.getD ⟨0⟩).val) (readAt_congr (congrFun h .cntNextG))
  refine ⟨⟨fun j grp hgrp => ?_, fun j hj => ?_⟩, fun k v hv => ?_, fun hg => ?_, fun grp hgrp => ?_⟩
  · exact hs.registry.own j grp (hgroup j ▸ hgrp)
  · rw [hgroup, statusAt, readAt_congr (congrFun h (.grpStat j))]
    exact hs.registry.below j (hlast ▸ hj)
  · exact hs.lawful k v (congrFun h k ▸ hv)
  · exact hu.unstored (hs.unused (hlast ▸ hg))
  · have hin := hs.booked grp (hgroup g ▸ hgrp)
    exact hin.congr hu rfl (Or.inr rfl) hin.below id

/-- **ONE STEP**, regular for the group. -/
theorem consistent_apply (x : Step) (s : State) (hx : RegularStep g x s) (hs : Consistent g s) :
    Consistent g (apply x s) := by
  refine apply_invariant (C := RegularStep g) ?_ (fun _ h => h.congr rfl)
    (fun _ _ h => h.congr rfl) x s hx hs
  intro env c u v hx hu h
  obtain ⟨hregular, hfits⟩ := hx ⟨(), v, h⟩
  exact ⟨registry_step hu.registry h, (call_sound c).obeys_ok hu.lawful h,
    unstored_step hu.registry hu.unused h,
    fun grp hgrp => inStep_step hu.registry hu.lawful hu.unused
      (fun grp₀ hgrp₀ => ⟨hu.booked grp₀ hgrp₀, hregular grp₀ hgrp₀⟩) hfits h hgrp⟩

/-- And it goes on to, along every regular run. -/
theorem consistent_run (hs : Beforehand s g) {steps : List Step}
    (hrun : Along apply (RegularStep g) steps s) : Consistent g (run steps s) :=
  exec_invariant consistent_apply hs.consistent hrun

end Runs

/-- **THE READERS AGREE**, as long as every step is regular for the group: at the
    end of every run from before the group's first payout, all six answer, and
    tell the same story. -/
theorem payout_reads_agree (s : State) (g : Nat) (hs : Beforehand s g) (steps : List Step)
    (hrun : Along apply (RegularStep g) steps s) (env : Env) (grp : SaveData.Group)
    (hgrp : groupAt (run steps s) g = some grp) : ReadsAgree env (run steps s) g grp := by
  have hend := consistent_run hs hrun
  exact (hend.booked grp hgrp).readsAgree hend.lawful hgrp

/-! The funded pair, in a group for two and in a group for three. -/

/-- The two members of the example sit on the first two seats. -/
theorem pairState_seat (k n : Nat) (a : Address) :
    seatOf (pairState k n) 1 a = if a = ⟨1⟩ then some 0 else if a = ⟨2⟩ then some 1 else none := by
  by_cases h₁ : a = ⟨1⟩
  · rw [if_pos h₁, h₁]
    rfl
  · by_cases h₂ : a = ⟨2⟩
    · rw [if_neg h₁, if_pos h₂, h₂]
      rfl
    · rw [if_neg h₁, if_neg h₂]
      refine seatOf_none ?_
      simp [pairState, pairContributions, pairMembers, deployed, h₁, h₂]

/-- The index of the seats says the same. -/
theorem pairState_holder (k n p : Nat) :
    posIxAt (pairState k n) 1 p = if p = 0 then some ⟨1⟩ else if p = 1 then some ⟨2⟩ else none := by
  by_cases h₀ : p = 0
  · rw [if_pos h₀, h₀]
    rfl
  · by_cases h₁ : p = 1
    · rw [if_neg h₀, if_pos h₁, h₁]
      rfl
    · rw [if_neg h₀, if_neg h₁]
      simp [pairState, pairContributions, pairMembers, posIxAt, deployed, readAt, h₀, h₁]

/-- The example is a well-formed group. -/
theorem pairState_wellFormed (k n : Nat) : WellFormed (pairState k n) 1 where
  count := ⟨pairGroup k, rfl, rfl⟩
  profiles a ha := by
    by_cases h₁ : a = ⟨1⟩
    · exact ⟨⟨⟨1⟩, 1, 0, 0, false⟩, by rw [h₁]; rfl, h₁.symm⟩
    · by_cases h₂ : a = ⟨2⟩
      · exact ⟨⟨⟨2⟩, 1, 1, 0, false⟩, by rw [h₂]; rfl, h₂.symm⟩
      · exact absurd (by simp [pairState, pairContributions, pairMembers, deployed, h₁, h₂]) ha
  seated := by
    have hmembers : (rosterAt (pairState k n) 1).members = [⟨1⟩, ⟨2⟩] := rfl
    rw [hmembers, funext (pairState_seat k n), funext (pairState_holder k n)]
    constructor
    · grind
    · intro a
      by_cases h₁ : a = ⟨1⟩
      · simp [h₁]
      · by_cases h₂ : a = ⟨2⟩
        · simp [h₂]
        · simp [h₁, h₂]
    · grind
    · intro p hp
      have hp' : p < 2 := hp
      obtain rfl | rfl : p = 0 ∨ p = 1 := by omega
      · exact ⟨⟨1⟩, rfl⟩
      · exact ⟨⟨2⟩, rfl⟩
  eligible a := by
    by_cases h₁ : a = ⟨1⟩
    · rw [h₁]
      rfl
    · by_cases h₂ : a = ⟨2⟩
      · rw [h₂]
        rfl
      · rw [pairState_seat, if_neg h₁, if_neg h₂]
        simp [pairState, pairContributions, pairMembers, eligAt, deployed, readAt, h₁, h₂]

/-- Its entries are all of the type their keys ask for. -/
theorem pairState_obeys (k n : Nat) : Obeys layout (pairState k n) := by
  rw [pairState, pairContributions, pairMembers]
  repeat' (first | exact obeys_deployed _ | refine Obeys.set ?_ rfl)

/-- And nothing has been paid in it. -/
theorem pairState_beforehand (k n : Nat) (hk : 2 ≤ k) : Beforehand (pairState k n) 1 where
  registry := pairState_registry k n
  lawful := pairState_obeys k n
  unused h := absurd h (Nat.lt_irrefl 1)
  seated grp hgrp := by
    obtain rfl : pairGroup k = grp := Option.some.inj hgrp
    exact ⟨pairState_wellFormed k n, hk, rfl, fun c => rfl, fun c => rfl, rfl⟩

/-- The pair is paid for the first time. -/
def paidOnce : List Step := [.call idleEnv (.executePayout 1)]

/-- **ONE SEAT EMPTY**: two members of three pay `100` each and the first gets
    `200`; the statistics say `300`. -/
theorem statistics_count_the_empty_seat :
    Beforehand (pairState 3 200) 1 ∧
      getTotalPaidOut 1 idleEnv (run paidOnce (pairState 3 200))
        = .ok 200 (run paidOnce (pairState 3 200)) ∧
      (∃ stats, getGroupStatistics 1 idleEnv (run paidOnce (pairState 3 200))
        = .ok stats (run paidOnce (pairState 3 200)) ∧ stats.totalDistributed = 300) ∧
      ∃ grp, groupAt (run paidOnce (pairState 3 200)) 1 = some grp ∧
        ¬ ReadsAgree idleEnv (run paidOnce (pairState 3 200)) 1 grp := by
  have hpaid : getTotalPaidOut 1 idleEnv (run paidOnce (pairState 3 200))
      = .ok 200 (run paidOnce (pairState 3 200)) := rfl
  have hstats : ∃ stats, getGroupStatistics 1 idleEnv (run paidOnce (pairState 3 200))
      = .ok stats (run paidOnce (pairState 3 200)) ∧ stats.totalDistributed = 300 := ⟨_, rfl, rfl⟩
  refine ⟨pairState_beforehand 3 200 (by decide), hpaid, hstats, _, rfl, fun hagree => ?_⟩
  obtain ⟨paid, hpaid', -, hsame⟩ := hagree.totals
  obtain ⟨stats, hstats, hthree⟩ := hstats
  obtain ⟨stats', hstats', htotal⟩ := hsame (by decide) (by decide)
  rw [hpaid] at hpaid'
  rw [hstats] at hstats'
  cases hpaid'
  cases hstats'
  rw [hthree] at htotal
  exact absurd htotal (by decide)

/-- The theorem for the pair in a group of two. -/
theorem payout_reads_agree_instance :
    Beforehand (pairState 2 200) 1 ∧ Along apply (RegularStep 1) paidOnce (pairState 2 200) ∧
      payRecipAt (run paidOnce (pairState 2 200)) 1 0 = some ⟨1⟩ ∧
      ∃ grp, groupAt (run paidOnce (pairState 2 200)) 1 = some grp ∧
        ReadsAgree idleEnv (run paidOnce (pairState 2 200)) 1 grp := by
  have hs := pairState_beforehand 2 200 (by decide)
  have hrun : Along apply (RegularStep 1) paidOnce (pairState 2 200) := by
    refine ⟨fun _ => ⟨fun grp hgrp _ => ?_, trivial⟩, trivial⟩
    obtain rfl : pairGroup 2 = grp := Option.some.inj hgrp
    refine ⟨rfl, fun a ha => ?_⟩
    obtain rfl : Address.mk 1 = a := Option.some.inj ha
    rfl
  exact ⟨hs, hrun, rfl, _, rfl, payout_reads_agree _ 1 hs paidOnce hrun idleEnv _ rfl⟩

end SaveReading
