import StellarSave.StandingProofs
import StellarSave.RosterProofs

/-! # The rotation — each cycle one payout, each payout another member

    Whatever the payout order says, the only recipient a stored roster lets the
    executor find is the one the position index names for the cycle.  So nobody
    is paid twice as long as the index names nobody twice, from the moment the
    first payout is made.

    A group that can pay at all goes through two PHASES.  While its record is
    `Pending` members come and go and positions change, but nothing is paid;
    once the record has left `Pending` it never comes back, the index stands
    still, and every payout note agrees with it.  Groups in neither phase, those
    without a token or without members, never pay. -/

namespace SaveRotation

open HostProg Footprint TokenLedger SaveData SavePayout SaveRefund SaveMembership SaveLifecycle
open SaveAdmin SaveCall SaveStatus SaveStatusMachine SaveStanding SaveRoster Trace

/-! ## The two phases -/

/-- The position index names nobody twice among the first `n` positions. -/
def Distinct (s : State) (g n : Nat) : Prop :=
  ∀ i j a, i < n → j < n → posIxAt s g i = some a → posIxAt s g j = some a → i = j

/-- Members still come and go; nothing has been paid. -/
structure Gathering (s : State) (g : Nat) (grp : SaveData.Group) : Prop where
  pending : grp.status = .pending
  unstarted : grp.started = false
  unpaid : ∀ c, s.persistent (.payRecip g c) = none
  distinct : Distinct s g grp.memberCount

/-- The seats are final, and the payouts made agree with them. -/
structure Paying (s : State) (g : Nat) (grp : SaveData.Group) : Prop where
  left : grp.status ≠ .pending
  key : keyAt s g ≠ .pending
  distinct : Distinct s g grp.memberCount
  seats : ∀ c a, payRecipAt s g c = some a → c < grp.memberCount ∧ posIxAt s g c = some a

/-- The group cannot pay: it has no token, or left `Pending` with nobody in it. -/
def Barred (s : State) (g : Nat) (grp : SaveData.Group) : Prop :=
  s.persistent (.grpTok g) = none ∨ grp.memberCount = 0 ∧ grp.status ≠ .pending

/-- Where a stored group stands. -/
def Phase (s : State) (g : Nat) (grp : SaveData.Group) : Prop :=
  Barred s g grp ∨ Gathering s g grp ∨ Paying s g grp

/-- Distinct cycles, distinct recipients. -/
def PaidOnce (s : State) (g : Nat) : Prop :=
  ∀ c c' a, payRecipAt s g c = some a → payRecipAt s g c' = some a → c = c'

/-- **THE INVARIANT** of one group. -/
structure Rotation (s : State) (g : Nat) : Prop where
  roster : TypedAt MemberMap s.persistent (.grpMbrs g)
  noted : ∀ c, s.persistent (.payout g c) ≠ none → s.persistent (.payRecip g c) ≠ none
  once : PaidOnce s g
  fresh : lastId s < g → s.persistent (.grpTok g) = none
  phase : ∀ grp, groupAt s g = some grp → Phase s g grp

/-- Payout records that are there stay as they are. -/
def Kept (s t : State) (g : Nat) : Prop :=
  ∀ c record, s.persistent (.payout g c) = some record → t.persistent (.payout g c) = some record

/-- What a call does that only moves the group on: the seats stay. -/
structure Onward (s t : State) (g : Nat) : Prop where
  roster : TypedAt MemberMap t.persistent (.grpMbrs g)
  token : t.persistent (.grpTok g) = s.persistent (.grpTok g)
  index : ∀ i, posIxAt t g i = posIxAt s g i
  last : lastId s ≤ lastId t
  steady : SteadyAt s t g
  forward : s.persistent (.grpTok g) ≠ none → Forward s t g

section Phases

variable {env : Env} {s t v : State} {g n : Nat} {u : Unit} {grp grp' : SaveData.Group}

/-- The order is in the index of positions. -/
theorem Distinct.congr (h : Distinct s g n) (hindex : ∀ i, posIxAt t g i = posIxAt s g i) :
    Distinct t g n := by
  intro i j a hi hj hia hja
  rw [hindex] at hia hja
  exact h i j a hi hj hia hja

/-- The recipients are pairwise distinct because the seats are. -/
theorem Distinct.paidOnce (h : Distinct s g n)
    (hseats : ∀ c a, payRecipAt t g c = some a → c < n ∧ posIxAt s g c = some a) :
    PaidOnce t g := by
  intro c c' a hc hc'
  obtain ⟨hlt, hseat⟩ := hseats c a hc
  obtain ⟨hlt', hseat'⟩ := hseats c' a hc'
  exact h c c' a hlt hlt' hseat hseat'

/-- A pending group with a token has not started. -/
theorem Rotation.unstarted (h : Rotation s g) (htoken : s.persistent (.grpTok g) ≠ none) :
    ∀ grp, groupAt s g = some grp → grp.status = .pending → grp.started = false := by
  intro grp hgrp hpend
  rcases h.phase grp hgrp with (hbar | hbar) | hgather | hpay
  · exact absurd hbar htoken
  · exact absurd hpend hbar.2
  · exact hgather.unstarted
  · exact absurd hpend hpay.left

/-- **MOVING ON**, with nothing paid: a gathering group may start paying, a
    paying one goes on, a barred one stays barred. -/
theorem Onward.phase (ho : Onward s t g) (hgrp : groupAt s g = some grp)
    (hgrp' : groupAt t g = some grp')
    (hpaid : ∀ c, t.persistent (.payRecip g c) = s.persistent (.payRecip g c))
    (h : Phase s g grp) : Phase t g grp' := by
  -- without a token, without a status or while gathering: the phases one by one
  by_cases htoken : s.persistent (.grpTok g) = none
  · exact Or.inl (Or.inl (ho.token.trans htoken))
  obtain ⟨_, hgrp₀, hcount, hstart⟩ := ho.steady grp' hgrp'
  rw [hgrp] at hgrp₀
  obtain rfl := Option.some.inj hgrp₀
  obtain ⟨hback, hkey⟩ :=
    ho.forward htoken _ _ (recordStatus_of_group hgrp) (recordStatus_of_group hgrp')
  -- the order is in the index, which stays
  have hdistinct : Distinct s g grp.memberCount → Distinct t g grp'.memberCount := by
    intro hd
    rw [hcount]
    exact hd.congr ho.index
  rcases h with (hbar | hbar) | hgather | hpay
  · exact absurd hbar htoken
  · exact Or.inl (Or.inr ⟨hcount.trans hbar.1, fun he => hbar.2 (hback he)⟩)
  · -- a group that stops gathering starts paying with no payout on record
    have hunpaid : ∀ c, t.persistent (.payRecip g c) = none :=
      fun c => (hpaid c).trans (hgather.unpaid c)
    by_cases hpend : grp'.status = .pending
    · exact Or.inr (Or.inl ⟨hpend, (hstart hpend).trans hgather.unstarted, hunpaid,
        hdistinct hgather.distinct⟩)
    · refine Or.inr (Or.inr ⟨hpend, hkey hpend (Or.inl hgather.pending),
        hdistinct hgather.distinct, fun c a hca => ?_⟩)
      rw [readAt_eq_some, hunpaid] at hca
      cases hca
  -- a group that pays goes on paying
  · have hleft : grp'.status ≠ .pending := fun he => hpay.left (hback he)
    refine Or.inr (Or.inr ⟨hleft, hkey hleft (Or.inr hpay.key), hdistinct hpay.distinct,
      fun c a hca => ?_⟩)
    rw [payRecipAt, readAt_congr (hpaid c)] at hca
    rw [hcount, ho.index]
    exact hpay.seats c a hca

/-- A call that neither pays nor hands out a token: only the phase is left to
    see to. -/
theorem Rotation.reseat (h : Rotation s g) (hroster : TypedAt MemberMap t.persistent (.grpMbrs g))
    (htoken : t.persistent (.grpTok g) = s.persistent (.grpTok g)) (hlast : lastId s ≤ lastId t)
    (hpayout : ∀ c, t.persistent (.payout g c) = s.persistent (.payout g c))
    (hpaid : ∀ c, t.persistent (.payRecip g c) = s.persistent (.payRecip g c))
    (hphase : s.persistent (.grpTok g) ≠ none → ∀ grp, groupAt t g = some grp → Phase t g grp) :
    Rotation t g ∧ Kept s t g := by
  refine ⟨⟨hroster, fun c hc => ?_, fun c c' a hc hc' => ?_, fun hlt => ?_, fun grp hgrp => ?_⟩,
    fun c record hc => (hpayout c).trans hc⟩
  · rw [hpaid]
    rw [hpayout] at hc
    exact h.noted c hc
  · rw [payRecipAt, readAt_congr (hpaid _)] at hc hc'
    exact h.once c c' a hc hc'
  · exact htoken.trans (h.fresh (Nat.lt_of_le_of_lt hlast hlt))
  · by_cases hbar : s.persistent (.grpTok g) = none
    · exact Or.inl (Or.inl (htoken.trans hbar))
    · exact hphase hbar grp hgrp

/-- A call that pays nothing. -/
theorem Rotation.unpaid (h : Rotation s g) (ho : Onward s t g)
    (hpayout : ∀ c, t.persistent (.payout g c) = s.persistent (.payout g c))
    (hpaid : ∀ c, t.persistent (.payRecip g c) = s.persistent (.payRecip g c)) :
    Rotation t g ∧ Kept s t g := by
  refine h.reseat ho.roster ho.token ho.last hpayout hpaid fun _ grp' hgrp' => ?_
  obtain ⟨grp, hgrp, -⟩ := ho.steady grp' hgrp'
  exact ho.phase hgrp hgrp' hpaid (h.phase grp hgrp)

/-- **A PAYOUT** goes to the seat of the cycle, and to a cycle that had none. -/
theorem Rotation.paid {recipient : Address} {amount : Int} (h : Rotation s g) (ho : Onward s t g)
    (hp : PaysOut s v g grp recipient amount)
    (hpayout : ∀ c, t.persistent (.payout g c) = v.persistent (.payout g c))
    (hpaid : ∀ c, t.persistent (.payRecip g c) = v.persistent (.payRecip g c)) :
    Rotation t g ∧ Kept s t g := by
  obtain ⟨config, hconfig, -⟩ := hp.sent
  obtain ⟨record, hrecord⟩ := hp.payout
  have htoken : s.persistent (.grpTok g) ≠ none := by
    rw [(readAt_eq_some _ _ _).mp hconfig]
    exact Option.some_ne_none _
  -- a group that pays has a token, a member and an active record
  have hpaying : Paying s g grp := by
    rcases h.phase grp hp.group with (hbar | hbar) | hgather | hpay
    · exact absurd hbar htoken
    · have hlt := hp.seat.2
      rw [hbar.1] at hlt
      exact absurd hlt (Nat.not_lt_zero _)
    · have hpend := hgather.pending
      rw [hp.active] at hpend
      cases hpend
    · exact hpay
  have hat : ∀ c, payRecipAt t g c
      = if c = grp.currentCycle then some recipient else payRecipAt s g c := by
    intro c
    simp only [payRecipAt, readAt]
    rw [hpaid, hp.payRecip]
    by_cases hc : c = grp.currentCycle
    · rw [if_pos hc, if_pos hc]
      exact decode_encode recipient
    · rw [if_neg hc, if_neg hc]
  have hseats : ∀ c a, payRecipAt t g c = some a →
      c < grp.memberCount ∧ posIxAt s g c = some a := by
    intro c a hca
    rw [hat] at hca
    by_cases hc : c = grp.currentCycle
    · rw [if_pos hc] at hca
      obtain rfl := Option.some.inj hca
      rw [hc]
      exact ⟨hp.seat.2, hp.seat.1⟩
    · rw [if_neg hc] at hca
      exact hpaying.seats c a hca
  have hafter : ∀ grp', groupAt t g = some grp' → Paying t g grp' := by
    intro grp' hgrp'
    obtain ⟨_, hgrp₀, hcount, -⟩ := ho.steady grp' hgrp'
    rw [hp.group] at hgrp₀
    obtain rfl := Option.some.inj hgrp₀
    obtain ⟨hback, hkey⟩ :=
      ho.forward htoken _ _ (recordStatus_of_group hp.group) (recordStatus_of_group hgrp')
    have hleft : grp'.status ≠ .pending := fun he => hpaying.left (hback he)
    refine ⟨hleft, hkey hleft (Or.inr hpaying.key), ?_, fun c a hca => ?_⟩
    · rw [hcount]
      exact hpaying.distinct.congr ho.index
    · rw [hcount, ho.index]
      exact hseats c a hca
  refine ⟨⟨ho.roster, fun c hc => ?_, hpaying.distinct.paidOnce hseats, fun hlt => ?_,
    fun grp' hgrp' => ?_⟩, fun c r hc => ?_⟩
  · rw [hpaid, hp.payRecip]
    rw [hpayout, hrecord] at hc
    by_cases hcur : c = grp.currentCycle
    · rw [if_pos hcur]
      exact Option.some_ne_none _
    · rw [if_neg hcur] at hc ⊢
      exact h.noted c hc
  · exact absurd (ho.token.trans (h.fresh (Nat.lt_of_le_of_lt ho.last hlt))) (ho.token ▸ htoken)
  · exact Or.inr (Or.inr (hafter grp' hgrp'))
  · rw [hpayout, hrecord]
    by_cases hcur : c = grp.currentCycle
    · have hnone := h.noted c (by rw [hc]; exact Option.some_ne_none _)
      rw [hcur] at hnone
      exact absurd hp.unpaid hnone
    · rw [if_neg hcur]
      exact hc

end Phases

/-! ## Who sits where -/

section Seats

variable {env : Env} {s t : State} {g : Nat} {u : Unit} {member : Address}

/-- One more seat, for somebody without one. -/
theorem Distinct.seat {n : Nat} {a : Address} (h : Distinct s g n)
    (hnew : ∀ i, i < n → posIxAt s g i ≠ some a)
    (hindex : ∀ i, posIxAt t g i = if i = n then some a else posIxAt s g i) :
    Distinct t g (n + 1) := by
  intro i j b hi hj hib hjb
  rw [hindex] at hib hjb
  by_cases hin : i = n
  · by_cases hjn : j = n
    · rw [hin, hjn]
    · rw [if_pos hin] at hib
      rw [if_neg hjn, ← hib] at hjb
      exact absurd hjb (hnew j (by omega))
  · by_cases hjn : j = n
    · rw [if_pos hjn] at hjb
      rw [if_neg hin, ← hjb] at hib
      exact absurd hib (hnew i (by omega))
    · rw [if_neg hin] at hib
      rw [if_neg hjn] at hjb
      exact h i j b (by omega) (by omega) hib hjb

/-- One seat less. -/
theorem Distinct.unseat {n m p : Nat} (h : Distinct s g n) (hle : m ≤ n)
    (hindex : ∀ i, posIxAt t g i = if i = p then none else posIxAt s g i) : Distinct t g m := by
  intro i j b hi hj hib hjb
  have hold : ∀ k, posIxAt t g k = some b → posIxAt s g k = some b := by
    intro k hk
    rw [hindex] at hk
    by_cases hkp : k = p
    · rw [if_pos hkp] at hk
      cases hk
    · rwa [if_neg hkp] at hk
  exact h i j b (by omega) (by omega) (hold i hib) (hold j hjb)

/-- **JOINING** a group that has a token: the newcomer holds no seat yet. -/
theorem join_rotation {referrer : Option Address} (hrot : Rotation s g)
    (hnew : s.persistent (.grpTok g) ≠ none → ∀ grp, groupAt s g = some grp →
      ∀ i, i < grp.memberCount → posIxAt s g i ≠ some member)
    (h : joinGroup g member referrer env s = .ok u t) : Rotation t g ∧ Kept s t g := by
  have hframe := (Within.agree_ok (w := Call.footprint (.joinGroup g member referrer)) h).persistent
  obtain ⟨grp, hopen, rfl⟩ := joinGroup_ok h
  obtain ⟨hgroup, -, -, -, hindex⟩ :=
    joined_views (s := s) (g := g) member grp env.timestamp referrer
  have hpaid := fun c => hframe (.payRecip g c) (by simp)
  refine hrot.reseat
    (typedAt_of_readAt (a := (rosterAt s g).insert grp.memberCount member) (by simp [joined]))
    (hframe _ (by simp)) (by simp [lastId, joined])
    (fun c => hframe _ (by simp)) hpaid fun htoken grp' hgrp' => ?_
  rw [hgroup] at hgrp'
  obtain rfl := Option.some.inj hgrp'
  rcases hrot.phase grp hopen.group with (hbar | hbar) | hgather | hpay
  · exact absurd hbar htoken
  · exact absurd hopen.pending hbar.2
  · exact Or.inr (Or.inl ⟨hgather.pending, hgather.unstarted,
      fun c => (hpaid c).trans (hgather.unpaid c),
      hgather.distinct.seat (hnew htoken grp hopen.group) hindex⟩)
  · exact absurd hopen.pending hpay.left

/-- **REMOVING** only frees a seat. -/
theorem remove_rotation (hrot : Rotation s g) (h : removeMember g member env s = .ok u t) :
    Rotation t g ∧ Kept s t g := by
  have hframe := (Within.agree_ok (w := Call.footprint (.removeMember g member)) h).persistent
  obtain ⟨grp, profile, hopen, rfl⟩ := removeMember_ok h
  obtain ⟨hgroup, -, -, -, hindex⟩ :=
    removed_views (s := s) (g := g) member grp profile.payoutPosition
  have hpaid := fun c => hframe (.payRecip g c) (by simp)
  refine hrot.reseat
    (typedAt_of_readAt (a := (rosterAt s g).erase profile.payoutPosition) (by simp [removed]))
    (hframe _ (by simp)) (by simp [lastId, removed])
    (fun c => hframe _ (by simp)) hpaid fun htoken grp' hgrp' => ?_
  rw [hgroup] at hgrp'
  obtain rfl := Option.some.inj hgrp'
  rcases hrot.phase grp hopen.group with (hbar | hbar) | hgather | hpay
  · exact absurd hbar htoken
  · exact absurd hbar.1 hopen.nonempty
  · exact Or.inr (Or.inl ⟨hgather.pending, hgather.unstarted,
      fun c => (hpaid c).trans (hgather.unpaid c),
      hgather.distinct.unseat (Nat.sub_le _ _) hindex⟩)
  · exact absurd hopen.status.2 hpay.key

/-- Nobody in the roster keeps a seat beyond it. -/
def NoStaleSeat (s : State) (g : Nat) : Prop :=
  ∀ grp, groupAt s g = some grp → ∀ p a, (rosterAt s g).size ≤ p → p < grp.memberCount →
    posIxAt s g p = some a → a ∉ (rosterAt s g).members

/-- Dealing out a permutation of the seats along a roster without repetitions. -/
theorem Distinct.deal {v : State} {n : Nat} {xs : List Address} {ps : List Nat}
    (h : Distinct v g n) (hxs : xs.Nodup) (hps : ps.Perm (List.range xs.length))
    (hstale : ∀ p a, xs.length ≤ p → p < n → posIxAt v g p = some a → a ∉ xs)
    (hre : Reseated g xs ps v t) : Distinct t g n := by
  have hmem : ∀ p, p ∈ ps.take xs.length ↔ p < xs.length := by
    intro p
    rw [List.take_of_length_le (by rw [hps.length_eq, List.length_range]), hps.mem_iff,
      List.mem_range]
  have hnew : ∀ p a, p < xs.length → posIxAt t g p = some a →
      ∃ k : Nat, ps[k]? = some p ∧ xs[k]? = some a := by
    intro p a hp ha
    obtain ⟨k, b, hk, hb, hheld⟩ := hre.held p ((hmem p).mpr hp)
    rw [ha] at hheld
    exact ⟨k, hk, (Option.some.inj hheld) ▸ hb⟩
  have hold : ∀ p, ¬ p < xs.length → posIxAt t g p = posIxAt v g p :=
    fun p hp => readAt_congr (hre.free p (mt (hmem p).mp hp))
  -- a seat dealt out and a seat left alone do not name the same person
  have hmixed : ∀ i j a, i < xs.length → ¬ j < xs.length → j < n → posIxAt t g i = some a →
      posIxAt t g j ≠ some a := by
    intro i j a hi hj hjn hia hja
    obtain ⟨k, -, hk⟩ := hnew i a hi hia
    rw [hold j hj] at hja
    exact hstale j a (Nat.le_of_not_lt hj) hjn hja (List.mem_of_getElem? hk)
  intro i j a hi hj hia hja
  by_cases hin : i < xs.length
  · by_cases hjn : j < xs.length
    · obtain ⟨k, hki, hka⟩ := hnew i a hin hia
      obtain ⟨l, hlj, hla⟩ := hnew j a hjn hja
      obtain ⟨hk, hka'⟩ := List.getElem?_eq_some_iff.mp hka
      obtain ⟨hl, hla'⟩ := List.getElem?_eq_some_iff.mp hla
      obtain rfl : k = l := (hxs.getElem_inj_iff).mp (hka'.trans hla'.symm)
      exact Option.some.inj (hki.symm.trans hlj)
    · exact absurd hja (hmixed i j a hin hjn hj hia)
  · by_cases hjn : j < xs.length
    · exact absurd hia (hmixed j i a hjn hin hi hja)
    · rw [hold i hin] at hia
      rw [hold j hjn] at hja
      exact h i j a hi hj hia hja

/-- **ASSIGNING** a permutation, along a roster without repetitions or stale
    seats. -/
theorem assign_rotation {caller : Address} {mode : AssignmentMode} (hrot : Rotation s g)
    (hmode : s.persistent (.grpTok g) ≠ none → (rosterAt s g).members.Nodup ∧
      Permutes (rosterAt s g).size mode ∧ NoStaleSeat s g)
    (h : assignPayoutPositions g caller mode env s = .ok u t) : Rotation t g ∧ Kept s t g := by
  have hagree := Within.agree_ok (w := Call.footprint (.assignPayoutPositions g caller mode)) h
  have hframe := hagree.persistent
  have hpaid := fun c => hframe (.payRecip g c) (by simp)
  have hgroup : groupAt t g = groupAt s g := readAt_congr (hframe (.grp g) (by simp))
  refine hrot.reseat (hrot.roster.congr (hframe _ (by simp))) (hframe _ (by simp))
    (lastId_eq hagree (by simp)).ge (fun c => hframe _ (by simp)) hpaid fun htoken grp hgrp => ?_
  rw [hgroup] at hgrp
  obtain ⟨hpending, positions, v, n, hlen, hperm, hsame, hloop⟩ := assignPayoutPositions_ok h
  obtain ⟨hnodup, hpermutes, hstale⟩ := hmode htoken
  have hre := assign_reseated hnodup hloop
  rw [List.drop_zero] at hre
  have hindex : ∀ p, posIxAt v g p = posIxAt s g p := fun p => readAt_congr (hsame _ (by simp))
  -- only a gathering group assigns positions, and what it deals is distinct
  rcases hrot.phase grp hgrp with (hbar | hbar) | hgather | hpay
  · exact absurd hbar htoken
  · exact Or.inl (Or.inr hbar)
  · refine Or.inr (Or.inl ⟨hgather.pending, hgather.unstarted,
      fun c => (hpaid c).trans (hgather.unpaid c), ?_⟩)
    refine (hgather.distinct.congr hindex).deal hnodup ?_ (fun p a hp hlt ha => ?_) hre
    · rw [length_members]
      exact hperm.mpr hpermutes
    · rw [length_members] at hp
      rw [hindex] at ha
      exact hstale grp hgrp p a hp hlt ha
  · exact absurd hpending hpay.key

end Seats

/-! ## Step and run -/

/-- The entries beside the record that the rotation is about. -/
def rotationKinds : List Kind := [.grpMbrs, .grpTok, .grpPosIx, .payout, .payRecip]

/-- A call accepted in this state deals the seats of `g` to one person each.
    Joining: nobody who already holds a seat.  Assigning: a permutation, over a
    roster without repetitions and without stale seats.  Groups without a token
    never pay and may do as they like. -/
def Orderly (s : State) (g : Nat) : Call → Prop
  | .joinGroup g' member _ => g' = g → s.persistent (.grpTok g) ≠ none →
      ∀ grp, groupAt s g = some grp → ∀ i, i < grp.memberCount → posIxAt s g i ≠ some member
  | .assignPayoutPositions g' _ mode => g' = g → s.persistent (.grpTok g) ≠ none →
      (rosterAt s g).members.Nodup ∧ Permutes (rosterAt s g).size mode ∧ NoStaleSeat s g
  | _ => True

/-- The same of a step. -/
def OrderlyStep (g : Nat) : Step → State → Prop
  | .call env c, s => Succeeds c.body env s → Orderly s g c
  | _, _ => True

section Runs

variable {env : Env} {s t v : State} {g : Nat} {c : Call}

/-- A call that leaves the seats and the token of the group alone. -/
theorem onward_step (hreg : Registry s) (hrot : Rotation s g) (h : c.body env s = .ok () t)
    (hc : ¬ Regroups s g c)
    (hsame : ∀ k : Key, k.group = g → k.kind ∈ [Kind.grpMbrs, .grpTok, .grpPosIx] →
      t.persistent k = s.persistent k) : Onward s t g where
  roster := hrot.roster.congr (hsame _ rfl (by simp))
  token := hsame _ rfl (by simp)
  index _ := readAt_congr (hsame _ rfl (by simp))
  last := (grows_step hreg h).last
  steady := steady_step hreg h hc
  forward htoken := forward_step hreg h (hrot.unstarted htoken)

/-- A call that leaves all these entries of the group alone. -/
theorem calm_step (hreg : Registry s) (hrot : Rotation s g) (h : c.body env s = .ok () t)
    (hc : ¬ Regroups s g c)
    (hsame : ∀ k : Key, k.group = g → k.kind ∈ rotationKinds → t.persistent k = s.persistent k) :
    Rotation t g ∧ Kept s t g := by
  refine hrot.unpaid (onward_step hreg hrot h hc fun k hk hkind => hsame k hk ?_)
    (fun c => hsame _ rfl (by simp [rotationKinds]))
    fun c => hsame _ rfl (by simp [rotationKinds])
  exact List.mem_append_left [Kind.payout, .payRecip] hkind

/-- A call that runs the executor, and leaves what it noted. -/
theorem payment_step (hreg : Registry s) (hrot : Rotation s g) (h : c.body env s = .ok () t)
    (hc : ¬ Regroups s g c) (hfoot : c.footprint = scope (payoutPlaces g) True True)
    (hnotes : NotPaid s v g ∨ ∃ grp recipient amount, PaysOut s v g grp recipient amount)
    (hpayout : ∀ c, t.persistent (.payout g c) = v.persistent (.payout g c))
    (hpaid : ∀ c, t.persistent (.payRecip g c) = v.persistent (.payRecip g c)) :
    Rotation t g ∧ Kept s t g := by
  have hagree := Within.agree_ok (w := c.footprint) h
  rw [hfoot] at hagree
  have honward : Onward s t g := by
    refine onward_step hreg hrot h hc fun k hk hkind => hagree.persistent k ?_
    exact Place.not_covered (Place.spares_of_kinds rfl) k hk hkind
  rcases hnotes with ⟨-, hp, hr⟩ | ⟨grp, recipient, amount, hp⟩
  · exact hrot.unpaid honward (fun c => (hpayout c).trans (hp c)) fun c => (hpaid c).trans (hr c)
  · exact hrot.paid honward hp hpayout hpaid

/-- A payout keeps the rotation, and the order of it. -/
theorem executePayout_rotation (hreg : Registry s) (hrot : Rotation s g)
    (h : executePayout g env s = .ok () t) : Rotation t g ∧ Kept s t g :=
  payment_step (c := .executePayout g) hreg hrot h not_false rfl
    (executePayout_notes hrot.roster (Or.inl ⟨(), h⟩)) (fun _ => rfl) fun _ => rfl

/-- So does a tick. -/
theorem tick_rotation (hreg : Registry s) (hrot : Rotation s g) (h : tick g env s = .ok () t) :
    Rotation t g ∧ Kept s t g := by
  obtain ⟨grp, v, -, -, -, hpay, hset⟩ := tick_ok h
  have hnotes : NotPaid s v g ∨ ∃ grp recipient amount, PaysOut s v g grp recipient amount := by
    rcases hpay with ⟨-, rfl⟩ | ⟨-, hends⟩
    · exact Or.inl ⟨rfl, fun _ => rfl, fun _ => rfl⟩
    · exact executePayout_notes hrot.roster hends
  refine payment_step (c := .tick g) hreg hrot h not_false rfl hnotes (fun c => ?_) fun c => ?_
  · simp [← hset]
  · simp [← hset]

/-- A group just created is empty and not `Pending`. -/
theorem born_rotation (hrot : Rotation s g) (h : c.body env s = .ok () t) (hc : Creates c)
    (hg : g = lastId s + 1) : Rotation t g ∧ Kept s t g := by
  obtain ⟨grp, config, l, rfl, hcount, hstatus⟩ := creates_ok h hc
  -- a new group's keys are none of those that tell of payouts
  have hsame : ∀ k : Key, k.kind ∈ [Kind.grpMbrs, .payout, .payRecip] →
      ((created s grp config).setLedger l).persistent k = s.persistent k := by
    intro k hk
    show (created s grp config).persistent k = s.persistent k
    rw [created]
    iterate 4 rw [persistent_set_of_mem hk (by simp)]
  have hpayout := fun c => hsame (.payout g c) (by simp)
  have hpaid := fun c => hsame (.payRecip g c) (by simp)
  refine ⟨⟨hrot.roster.congr (hsame _ (by simp)), fun c hc => ?_, fun c c' a hc hc' => ?_,
    fun hlt => ?_, fun grp' hgrp' => ?_⟩, fun c record hc => (hpayout c).trans hc⟩
  · rw [hpaid]
    rw [hpayout] at hc
    exact hrot.noted c hc
  · rw [payRecipAt, readAt_congr (hpaid _)] at hc hc'
    exact hrot.once c c' a hc hc'
  · have hlast : lastId ((created s grp config).setLedger l) = lastId s + 1 :=
      lastId_created grp config
    omega
  -- the new record has no members and is active, so that it rotates nobody
  · have hborn : groupAt ((created s grp config).setLedger l) g = some grp := by
      simp [groupAt, created, hg]
    rw [hborn] at hgrp'
    obtain rfl := Option.some.inj hgrp'
    exact Or.inl (Or.inr ⟨hcount, by rw [hstatus]; decide⟩)

/-- So does the creation of a group, for the others and for the new one. -/
theorem creates_rotation (hreg : Registry s) (hrot : Rotation s g) (h : c.body env s = .ok () t)
    (hc : Creates c) (hold : ¬ Regroups s g c ∨ g = lastId s + 1) : Rotation t g ∧ Kept s t g := by
  by_cases hg : g = lastId s + 1
  · exact born_rotation hrot h hc hg
  · refine calm_step hreg hrot h (hold.resolve_right hg) fun k hk hkind => ?_
    obtain ⟨grp, config, l, rfl, -⟩ := creates_ok h hc
    have hne : k ≠ .grpTok (lastId s + 1) := by
      rintro rfl
      exact hg hk.symm
    show (created s grp config).persistent k = s.persistent k
    rw [created, HostState.set_persistent, if_neg hne]
    iterate 3 rw [persistent_set_of_mem hkind (by simp [rotationKinds])]

/-- A merged group has no token. -/
theorem merge_rotation {g₁ g₂ : Nat} (hreg : Registry s) (hrot : Rotation s g)
    (h : (Call.mergeGroups g₁ g₂).body env s = .ok () t) : Rotation t g ∧ Kept s t g := by
  obtain ⟨n, hn⟩ := quietly_ok.mp h
  have hframe := (Within.agree_ok (w := Call.footprint (.mergeGroups g₁ g₂)) hn).persistent
  by_cases hg : g = lastId s + 1
  · refine hrot.reseat ?_ (hframe _ (by simp)) (grows_step hreg h).last
      (fun c => hframe _ (by simp))
      (fun c => hframe _ (by simp)) fun htoken => ?_
    · exact hg ▸ typedAt_of_readAt (mergeGroups_roster hn)
    · exact absurd (hrot.fresh (hg ▸ Nat.lt_succ_self _)) htoken
  · refine calm_step hreg hrot h hg fun k hk hkind => ?_
    refine mergeGroups_frame hn k (hk ▸ hg) ⟨fun he => ?_, fun he => ?_⟩
    · rw [he] at hkind
      exact absurd hkind (by decide)
    · rw [he] at hkind
      exact absurd hkind (by decide)

/-- **ONE CALL**, orderly, keeps the rotation and every payout record. -/
theorem rotation_step (hreg : Registry s) (hrot : Rotation s g) (hc : Orderly s g c)
    (h : c.body env s = .ok () t) : Rotation t g ∧ Kept s t g := by
  have hagree := Within.agree_ok (w := c.footprint) h
  cases c with
  | createGroup creator amount duration maxMembers tok grace order =>
      exact creates_rotation hreg hrot h trivial (Classical.em (g = lastId s + 1)).symm
  | cloneGroup caller g' o =>
      exact creates_rotation hreg hrot h trivial (Classical.em (g = lastId s + 1)).symm
  | mergeGroups g₁ g₂ => exact merge_rotation hreg hrot h
  | joinGroup g' member referrer =>
      by_cases hg : g' = g
      · subst hg
        exact join_rotation hrot (hc rfl) h
      · exact calm_step hreg hrot h hg fun k hk hkind => hagree.persistent k
          (Place.not_covered (by simp [Place.Spares, hg]) k hk hkind)
  | removeMember g' member =>
      by_cases hg : g' = g
      · subst hg
        exact remove_rotation hrot h
      · exact calm_step hreg hrot h hg fun k hk hkind => hagree.persistent k
          (Place.not_covered (by simp [Place.Spares, hg]) k hk hkind)
  | assignPayoutPositions g' caller mode =>
      by_cases hg : g' = g
      · subst hg
        exact assign_rotation hrot (hc rfl) h
      · exact calm_step hreg hrot h not_false fun k hk hkind => hagree.persistent k
          (Place.not_covered (by simp [Place.Spares, hg]) k hk hkind)
  | executePayout g' =>
      by_cases hg : g' = g
      · subst hg
        exact executePayout_rotation hreg hrot h
      · exact calm_step hreg hrot h not_false fun k hk hkind => hagree.persistent k
          (Place.not_covered (by simp [Place.Spares, rotationKinds, hg]) k hk hkind)
  | tick g' =>
      by_cases hg : g' = g
      · subst hg
        exact tick_rotation hreg hrot h
      · exact calm_step hreg hrot h not_false fun k hk hkind => hagree.persistent k
          (Place.not_covered (by simp [Place.Spares, rotationKinds, hg]) k hk hkind)
  | _ =>
      exact calm_step hreg hrot h not_false fun k hk hkind => hagree.persistent k
        (Place.not_covered (Place.spares_of_kinds rfl) k hk hkind)

/-- Nothing here depends on the temporary entries or the ledger. -/
theorem Rotation.onward (hrot : Rotation s g) (h : t.persistent = s.persistent) :
    Onward s t g where
  roster := h ▸ hrot.roster
  token := by rw [h]
  index i := readAt_congr (by rw [h])
  last := by
    simp only [lastId]
    rw [h]
  steady := SteadyAt.of_same (by rw [h])
  forward _ := forward_of_still (Still.of_persistent (fun j => by rw [h]) fun j => by rw [h])

/-- One step. -/
theorem rotation_apply (x : Step) (hx : OrderlyStep g x s) (hreg : Registry s)
    (hrot : Rotation s g) : Rotation (apply x s) g ∧ Kept s (apply x s) g := by
  cases x with
  | call env c =>
      rcases commit_eq_or c env s with ⟨t, ht, he⟩ | ⟨-, he⟩
      · rw [show apply (.call env c) s = t from he]
        exact rotation_step hreg hrot (hx ⟨(), t, ht⟩) ht
      · rw [show apply (.call env c) s = s from he]
        exact ⟨hrot, fun _ _ hc => hc⟩
  | expire => exact hrot.unpaid (hrot.onward rfl) (fun _ => rfl) fun _ => rfl
  | external l => exact hrot.unpaid (hrot.onward rfl) (fun _ => rfl) fun _ => rfl

/-- Along an orderly run. -/
theorem rotation_run {steps : List Step} (hreg : Registry s) (hrot : Rotation s g)
    (hrun : Along apply (OrderlyStep g) steps s) :
    (Registry (run steps s) ∧ Rotation (run steps s) g) ∧ Kept s (run steps s) g :=
  exec_invariant (I := fun t => (Registry t ∧ Rotation t g) ∧ Kept s t g)
    (fun x t hx ht =>
      have hnext := rotation_apply x hx ht.1.1 ht.1.2
      ⟨⟨registry_apply x t ht.1.1, hnext.1⟩,
        fun c record hc => hnext.2 c record (ht.2 c record hc)⟩)
    ⟨⟨hreg, hrot⟩, fun _ _ hc => hc⟩ hrun

/-- **ONE PAYOUT EACH**: along every orderly run, distinct cycles go to distinct
    members, and a payout record, once there, is never written again. -/
theorem one_payout_each (s : State) (g : Nat) (hreg : Registry s) (hrot : Rotation s g)
    (steps : List Step) (hrun : Along apply (OrderlyStep g) steps s) :
    PaidOnce (run steps s) g ∧
      ∀ xs ys, steps = xs ++ ys → Kept (run xs s) (run steps s) g := by
  refine ⟨(rotation_run hreg hrot hrun).1.2.once, ?_⟩
  rintro xs ys rfl
  obtain ⟨hxs, hys⟩ := (along_append apply (OrderlyStep g) xs ys s).mp hrun
  obtain ⟨⟨hreg', hrot'⟩, -⟩ := rotation_run hreg hrot hxs
  have hjoin : run (xs ++ ys) s = run ys (run xs s) := exec_append apply xs ys s
  rw [hjoin]
  exact (rotation_run hreg' hrot' hys).2

end Runs

/-! A pair gathers, is seated, starts and pays twice. -/

/-- Group `1`, open, with a token of which the contract holds `400`. -/
def fundedOpen : State :=
  (((deployed fun tok => if tok = ⟨9⟩ then some (heldToken 400) else none).set
    .cntNextG (Codec.encode (U64.mk 1))).set
    (.grp 1) (Codec.encode openGroup)).set
    (.grpTok 1) (Codec.encode (TokenConfig.mk ⟨9⟩ 7))

/-- Two members join it. -/
def fundedSolo : State := commit (joinGroup 1 ⟨1⟩ none) trioEnv fundedOpen
def fundedDuo : State := commit (joinGroup 1 ⟨2⟩ none) trioEnv fundedSolo

/-- Seats by `mode`, then two cycles; the guard, never given back, has to run
    out in between. -/
def twoCycles (mode : AssignmentMode) : List Step :=
  [.call trioEnv (.assignPayoutPositions 1 ⟨1⟩ mode), .call trioEnv (.activateGroup 1 ⟨1⟩),
    .call trioEnv (.contributeWithProof 1 ⟨1⟩ 100), .call trioEnv (.contributeWithProof 1 ⟨2⟩ 100),
    .call trioEnv (.executePayout 1), .expire,
    .call trioEnv (.contributeWithProof 1 ⟨1⟩ 100), .call trioEnv (.contributeWithProof 1 ⟨2⟩ 100),
    .call trioEnv (.executePayout 1)]

section Pair

/-- The only group. -/
theorem fundedOpen_group {g : Nat} {grp : SaveData.Group} (h : groupAt fundedOpen g = some grp) :
    g = 1 ∧ grp = openGroup := by
  by_cases hg : g = 1
  · subst hg
    exact ⟨rfl, Option.some.inj (h.symm.trans (rfl : groupAt fundedOpen 1 = some openGroup))⟩
  · have hnone : groupAt fundedOpen g = none := by
      simp [fundedOpen, groupAt, hg, deployed, readAt]
    rw [hnone] at h
    cases h

/-- The registry of the example. -/
theorem fundedOpen_registry : Registry fundedOpen where
  own g grp h := by
    obtain ⟨rfl, rfl⟩ := fundedOpen_group h
    rfl
  below g hg := by
    have hne : g ≠ 1 := fun he => absurd hg (he ▸ Nat.lt_irrefl 1)
    exact ⟨by simp [fundedOpen, groupAt, hne, deployed, readAt],
      by simp [fundedOpen, statusAt, deployed, readAt]⟩

/-- Its group has not begun to rotate. -/
theorem fundedOpen_rotation : Rotation fundedOpen 1 where
  roster := typedAt_of_none rfl
  noted _ hc := absurd rfl hc
  once c _ _ hc := absurd hc (by simp [fundedOpen, deployed, readAt])
  fresh hlt := absurd hlt (Nat.lt_irrefl 1)
  phase grp h := by
    obtain ⟨-, rfl⟩ := fundedOpen_group h
    exact Or.inr (Or.inl ⟨rfl, rfl, fun _ => rfl, fun i _ _ hi => absurd hi (Nat.not_lt_zero i)⟩)

/-- One joins. -/
theorem solo_joins : joinGroup 1 ⟨1⟩ none trioEnv fundedOpen = .ok () fundedSolo := rfl

/-- Another does. -/
theorem duo_joins : joinGroup 1 ⟨2⟩ none trioEnv fundedSolo = .ok () fundedDuo := rfl

/-- The registry stays in order. -/
theorem fundedDuo_registry : Registry fundedDuo :=
  registry_step (c := .joinGroup 1 ⟨2⟩ none)
    (registry_step (c := .joinGroup 1 ⟨1⟩ none) fundedOpen_registry solo_joins) duo_joins

/-- So does the roster. -/
theorem fundedDuo_wellFormed : WellFormed fundedDuo 1 := by
  have hopen : WellFormed fundedOpen 1 :=
    ⟨⟨openGroup, rfl, rfl⟩, fun _ ha => absurd rfl ha, Seating.seated_nil, fun _ => rfl⟩
  have hsolo : WellFormed fundedSolo 1 := (join_wellFormed_iff hopen solo_joins).mpr rfl
  exact (join_wellFormed_iff hsolo duo_joins).mpr rfl

/-- And the rotation has not begun. -/
theorem fundedDuo_rotation : Rotation fundedDuo 1 := by
  have hsolo : Rotation fundedSolo 1 := by
    refine (join_rotation fundedOpen_rotation (fun _ grp hgrp i hi => ?_) solo_joins).1
    obtain ⟨-, rfl⟩ := fundedOpen_group hgrp
    exact absurd hi (Nat.not_lt_zero i)
  refine (join_rotation hsolo (fun _ grp hgrp i hi => ?_) duo_joins).1
  have hone : groupAt fundedSolo 1 = some { openGroup with memberCount := 1 } := rfl
  rw [hone] at hgrp
  obtain rfl := Option.some.inj hgrp
  obtain rfl := Nat.lt_one_iff.mp hi
  decide

/-- **THE SAME MEMBER TWICE**: the creator may list position `0` for both; the
    second keeps position `1` as well and receives both payouts. -/
theorem second_member_paid_twice :
    WellFormed fundedDuo 1 ∧ Registry fundedDuo ∧ Rotation fundedDuo 1 ∧
      ¬ PaidOnce (run (twoCycles (.manual [0, 0])) fundedDuo) 1 := by
  refine ⟨fundedDuo_wellFormed, fundedDuo_registry, fundedDuo_rotation, fun honce => ?_⟩
  have hfirst : payRecipAt (run (twoCycles (.manual [0, 0])) fundedDuo) 1 0 = some ⟨2⟩ := rfl
  have hsecond : payRecipAt (run (twoCycles (.manual [0, 0])) fundedDuo) 1 1 = some ⟨2⟩ := rfl
  exact absurd (honce 0 1 ⟨2⟩ hfirst hsecond) (by decide)

/-- The theorem for the sequential mode, where each of the two is paid. -/
theorem one_payout_each_instance :
    (payRecipAt (run (twoCycles .sequential) fundedDuo) 1 0 = some ⟨1⟩ ∧
      payRecipAt (run (twoCycles .sequential) fundedDuo) 1 1 = some ⟨2⟩) ∧
      PaidOnce (run (twoCycles .sequential) fundedDuo) 1 := by
  refine ⟨⟨rfl, rfl⟩, (one_payout_each fundedDuo 1 fundedDuo_registry fundedDuo_rotation
    (twoCycles .sequential) ?_).1⟩
  refine ⟨fun _ _ _ => ⟨?_, trivial, fun grp hgrp p a hle hlt => ?_⟩, fun _ => trivial,
    fun _ => trivial, fun _ => trivial, fun _ => trivial, trivial, fun _ => trivial,
    fun _ => trivial, fun _ => trivial, trivial⟩
  · exact fundedDuo_wellFormed.seated.nodup
  · have htwo : groupAt fundedDuo 1 = some { openGroup with memberCount := 2 } := rfl
    rw [htwo] at hgrp
    obtain rfl := Option.some.inj hgrp
    exact absurd (Nat.lt_of_le_of_lt hle hlt) (Nat.lt_irrefl 2)

end Pair

end SaveRotation
