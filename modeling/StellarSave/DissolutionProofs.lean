import StellarSave.RotationProofs
import StellarSave.TallyProofs
import StellarSave.RefundGateProofs

/-! # Dissolution — everybody votes, then everybody is refunded once

    `execute_dissolution` sweeps the roster, sends back what the members paid
    into the current cycle and reports a total in its event.  It passes over
    whoever is recorded as the recipient of the cycle of its own position, and
    whoever holds a refund record already.

    Votes are flags and a counter.  Members join only while the record is
    pending and leave only while the status key is, and a vote needs a key
    that is neither: along runs of votes and membership changes a flag never
    outlives a membership. -/

namespace SaveDissolution

open HostProg Footprint TokenLedger SaveData SaveRefund SaveMembership SaveCall SaveRoster Seating
open SaveStatus SaveRefundGate SaveRotation Tally Trace

/-! ## The total of the sweep -/

/-- One member of the sweep, with the running total of the event. -/
def refundReporting (g currentCycle : Nat) (tok : Address) (time : Nat) (total : Int)
    (member : Address) : SaveM Int := do
  let position : Option U32 ← getOpt (.mbrPElig g member)
  onOption position (pure total) fun position => do
    let recipient : Option Address ← getOpt (.payRecip g position.val)
    if recipient ≠ some member then do
      let record : Option ContributionRecord ← getOpt (.contrib g currentCycle member)
      onOption record (pure total) fun record => do
        let refunded ← has (.refund g currentCycle member)
        if refunded = false then do
          put (.refund g currentCycle member)
            (RefundRecord.mk g member currentCycle record.amount time)
          tokenTransfer tok contractAddress member record.amount
          pure (saturatingI128 (total + record.amount))
        else pure total
    else pure total

/-- `execute_dissolution`, ending with the total it reports. -/
def dissolutionReport (g : Nat) (grp : Group) : SaveM Int := do
  put (.grp g) { grp with status := .cancelled, isActive := false }
  put (.grpStat g) GroupStatus.cancelled
  let config : TokenConfig ← getOr (.grpTok g) .groupNotFound
  let time ← now
  let roster : MemberMap ← getD (.grpMbrs g) ∅
  foldEach (refundReporting g grp.currentCycle config.tokenAddress time) 0 roster.members

section Report

variable {env : Env} {s t : State} {g c time : Nat} {tok member : Address} {u : Unit}

/-- Without the total it is the sweep of the model. -/
theorem refundReporting_quiet (total : Int) :
    refundOnDissolution g c tok time member env s = .ok u t ↔
      ∃ n, refundReporting g c tok time total member env s = .ok n t := by
  simp [refundOnDissolution, refundReporting]
  intro _
  cases readAt U32 s.persistent (.mbrPElig g member) with
  | none => simp
  | some position =>
      by_cases hpaid : readAt Address s.persistent (.payRecip g position.val) = some member
      · simp [hpaid]
      · cases readAt ContributionRecord s.persistent (.contrib g c member) with
        | none => simp [hpaid]
        | some record =>
            by_cases hfree : s.persistent (.refund g c member) = none
            · simp [hpaid, hfree]
            · simp [hpaid, hfree]

/-- The sweep of a dissolution is the reporting one without the report. -/
theorem sweep_quiet {members : List Address} (total : Int) :
    forEach (refundOnDissolution g c tok time) members env s = .ok u t ↔
      ∃ n, foldEach (refundReporting g c tok time) total members env s = .ok n t := by
  induction members generalizing s total with
  | nil => simp
  | cons a members ih =>
      simp only [forEach_cons, foldEach_cons, bind_ok]
      constructor
      · rintro ⟨⟨⟩, v, hfirst, hrest⟩
        obtain ⟨m, hm⟩ := (refundReporting_quiet total).mp hfirst
        obtain ⟨n, hn⟩ := (ih m).mp hrest
        exact ⟨n, m, v, hm, hn⟩
      · rintro ⟨n, m, v, hm, hn⟩
        exact ⟨(), v, (refundReporting_quiet total).mpr ⟨m, hm⟩, (ih m).mpr ⟨n, hn⟩⟩

end Report

/-! ## What the sweep owes -/

/-- The member is recorded as the recipient of the cycle of its own position. -/
def paidInTurn (s : State) (g : Nat) (a : Address) : Bool :=
  decide ((eligAt s g a).bind (fun p => payRecipAt s g p.val) = some a)

/-- A member's contribution to the cycle, unless it was refunded before. -/
def unrefunded (s : State) (g c : Nat) (a : Address) : Int :=
  if (s.persistent (.refund g c a)).isSome then 0
  else ((contribAt s g c a).map ContributionRecord.amount).getD 0

/-- What the sweep owes a member: nothing once it was paid in its turn. -/
def owed (s : State) (g c : Nat) (a : Address) : Int :=
  if paidInTurn s g a = true then 0 else unrefunded s g c a

/-- The sweep of the members `xs` of cycle `c`, from `s` with the running total
    `total`, to `t` with the total `n`. -/
structure Swept (g c : Nat) (tok : Address) (xs : List Address) (s t : State) (total n : Int) :
    Prop where
  frame : ∀ k, (∀ a ∈ xs, k ≠ .refund g c a) → t.persistent k = s.persistent k
  nonneg : ∀ a ∈ xs, 0 ≤ owed s g c a
  marked : ∀ a ∈ xs, owed s g c a ≠ 0 → t.persistent (.refund g c a) ≠ none
  received : ∀ a, a ≠ contractAddress → Book.holding t.ledger tok a
    = Book.holding s.ledger tok a + if a ∈ xs then owed s g c a else 0
  others : ∀ tok' a, tok' ≠ tok → Book.holding t.ledger tok' a = Book.holding s.ledger tok' a
  sent : escrow t tok + (xs.map (owed s g c)).sum = escrow s tok
  reported : 0 ≤ total → total + escrow s tok < i128Bound →
    n = total + (xs.map (owed s g c)).sum

section Sweep

variable {env : Env} {s t : State} {g c time : Nat} {tok member : Address} {total n : Int}

/-- What is owed to a member depends on seat, payouts, record and refund. -/
theorem owed_congr {a : Address}
    (helig : t.persistent (.mbrPElig g a) = s.persistent (.mbrPElig g a))
    (hpaid : ∀ p, t.persistent (.payRecip g p) = s.persistent (.payRecip g p))
    (hcontrib : t.persistent (.contrib g c a) = s.persistent (.contrib g c a))
    (hrefund : t.persistent (.refund g c a) = s.persistent (.refund g c a)) :
    owed t g c a = owed s g c a := by
  have hturn : paidInTurn t g a = paidInTurn s g a := by
    simp only [paidInTurn, eligAt, payRecipAt, readAt_congr helig, readAt_congr (hpaid _)]
  simp only [owed, unrefunded, contribAt, hturn, hrefund, readAt_congr hcontrib]

/-- Nothing is owed any more after a refund. -/
theorem owed_of_refunded {a : Address} (h : s.persistent (.refund g c a) ≠ none) :
    owed s g c a = 0 := by
  have hzero : unrefunded s g c a = 0 := if_pos (Option.isSome_iff_ne_none.mpr h)
  rw [owed, hzero, ite_self]

/-- One member, who has a position: passed over and owed nothing, or refunded
    what is owed. -/
theorem refundReporting_ok (helig : eligAt s g member ≠ none)
    (h : refundReporting g c tok time total member env s = .ok n t) :
    (owed s g c member = 0 ∧ n = total ∧ t = s) ∨
      ∃ l r, Book.transfer s.ledger tok contractAddress member (owed s g c member) = some l ∧
        n = saturatingI128 (total + owed s g c member) ∧
        t = (s.set (.refund g c member) r).setLedger l := by
  simp [refundReporting] at h
  -- no position, paid in its turn, or a record to look at
  obtain ⟨-, ⟨hnone, -⟩ | ⟨p, hp, -, ⟨hpaid, rfl, rfl⟩ | ⟨hunpaid, -, h⟩⟩⟩ := h
  · exact absurd hnone helig
  · exact Or.inl ⟨by simp [owed, paidInTurn, hp, hpaid], rfl, rfl⟩
  · rcases h with ⟨hnone, rfl, rfl⟩ | ⟨record, hrecord, ⟨hfree, l, hl, rfl, rfl⟩ | ⟨hdone, rfl, rfl⟩⟩
    · exact Or.inl ⟨by simp [owed, unrefunded, contribAt, hnone], rfl, rfl⟩
    · have howed : owed s g c member = record.amount := by
        simp [owed, unrefunded, paidInTurn, hp, hunpaid, hfree, contribAt, hrecord]
      rw [howed]
      exact Or.inr ⟨l, _, hl, rfl, rfl⟩
    · exact Or.inl ⟨owed_of_refunded hdone, rfl, rfl⟩

/-- A sum in range is the sum. -/
theorem saturatingI128_eq {z : Int} (h : 0 ≤ z) (h' : z < i128Bound) : saturatingI128 z = z := by
  simp only [saturatingI128]
  omega

/-- Nobody swept, nothing sent. -/
theorem Swept.refl (s : State) (total : Int) : Swept g c tok [] s s total total where
  frame _ _ := rfl
  nonneg a ha := absurd ha List.not_mem_nil
  marked a ha := absurd ha List.not_mem_nil
  received a _ := by simp
  others _ _ _ := rfl
  sent := by simp
  reported _ _ := by simp

/-- One member gets what is owed, and is owed nothing afterwards. -/
theorem refundReporting_swept (helig : eligAt s g member ≠ none) (hne : member ≠ contractAddress)
    (h : refundReporting g c tok time total member env s = .ok n t) :
    Swept g c tok [member] s t total n := by
  rcases refundReporting_ok helig h with ⟨hzero, rfl, rfl⟩ | ⟨l, r, hl, rfl, rfl⟩
  · constructor <;> simp +contextual [hzero]
  -- what is owed is sent out of the escrow
  · obtain ⟨token, htoken, hpos, hcovered⟩ :=
      Book.transfer_isSome_iff.mp (Option.isSome_of_eq_some hl)
    have hcover : owed s g c member ≤ escrow s tok := by
      simpa [escrow, Book.holding, htoken] using hcovered
    refine ⟨?_, ?_, ?_, ?_, ?_, ?_, ?_⟩
    · intro k hk
      simp [hk member (List.mem_singleton.mpr rfl)]
    · intro a ha
      rwa [List.mem_singleton.mp ha]
    · intro a ha _
      rw [List.mem_singleton.mp ha]
      simp
    · intro a ha
      show Book.holding l tok a = _
      rw [Book.holding_transfer hl, if_pos rfl, moved, if_neg ha, Int.sub_zero]
      by_cases hm : a = member
      · rw [if_pos hm, if_pos (List.mem_singleton.mpr hm), hm]
      · rw [if_neg hm, if_neg (mt List.mem_singleton.mp hm)]
    · intro tok' a htok
      show Book.holding l tok' a = _
      rw [Book.holding_transfer hl, if_neg htok]
    · show Book.holding l tok contractAddress + _ = _
      rw [Book.holding_src_of_ne hl (Ne.symm hne)]
      simp [escrow]
    · -- the escrow covers what is owed, so the total does not saturate
      intro htotal hfits
      rw [saturatingI128_eq (by omega) (by omega)]
      simp

/-- The rest of the sweep. -/
theorem Swept.cons {xs : List Address} {v : State} {m : Int}
    (h : Swept g c tok [member] s v total m) (hxs : Swept g c tok xs v t m n)
    (hnew : member ∉ xs) : Swept g c tok (member :: xs) s t total n := by
  -- the first refund changes what its own member is owed, and nobody else's due
  have hother : ∀ a ∈ xs, owed v g c a = owed s g c a := by
    intro a ha
    have hne : a ≠ member := fun he => hnew (he ▸ ha)
    refine owed_congr (h.frame _ ?_) (fun p => h.frame _ ?_) (h.frame _ ?_) (h.frame _ ?_)
    all_goals simp [hne]
  have hsum : (xs.map (owed v g c)).sum = (xs.map (owed s g c)).sum :=
    congrArg List.sum (List.map_congr_left hother)
  have hsent := h.sent
  have hrest := hxs.sent
  rw [List.map_singleton, List.sum_singleton] at hsent
  rw [hsum] at hrest
  refine ⟨?_, ?_, ?_, ?_, ?_, ?_, ?_⟩
  · intro k hk
    refine (hxs.frame k fun a ha => hk a (List.mem_cons_of_mem _ ha)).trans (h.frame k ?_)
    intro a ha
    exact hk a (List.mem_singleton.mp ha ▸ List.mem_cons_self)
  · intro a ha
    rcases List.mem_cons.mp ha with rfl | ha'
    · exact h.nonneg a (List.mem_singleton.mpr rfl)
    · rw [← hother a ha']
      exact hxs.nonneg a ha'
  · intro a ha howed
    rcases List.mem_cons.mp ha with rfl | ha'
    · rw [hxs.frame]
      · exact h.marked a (List.mem_singleton.mpr rfl) howed
      · intro b hb he
        simp only [Key.refund.injEq, true_and] at he
        exact hnew (he ▸ hb)
    · exact hxs.marked a ha' (by rwa [hother a ha'])
  · intro a ha
    rw [hxs.received a ha, h.received a ha]
    by_cases hm : a = member
    · subst hm
      simp [hnew]
    · by_cases ha' : a ∈ xs
      · simp [hm, ha', hother a ha']
      · simp [hm, ha']
  · intro tok' a htok
    rw [hxs.others tok' a htok, h.others tok' a htok]
  · rw [List.map_cons, List.sum_cons]
    omega
  · intro htotal hfits
    have hpos := h.nonneg member (List.mem_singleton.mpr rfl)
    have hm := h.reported htotal hfits
    rw [List.map_singleton, List.sum_singleton] at hm
    have hn := hxs.reported (by omega) (by omega)
    rw [hsum] at hn
    rw [List.map_cons, List.sum_cons]
    omega

/-- **THE SWEEP**, member after member. -/
theorem sweep_swept {xs : List Address} (hnodup : xs.Nodup)
    (helig : ∀ a ∈ xs, eligAt s g a ≠ none ∧ a ≠ contractAddress)
    (h : foldEach (refundReporting g c tok time) total xs env s = .ok n t) :
    Swept g c tok xs s t total n := by
  induction xs generalizing s total with
  | nil =>
      obtain ⟨rfl, rfl⟩ := pure_ok.mp h
      exact Swept.refl s total
  | cons a xs ih =>
      rw [foldEach_cons, bind_ok] at h
      obtain ⟨m, v, hfirst, hrest⟩ := h
      obtain ⟨hnew, hnodup'⟩ := List.nodup_cons.mp hnodup
      obtain ⟨ha, hne⟩ := helig a List.mem_cons_self
      have hswept := refundReporting_swept ha hne hfirst
      refine hswept.cons (ih hnodup' ?_ hrest) hnew
      intro b hb
      rw [eligAt, readAt_congr (hswept.frame (.mbrPElig g b) fun _ _ he => by cases he)]
      exact helig b (List.mem_cons_of_mem _ hb)

end Sweep

/-! ## Who has voted -/

/-- The dissolution votes counted so far. -/
def dissolveTally (s : State) (g : Nat) : Nat :=
  ((readAt U32 s.persistent (.cDisCnt g)).getD ⟨0⟩).val

/-- The members are seated and listed under the first slots of the roster, only
    members have voted, and the tally counts them. -/
structure Balloted (s : State) (g : Nat) : Prop where
  seats : WellFormed s g
  slots : ∀ p : Nat, (rosterAt s g)[p]? ≠ none → p < (rosterAt s g).size
  voters : ∀ a, s.persistent (.cDisVote g a) ≠ none →
    s.persistent (.mbrProf g a) ≠ none ∧ a ≠ contractAddress
  tally : Counted (fun a => s.persistent (.cDisVote g a) ≠ none) (dissolveTally s g)

/-- Votes, refunds and changes of the membership, and what the world does
    around them. -/
def VoteOrMembership : Step → Prop
  | .call _ (.voteDissolve _ _) | .call _ (.joinGroup _ _ _) | .call _ (.removeMember _ _)
  | .call _ (.requestRefund _ _ _) | .expire | .external _ => True
  | _ => False

/-- The status key has left `Pending`. -/
def Launched (s : State) (g : Nat) : Prop := (statusAt s g).getD .pending ≠ .pending

/-- The entries a ballot reads, beside the group record. -/
def ballotKinds : List Kind := .cDisVote :: .cDisCnt :: seatKinds

section Ballot

variable {env : Env} {s t : State} {g : Nat} {caller : Address} {c : Call} {u : Unit}

/-- The members are the holders of a profile. -/
theorem mem_members_iff (hwf : WellFormed s g) (a : Address) :
    a ∈ (rosterAt s g).members ↔ s.persistent (.mbrProf g a) ≠ none := by
  rw [hwf.seated.only]
  constructor
  · rintro ⟨p, hp⟩ hnone
    rw [seatOf_none hnone] at hp
    cases hp
  · intro ha
    obtain ⟨profile, hprofile, -⟩ := hwf.profiles a ha
    exact ⟨profile.payoutPosition, seatOf_of_profile hprofile⟩

/-- The number in the record is that of the profiles. -/
theorem counted_members (hwf : WellFormed s g) {grp : Group} (hgrp : groupAt s g = some grp) :
    Counted (fun a => s.persistent (.mbrProf g a) ≠ none) grp.memberCount := by
  obtain ⟨grp', hgrp', hcount⟩ := hwf.count
  obtain rfl := Option.some.inj (hgrp.symm.trans hgrp')
  rw [hcount, ← length_members]
  exact (counted_list hwf.seated.nodup).congr fun a => (mem_members_iff hwf a).symm

/-- The ballot depends on the keys of votes and members. -/
theorem Balloted.congr (hs : Balloted s g)
    (hcount : (groupAt t g).map Group.memberCount = (groupAt s g).map Group.memberCount)
    (h : ∀ k : Key, k.group = g → k.kind ∈ ballotKinds → t.persistent k = s.persistent k) :
    Balloted t g := by
  have hseats : ∀ k : Key, k.group = g → k.kind ∈ seatKinds → t.persistent k = s.persistent k :=
    fun k hg hk => h k hg (List.mem_cons_of_mem _ (List.mem_cons_of_mem _ hk))
  have hroster : rosterAt t g = rosterAt s g :=
    congrArg (Option.getD · ∅) (readAt_congr (hseats (.grpMbrs g) rfl (by simp [seatKinds])))
  have hflag : ∀ a, t.persistent (.cDisVote g a) = s.persistent (.cDisVote g a) :=
    fun a => h (.cDisVote g a) rfl (by simp [ballotKinds])
  refine ⟨hs.seats.congr hcount hseats, ?_, ?_, ?_⟩
  · rw [hroster]
    exact hs.slots
  · intro a ha
    rw [hseats (.mbrProf g a) rfl (by simp [seatKinds])]
    exact hs.voters a (by rwa [← hflag a])
  · rw [dissolveTally, readAt_congr (h (.cDisCnt g) rfl (by simp [ballotKinds]))]
    exact hs.tally.congr fun a => by rw [hflag a]

/-- What a vote leaves, whether or not it is the last one. -/
theorem voteDissolve_views (h : voteDissolve g caller env s = .ok u t) :
    (∀ a, t.persistent (.cDisVote g a) ≠ none ↔ a = caller ∨ s.persistent (.cDisVote g a) ≠ none) ∧
      dissolveTally t g = dissolveTally s g + 1 ∧
      (groupAt t g).map Group.memberCount = (groupAt s g).map Group.memberCount := by
  obtain ⟨grp, hgrp, -, ⟨-, config, -, hloop⟩ | ⟨-, rfl⟩⟩ := voteDissolve_ok h
  · have hframe := sweep_frame hloop
    refine ⟨?_, ?_, ?_⟩
    · intro a
      rw [hframe (.cDisVote g a) fun _ he => by cases he]
      by_cases ha : a = caller
      · simp [dissolved, voted, ha]
      · simp [dissolved, voted, ha]
    · rw [dissolveTally, readAt_congr (hframe (.cDisCnt g) fun _ he => by cases he)]
      simp [dissolved, voted, dissolveVotes, dissolveTally]
    · rw [groupAt, readAt_congr (hframe (.grp g) fun _ he => by cases he), hgrp]
      simp [dissolved]
  · refine ⟨?_, ?_, ?_⟩
    · intro a
      by_cases ha : a = caller
      · simp [voted, ha]
      · simp [voted, ha]
    · simp [voted, dissolveVotes, dissolveTally]
    · simp [voted]

/-- Votes write no profiles. -/
theorem voteDissolve_profiles (h : voteDissolve g caller env s = .ok u t) (a : Address) :
    t.persistent (.mbrProf g a) = s.persistent (.mbrProf g a) :=
  (Within.agree_ok (w := Call.footprint (.voteDissolve g caller)) h).persistent _ (by simp)

/-- **A VOTE** by a member who had not voted. -/
theorem vote_balloted (hs : Balloted s g) (h : voteDissolve g caller env s = .ok u t) :
    Balloted t g := by
  have hopen := voteDissolve_open h
  obtain ⟨hflags, htally, hcount⟩ := voteDissolve_views h
  have hframe : ∀ k : Key, k.group = g → k.kind ∈ seatKinds → t.persistent k = s.persistent k := by
    intro k hg hk
    exact (Within.agree_ok (w := Call.footprint (.voteDissolve g caller)) h).persistent k
      (Place.not_covered (Place.spares_of_kinds rfl) k hg hk)
  refine ⟨hs.seats.congr hcount hframe, ?_, ?_, ?_⟩
  · have hroster : rosterAt t g = rosterAt s g :=
      congrArg (Option.getD · ∅) (readAt_congr (hframe (.grpMbrs g) rfl (by simp [seatKinds])))
    rw [hroster]
    exact hs.slots
  · intro a ha
    rw [hframe (.mbrProf g a) rfl (by simp [seatKinds])]
    rcases (hflags a).mp ha with rfl | hold
    · -- the contract's own address never signs, so it is no voter
      exact ⟨hopen.member, fun he => env.contract_not_signer (he ▸ hopen.signed)⟩
    · exact hs.voters a hold
  · rw [htally]
    exact hs.tally.insert (fun hvoted => hvoted hopen.fresh) hflags

/-- **A NEWCOMER** has not voted. -/
theorem join_balloted {referrer : Option Address} (hs : Balloted s g)
    (h : joinGroup g caller referrer env s = .ok u t) : Balloted t g := by
  have hframe : ∀ k : Key, k.kind ∈ [Kind.cDisVote, .cDisCnt] →
      t.persistent k = s.persistent k := by
    intro k hk
    exact (Within.agree_ok (w := Call.footprint (.joinGroup g caller referrer)) h).persistent k
      (Place.not_covered (Place.spares_of_kinds rfl) k rfl hk)
  -- the newcomer takes a number that nobody has
  have hfree : (rosterAt s g)[(rosterAt s g).size]? = none := by
    by_contra hslot
    exact Nat.lt_irrefl _ (hs.slots _ hslot)
  have hseats := (join_wellFormed_iff hs.seats h).mpr hfree
  obtain ⟨grp, hopen, rfl⟩ := joinGroup_ok h
  obtain ⟨grp', hgrp', hcount⟩ := hs.seats.count
  obtain rfl := Option.some.inj (hopen.group.symm.trans hgrp')
  obtain ⟨-, hroster, hprofile, -, -⟩ :=
    joined_views (s := s) (g := g) caller grp env.timestamp referrer
  refine ⟨hseats, ?_, ?_, ?_⟩
  · intro p hp
    rw [hroster, hcount] at hp ⊢
    rw [Std.TreeMap.size_insert, if_neg fun hc => contains_iff.mp hc hfree]
    rw [Std.TreeMap.getElem?_insert] at hp
    by_cases he : compare (rosterAt s g).size p = .eq
    · have := compare_eq_iff_eq.mp he
      omega
    · rw [if_neg he] at hp
      have := hs.slots p hp
      omega
  -- who has voted is a member still
  · intro a ha
    rw [hframe _ (by simp)] at ha
    obtain ⟨hmember, hne⟩ := hs.voters a ha
    refine ⟨?_, hne⟩
    by_cases he : a = caller
    · exact absurd (he ▸ hopen.newcomer) hmember
    · simpa [joined, noteReferrer_persistent, he] using hmember
  · rw [dissolveTally, readAt_congr (hframe (.cDisCnt g) (by simp))]
    exact hs.tally.congr fun a => by rw [hframe (.cDisVote g a) (by simp)]

/-- Where a call does not look at the group. -/
theorem balloted_of_frame (hs : Launched s g → Balloted s g)
    (h : ∀ k : Key, k.group = g → k.kind ∈ .grp :: .grpStat :: ballotKinds →
      t.persistent k = s.persistent k) (ht : Launched t g) : Balloted t g := by
  rw [Launched, statusAt, readAt_congr (h (.grpStat g) rfl (by simp))] at ht
  refine (hs ht).congr ?_ fun k hg hk => h k hg (List.mem_cons_of_mem _ (List.mem_cons_of_mem _ hk))
  rw [groupAt, readAt_congr (h (.grp g) rfl (by simp))]

/-- **ONE STEP** keeps the ballot of a launched group: nobody is removed from
    one. -/
theorem balloted_step (hs : Launched s g → Balloted s g) (hc : VoteOrMembership (.call env c))
    (h : c.body env s = .ok () t) (ht : Launched t g) : Balloted t g := by
  have hagree := (Within.agree_ok (w := c.footprint) h).persistent
  -- only a call that may write the key can have launched the group
  have hkey : c.footprint.persistent (.grpStat g) ∨ Launched s g := by
    by_cases hcov : c.footprint.persistent (.grpStat g)
    · exact Or.inl hcov
    · rw [Launched, statusAt, readAt_congr (hagree _ hcov)] at ht
      exact Or.inr ht
  cases c with
  | voteDissolve g' a =>
      by_cases hg : g' = g
      · subst hg
        obtain ⟨grp, -, hstatus, -⟩ := voteDissolve_ok h
        refine vote_balloted (hs ?_) h
        rcases hstatus with hstatus | hstatus <;> simp [Launched, hstatus]
      · refine balloted_of_frame hs (fun k hk hkind => hagree k ?_) ht
        exact Place.not_covered (by simp [Place.Spares, hg]) k hk hkind
  | joinGroup g' a referrer =>
      by_cases hg : g' = g
      · subst hg
        refine join_balloted (hs (hkey.resolve_left ?_)) h
        simp
      · refine balloted_of_frame hs (fun k hk hkind => hagree k ?_) ht
        exact Place.not_covered (by simp [Place.Spares, hg]) k hk hkind
  | removeMember g' a =>
      by_cases hg : g' = g
      · -- it needs a pending key, and the key has left `Pending` for good
        subst hg
        obtain ⟨grp, profile, hopen, -⟩ := removeMember_ok h
        have hlaunched := hkey.resolve_left (by simp)
        exact absurd hopen.status.2 hlaunched
      · refine balloted_of_frame hs (fun k hk hkind => hagree k ?_) ht
        exact Place.not_covered (by simp [Place.Spares, hg]) k hk hkind
  | requestRefund g' cycle a =>
      refine balloted_of_frame hs (fun k hk hkind => hagree k ?_) ht
      exact Place.not_covered (Place.spares_of_kinds rfl) k hk hkind
  | _ => exact hc.elim

/-- It stays in order along a run of votes and changes of the roster. -/
theorem balloted_run (hs : Balloted s g) {steps : List Step}
    (hrun : Along apply (fun x _ => VoteOrMembership x) steps s) :
    Launched (run steps s) g → Balloted (run steps s) g := by
  refine exec_invariant (I := fun t => Launched t g → Balloted t g) ?_ (fun _ => hs) hrun
  refine apply_invariant ?_ ?_ ?_
  · intro env c s t hc hs h ht
    exact balloted_step hs hc h ht
  · intro s hs ht
    exact (hs ht).congr rfl fun _ _ _ => rfl
  · intro s l hs ht
    exact (hs ht).congr rfl fun _ _ _ => rfl

end Ballot

/-! ## A refund stays on record -/

section Kept

variable {env : Env} {s t : State} {g cycle : Nat} {a : Address} {c : Call}

/-- A refund that is recorded stays recorded. -/
theorem refund_kept (hc : VoteOrMembership (.call env c)) (h : c.body env s = .ok () t)
    (ha : s.persistent (.refund g cycle a) ≠ none) : t.persistent (.refund g cycle a) ≠ none := by
  have hagree := (Within.agree_ok (w := c.footprint) h).persistent
  cases c with
  | voteDissolve g' b =>
      by_cases hg : g = g'
      · subst hg
        obtain ⟨grp, -, -, ⟨-, config, -, hloop⟩ | ⟨-, rfl⟩⟩ := voteDissolve_ok h
        · exact sweep_kept hloop a (by simpa [dissolved, voted] using ha)
        · simpa [voted] using ha
      · rwa [hagree _ (by simp [hg])]
  | requestRefund g' cycle' b =>
      obtain ⟨out, hout⟩ := quietly_ok.mp h
      obtain ⟨-, grp, record, config, l, -, -, -, rfl⟩ := requestRefund_ok.mp hout
      by_cases he : Key.refund g cycle a = .refund g' cycle' record.memberAddress
      · rw [he]
        simp
      · simpa [he] using ha
  | joinGroup g' b referrer | removeMember g' b =>
      rwa [hagree _ (by simp)]
  | _ => exact hc.elim

/-- Along the whole run. -/
theorem refund_kept_run {steps : List Step}
    (hrun : Along apply (fun x _ => VoteOrMembership x) steps s)
    (ha : s.persistent (.refund g cycle a) ≠ none) :
    (run steps s).persistent (.refund g cycle a) ≠ none := by
  refine exec_invariant (I := fun t => t.persistent (.refund g cycle a) ≠ none) ?_ ha hrun
  refine apply_invariant ?_ (fun _ hs => hs) fun _ _ hs => hs
  intro env c s t hc hs h
  exact refund_kept hc h hs

/-- Whoever was refunded along the run is owed nothing at its end. -/
theorem owed_after_refund {pre post : List Step} {env : Env} {record : RefundRecord} {v : State}
    (hrun : Along apply (fun x _ => VoteOrMembership x)
      (pre ++ .call env (.requestRefund g cycle a) :: post) s)
    (h : requestRefund g cycle a env (run pre s) = .ok record v) :
    owed (run (pre ++ .call env (.requestRefund g cycle a) :: post) s) g cycle record.member = 0 := by
  obtain ⟨-, -, hpost⟩ := (along_append apply _ pre _ s).mp hrun
  have hstep : apply (.call env (.requestRefund g cycle a)) (run pre s) = v :=
    commit_of_ok (quietly_ok (u := ()).mpr ⟨record, h⟩)
  rw [hstep] at hpost
  obtain ⟨-, grp, contribution, config, l, -, -, rfl, rfl⟩ := requestRefund_ok.mp h
  rw [run, exec_append, exec_cons, hstep]
  refine owed_of_refunded (refund_kept_run hpost ?_)
  simp [refundFor]

end Kept

/-! ## The dissolution -/

/-- What a dissolution does, from `s` to `t`, in the current cycle of `grp`. -/
structure Dissolution (s t : State) (g : Nat) (grp : Group) (tok : Address) (total : Int) :
    Prop where
  unanimous : ∀ a, t.persistent (.cDisVote g a) ≠ none ↔ a ∈ (rosterAt s g).members
  counted : dissolveTally t g = grp.memberCount
  received : ∀ a ∈ (rosterAt s g).members, Book.holding t.ledger tok a
    = Book.holding s.ledger tok a + owed s g grp.currentCycle a
  nobodyElse : ∀ a, a ∉ (rosterAt s g).members → a ≠ contractAddress →
    Book.holding t.ledger tok a = Book.holding s.ledger tok a
  sent : escrow s tok - escrow t tok = total
  once : ∀ a ∈ (rosterAt s g).members, owed s g grp.currentCycle a ≠ 0 →
    s.persistent (.refund g grp.currentCycle a) = none ∧
      t.persistent (.refund g grp.currentCycle a) ≠ none

section Dissolving

variable {env : Env} {s t : State} {g : Nat} {caller : Address} {grp : Group} {u : Unit}

/-- To whom something is owed nothing was refunded. -/
theorem owed_ne_zero {c : Nat} {a : Address} (h : owed s g c a ≠ 0) :
    s.persistent (.refund g c a) = none := by
  by_contra hne
  exact h (owed_of_refunded hne)

/-- The tally reaches the member count exactly when every member has voted. -/
theorem tally_full_iff (hs : Balloted s g) (hgrp : groupAt s g = some grp)
    (h : voteDissolve g caller env s = .ok u t) :
    grp.memberCount ≤ dissolveVotes s g ↔
      ∀ a ∈ (rosterAt s g).members, t.persistent (.cDisVote g a) ≠ none := by
  have ht := vote_balloted hs h
  have htally : dissolveTally t g = dissolveVotes s g := (voteDissolve_views h).2.1
  have hcounted := ht.tally
  rw [htally] at hcounted
  have hmembers := counted_members hs.seats hgrp
  have hprofile := voteDissolve_profiles h
  constructor
  · intro hle a ha
    refine hcounted.all_of_le hmembers ?_ hle a ((mem_members_iff hs.seats a).mp ha)
    intro b hb
    rw [← hprofile b]
    exact (ht.voters b hb).1
  · intro hall
    exact hmembers.le hcounted fun a ha => hall a ((mem_members_iff hs.seats a).mpr ha)

/-- The vote cancels the group exactly when it completes the tally. -/
theorem vote_cancels_iff (hgrp : groupAt s g = some grp)
    (h : voteDissolve g caller env s = .ok u t) :
    statusAt t g = some .cancelled ↔ grp.memberCount ≤ dissolveVotes s g := by
  obtain ⟨grp', hgrp', hstatus, ⟨hle, config, -, hloop⟩ | ⟨hlt, rfl⟩⟩ := voteDissolve_ok h
  · obtain rfl := Option.some.inj (hgrp.symm.trans hgrp')
    refine iff_of_true ?_ hle
    rw [statusAt, readAt_congr (sweep_frame hloop (.grpStat g) fun _ he => by cases he)]
    simp [dissolved]
  · obtain rfl := Option.some.inj (hgrp.symm.trans hgrp')
    refine iff_of_false ?_ (Nat.not_le.mpr hlt)
    -- a vote was taken, so the key was not `Cancelled` before
    intro hc
    have hc' : statusAt s g = some .cancelled := by simpa [voted] using hc
    rw [hc'] at hstatus
    rcases hstatus with hstatus | hstatus <;> cases hstatus

/-- The sweep that a completing vote runs, with its report. -/
theorem vote_sweeps (hgrp : groupAt s g = some grp) (hle : grp.memberCount ≤ dissolveVotes s g)
    (h : voteDissolve g caller env s = .ok u t) :
    ∃ config total, tokenAt s g = some config ∧
      dissolutionReport g grp env (voted s g caller (dissolveVotes s g)) = .ok total t ∧
      foldEach (refundReporting g grp.currentCycle config.tokenAddress env.timestamp) 0
        (rosterAt s g).members env (dissolved (voted s g caller (dissolveVotes s g)) g grp)
          = .ok total t := by
  have hexec : executeDissolution g grp env (voted s g caller (dissolveVotes s g)) = .ok () t := by
    obtain ⟨-, grp', hgrp', -, ⟨-, hexec⟩ | ⟨hlt, -⟩⟩ := voteDissolve_steps h
    · obtain rfl := Option.some.inj (hgrp.symm.trans hgrp')
      exact hexec
    · obtain rfl := Option.some.inj (hgrp.symm.trans hgrp')
      exact absurd hle (Nat.not_le.mpr hlt)
  simp only [executeDissolution, put_bind_ok, getOr_bind_ok, now_bind_ok, getD_bind_ok] at hexec
  obtain ⟨config, hconfig, htyped, hloop⟩ := hexec
  have hroster : rosterAt (dissolved (voted s g caller (dissolveVotes s g)) g grp) g
      = rosterAt s g := by simp [rosterAt, dissolved, voted]
  obtain ⟨total, htotal⟩ := (sweep_quiet 0).mp hloop
  refine ⟨config, total, by simpa [voted] using hconfig, ?_, by rw [← hroster]; exact htotal⟩
  simp only [dissolutionReport, put_bind_ok, getOr_bind_ok, now_bind_ok, getD_bind_ok]
  exact ⟨config, hconfig, htyped, htotal⟩

/-- **EXACT**: a completing vote refunds every member what is owed and reports
    what it sent. -/
theorem vote_dissolution (hs : Balloted s g) (hgrp : groupAt s g = some grp)
    (hle : grp.memberCount ≤ dissolveVotes s g) (h : voteDissolve g caller env s = .ok u t)
    (hfits : ∀ config, tokenAt s g = some config → escrow s config.tokenAddress < i128Bound) :
    ∃ config total, tokenAt s g = some config ∧
      dissolutionReport g grp env (voted s g caller (dissolveVotes s g)) = .ok total t ∧
      Dissolution s t g grp config.tokenAddress total := by
  obtain ⟨config, total, hconfig, hreport, hloop⟩ := vote_sweeps hgrp hle h
  have ht := vote_balloted hs h
  have hall := (tally_full_iff hs hgrp h).mp hle
  have hprofile := voteDissolve_profiles h
  have helig : ∀ a ∈ (rosterAt s g).members, eligAt s g a ≠ none ∧ a ≠ contractAddress := by
    intro a ha
    obtain ⟨p, hp⟩ := (hs.seats.seated.only a).mp ha
    refine ⟨?_, (ht.voters a (hall a ha)).2⟩
    rw [hs.seats.eligible, hp]
    exact Option.some_ne_none _
  -- nothing the sweep reads changes before it
  have howed : owed (dissolved (voted s g caller (dissolveVotes s g)) g grp) g grp.currentCycle
      = owed s g grp.currentCycle := by
    funext a
    exact owed_congr (by simp [dissolved, voted]) (by simp [dissolved, voted])
      (by simp [dissolved, voted]) (by simp [dissolved, voted])
  have hswept := sweep_swept hs.seats.seated.nodup
    (fun a ha => by simpa [dissolved, voted] using helig a ha) hloop
  have hsent := hswept.sent
  have hreported := hswept.reported (Int.le_refl 0) (by
    rw [Int.zero_add]
    exact hfits config hconfig)
  have hreceived := hswept.received
  have hmarked := hswept.marked
  rw [howed] at hsent hreported hreceived hmarked
  have hescrow : escrow (dissolved (voted s g caller (dissolveVotes s g)) g grp)
      config.tokenAddress = escrow s config.tokenAddress := rfl
  refine ⟨config, total, hconfig, hreport, ?_, ?_, ?_, ?_, ?_, ?_⟩
  · intro a
    refine ⟨fun ha => ?_, hall a⟩
    rw [mem_members_iff hs.seats, ← hprofile a]
    exact (ht.voters a ha).1
  · have hmembers := counted_members hs.seats hgrp
    refine ht.tally.unique (hmembers.congr fun a => ⟨fun ha => ?_, fun ha => ?_⟩)
    · rw [← hprofile a]
      exact (ht.voters a ha).1
    · exact hall a ((mem_members_iff hs.seats a).mpr ha)
  · intro a ha
    rw [hreceived a (helig a ha).2, if_pos ha]
    rfl
  · intro a ha hne
    rw [hreceived a hne, if_neg ha, Int.add_zero]
    rfl
  · rw [hescrow] at hsent
    omega
  · intro a ha hne
    exact ⟨owed_ne_zero hne, hmarked a ha hne⟩

end Dissolving

/-- **UNANIMOUS AND EXACT**: along every run of votes, refunds and changes of
    the membership, a vote dissolves the group exactly when every member has
    voted then; each member receives what it is owed, the escrow pays the total
    that is reported, and whoever was refunded before is not refunded again. -/
theorem dissolution_unanimous_and_exact (s : State) (g : Nat) (hs : Balloted s g)
    (steps : List Step) (hrun : Along apply (fun x _ => VoteOrMembership x) steps s)
    (env : Env) (caller : Address) (t : State)
    (h : voteDissolve g caller env (run steps s) = .ok () t)
    (hfits : ∀ config, tokenAt (run steps s) g = some config →
      escrow (run steps s) config.tokenAddress < i128Bound) :
    (statusAt t g = some .cancelled ↔
      ∀ a ∈ (rosterAt (run steps s) g).members, t.persistent (.cDisVote g a) ≠ none) ∧
    (statusAt t g = some .cancelled →
      ∃ grp config total, groupAt (run steps s) g = some grp ∧
        tokenAt (run steps s) g = some config ∧
        dissolutionReport g grp env
          (voted (run steps s) g caller (dissolveVotes (run steps s) g)) = .ok total t ∧
        Dissolution (run steps s) t g grp config.tokenAddress total ∧
        ∀ pre post env' a record v,
          steps = pre ++ .call env' (.requestRefund g grp.currentCycle a) :: post →
          requestRefund g grp.currentCycle a env' (run pre s) = .ok record v →
          owed (run steps s) g grp.currentCycle record.member = 0) := by
  -- only a group that has started is dissolved
  obtain ⟨grp, hgrp, hstatus, -⟩ := voteDissolve_ok h
  have hlaunched : Launched (run steps s) g := by
    rcases hstatus with hstatus | hstatus <;> simp [Launched, hstatus]
  have hballot := balloted_run hs hrun hlaunched
  have hcancels := vote_cancels_iff hgrp h
  -- the vote that cancels is the last of all members
  refine ⟨hcancels.trans (tally_full_iff hballot hgrp h), ?_⟩
  intro hcancelled
  obtain ⟨config, total, hconfig, hreport, hexact⟩ :=
    vote_dissolution hballot hgrp (hcancels.mp hcancelled) h hfits
  -- what was refunded is owed no more, in any later step
  refine ⟨grp, config, total, hgrp, hconfig, hreport, hexact, ?_⟩
  rintro pre post env' a record v rfl hrefund
  exact owed_after_refund hrun hrefund

/-! Three members in their second cycle: the first has had its payout, and all
    have contributed. -/

def fundedTrio : State := commit (joinGroup 1 ⟨3⟩ none) trioEnv fundedDuo

def secondGroup : SaveData.Group :=
  { openGroup with
    memberCount := 3, started := true, startedAt := 10, status := .active, currentCycle := 1 }

def secondCycle : State :=
  (((((fundedTrio.set (.grp 1) (Codec.encode secondGroup)).set
    (.grpStat 1) (Codec.encode GroupStatus.active)).set
    (.payRecip 1 0) (Codec.encode (Address.mk 1))).set
    (.contrib 1 1 ⟨1⟩) (Codec.encode (ContributionRecord.mk ⟨1⟩ 1 1 100 10))).set
    (.contrib 1 1 ⟨2⟩) (Codec.encode (ContributionRecord.mk ⟨2⟩ 1 1 100 10))).set
    (.contrib 1 1 ⟨3⟩) (Codec.encode (ContributionRecord.mk ⟨3⟩ 1 1 100 10))

/-- The second asks for a refund, then two of the three vote. -/
def twoVotes : List Step :=
  [.call trioEnv (.requestRefund 1 1 ⟨2⟩), .call trioEnv (.voteDissolve 1 ⟨1⟩),
    .call trioEnv (.voteDissolve 1 ⟨2⟩)]

def dissolvedTrio : State := commit (voteDissolve 1 ⟨3⟩) trioEnv (run twoVotes secondCycle)

/-- The third of three votes dissolves. -/
theorem trio_dissolves :
    voteDissolve 1 ⟨3⟩ trioEnv (run twoVotes secondCycle) = .ok () dissolvedTrio := rfl

/-- The slots of the example's roster are its first ones. -/
theorem secondCycle_slots (p : Nat) (hp : (rosterAt secondCycle 1)[p]? ≠ none) :
    p < (rosterAt secondCycle 1).size := by
  have hroster : rosterAt secondCycle 1
      = (((∅ : MemberMap).insert 0 ⟨1⟩).insert 1 ⟨2⟩).insert 2 ⟨3⟩ := rfl
  show p < 3
  rw [hroster] at hp
  by_contra hge
  refine hp ?_
  have hne : ∀ i < 3, ¬ compare i p = .eq := fun i hi he => by
    have := compare_eq_iff_eq.mp he
    omega
  rw [Std.TreeMap.getElem?_insert, if_neg (hne 2 (by omega)), Std.TreeMap.getElem?_insert,
    if_neg (hne 1 (by omega)), Std.TreeMap.getElem?_insert, if_neg (hne 0 (by omega))]
  exact Std.TreeMap.getElem?_emptyc

/-- Nobody has voted in it yet. -/
theorem secondCycle_balloted : Balloted secondCycle 1 := by
  have htrio : WellFormed fundedTrio 1 :=
    (join_wellFormed_iff fundedDuo_wellFormed
      (rfl : joinGroup 1 ⟨3⟩ none trioEnv fundedDuo = .ok () fundedTrio)).mpr rfl
  refine ⟨?_, secondCycle_slots, fun a ha => absurd rfl ha, counted_none fun a ha => ha rfl⟩
  refine htrio.congr rfl fun k hg hk => ?_
  simp only [secondCycle]
  iterate 6 rw [persistent_set_of_mem hk (by simp [seatKinds])]

/-- **PASSED OVER**: the first has contributed to the current cycle and was not
    refunded, and the dissolution sends it nothing. -/
theorem paid_member_not_refunded :
    Balloted secondCycle 1 ∧
      voteDissolve 1 ⟨3⟩ trioEnv (run twoVotes secondCycle) = .ok () dissolvedTrio ∧
      statusAt dissolvedTrio 1 = some .cancelled ∧
      ¬ ∀ a ∈ (rosterAt (run twoVotes secondCycle) 1).members,
        Book.holding dissolvedTrio.ledger ⟨9⟩ a
          = Book.holding (run twoVotes secondCycle).ledger ⟨9⟩ a
            + unrefunded (run twoVotes secondCycle) 1 1 a := by
  refine ⟨secondCycle_balloted, trio_dissolves, rfl, fun h => ?_⟩
  have hfirst := h ⟨1⟩ (by
    have hmembers : (rosterAt (run twoVotes secondCycle) 1).members = [⟨1⟩, ⟨2⟩, ⟨3⟩] := rfl
    rw [hmembers]
    simp)
  have hbefore : Book.holding (run twoVotes secondCycle).ledger ⟨9⟩ ⟨1⟩ = 0 := rfl
  have hafter : Book.holding dissolvedTrio.ledger ⟨9⟩ ⟨1⟩ = 0 := rfl
  have hdue : unrefunded (run twoVotes secondCycle) 1 1 ⟨1⟩ = 100 := rfl
  rw [hbefore, hafter, hdue] at hfirst
  omega

/-- The theorem there: the third alone is refunded, and `100` is reported. -/
theorem dissolution_unanimous_and_exact_instance :
    Balloted secondCycle 1 ∧ owed (run twoVotes secondCycle) 1 1 ⟨2⟩ = 0 ∧
      ∃ total, dissolutionReport 1 secondGroup trioEnv
          (voted (run twoVotes secondCycle) 1 ⟨3⟩ 3) = .ok total dissolvedTrio ∧
        Dissolution (run twoVotes secondCycle) dissolvedTrio 1 secondGroup ⟨9⟩ total := by
  obtain ⟨-, hexact⟩ := dissolution_unanimous_and_exact secondCycle 1 secondCycle_balloted twoVotes
    ⟨trivial, trivial, trivial, trivial⟩ trioEnv ⟨3⟩ dissolvedTrio trio_dissolves (by
      intro config hconfig
      obtain rfl := Option.some.inj
        ((rfl : tokenAt (run twoVotes secondCycle) 1 = some ⟨⟨9⟩, 7⟩).symm.trans hconfig)
      decide)
  obtain ⟨grp, config, total, hgrp, hconfig, hreport, hdissolution, honce⟩ := hexact rfl
  obtain rfl := Option.some.inj
    ((rfl : groupAt (run twoVotes secondCycle) 1 = some secondGroup).symm.trans hgrp)
  obtain rfl := Option.some.inj
    ((rfl : tokenAt (run twoVotes secondCycle) 1 = some ⟨⟨9⟩, 7⟩).symm.trans hconfig)
  refine ⟨secondCycle_balloted, ?_, total, hreport, hdissolution⟩
  exact honce [] _ trioEnv ⟨2⟩ _ _ rfl rfl

end SaveDissolution
