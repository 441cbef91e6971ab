import StellarSave.TallyProofs
import StellarSave.RotationProofs
import StellarSave.RecordProofs

/-! # Disputes — a counter, a flag for each voter, and who is still there

    `raise_dispute` flags its caller, bumps a counter and pauses the group when
    the counter passes half of the member count; `resolve_dispute` drops the
    counter and the flags of everybody in the members map.  Joining, removing and
    withdrawing know nothing of either.  A member who leaves takes the profile
    along and leaves the FLAG and the COUNT behind. -/

namespace SaveDispute

open HostProg Footprint TokenLedger SaveData SaveMembership SaveLifecycle SaveCall SaveStatus
open SaveRoster SaveRotation SaveRecord Tally Trace

/-! ## One vote, one resolution -/

/-- The stored dispute count. -/
def votesAt (s : State) (g : Nat) : Nat := ((readAt U32 s.persistent (.dspCount g)).getD ⟨0⟩).val

/-- A current member whose dispute vote is stored. -/
def Voter (s : State) (g : Nat) (a : Address) : Prop :=
  s.persistent (.mbrProf g a) ≠ none ∧ s.persistent (.grpDspV g a) ≠ none

/-- What `raise_dispute` asks. -/
structure RaiseOpen (env : Env) (s : State) (g : Nat) (grp : SaveData.Group) (caller : Address) :
    Prop where
  signed : caller ∈ env.signers
  group : groupAt s g = some grp
  member : s.persistent (.mbrProf g caller) ≠ none
  first : s.persistent (.grpDspV g caller) = none
  counted : TypedAt U32 s.persistent (.dspCount g)
  fits : votesAt s g + 1 ≤ u32Max ∧ grp.memberCount / 2 + 1 ≤ u32Max

/-- The first reason stays. -/
def noteReason (s : State) (g : Nat) (reason : String) : State :=
  if s.persistent (.grpDspR g) = none then s.set (.grpDspR g) (Codec.encode reason) else s

/-- The vote is flagged and counted. -/
def flagged (s : State) (g : Nat) (caller : Address) (reason : String) : State :=
  (noteReason (s.set (.grpDspV g caller) (Codec.encode true)) g reason).set
    (.dspCount g) (Codec.encode (U32.mk (votesAt s g + 1)))

/-- Over half of the members pause the group. -/
def raised (s : State) (g : Nat) (grp : SaveData.Group) (caller : Address) (reason : String) :
    State :=
  if grp.memberCount < 2 * (votesAt s g + 1) then
    ((flagged s g caller reason).set (.grp g)
      (Codec.encode { grp with disputeActive := true, paused := true, status := .paused })).set
      (.grpStat g) (Codec.encode GroupStatus.paused)
  else flagged s g caller reason

section Round

variable {env : Env} {s t : State} {g : Nat} {grp : SaveData.Group} {caller : Address}
  {reason : String}

theorem noteReason_persistent {k : Key} (hk : k.kind ≠ .grpDspR) :
    (noteReason s g reason).persistent k = s.persistent k := by
  rw [noteReason]
  split
  · have hne : k ≠ .grpDspR g := by
      rintro rfl
      exact hk rfl
    simp [hne]
  · rfl

/-- Keeping the first reason, in one step. -/
theorem noteReason_bind_ok {f : Unit → SaveM Unit} :
    ((runIf ((s.persistent (.grpDspR g)).isSome = false) (put (.grpDspR g) reason) : SaveM Unit) >>= f)
        env s = .ok () t ↔ f () env (noteReason s g reason) = .ok () t := by
  rw [runIf_bind_ok, put_bind_ok, noteReason]
  by_cases hreason : s.persistent (.grpDspR g) = none
  · simp [hreason]
  · simp [hreason]

/-- `raise_dispute` taken apart. -/
theorem raiseDispute_ok :
    raiseDispute g caller reason env s = .ok () t ↔
      ∃ grp, RaiseOpen env s g grp caller ∧ raised s g grp caller reason = t := by
  -- the flag of the caller is written before the votes are counted
  have hcount : (noteReason (s.set (.grpDspV g caller) (Codec.encode true)) g reason).persistent
      (.dspCount g) = s.persistent (.dspCount g) := by
    rw [noteReason_persistent (by simp)]
    simp
  have hvotes : ((readAt U32 (noteReason (s.set (.grpDspV g caller) (Codec.encode true)) g
      reason).persistent (.dspCount g)).getD ⟨0⟩).val = votesAt s g := by
    rw [readAt_congr hcount, votesAt]
  have hhalf : ∀ n m : Nat, n / 2 + 1 ≤ m + 1 ↔ n < 2 * (m + 1) := by omega
  simp only [raiseDispute, requireAuth_bind_ok, getOr_bind_ok, has_bind_ok, failIf_bind_ok,
    put_bind_ok, noteReason_bind_ok, getD_bind_ok, okOr_bind_ok, checkedU32_eq_some, hvotes]
  -- a majority sets the record to disputed, any other vote only counts
  constructor
  · rintro ⟨hsigned, grp, hgrp, hmember, hfirst, htyped, n, ⟨hn, rfl⟩, m, ⟨hm, rfl⟩, hend⟩
    refine ⟨grp, ⟨hsigned, hgrp, by simpa using hmember, by simpa using hfirst,
      htyped.congr hcount.symm, hn, hm⟩, ?_⟩
    simp only [runIf_ok, put_bind_ok, put_ok, ge_iff_le, hhalf] at hend
    rw [raised]
    rcases hend with ⟨hover, rfl⟩ | ⟨hunder, rfl⟩
    · rw [if_pos hover]
      rfl
    · rw [if_neg hunder]
      rfl
  · rintro ⟨grp, hopen, rfl⟩
    refine ⟨hopen.signed, grp, hopen.group, by simpa using hopen.member, by simpa using hopen.first,
      hopen.counted.congr hcount, _, ⟨hopen.fits.1, rfl⟩, _, ⟨hopen.fits.2, rfl⟩, ?_⟩
    simp only [runIf_ok, put_bind_ok, put_ok, ge_iff_le, hhalf]
    rw [raised]
    by_cases hover : grp.memberCount < 2 * (votesAt s g + 1)
    · rw [if_pos hover]
      exact Or.inl ⟨hover, rfl⟩
    · rw [if_neg hover]
      exact Or.inr ⟨hover, rfl⟩

/-- What a vote leaves behind. -/
theorem raised_views (s : State) (g : Nat) (grp : SaveData.Group) (caller : Address)
    (reason : String) (hgrp : groupAt s g = some grp) :
    (∀ a, (raised s g grp caller reason).persistent (.grpDspV g a) =
        if a = caller then some (Codec.encode true) else s.persistent (.grpDspV g a)) ∧
      votesAt (raised s g grp caller reason) g = votesAt s g + 1 ∧
      groupAt (raised s g grp caller reason) g = some (if grp.memberCount < 2 * (votesAt s g + 1) then
        { grp with disputeActive := true, paused := true, status := .paused } else grp) := by
  have hflag : ∀ a, (flagged s g caller reason).persistent (.grpDspV g a) =
      if a = caller then some (Codec.encode true) else s.persistent (.grpDspV g a) := by
    intro a
    rw [flagged, HostState.set_persistent, if_neg (by simp), noteReason_persistent (by simp)]
    simp
  have hrecord : groupAt (flagged s g caller reason) g = some grp := by
    refine (readAt_congr ?_).trans hgrp
    rw [flagged, HostState.set_persistent, if_neg (by simp), noteReason_persistent (by simp)]
    simp
  rw [raised]
  split_ifs with hover
  · exact ⟨fun a => by simpa using hflag a, by simp [votesAt, flagged], by simp [groupAt]⟩
  · exact ⟨hflag, by simp [votesAt, flagged], hrecord⟩

/-- Dropping the flags of a list drops those and no others. -/
theorem flags_dropped {xs : List Address}
    (h : (forEach (fun member => del (.grpDspV g member)) xs : SaveM Unit) env s = .ok () t)
    (a : Address) :
    t.persistent (.grpDspV g a) = if a ∈ xs then none else s.persistent (.grpDspV g a) := by
  induction xs generalizing s with
  | nil =>
      cases h
      rw [if_neg List.not_mem_nil]
  | cons b xs ih =>
      have hrest : (forEach (fun member => del (.grpDspV g member)) xs : SaveM Unit) env
          (s.remove (.grpDspV g b)) = .ok () t := del_bind_ok.mp h
      rw [ih hrest]
      by_cases hb : a = b
      · simp [hb]
      · simp [hb]

/-- What a resolution clears: the count, and the flags of everybody on the
    roster. -/
theorem resolveDispute_ok (h : resolveDispute g caller env s = .ok () t) :
    t.persistent (.dspCount g) = none ∧ ∀ a, t.persistent (.grpDspV g a) =
      if a ∈ (rosterAt s g).members then none else s.persistent (.grpDspV g a) := by
  simp only [resolveDispute, requireAuth_bind_ok, getOr_bind_ok, failIf_bind_ok,
    put_bind_ok, del_bind_ok, getOpt_bind_ok, onOption_ok] at h
  -- the flags are cleared member by member, if there is a roster
  obtain ⟨-, grp, -, -, -, -, ⟨hroster, hend⟩ | ⟨roster, hroster, hloop⟩⟩ := h
  · have hempty : rosterAt s g = ∅ := by
      rw [rosterAt, membersAt, show readAt MemberMap s.persistent (.grpMbrs g) = none by
        simpa using hroster]
      rfl
    obtain ⟨-, rfl⟩ := pure_ok.mp hend
    refine ⟨by simp, fun a => ?_⟩
    have hnot : a ∉ (rosterAt s g).members := by
      rw [hempty]
      exact List.not_mem_nil
    rw [if_neg hnot]
    simp
  · have hstored : rosterAt s g = roster := rosterAt_eq (by simpa using hroster)
    constructor
    · refine ((Within.agree_ok (w := scope [.of .grpDspV g] False False) hloop).persistent
        (.dspCount g) (by simp)).trans ?_
      simp
    · intro a
      rw [flags_dropped hloop a, hstored]
      simp

end Round

/-! ## Fair rounds -/

/-- The count is the number of current members with a vote, and an undisputed
    group has no majority against it. -/
structure FairRound (s : State) (g : Nat) : Prop where
  typed : TypedAt U32 s.persistent (.dspCount g)
  counted : Counted (Voter s g) (votesAt s g)
  quiet : ∀ grp, groupAt s g = some grp → grp.disputeActive = false →
    2 * votesAt s g ≤ grp.memberCount

/-- What keeps a round fair: whoever joins, is removed or withdraws holds no vote,
    nobody is removed whose going would leave a majority, and every current member
    who voted is in the members map when the dispute is resolved. -/
def Orderly (g : Nat) : Call → State → Prop
  | .joinGroup g' m _, s | .emergencyWithdraw g' m, s => g' = g → s.persistent (.grpDspV g m) = none
  | .removeMember g' m, s => g' = g → s.persistent (.grpDspV g m) = none ∧
      ∀ grp, groupAt s g = some grp → grp.disputeActive = false →
        2 * votesAt s g ≤ grp.memberCount - 1
  | .resolveDispute g' _, s => g' = g → ∀ a, Voter s g a → a ∈ (rosterAt s g).members
  | _, _ => True

/-- Every call of the run that goes through is orderly. -/
def OrderlyStep (g : Nat) : Step → State → Prop
  | .call env c, s => Succeeds c.body env s → Orderly g c s
  | _, _ => True

section Fair

variable {env : Env} {s t : State} {c : Call} {g : Nat}

theorem advanced_dispute (grp : SaveData.Group) :
    grp.advanced.disputeActive = grp.disputeActive ∧ grp.advanced.memberCount = grp.memberCount := by
  rw [Group.advanced]
  by_cases h : ({ grp with currentCycle := grp.currentCycle + 1 } : SaveData.Group).isComplete
  · rw [if_pos h]
    exact ⟨rfl, rfl⟩
  · rw [if_neg h]
    exact ⟨rfl, rfl⟩

/-- The calls that change what a round is about. -/
def Disputes (g : Nat) : Call → Prop
  | .raiseDispute g' _ _ | .resolveDispute g' _ => g' = g
  | _ => False

/-- The others leave the flags, the count and the dispute alone. -/
theorem undisputed_step (h : c.body env s = .ok () t) (hc : ¬ Disputes g c) :
    t.persistent (.dspCount g) = s.persistent (.dspCount g) ∧
      ∀ a, t.persistent (.grpDspV g a) = s.persistent (.grpDspV g a) := by
  have hagree := Within.agree_ok (w := c.footprint) h
  cases c with
  | raiseDispute g' a reason | resolveDispute g' a =>
      have hg : g ≠ g' := fun he => hc he.symm
      exact ⟨hagree.persistent _ (by simp [hg]), fun a => hagree.persistent _ (by simp [hg])⟩
  | _ =>
      exact ⟨hagree.persistent (.dspCount g) (Place.other_kind rfl),
        fun a => hagree.persistent (.grpDspV g a) (Place.other_kind rfl)⟩

theorem rewrites_dispute {grp grp' : SaveData.Group} (h : Rewrites g grp c grp')
    (hc : ¬ Disputes g c) : grp'.disputeActive = grp.disputeActive ∧
      (grp'.memberCount = grp.memberCount ∨ grp'.memberCount = grp.memberCount + 1 ∨
        ∃ m, c = .removeMember g m ∧ grp'.memberCount = grp.memberCount - 1) := by
  cases h with
  | dispute a reason => exact absurd rfl hc
  | resolve a => exact absurd rfl hc
  | payout | tick | advance =>
      exact ⟨(advanced_dispute grp).1, Or.inl (advanced_dispute grp).2⟩
  | join m referrer => exact ⟨rfl, Or.inr (Or.inl rfl)⟩
  | remove m => exact ⟨rfl, Or.inr (Or.inr ⟨m, rfl, rfl⟩)⟩
  | _ => exact ⟨rfl, Or.inl rfl⟩

/-- Whoever comes or goes in an orderly call holds no vote. -/
theorem voter_step (h : c.body env s = .ok () t) (hissued : g ≤ lastId s) (hc : ¬ Disputes g c)
    (horderly : Orderly g c s) (a : Address) : Voter t g a ↔ Voter s g a := by
  rw [Voter, Voter, (undisputed_step h hc).2 a, member_step h hissued a]
  refine and_congr_left fun hflag => ?_
  constructor
  · rintro (henters | ⟨hm, -⟩)
    · cases c with
      | joinGroup g' m referrer =>
          obtain ⟨rfl, rfl⟩ := henters
          exact absurd (horderly rfl) hflag
      | _ => exact henters.elim
    · exact hm
  · intro hm
    refine Or.inr ⟨hm, fun hquits => ?_⟩
    cases c with
    | removeMember g' m =>
        obtain ⟨rfl, rfl⟩ := hquits
        exact hflag (horderly rfl).1
    | emergencyWithdraw g' m =>
        obtain ⟨rfl, rfl⟩ := hquits
        exact hflag (horderly rfl)
    | _ => exact hquits

/-- **A VOTE** is counted once, and carries when it passes half. -/
theorem raise_fair {caller : Address} {reason : String} (hs : FairRound s g)
    (hissued : g ≤ lastId s)
    (h : (Call.raiseDispute g caller reason).body env s = .ok () t) :
    FairRound t g ∧ ∀ grp grp', groupAt s g = some grp → groupAt t g = some grp' →
      grp'.disputeActive = true → grp.disputeActive = true ∨ grp'.memberCount < 2 * votesAt t g := by
  have hmembers := fun a => member_step (a := a) h hissued
  obtain ⟨grp, hopen, rfl⟩ := raiseDispute_ok.mp h
  obtain ⟨hflags, hvotes, hgrp⟩ := raised_views s g grp caller reason hopen.group
  -- the one who raises is a voter now; the others are as they were
  have hvoter : ∀ a, Voter (raised s g grp caller reason) g a ↔ a = caller ∨ Voter s g a := by
    intro a
    rw [Voter, Voter, hflags, hmembers]
    by_cases ha : a = caller
    · subst ha
      simpa [Enters, Quits] using hopen.member
    · simp [ha, Enters, Quits]
  -- the round stays fair: its votes are those of its voters
  refine ⟨⟨?_, ?_, ?_⟩, ?_⟩
  · refine typedAt_of_readAt (a := U32.mk (votesAt s g + 1)) ?_
    rw [raised]
    split_ifs
    · simp [flagged]
    · simp [flagged]
  · rw [hvotes]
    exact hs.counted.insert (fun hv => hv.2 hopen.first) hvoter
  · intro grp' hgrp' hquiet
    obtain rfl := Option.some.inj (hgrp.symm.trans hgrp')
    rw [hvotes]
    split_ifs at hquiet ⊢ with hover
    omega
  · intro grp₀ grp' hgrp₀ hgrp' hactive
    obtain rfl := Option.some.inj (hopen.group.symm.trans hgrp₀)
    obtain rfl := Option.some.inj (hgrp.symm.trans hgrp')
    rw [hvotes]
    split_ifs at hactive ⊢ with hover
    · exact Or.inr hover
    · exact Or.inl hactive

/-- **A RESOLUTION** with everybody on the roster starts afresh. -/
theorem resolve_fair {caller : Address} (hissued : g ≤ lastId s)
    (horderly : ∀ a, Voter s g a → a ∈ (rosterAt s g).members)
    (h : (Call.resolveDispute g caller).body env s = .ok () t) :
    votesAt t g = 0 ∧ FairRound t g ∧
      ∀ a, t.persistent (.mbrProf g a) ≠ none → t.persistent (.grpDspV g a) = none := by
  obtain ⟨hcount, hflags⟩ := resolveDispute_ok h
  have hvotes : votesAt t g = 0 := by
    rw [votesAt, readAt, hcount]
    rfl
  have hnone : ∀ a, t.persistent (.mbrProf g a) ≠ none → t.persistent (.grpDspV g a) = none := by
    intro a hm
    rw [hflags]
    by_cases ha : a ∈ (rosterAt s g).members
    · rw [if_pos ha]
    · rw [if_neg ha]
      by_contra hflag
      rw [member_step h hissued a] at hm
      exact ha (horderly a ⟨(hm.resolve_left id).1, hflag⟩)
  refine ⟨hvotes, ⟨typedAt_of_none hcount, ?_, ?_⟩, hnone⟩
  · rw [hvotes]
    exact counted_none fun a hv => hv.2 (hnone a hv.1)
  · intro grp _ _
    rw [hvotes]
    exact Nat.zero_le _

/-- **ONE ORDERLY CALL** keeps the round fair, and disputes an undisputed group
    only with a majority. -/
theorem fair_step (hreg : Registry s) (hissued : g ≤ lastId s) (hs : FairRound s g)
    (horderly : Orderly g c s) (h : c.body env s = .ok () t) :
    FairRound t g ∧ ∀ grp grp', groupAt s g = some grp → groupAt t g = some grp' →
      grp'.disputeActive = true → grp.disputeActive = true ∨ grp'.memberCount < 2 * votesAt t g := by
  by_cases hc : Disputes g c
  -- a dispute is raised or resolved; other calls leave votes and flags alone
  · cases c with
    | raiseDispute g' a reason =>
        obtain rfl : g' = g := hc
        exact raise_fair hs hissued h
    | resolveDispute g' a =>
        obtain rfl : g' = g := hc
        refine ⟨(resolve_fair hissued (horderly rfl) h).2.1, ?_⟩
        intro grp grp' hgrp hgrp' hactive
        rcases record_rewritten hreg h g' grp' hgrp' with ⟨grp₀, hgrp₀, rfl | hrewrites⟩ | ⟨hnew, -⟩
        · obtain rfl := Option.some.inj (hgrp.symm.trans hgrp₀)
          exact Or.inl hactive
        · cases hrewrites
          cases hactive
        · omega
    | _ => exact hc.elim
  -- who joins or leaves in a round was excluded by the order of it
  · obtain ⟨hcount, -⟩ := undisputed_step h hc
    have hvotes : votesAt t g = votesAt s g := by rw [votesAt, votesAt, readAt_congr hcount]
    have hrecord : ∀ grp', groupAt t g = some grp' → ∃ grp, groupAt s g = some grp ∧
        grp'.disputeActive = grp.disputeActive ∧
        (grp.memberCount ≤ grp'.memberCount ∨
          ∃ m, c = .removeMember g m ∧ grp'.memberCount = grp.memberCount - 1) := by
      intro grp' hgrp'
      rcases record_rewritten hreg h g grp' hgrp' with ⟨grp, hgrp, rfl | hrewrites⟩ | ⟨hnew, -⟩
      · exact ⟨grp', hgrp, rfl, Or.inl le_rfl⟩
      · obtain ⟨hsame, hcount | hcount | hremoved⟩ := rewrites_dispute hrewrites hc
        · exact ⟨grp, hgrp, hsame, Or.inl hcount.ge⟩
        · exact ⟨grp, hgrp, hsame, Or.inl (by omega)⟩
        · exact ⟨grp, hgrp, hsame, Or.inr hremoved⟩
      · omega
    refine ⟨⟨hs.typed.congr hcount, ?_, ?_⟩, ?_⟩
    · rw [hvotes]
      exact hs.counted.congr (voter_step h hissued hc horderly)
    · intro grp' hgrp' hquiet
      obtain ⟨grp, hgrp, hsame, hle | ⟨m, rfl, hless⟩⟩ := hrecord grp' hgrp'
      · rw [hvotes]
        exact (hs.quiet grp hgrp (hsame.symm.trans hquiet)).trans hle
      · rw [hvotes, hless]
        exact (horderly rfl).2 grp hgrp (hsame.symm.trans hquiet)
    · intro grp grp' hgrp hgrp' hactive
      obtain ⟨grp₀, hgrp₀, hsame, -⟩ := hrecord grp' hgrp'
      obtain rfl := Option.some.inj (hgrp.symm.trans hgrp₀)
      exact Or.inl (hsame.symm.trans hactive)

/-- Along an orderly run. -/
theorem fair_run (hreg : Registry s) (hissued : g ≤ lastId s) (hs : FairRound s g)
    {steps : List Step} (hsteps : Along apply (OrderlyStep g) steps s) :
    Registry (run steps s) ∧ g ≤ lastId (run steps s) ∧ FairRound (run steps s) g := by
  refine exec_invariant (I := fun t => Registry t ∧ g ≤ lastId t ∧ FairRound t g) ?_
    ⟨hreg, hissued, hs⟩ hsteps
  refine apply_invariant ?_
    (fun _ h => ⟨⟨h.1.own, h.1.below⟩, h.2.1, h.2.2.typed, h.2.2.counted, h.2.2.quiet⟩)
    (fun _ _ h => ⟨⟨h.1.own, h.1.below⟩, h.2.1, h.2.2.typed, h.2.2.counted, h.2.2.quiet⟩)
  rintro env c v w horderly ⟨hv, hlast, hfair⟩ h
  exact ⟨registry_step hv h, hlast.trans (grows_step hv h).last,
    (fair_step hv hlast hfair (horderly ⟨(), w, h⟩) h).1⟩

end Fair

/-- **FAIR ROUNDS**: along every orderly run from a fair state, the count is the
    number of current members who voted, nobody votes twice in a round, an orderly
    call leaves an undisputed group disputed exactly when the votes exceed half of
    the member count, and an orderly resolution leaves a count of zero and lets
    every current member vote again. -/
theorem disputes_fair (s : State) (hreg : Registry s) (g : Nat) (hissued : g ≤ lastId s)
    (hs : FairRound s g) (steps : List Step) (hsteps : Along apply (OrderlyStep g) steps s) :
    Counted (Voter (run steps s) g) (votesAt (run steps s) g) ∧
      (∀ (env : Env) (m : Address) (reason : String),
        (run steps s).persistent (.grpDspV g m) ≠ none →
        ¬ Succeeds (raiseDispute g m reason) env (run steps s)) ∧
      (∀ (env : Env) (c : Call) (u : State) (grp grp' : SaveData.Group),
        Orderly g c (run steps s) → c.body env (run steps s) = .ok () u →
        groupAt (run steps s) g = some grp → grp.disputeActive = false →
        groupAt u g = some grp' →
        (grp'.disputeActive = true ↔ grp'.memberCount < 2 * votesAt u g)) ∧
      ∀ (env : Env) (caller : Address) (u : State),
        Orderly g (.resolveDispute g caller) (run steps s) →
        resolveDispute g caller env (run steps s) = .ok () u →
        votesAt u g = 0 ∧ ∀ (env' : Env) (m : Address) (reason : String) (grp : SaveData.Group),
          groupAt u g = some grp → grp.memberCount ≤ u32Max → u.persistent (.mbrProf g m) ≠ none →
          m ∈ env'.signers → Succeeds (raiseDispute g m reason) env' u := by
  obtain ⟨hreg', hlast, hfair⟩ := fair_run hreg hissued hs hsteps
  refine ⟨hfair.counted, ?_, ?_, ?_⟩
  -- a second vote is refused by the flag
  · rintro env m reason hflag ⟨⟨⟩, u, h⟩
    obtain ⟨grp, hopen, -⟩ := raiseDispute_ok.mp h
    exact hflag hopen.first
  -- the record turns at the majority and not before
  · intro env c u grp grp' horderly h hgrp hquiet hgrp'
    obtain ⟨hfair', honly⟩ := fair_step hreg' hlast hfair horderly h
    constructor
    · intro hactive
      rcases honly grp grp' hgrp hgrp' hactive with hbefore | hover
      · rw [hquiet] at hbefore
        cases hbefore
      · exact hover
    · intro hover
      by_contra hno
      have hle := hfair'.quiet grp' hgrp' (by simpa using hno)
      omega
  -- after the end of a dispute everybody may vote again
  · intro env caller u horderly h
    obtain ⟨hzero, hfair', hfree⟩ := resolve_fair hlast (horderly rfl) h
    refine ⟨hzero, ?_⟩
    intro env' m reason grp hgrp hfits hmember hsigned
    have hcount : votesAt u g + 1 ≤ u32Max := by
      rw [hzero]
      decide
    have hhalf : grp.memberCount / 2 + 1 ≤ u32Max := by
      have hbig : 2 ≤ u32Max := by decide
      omega
    exact ⟨(), _, raiseDispute_ok.mpr
      ⟨grp, ⟨hsigned, hgrp, hmember, hfree m hmember, hfair'.typed, hcount, hhalf⟩, rfl⟩⟩

/-! Two members, one of whom votes and is removed. -/

/-- The second member votes. -/
def afterVote : State := run [.call trioEnv (.raiseDispute 1 ⟨2⟩ "late")] fundedDuo

/-- And is removed. -/
def afterRemoval : State := run [.call trioEnv (.removeMember 1 ⟨2⟩)] afterVote

theorem fundedDuo_fair : FairRound fundedDuo 1 where
  typed := typedAt_of_none rfl
  counted := counted_none fun _ hv => hv.2 rfl
  quiet _ _ _ := Nat.zero_le _

/-- **A VOTE WITHOUT A VOTER**: the count stays at one, and no member has voted. -/
theorem removed_vote_counts :
    FairRound fundedDuo 1 ∧ votesAt afterRemoval 1 = 1 ∧ (∀ a, ¬ Voter afterRemoval 1 a) ∧
      ¬ Counted (Voter afterRemoval 1) (votesAt afterRemoval 1) := by
  have hvotes : votesAt afterRemoval 1 = 1 := rfl
  have hremove : (Call.removeMember 1 ⟨2⟩).body trioEnv afterVote = .ok () afterRemoval := rfl
  have hraise : raiseDispute 1 ⟨2⟩ "late" trioEnv fundedDuo = .ok () afterVote := rfl
  have hnone : ∀ a, ¬ Voter afterRemoval 1 a := by
    rintro a ⟨hmember, hflag⟩
    rw [(undisputed_step hremove id).2] at hflag
    obtain ⟨grp, hopen, he⟩ := raiseDispute_ok.mp hraise
    rw [← he, (raised_views fundedDuo 1 grp ⟨2⟩ "late" hopen.group).1] at hflag
    by_cases ha : a = ⟨2⟩
    · subst ha
      exact hmember rfl
    · rw [if_neg ha] at hflag
      exact hflag rfl
  refine ⟨fundedDuo_fair, hvotes, hnone, ?_⟩
  intro hcounted
  rw [hvotes] at hcounted
  cases hcounted.unique (counted_none hnone)

/-- The theorem for the vote alone. -/
theorem disputes_fair_instance :
    Counted (Voter afterVote 1) (votesAt afterVote 1) ∧ votesAt afterVote 1 = 1 := by
  exact ⟨(disputes_fair fundedDuo fundedDuo_registry 1 le_rfl fundedDuo_fair
    [.call trioEnv (.raiseDispute 1 ⟨2⟩ "late")] ⟨fun _ => trivial, trivial⟩).1, rfl⟩

end SaveDispute
