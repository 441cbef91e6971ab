import StellarSave.ExecutorProofs
import StellarSave.CallProofs

/-! # Ballots — votes on a new contribution amount

    Three entries with three lifetimes: the proposal and the tally, which a new
    proposal resets, and one flag per member, which NOTHING resets.  A member
    who voted once can never vote again, whatever is proposed later.

    Followed here along runs of proposals and votes, beside a list the contract
    does not keep: who has voted since the latest proposal.  As long as every
    proposal finds the members without flags, tally and flags describe that
    list, and the change is made exactly when it becomes a majority. -/

namespace SaveBallot

open HostProg Footprint TokenLedger SaveData SavePayout SaveRefund SaveCall Trace

/-! ## One proposal, one vote -/

/-- The pending amount. -/
abbrev pendingAt (s : State) (g : Nat) : Option I128 := readAt I128 s.persistent (.cPendAmt g)

/-- The tally. -/
abbrev tallyAt (s : State) (g : Nat) : Nat := ((readAt U32 s.persistent (.cAmtVote g)).getD ⟨0⟩).val

/-- The state after a proposal. -/
def proposed (s : State) (g : Nat) (amount : Int) : State :=
  (s.set (.cPendAmt g) (Codec.encode (I128.mk amount))).set (.cAmtVote g) (Codec.encode (U32.mk 0))

/-- The state once a vote is counted. -/
def tallied (s : State) (g : Nat) (member : Address) : State :=
  (s.set (.cMbrVote g member) (Codec.encode true)).set (.cAmtVote g)
    (Codec.encode (U32.mk (tallyAt s g + 1)))

/-- The state once the change is made. -/
def changed (s : State) (g : Nat) (grp : SaveData.Group) (amount : Int) : State :=
  ((s.set (.grp g) (Codec.encode { grp with contributionAmount := amount })).remove
    (.cPendAmt g)).remove (.cAmtVote g)

/-- What `vote_contribution_change` asks. -/
structure VoteOpen (env : Env) (s : State) (g : Nat) (member : Address) (grp : SaveData.Group)
    (amount : Int) : Prop where
  signed : member ∈ env.signers
  group : groupAt s g = some grp
  dynamic : grp.allowDynamicContributions = true
  joined : s.persistent (.mbrProf g member) ≠ none
  pending : pendingAt s g = some ⟨amount⟩
  unvoted : s.persistent (.cMbrVote g member) = none
  tally : TypedAt U32 s.persistent (.cAmtVote g) ∧ tallyAt s g + 1 ≤ u32Max

section Inversion

variable {env : Env} {s t : State} {g : Nat} {u : Unit} {member : Address} {amount : Int}

theorem proposeContributionChange_ok :
    proposeContributionChange g amount env s = .ok u t ↔
      ∃ grp, groupAt s g = some grp ∧ (grp.creator ∈ env.signers ∧
        grp.allowDynamicContributions = true ∧ grp.status = .active ∧ 0 < amount) ∧
        proposed s g amount = t := by
  simp [proposeContributionChange, proposed, and_assoc]

/-- **THE VOTE**: counted, and carried out when it makes a majority. -/
theorem voteContributionChange_ok :
    voteContributionChange g member env s = .ok u t ↔
      ∃ grp amount, VoteOpen env s g member grp amount ∧
        ((grp.memberCount < 2 * (tallyAt s g + 1) ∧ grp.currentCycle + 1 ≤ u32Max ∧
            changed (tallied s g member) g grp amount = t) ∨
          (¬ grp.memberCount < 2 * (tallyAt s g + 1) ∧ tallied s g member = t)) := by
  simp [voteContributionChange, executeContributionChange, typedAt_set_of_ne]
  have hmajority : ∀ n : Nat, n / 2 ≤ tallyAt s g ↔ n < 2 * (tallyAt s g + 1) := by omega
  have hminority : ∀ n : Nat, tallyAt s g < n / 2 ↔ 2 * (tallyAt s g + 1) ≤ n := by omega
  simp only [hmajority, hminority]
  constructor
  · rintro ⟨hsig, grp, hgrp, hdyn, hprof, n, hpend, hfree, htyped, hfits, h⟩
    exact ⟨grp, n.val, ⟨hsig, hgrp, hdyn, hprof, hpend, hfree, htyped, hfits⟩, h⟩
  · rintro ⟨grp, n, ⟨hsig, hgrp, hdyn, hprof, hpend, hfree, htyped, hfits⟩, h⟩
    exact ⟨hsig, grp, hgrp, hdyn, hprof, ⟨n⟩, hpend, hfree, htyped, hfits, h⟩

end Inversion

/-! ## Runs of ballots -/

/-- One call on the ballot of a group. -/
inductive Ballot where
  | propose (env : Env) (amount : Int)
  | vote (env : Env) (member : Address)

/-- The call ends well. -/
def accepted (c : Call) (env : Env) (s : State) : Bool :=
  match c.body env s with
  | .ok _ _ => true
  | .err _ _ => false
  | .trap => false
  | .mistyped => false

theorem accepted_iff {c : Call} {env : Env} {s : State} :
    accepted c env s = true ↔ Succeeds c.body env s := by
  rw [accepted, Succeeds]
  cases c.body env s with
  | ok x t => simp
  | err e t => simp
  | trap => simp
  | mistyped => simp

/-- The ballot as a step of the contract. -/
def Ballot.step (g : Nat) : Ballot → Step
  | .propose env amount => .call env (.proposeContributionChange g amount)
  | .vote env member => .call env (.voteContributionChange g member)

/-- Who has voted since the latest proposal, one ballot later. -/
def Ballot.voters (g : Nat) (s : State) (vs : List Address) : Ballot → List Address
  | .propose env amount =>
      if accepted (.proposeContributionChange g amount) env s = true then [] else vs
  | .vote env member =>
      if accepted (.voteContributionChange g member) env s = true then vs ++ [member] else vs

/-- The contract and the list beside it. -/
def cast (g : Nat) (b : Ballot) (w : State × List Address) : State × List Address :=
  (apply (b.step g) w.1, b.voters g w.1 w.2)

/-- **AFRESH**: while a proposal is open, the voters since it was made are
    distinct members, not yet a majority; each other member who signs can vote,
    and the change is made exactly if that makes them one; nobody else can. -/
def CountsAfresh (g : Nat) (w : State × List Address) : Prop :=
  ∀ grp amount, groupAt w.1 g = some grp → pendingAt w.1 g = some ⟨amount⟩ →
    (w.2.Nodup ∧ ∀ a ∈ w.2, w.1.persistent (.mbrProf g a) ≠ none) ∧
    ¬ grp.memberCount < 2 * w.2.length ∧
    (∀ env member, member ∈ env.signers → w.1.persistent (.mbrProf g member) ≠ none →
      member ∉ w.2 → ∃ t, voteContributionChange g member env w.1 = .ok () t ∧
        if grp.memberCount < 2 * (w.2.length + 1) then
          groupAt t g = some { grp with contributionAmount := amount } ∧ pendingAt t g = none
        else groupAt t g = some grp ∧ pendingAt t g = some ⟨amount⟩) ∧
    ∀ env member, Succeeds (voteContributionChange g member) env w.1 →
      w.1.persistent (.mbrProf g member) ≠ none ∧ member ∉ w.2

/-- A proposal that goes through finds the members without flags. -/
def Clean (g : Nat) (b : Ballot) (w : State × List Address) : Prop :=
  match b with
  | .propose env amount => accepted (.proposeContributionChange g amount) env w.1 = true →
      ∀ a, w.1.persistent (.mbrProf g a) ≠ none → w.1.persistent (.cMbrVote g a) = none
  | .vote _ _ => True

/-- Numbers that fit: the member count, as its type has it, and a cycle that is
    not the very last one. -/
def Roomy (s : State) (g : Nat) : Prop :=
  ∀ grp, groupAt s g = some grp → grp.memberCount ≤ u32Max ∧ grp.currentCycle + 1 ≤ u32Max

/-- Tally and flags describe the voters of an open proposal. -/
structure Open (s : State) (g : Nat) (vs : List Address) : Prop where
  group : ∃ grp, groupAt s g = some grp ∧ grp.allowDynamicContributions = true ∧
    ¬ grp.memberCount < 2 * vs.length
  tally : TypedAt U32 s.persistent (.cAmtVote g) ∧ tallyAt s g = vs.length
  flags : ∀ a, s.persistent (.mbrProf g a) ≠ none →
    (s.persistent (.cMbrVote g a) = none ↔ a ∉ vs)
  voters : vs.Nodup ∧ ∀ a ∈ vs, s.persistent (.mbrProf g a) ≠ none

/-- Either no proposal is open, or the books of the open one are right. -/
def Kept (g : Nat) (w : State × List Address) : Prop :=
  Roomy w.1 g ∧ (w.1.persistent (.cPendAmt g) = none ∨ Open w.1 g w.2)

section Runs

variable {env : Env} {s t : State} {g : Nat} {vs : List Address} {member : Address} {amount : Int}

theorem propose_kept (hs : Kept g (s, vs))
    (hclean : ∀ a, s.persistent (.mbrProf g a) ≠ none → s.persistent (.cMbrVote g a) = none)
    (h : proposeContributionChange g amount env s = .ok () t) : Kept g (t, []) := by
  obtain ⟨grp, hgrp, ⟨-, hdyn, -, -⟩, rfl⟩ := proposeContributionChange_ok.mp h
  refine ⟨?_, Or.inr ⟨⟨grp, ?_, hdyn, by simp⟩, ⟨?_, ?_⟩, ?_, ⟨List.nodup_nil, by simp⟩⟩⟩
  · intro grp' hgrp'
    refine hs.1 grp' ?_
    simpa [groupAt, proposed] using hgrp'
  · simpa [groupAt, proposed] using hgrp
  · exact typedAt_of_readAt (a := U32.mk 0) (by simp [proposed])
  · simp [tallyAt, proposed]
  · intro a ha
    have ha' : s.persistent (.mbrProf g a) ≠ none := by simpa [proposed] using ha
    simpa [proposed] using hclean a ha'

/-- A pending amount means an open proposal. -/
theorem Kept.open_of_pending (hs : Kept g (s, vs)) (h : pendingAt s g = some ⟨amount⟩) :
    Open s g vs := by
  refine hs.2.resolve_left fun hnone => ?_
  rw [(readAt_eq_some _ _ _).mp h] at hnone
  cases hnone

/-- A vote in an open proposal, by somebody who has not voted on it. -/
theorem vote_kept (hs : Kept g (s, vs)) (h : voteContributionChange g member env s = .ok () t) :
    Kept g (t, vs ++ [member]) := by
  obtain ⟨grp, n, hopen, hend⟩ := voteContributionChange_ok.mp h
  have hkeep := hs.open_of_pending hopen.pending
  have htally : tallyAt s g = vs.length := hkeep.tally.2
  rcases hend with ⟨-, -, rfl⟩ | ⟨hminority, rfl⟩
  · -- carried: the proposal is gone
    refine ⟨?_, Or.inl (by simp [changed])⟩
    intro grp' hgrp'
    have hgrp'' : { grp with contributionAmount := n } = grp' := by
      simpa [groupAt, changed] using hgrp'
    rw [← hgrp'']
    exact hs.1 grp hopen.group
  · -- counted: one more voter, one more flag
    have hgroup : groupAt (tallied s g member) g = some grp := by
      simpa [groupAt, tallied] using hopen.group
    have hnew : member ∉ vs := (hkeep.flags member hopen.joined).mp hopen.unvoted
    refine ⟨?_, Or.inr ⟨⟨grp, hgroup, hopen.dynamic, ?_⟩, ⟨?_, ?_⟩, ?_, ?_, ?_⟩⟩
    · intro grp' hgrp'
      obtain rfl := Option.some.inj (hgroup.symm.trans hgrp')
      exact hs.1 grp hopen.group
    · simpa [htally] using hminority
    · exact typedAt_of_readAt (a := U32.mk (tallyAt s g + 1)) (by simp [tallied])
    · have hone : tallyAt (tallied s g member) g = tallyAt s g + 1 := by simp [tallied, tallyAt]
      rw [hone, htally, List.length_append, List.length_singleton]
    -- every flag is that of a voter in this round
    · intro a ha
      have ha' : s.persistent (.mbrProf g a) ≠ none := by simpa [tallied] using ha
      by_cases hm : a = member
      · simp [tallied, hm]
      · simpa [tallied, hm] using hkeep.flags a ha'
    · refine List.nodup_append.mpr ⟨hkeep.voters.1, List.nodup_singleton member, ?_⟩
      intro a ha b hb he
      rw [List.mem_singleton] at hb
      exact hnew (hb ▸ he ▸ ha)
    · intro a ha
      have ha' : s.persistent (.mbrProf g a) ≠ none := by
        rcases List.mem_append.mp ha with hold | hone
        · exact hkeep.voters.2 a hold
        · rw [List.mem_singleton.mp hone]
          exact hopen.joined
      simpa [tallied] using ha'

/-- **ONE BALLOT**, clean if it is a proposal. -/
theorem cast_kept (b : Ballot) (w : State × List Address) (hclean : Clean g b w)
    (hw : Kept g w) : Kept g (cast g b w) := by
  obtain ⟨s, vs⟩ := w
  cases b with
  | propose env amount =>
      rcases commit_eq_or (.proposeContributionChange g amount) env s with ⟨t, ht, he⟩ | ⟨hno, he⟩
      · have hyes := accepted_iff.mpr ⟨(), t, ht⟩
        simp only [cast, Ballot.step, Ballot.voters, apply, he, hyes, if_true]
        exact propose_kept hw (hclean hyes) ht
      · have hnot := mt accepted_iff.mp hno
        simp only [cast, Ballot.step, Ballot.voters, apply, he, if_neg hnot]
        exact hw
  | vote env member =>
      rcases commit_eq_or (.voteContributionChange g member) env s with ⟨t, ht, he⟩ | ⟨hno, he⟩
      · have hyes := accepted_iff.mpr ⟨(), t, ht⟩
        simp only [cast, Ballot.step, Ballot.voters, apply, he, hyes, if_true]
        exact vote_kept hw ht
      · have hnot := mt accepted_iff.mp hno
        simp only [cast, Ballot.step, Ballot.voters, apply, he, if_neg hnot]
        exact hw

/-- What the books are good for. -/
theorem Kept.countsAfresh {w : State × List Address} (hw : Kept g w) : CountsAfresh g w := by
  obtain ⟨s, vs⟩ := w
  intro grp n hgrp hpend
  have hkeep := hw.open_of_pending hpend
  obtain ⟨grp', hgrp', hdyn, hminority⟩ := hkeep.group
  obtain rfl := Option.some.inj (hgrp.symm.trans hgrp')
  have htally : tallyAt s g = vs.length := hkeep.tally.2
  obtain ⟨hcount, hcycle⟩ := hw.1 grp hgrp
  refine ⟨hkeep.voters, hminority, ?_, ?_⟩
  -- whoever has not voted may vote, and carries it or not
  · intro env member hsig hprof hnew
    have hopen : VoteOpen env s g member grp n :=
      ⟨hsig, hgrp, hdyn, hprof, hpend, (hkeep.flags member hprof).mpr hnew, hkeep.tally.1, by
        rw [htally]
        have hlen : ¬ grp.memberCount < 2 * vs.length := hminority
        have hbig : 1 ≤ u32Max := by decide
        omega⟩
    by_cases hmajority : grp.memberCount < 2 * (vs.length + 1)
    · refine ⟨changed (tallied s g member) g grp n, ?_, ?_⟩
      · exact voteContributionChange_ok.mpr ⟨grp, n, hopen, Or.inl ⟨htally ▸ hmajority, hcycle, rfl⟩⟩
      · rw [if_pos hmajority]
        exact ⟨by simp [groupAt, changed], by simp [pendingAt, changed]⟩
    · refine ⟨tallied s g member, ?_, ?_⟩
      · exact voteContributionChange_ok.mpr ⟨grp, n, hopen, Or.inr ⟨htally ▸ hmajority, rfl⟩⟩
      · rw [if_neg hmajority]
        exact ⟨by simpa [groupAt, tallied] using hgrp, by simpa [pendingAt, tallied] using hpend⟩
  -- and whoever has voted is turned away
  · rintro env member ⟨x, t, h⟩
    obtain ⟨grp', n', hopen, -⟩ := voteContributionChange_ok.mp h
    exact ⟨hopen.joined, (hkeep.flags member hopen.joined).mp hopen.unvoted⟩

/-- **EVERY PROPOSAL AFRESH**: along every run of proposals and votes whose
    proposals all find the members without flags. -/
theorem votes_count_afresh (s : State) (g : Nat) (hroom : Roomy s g)
    (hnone : s.persistent (.cPendAmt g) = none) (bs : List Ballot)
    (hrun : Along (cast g) (Clean g) bs (s, [])) : CountsAfresh g (exec (cast g) bs (s, [])) :=
  (exec_invariant (I := Kept g) cast_kept ⟨hroom, Or.inl hnone⟩ hrun).countsAfresh

end Runs

/-! The funded pair, with dynamic contributions. -/

/-- Both members may vote, and both votes are needed. -/
def ballotPair : State :=
  (pairState 3 200).set (.grp 1)
    (Codec.encode { pairGroup 3 with allowDynamicContributions := true })

/-- The creator and first member signs. -/
def creatorSigns : Env := .plain 20 [⟨1⟩] first_signs

theorem ballotPair_roomy : Roomy ballotPair 1 := by
  intro grp hgrp
  obtain rfl := Option.some.inj hgrp
  decide

/-- **DISENFRANCHISED**: the first member votes on one proposal and is turned
    away from the next. -/
theorem earlier_vote_blocks :
    Roomy ballotPair 1 ∧ ballotPair.persistent (.cPendAmt 1) = none ∧
      ¬ CountsAfresh 1 (exec (cast 1) [.propose creatorSigns 200, .vote creatorSigns ⟨1⟩,
        .propose creatorSigns 300] (ballotPair, [])) := by
  refine ⟨ballotPair_roomy, rfl, fun h => ?_⟩
  obtain ⟨-, -, hable, -⟩ := h { pairGroup 3 with allowDynamicContributions := true } 300 rfl rfl
  have hmember : Address.mk 1 ∈ creatorSigns.signers := List.mem_singleton.mpr rfl
  have hjoined : (exec (cast 1) [.propose creatorSigns 200, .vote creatorSigns ⟨1⟩,
      .propose creatorSigns 300] (ballotPair, [])).1.persistent (.mbrProf 1 ⟨1⟩) ≠ none := by
    intro hnone
    cases hnone
  obtain ⟨t, ht, -⟩ := hable creatorSigns ⟨1⟩ hmember hjoined List.not_mem_nil
  cases ht

/-- The theorem at the first proposal, with one vote in. -/
theorem votes_count_afresh_instance :
    pendingAt (exec (cast 1) [.propose creatorSigns 200, .vote creatorSigns ⟨1⟩]
        (ballotPair, [])).1 1 = some ⟨200⟩ ∧
      CountsAfresh 1 (exec (cast 1) [.propose creatorSigns 200, .vote creatorSigns ⟨1⟩]
        (ballotPair, [])) := by
  refine ⟨rfl, votes_count_afresh ballotPair 1 ballotPair_roomy rfl _ ⟨?_, trivial, trivial⟩⟩
  intro _ a _
  rfl

end SaveBallot
