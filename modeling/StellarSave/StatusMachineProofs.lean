import StellarSave.StatusProofs

/-! # The declared state machine — who follows it

    `GroupStatus::can_transition_to` declares which status may follow which,
    and most calls never ask it.  A step is LEGAL when every group's record
    and every group's key moves along the declared table.

    Six calls can break it: activation and the two ways back to `Active` from
    a terminal status, the pause of a record the key does not describe, the
    automatic pause of a dispute, a last tick of a group that is not `Active`,
    and the dissolution of a completed record.  A run that avoids them never
    leaves a terminal status. -/

namespace SaveStatusMachine

open HostProg SaveData SaveMembership SaveLifecycle SavePayout SaveRefund SaveCall SaveStatus
open Trace

/-- The status in the record. -/
def recordStatus (s : State) (g : Nat) : Option GroupStatus := (tagAt s g).map Prod.snd

/-- A copy that is there before and after moves along the table. -/
def Follows (a b : Option GroupStatus) : Prop :=
  ∀ x y, a = some x → b = some y → x.canTransitionTo y = true

/-- Both copies of every group move along the table. -/
structure Legal (s t : State) : Prop where
  records : ∀ j, Follows (recordStatus s j) (recordStatus t j)
  keys : ∀ j, Follows (statusAt s j) (statusAt t j)

/-- Both copies of the group, where there are any, may move to `st`. -/
def MayBecome (s : State) (g : Nat) (st : GroupStatus) : Prop :=
  (∀ x, recordStatus s g = some x → x.canTransitionTo st = true) ∧
    ∀ x, statusAt s g = some x → x.canTransitionTo st = true

/-- The call, made in this state, stays on the table. -/
def Declared (s : State) : Call → Prop
  | .activateGroup g _ | .resolveDispute g _ | .resumeGroup g _ => MayBecome s g .active
  | .pauseGroup g _ => MayBecome s g .paused
  | .raiseDispute g _ _ => ∀ grp, groupAt s g = some grp →
      grp.memberCount / 2 + 1 ≤ disputeVotes s g → MayBecome s g .paused
  | .tick g => ∀ grp, groupAt s g = some grp → grp.maxMembers ≤ grp.currentCycle + 1 →
      grp.status = .active
  | .voteDissolve g _ => ∀ grp, groupAt s g = some grp →
      grp.memberCount ≤ dissolveVotes s g → grp.status ≠ .completed
  | _ => True

section Machine

variable {env : Env} {s t : State} {g : Nat}

theorem canTransitionTo_self (x : GroupStatus) : x.canTransitionTo x = true := by
  cases x <;> rfl

/-- Terminal means terminal: the table leads nowhere else. -/
theorem eq_of_terminal {x y : GroupStatus} (hx : x.isTerminal = true)
    (h : x.canTransitionTo y = true) : y = x := by
  revert hx h
  cases x <;> cases y <;> decide

theorem follows_self (a : Option GroupStatus) : Follows a a := by
  intro x y hx hy
  rw [hx] at hy
  obtain rfl := Option.some.inj hy
  exact canTransitionTo_self x

theorem recordStatus_of_group {grp : SaveData.Group} (h : groupAt s g = some grp) :
    recordStatus s g = some grp.status := by
  rw [recordStatus, tagAt, h]
  rfl

theorem legal_of_still (h : Still s t) : Legal s t where
  records j := by
    simp only [recordStatus]
    rw [h.tags]
    exact follows_self _
  keys j := by
    rw [h.keys]
    exact follows_self _

theorem Moves.recordStatus {r k : Option GroupStatus} (h : Moves s t g r k) (j : Nat) :
    recordStatus t j = if j = g then r else recordStatus s j := by
  simp only [SaveStatusMachine.recordStatus]
  rw [h.tags]
  by_cases hj : j = g
  · rw [if_pos hj, if_pos hj, Option.map_map]
    exact Option.map_id'
  · rw [if_neg hj, if_neg hj]

/-- Moving one pair is legal exactly when both its copies follow the table. -/
theorem legal_of_moves {r k : Option GroupStatus} (h : Moves s t g r k) :
    Legal s t ↔ Follows (recordStatus s g) r ∧ Follows (statusAt s g) k := by
  -- a legal change is one of the record and one of the key
  constructor
  · intro hl
    have hr := hl.records g
    have hk := hl.keys g
    rw [Moves.recordStatus h, if_pos rfl] at hr
    rw [h.keys, if_pos rfl] at hk
    exact ⟨hr, hk⟩
  -- other groups keep both
  · rintro ⟨hr, hk⟩
    constructor
    · intro j
      rw [Moves.recordStatus h]
      by_cases hj : j = g
      · rw [if_pos hj, hj]
        exact hr
      · rw [if_neg hj]
        exact follows_self _
    · intro j
      rw [h.keys]
      by_cases hj : j = g
      · rw [if_pos hj, hj]
        exact hk
      · rw [if_neg hj]
        exact follows_self _

theorem follows_some {a : Option GroupStatus} {st : GroupStatus} :
    Follows a (some st) ↔ ∀ x, a = some x → x.canTransitionTo st = true := by
  constructor
  · intro h x hx
    exact h x st hx rfl
  · intro h x y hx hy
    obtain rfl := Option.some.inj hy
    exact h x hx

/-- Both copies to one status. -/
theorem legal_iff_mayBecome {st : GroupStatus} (h : Moves s t g (some st) (some st)) :
    Legal s t ↔ MayBecome s g st := by
  rw [legal_of_moves h, follows_some, follows_some]
  rfl

/-- A group that was not stored cannot make an illegal move. -/
theorem follows_none (b : Option GroupStatus) : Follows none b :=
  fun _ _ hx => nomatch hx

/-- An id that has not been handed out has no copies. -/
theorem fresh_none (hreg : Registry s) {j : Nat} (hj : lastId s < j) :
    recordStatus s j = none ∧ statusAt s j = none := by
  obtain ⟨hg, hk⟩ := hreg.below j hj
  refine ⟨?_, hk⟩
  rw [recordStatus, tagAt_eq_none.mpr hg]
  rfl

theorem legal_of_created {r k : Option GroupStatus} (hreg : Registry s)
    (h : Moves s t (lastId s + 1) r k) : Legal s t := by
  obtain ⟨hg, hk⟩ := fresh_none hreg (Nat.lt_succ_self (lastId s))
  refine (legal_of_moves h).mpr ⟨?_, ?_⟩
  · rw [hg]
    exact follows_none r
  · rw [hk]
    exact follows_none k

/-- Advancing: legal unless it completes a record that is not `Active`. -/
theorem legal_of_advance {grp : SaveData.Group} (hgrp : groupAt s g = some grp)
    (hopen : grp.status ≠ .completed)
    (h : Moves s t g (some (nextStatus grp)) (statusAt s g)) :
    Legal s t ↔ (grp.maxMembers ≤ grp.currentCycle + 1 → grp.status = .active) := by
  rw [legal_of_moves h, follows_some, recordStatus_of_group hgrp]
  simp only [Option.some.injEq, forall_eq', follows_self, and_true]
  rw [nextStatus]
  by_cases hlast : grp.maxMembers ≤ grp.currentCycle + 1
  · rw [if_pos hlast]
    simp only [hlast, forall_const]
    revert hopen
    cases grp.status <;> decide
  · rw [if_neg hlast]
    exact iff_of_true (canTransitionTo_self _) fun h' => absurd h' hlast

/-- **ONE CALL**: legal exactly when it stays on the table. -/
theorem legal_step {c : Call} (hreg : Registry s) (h : c.body env s = .ok () t) :
    Legal s t ↔ Declared s c := by
  have heff := call_status hreg c h
  cases c with
  | createGroup creator amount duration maxMembers tok grace order =>
      exact iff_of_true (legal_of_created hreg heff) trivial
  | cloneGroup caller g o => exact iff_of_true (legal_of_created hreg heff) trivial
  | mergeGroups g₁ g₂ =>
      obtain ⟨htags, hkeys, hold⟩ := heff
      obtain ⟨hg, hk⟩ := fresh_none hreg (Nat.lt_succ_self (lastId s))
      refine iff_of_true ⟨fun j => ?_, fun j => ?_⟩ trivial
      · by_cases hj : j = lastId s + 1
        · rw [hj, hg]
          exact follows_none _
        · simp only [recordStatus]
          rw [htags, if_neg hj]
          exact follows_self _
      · rw [hkeys]
        by_cases hm : j = g₁ ∨ j = g₂
        · rw [if_pos hm, follows_some]
          intro x hx
          have hpend := (hold j hm).2
          rw [hx] at hpend
          have hx' : x = .pending := hpend
          rw [hx']
          rfl
        · rw [if_neg hm]
          by_cases hj : j = lastId s + 1
          · rw [hj, hk]
            exact follows_none _
          · rw [if_neg hj]
            exact follows_self _
  | activateGroup g a | resolveDispute g a => exact legal_iff_mayBecome heff.2
  | pauseGroup g a | resumeGroup g a => exact legal_iff_mayBecome heff.2.2
  | raiseDispute g a reason =>
      obtain ⟨grp, hgrp, heff⟩ := heff
      have hall : Declared s (.raiseDispute g a reason) ↔
          (grp.memberCount / 2 + 1 ≤ disputeVotes s g → MayBecome s g .paused) := by
        simp [Declared, hgrp]
      rw [hall]
      by_cases hvote : grp.memberCount / 2 + 1 ≤ disputeVotes s g
      · rw [if_pos hvote] at heff
        rw [legal_iff_mayBecome heff]
        exact ⟨fun hm _ => hm, fun hm => hm hvote⟩
      · rw [if_neg hvote] at heff
        exact iff_of_true (legal_of_still heff) fun hv => absurd hv hvote
  | voteDissolve g a =>
      obtain ⟨grp, hgrp, hkey, heff⟩ := heff
      have hall : Declared s (.voteDissolve g a) ↔
          (grp.memberCount ≤ dissolveVotes s g → grp.status ≠ .completed) := by
        simp [Declared, hgrp]
      rw [hall]
      by_cases hvote : grp.memberCount ≤ dissolveVotes s g
      · rw [if_pos hvote] at heff
        rw [legal_iff_mayBecome heff, MayBecome, recordStatus_of_group hgrp]
        -- The key was checked; only the record can be in the way.
        have hk : ∀ x, statusAt s g = some x → x.canTransitionTo .cancelled = true := by
          intro x hx
          rw [hx] at hkey
          rcases hkey with hx' | hx'
          · rw [show x = .active from hx']
            rfl
          · rw [show x = .paused from hx']
            rfl
        simp only [Option.some.injEq, forall_eq', hvote, forall_const]
        rw [and_iff_left hk]
        cases grp.status <;> decide
      · rw [if_neg hvote] at heff
        exact iff_of_true (legal_of_still heff) fun hv => absurd hv hvote
  | cancelGroup g a =>
      obtain ⟨grp, hgrp, hterm, hmoves⟩ := heff
      refine iff_of_true ((legal_of_moves hmoves).mpr ⟨?_, ?_⟩) trivial
      · rw [recordStatus_of_group hgrp]
        exact follows_self _
      · rw [follows_some]
        intro x hx
        rw [hx] at hterm
        revert hterm
        cases x <;> decide
  | executePayout g =>
      obtain ⟨grp, hgrp, hact, hmoves⟩ := heff
      refine iff_of_true ((legal_of_advance hgrp (by rw [hact]; decide) hmoves).mpr ?_) trivial
      exact fun _ => hact
  | tick g =>
      obtain ⟨grp, hgrp, hopen, hmoves⟩ := heff
      rw [legal_of_advance hgrp hopen hmoves]
      simp [Declared, hgrp]
  | tryAdvanceCycle g =>
      obtain ⟨grp, hgrp, hact, heff⟩ := heff
      refine iff_of_true ?_ trivial
      by_cases htime : getCurrentCycle grp env.timestamp ≤ grp.currentCycle
      · rw [if_pos htime] at heff
        exact legal_of_still heff
      · rw [if_neg htime] at heff
        exact (legal_of_advance hgrp (by rw [hact]; decide) heff).mpr fun _ => hact
  | deleteGroup g =>
      refine iff_of_true ((legal_of_moves heff).mpr ⟨?_, ?_⟩) trivial
      · exact fun _ _ _ hy => nomatch hy
      · exact fun _ _ _ hy => nomatch hy
  | _ => exact iff_of_true (legal_of_still heff) trivial

end Machine

/-! ## Runs -/

/-- The step is not one of the calls that leave the table. -/
def DeclaredStep : Step → State → Prop
  | .call env c, s => Succeeds c.body env s → Declared s c
  | _, _ => True

/-- A record copy that is stuck: in status `a`, or gone for good. -/
structure RecordStuck (j : Nat) (a : GroupStatus) (s : State) : Prop where
  registry : Registry s
  known : j ≤ lastId s
  stuck : recordStatus s j = some a ∨ tagAt s j = none

/-- A key copy that is stuck. -/
structure KeyStuck (j : Nat) (a : GroupStatus) (s : State) : Prop where
  registry : Registry s
  known : j ≤ lastId s
  stuck : statusAt s j = some a ∨ (statusAt s j = none ∧ tagAt s j = none)

section Runs

variable {env : Env} {s t : State} {c : Call} {j : Nat} {a : GroupStatus}

theorem recordStuck_step (ha : a.isTerminal = true) (hc : Declared s c)
    (hs : RecordStuck j a s) (h : c.body env s = .ok () t) : RecordStuck j a t := by
  have hgrows := grows_step hs.registry h
  refine ⟨hgrows.registry hs.registry, Nat.le_trans hs.known hgrows.last, ?_⟩
  cases htag : tagAt t j with
  | none => exact Or.inr rfl
  | some p =>
      left
      have hnow : recordStatus t j = some p.2 := by
        rw [recordStatus, htag]
        rfl
      rcases hs.stuck with hold | hnone
      · have hlegal := ((legal_step hs.registry h).mpr hc).records j a p.2 hold hnow
        rw [hnow, eq_of_terminal ha hlegal]
      · have hne : tagAt t j ≠ none := by
          rw [htag]
          exact Option.some_ne_none p
        rcases hgrows.tags j hne with hn | ⟨hlt, -⟩
        · exact absurd hnone hn
        · exact absurd hs.known (Nat.not_le_of_lt hlt)

theorem keyStuck_step (ha : a.isTerminal = true) (hc : Declared s c)
    (hs : KeyStuck j a s) (h : c.body env s = .ok () t) : KeyStuck j a t := by
  have hgrows := grows_step hs.registry h
  refine ⟨hgrows.registry hs.registry, Nat.le_trans hs.known hgrows.last, ?_⟩
  -- the key says what it said, or the group is gone
  rcases hs.stuck with hold | ⟨hkey, htag⟩
  · cases hnow : statusAt t j with
    | none =>
        have hne : statusAt s j ≠ none := by
          rw [hold]
          exact Option.some_ne_none a
        exact Or.inr ⟨rfl, hgrows.deleted j hne hnow⟩
    | some b =>
        have hlegal := ((legal_step hs.registry h).mpr hc).keys j a b hold hnow
        rw [eq_of_terminal ha hlegal]
        exact Or.inl rfl
  -- a group that was deleted is not created again
  · refine Or.inr ⟨?_, ?_⟩
    · by_contra hne
      rcases hgrows.keys j hne with hn | hn | ⟨hlt, -⟩
      · exact hn hkey
      · exact hn htag
      · exact absurd hs.known (Nat.not_le_of_lt hlt)
    · by_contra hne
      rcases hgrows.tags j hne with hn | ⟨hlt, -⟩
      · exact hn htag
      · exact absurd hs.known (Nat.not_le_of_lt hlt)

/-- A step whose condition is only needed when the call ends well. -/
theorem stuck_apply {I : State → Prop}
    (hstep : ∀ env c s t, Declared s c → I s → c.body env s = .ok () t → I t)
    (hexpire : ∀ s, I s → I { s with temporary := fun _ => none })
    (hledger : ∀ s l, I s → I (s.setLedger l)) (x : Step) (s : State) (hx : DeclaredStep x s)
    (hs : I s) : I (apply x s) :=
  apply_invariant (C := DeclaredStep)
    (fun env c s t hc hs ht => hstep env c s t (hc ⟨(), t, ht⟩) hs ht) hexpire hledger x s hx hs

theorem record_absorbing {steps : List Step} (ha : a.isTerminal = true)
    (hs : RecordStuck j a s) (hrun : Along apply DeclaredStep steps s) :
    RecordStuck j a (run steps s) :=
  exec_invariant
    (stuck_apply (fun _ _ _ _ hc hs ht => recordStuck_step ha hc hs ht)
      (fun _ h => ⟨⟨h.registry.own, h.registry.below⟩, h.known, h.stuck⟩)
      (fun _ _ h => ⟨⟨h.registry.own, h.registry.below⟩, h.known, h.stuck⟩)) hs hrun

theorem key_absorbing {steps : List Step} (ha : a.isTerminal = true)
    (hs : KeyStuck j a s) (hrun : Along apply DeclaredStep steps s) :
    KeyStuck j a (run steps s) :=
  exec_invariant
    (stuck_apply (fun _ _ _ _ hc hs ht => keyStuck_step ha hc hs ht)
      (fun _ h => ⟨⟨h.registry.own, h.registry.below⟩, h.known, h.stuck⟩)
      (fun _ _ h => ⟨⟨h.registry.own, h.registry.below⟩, h.known, h.stuck⟩)) hs hrun

/-- What is stored has an id that was handed out. -/
theorem known_of_stored (hreg : Registry s) (h : tagAt s j ≠ none ∨ statusAt s j ≠ none) :
    j ≤ lastId s := by
  by_contra hlt
  obtain ⟨hg, hk⟩ := hreg.below j (Nat.lt_of_not_le hlt)
  rcases h with hn | hn
  · exact hn (tagAt_eq_none.mpr hg)
  · exact hn hk

end Runs

/-- **THE TABLE IS FOLLOWED EXACTLY OUTSIDE THE SIX CALLS**, and a run that
    stays outside them never leaves `Completed` or `Cancelled`, in either
    copy. -/
theorem table_followed_iff_declared (s : State) (hreg : Registry s) :
    (∀ (env : Env) (c : Call), Succeeds c.body env s →
      (Legal s (commit c.body env s) ↔ Declared s c)) ∧
    ∀ steps : List Step, Along apply DeclaredStep steps s →
      ∀ (j : Nat) (a : GroupStatus), a.isTerminal = true →
        (recordStatus s j = some a → ∀ b, recordStatus (run steps s) j = some b → b = a) ∧
        (statusAt s j = some a → ∀ b, statusAt (run steps s) j = some b → b = a) := by
  constructor
  · rintro env c ⟨⟨⟩, t, ht⟩
    rw [commit_of_ok ht]
    exact legal_step hreg ht
  · intro steps hrun j a ha
    -- a status that ends stays, in the record and in the key
    constructor
    · intro hold b hb
      have hstored : tagAt s j ≠ none := by
        intro hn
        rw [recordStatus, hn] at hold
        cases hold
      have hend := record_absorbing ha
        ⟨hreg, known_of_stored hreg (Or.inl hstored), Or.inl hold⟩ hrun
      rcases hend.stuck with hnow | hnone
      · rw [hb] at hnow
        exact Option.some.inj hnow
      · rw [recordStatus, hnone] at hb
        cases hb
    · intro hold b hb
      have hstored : statusAt s j ≠ none := by
        rw [hold]
        exact Option.some_ne_none a
      have hend := key_absorbing ha
        ⟨hreg, known_of_stored hreg (Or.inr hstored), Or.inl hold⟩ hrun
      rcases hend.stuck with hnow | ⟨hnone, -⟩
      · rw [hb] at hnow
        exact Option.some.inj hnow
      · rw [hnone] at hb
        cases hb

/-! The funded pair is cancelled, and both members raise a dispute. -/

/-- One signature, time `20`. -/
def signedBy (n : Nat) (h : contractAddress ∉ [Address.mk n]) : Env := .plain 20 [⟨n⟩] h

/-- The cancellation and the first vote. -/
def cancelAndVote : List Step :=
  [.call (signedBy 1 first_signs) (.cancelGroup 1 ⟨1⟩),
    .call (signedBy 1 first_signs) (.raiseDispute 1 ⟨1⟩ "late")]

/-- The second vote, then the creator resolves. -/
def voteAndResolve : List Step :=
  [.call (signedBy 2 second_signs) (.raiseDispute 1 ⟨2⟩ "late"),
    .call (signedBy 1 first_signs) (.resolveDispute 1 ⟨1⟩)]

/-- **BACK FROM THE DEAD**: the key says `Cancelled`, the second vote moves it
    to `Paused` against the table, and the resolution makes the group `Active`
    again. -/
theorem cancelled_group_revived :
    statusAt (run cancelAndVote (pairState 3 200)) 1 = some .cancelled ∧
      ¬ Legal (run cancelAndVote (pairState 3 200))
        (run (voteAndResolve.take 1) (run cancelAndVote (pairState 3 200))) ∧
      statusAt (run voteAndResolve (run cancelAndVote (pairState 3 200))) 1 = some .active := by
  have hbefore : statusAt (run cancelAndVote (pairState 3 200)) 1 = some .cancelled := rfl
  have hafter : statusAt (run (voteAndResolve.take 1) (run cancelAndVote (pairState 3 200))) 1
      = some .paused := rfl
  refine ⟨hbefore, fun h => ?_, rfl⟩
  exact absurd (h.keys 1 .cancelled .paused hbefore hafter) (by decide)

/-- The theorem at the funded pair. -/
theorem table_followed_pair_instance :
    Registry (pairState 3 200) ∧
      (∀ (env : Env) (c : Call), Succeeds c.body env (pairState 3 200) →
        (Legal (pairState 3 200) (commit c.body env (pairState 3 200)) ↔
          Declared (pairState 3 200) c)) :=
  ⟨pairState_registry 3 200, (table_followed_iff_declared _ (pairState_registry 3 200)).1⟩

end SaveStatusMachine
