import StellarSave.CallProofs
import StellarSave.ExecutorProofs

/-! # Two status copies — what every call does to them

    A group's status is in its record and under its own key.  What a call does
    to the pair, for EVERY group, is said once here (`call_status`): most calls
    leave all pairs alone, some move the pair of one group, a merge moves
    three.  Agreement of the copies and the declared state machine are both
    read off this table.

    The table needs two facts about storage that every call keeps
    (`Registry`): a record carries the id it is stored under, and nothing is
    stored above the last id handed out. -/

namespace SaveStatus

open HostProg Footprint TokenLedger SaveData SaveContribution SavePayout SaveRefund
open SaveMembership SaveLifecycle SaveAdmin SaveCall Trace

/-- What of a record matters here: its id and its status. -/
def tagAt (s : State) (g : Nat) : Option (Nat × GroupStatus) :=
  (groupAt s g).map fun grp => (grp.id, grp.status)

/-- Storage discipline. -/
structure Registry (s : State) : Prop where
  own : ∀ g grp, groupAt s g = some grp → grp.id = g
  below : ∀ g, lastId s < g → groupAt s g = none ∧ statusAt s g = none

/-- No pair changes. -/
structure Still (s t : State) : Prop where
  tags : ∀ j, tagAt t j = tagAt s j
  keys : ∀ j, statusAt t j = statusAt s j

/-- The pair of group `g` becomes `record` and `key`; no other changes. -/
structure Moves (s t : State) (g : Nat) (record key : Option GroupStatus) : Prop where
  tags : ∀ j, tagAt t j = if j = g then record.map fun st => (g, st) else tagAt s j
  keys : ∀ j, statusAt t j = if j = g then key else statusAt s j

/-- The status an advanced record has. -/
def nextStatus (grp : SaveData.Group) : GroupStatus :=
  if grp.maxMembers ≤ grp.currentCycle + 1 then .completed else grp.status

/-- The dispute votes of a group, with one more. -/
def disputeVotes (s : State) (g : Nat) : Nat :=
  ((readAt U32 s.persistent (.dspCount g)).getD ⟨0⟩).val + 1

/-- **THE TABLE**: what a call that ends well does to the pairs. -/
def StatusEffect (env : Env) (s t : State) : Call → Prop
  | .createGroup _ _ _ _ _ _ _ | .cloneGroup _ _ _ =>
      Moves s t (lastId s + 1) (some .active) (some .pending)
  | .mergeGroups g₁ g₂ =>
      (∀ j, tagAt t j = if j = lastId s + 1 then some (lastId s + 1, .active) else tagAt s j) ∧
      (∀ j, statusAt t j = if j = g₁ ∨ j = g₂ then some .cancelled
        else if j = lastId s + 1 then some .pending else statusAt s j) ∧
      (∀ j, j = g₁ ∨ j = g₂ → groupAt s j ≠ none ∧ (statusAt s j).getD .pending = .pending)
  | .activateGroup g _ =>
      groupAt s g ≠ none ∧ Moves s t g (some .active) (some .active)
  | .pauseGroup g _ => groupAt s g ≠ none ∧ (statusAt s g).getD .pending = .active ∧
      Moves s t g (some .paused) (some .paused)
  | .resumeGroup g _ => groupAt s g ≠ none ∧ (statusAt s g).getD .pending = .paused ∧
      Moves s t g (some .active) (some .active)
  | .raiseDispute g _ _ => ∃ grp, groupAt s g = some grp ∧
      if grp.memberCount / 2 + 1 ≤ disputeVotes s g then Moves s t g (some .paused) (some .paused)
      else Still s t
  | .resolveDispute g _ => groupAt s g ≠ none ∧ Moves s t g (some .active) (some .active)
  | .cancelGroup g _ => ∃ grp, groupAt s g = some grp ∧
      ((statusAt s g).getD .pending).isTerminal = false ∧
      Moves s t g (some grp.status) (some .cancelled)
  | .executePayout g => ∃ grp, groupAt s g = some grp ∧ grp.status = .active ∧
      Moves s t g (some (nextStatus grp)) (statusAt s g)
  | .tick g => ∃ grp, groupAt s g = some grp ∧ grp.status ≠ .completed ∧
      Moves s t g (some (nextStatus grp)) (statusAt s g)
  | .tryAdvanceCycle g => ∃ grp, groupAt s g = some grp ∧ grp.status = .active ∧
      if getCurrentCycle grp env.timestamp ≤ grp.currentCycle then Still s t
      else Moves s t g (some (nextStatus grp)) (statusAt s g)
  | .voteDissolve g _ => ∃ grp, groupAt s g = some grp ∧
      ((statusAt s g).getD .pending = .active ∨ (statusAt s g).getD .pending = .paused) ∧
      if grp.memberCount ≤ dissolveVotes s g then Moves s t g (some .cancelled) (some .cancelled)
      else Still s t
  | .deleteGroup g => Moves s t g none none
  | _ => Still s t

/-! ## Row by row -/

section Rows

variable {env : Env} {s t : State} {g n : Nat} {u : Unit} {a : Address}

/-- Storage that agrees on records and keys. -/
theorem Still.of_persistent (hg : ∀ j, t.persistent (.grp j) = s.persistent (.grp j))
    (hk : ∀ j, t.persistent (.grpStat j) = s.persistent (.grpStat j)) : Still s t where
  tags j := by
    rw [tagAt, tagAt, groupAt, readAt_congr (hg j)]
  keys j := readAt_congr (hk j)

/-- A program that may write neither records nor keys. -/
theorem Still.of_agree {w : Scope Key} (h : Agree w s t) (hg : ∀ j, ¬ w.persistent (.grp j))
    (hk : ∀ j, ¬ w.persistent (.grpStat j)) : Still s t :=
  Still.of_persistent (fun j => h.persistent _ (hg j)) fun j => h.persistent _ (hk j)

/-- A move, and then nothing that touches a status. -/
theorem Moves.then_still {v : State} {r k : Option GroupStatus} (h : Moves s v g r k)
    (hs : Still v t) : Moves s t g r k where
  tags j := (hs.tags j).trans (h.tags j)
  keys j := (hs.keys j).trans (h.keys j)

/-- A record that is rewritten with its id and status as they were. -/
theorem Still.rewrite {grp : SaveData.Group} (grp' : SaveData.Group)
    (hgrp : groupAt s g = some grp)
    (ht : ∀ j, groupAt t j = if j = g then some grp' else groupAt s j)
    (hsame : grp'.id = grp.id ∧ grp'.status = grp.status)
    (hk : ∀ j, t.persistent (.grpStat j) = s.persistent (.grpStat j)) : Still s t where
  tags j := by
    simp only [tagAt]
    rw [ht]
    by_cases hj : j = g
    · rw [if_pos hj, hj, hgrp]
      simp [hsame]
    · rw [if_neg hj]
  keys j := readAt_congr (hk j)

/-- An advanced record under its own id. -/
theorem advanced_moves (grp grp' : SaveData.Group) (hid : grp.id = g)
    (hcomp : grp.isComplete = false)
    (ht : ∀ j, groupAt t j = if j = g then some grp' else groupAt s j)
    (hsame : grp'.id = grp.advanced.id ∧ grp'.status = grp.advanced.status)
    (hk : ∀ j, t.persistent (.grpStat j) = s.persistent (.grpStat j)) :
    Moves s t g (some (nextStatus grp)) (statusAt s g) where
  tags j := by
    simp only [tagAt]
    rw [ht]
    by_cases hj : j = g
    · rw [if_pos hj, if_pos hj]
      simp [hsame, Group.advanced_id, hid, Group.advanced_status hcomp, nextStatus]
    · rw [if_neg hj, if_neg hj]
  keys j := by
    have hj : statusAt t j = statusAt s j := readAt_congr (hk j)
    rw [hj]
    by_cases he : j = g
    · rw [if_pos he, he]
    · rw [if_neg he]

/-- A new group has the status it was made with, and its key says `Pending`. -/
theorem created_moves {grp : SaveData.Group} {config : TokenConfig} {l : Ledger}
    (hid : grp.id = lastId s + 1) :
    Moves s ((created s grp config).setLedger l) (lastId s + 1) (some grp.status)
      (some .pending) where
  tags j := by by_cases hj : j = lastId s + 1 <;> simp [tagAt, created, groupAt, hj, hid]
  keys j := by by_cases hj : j = lastId s + 1 <;> simp [created, statusAt, hj]

/-- `activate_group` writes both copies. -/
theorem activateGroup_moves (hreg : Registry s) (h : activateGroup g a env s = .ok u t) :
    groupAt s g ≠ none ∧ Moves s t g (some .active) (some .active) := by
  obtain ⟨grp, hgrp, -, -, -, -, rfl⟩ := activateGroup_ok h
  have hid := hreg.own g grp hgrp
  refine ⟨Option.ne_none_iff_exists'.mpr ⟨grp, hgrp⟩, fun j => ?_, fun j => ?_⟩
  · by_cases hj : j = g <;> simp [tagAt, groupAt, hj, hid]
  · by_cases hj : j = g <;> simp [hj]

/-- A pause or a resumption writes both copies, from one status to one other. -/
theorem switchPause_moves {source target : GroupStatus} {p : Bool} (hreg : Registry s)
    (h : switchPause g a source target p env s = .ok u t) :
    groupAt s g ≠ none ∧ (statusAt s g).getD .pending = source ∧
      Moves s t g (some target) (some target) := by
  obtain ⟨grp, hgrp, -, -, hsource, rfl⟩ := switchPause_ok h
  have hid := hreg.own g grp hgrp
  refine ⟨Option.ne_none_iff_exists'.mpr ⟨grp, hgrp⟩, hsource, fun j => ?_, fun j => ?_⟩
  · by_cases hj : j = g <;> simp [tagAt, groupAt, hj, hid]
  · by_cases hj : j = g <;> simp [hj]

/-- A dispute pauses the group when a majority has raised it, and changes no status
    before. -/
theorem raiseDispute_moves {reason : String} (hreg : Registry s)
    (h : raiseDispute g a reason env s = .ok u t) :
    ∃ grp, groupAt s g = some grp ∧
      if grp.memberCount / 2 + 1 ≤ disputeVotes s g then Moves s t g (some .paused) (some .paused)
      else Still s t := by
  rw [raiseDispute] at h
  simp only [requireAuth_bind_ok, getOr_bind_ok, has_bind_ok, failIf_bind_ok, put_bind_ok] at h
  obtain ⟨-, grp, hgrp, -, -, h⟩ := h
  -- Whether the reason is stored or not does not concern the pairs.
  obtain ⟨⟨⟩, v, hreason, h₁⟩ := bind_ok.mp h
  have hagree := Within.agree_ok (w := scope [.of .grpDspR g] False False) hreason
  have hvotes : disputeVotes v g = disputeVotes s g := by
    rw [disputeVotes, readAt_congr (hagree.persistent _ (by simp))]
    simp [disputeVotes]
  have hv : Still s v :=
    Still.of_persistent
      (fun j => (hagree.persistent _ (by simp)).trans (by simp))
      (fun j => (hagree.persistent _ (by simp)).trans (by simp))
  have hid := hreg.own g grp hgrp
  refine ⟨grp, hgrp, ?_⟩
  simp at h₁
  obtain ⟨-, -, -, ⟨hle, rfl⟩ | ⟨hlt, rfl⟩⟩ := h₁
  · rw [← hvotes, if_pos (by simpa [disputeVotes] using hle)]
    refine ⟨fun j => ?_, fun j => ?_⟩
    · rw [← hv.tags j]
      by_cases hj : j = g <;> simp [tagAt, groupAt, hj, hid]
    · rw [← hv.keys j]
      by_cases hj : j = g <;> simp [statusAt, hj]
  · rw [← hvotes, if_neg (by simpa [disputeVotes] using hlt)]
    refine ⟨fun j => ?_, fun j => ?_⟩
    · rw [← hv.tags j]
      simp [tagAt, groupAt]
    · rw [← hv.keys j]
      simp [statusAt]

/-- Resolving a dispute makes both copies `Active`. -/
theorem resolveDispute_moves (hreg : Registry s) (h : resolveDispute g a env s = .ok u t) :
    groupAt s g ≠ none ∧ Moves s t g (some .active) (some .active) := by
  rw [resolveDispute] at h
  simp only [requireAuth_bind_ok, getOr_bind_ok, failIf_bind_ok, put_bind_ok, del_bind_ok,
    getOpt_bind_ok] at h
  obtain ⟨-, grp, hgrp, -, -, -, hloop⟩ := h
  have hid := hreg.own g grp hgrp
  have hagree := Within.agree_ok (w := scope [.of .grpDspV g] False False) hloop
  refine ⟨Option.ne_none_iff_exists'.mpr ⟨grp, hgrp⟩, Moves.then_still ⟨fun j => ?_, fun j => ?_⟩
    (Still.of_agree hagree (by simp) (by simp))⟩
  · by_cases hj : j = g <;> simp [tagAt, groupAt, hj, hid]
  · by_cases hj : j = g <;> simp [statusAt, hj]

/-- A cancellation writes the key and leaves the record's status as it was. -/
theorem cancelGroup_moves (hreg : Registry s) (h : cancelGroup g a env s = .ok u t) :
    ∃ grp, groupAt s g = some grp ∧ ((statusAt s g).getD .pending).isTerminal = false ∧
      Moves s t g (some grp.status) (some .cancelled) := by
  simp [cancelGroup, requireCreator] at h
  obtain ⟨grp, hgrp, -, -, -, hterm, rfl⟩ := h
  have hid := hreg.own g grp hgrp
  refine ⟨grp, hgrp, hterm, fun j => ?_, fun j => ?_⟩
  · by_cases hj : j = g <;> simp [tagAt, hj, hgrp, hid]
  · by_cases hj : j = g <;> simp [hj]

/-- Advancing by the clock writes the record alone. -/
theorem tryAdvanceCycle_moves {b : Bool} (hreg : Registry s)
    (h : tryAdvanceCycle g env s = .ok b t) :
    ∃ grp, groupAt s g = some grp ∧ grp.status = .active ∧
      if getCurrentCycle grp env.timestamp ≤ grp.currentCycle then Still s t
      else Moves s t g (some (nextStatus grp)) (statusAt s g) := by
  obtain ⟨grp, hgrp, hact, -, hcomp, ⟨hle, rfl⟩ | ⟨hlt, rfl⟩⟩ := tryAdvanceCycle_ok h
  · refine ⟨grp, hgrp, hact, ?_⟩
    rw [if_pos hle]
    exact ⟨fun _ => rfl, fun _ => rfl⟩
  · refine ⟨grp, hgrp, hact, ?_⟩
    rw [if_neg (Nat.not_le_of_lt hlt)]
    refine advanced_moves grp grp.advanced (hreg.own g grp hgrp) hcomp (fun j => ?_) ⟨rfl, rfl⟩
      fun j => ?_
    · simp [groupAt]
    · simp

/-- A payout writes no status key, however it ends. -/
theorem executePayout_keys {v : State} (h : EndsIn (executePayout g) env s v) (j : Nat) :
    v.persistent (.grpStat j) = s.persistent (.grpStat j) := by
  rcases h with ⟨x, h⟩ | ⟨e, h⟩
  · exact (Within.agree_ok (w := scope (payoutPlaces g) True True) h).persistent _ (by simp)
  · exact (Within.agree_err (w := scope (payoutPlaces g) True True) h).persistent _ (by simp)

/-- So does a payout, which advances the cycle. -/
theorem executePayout_moves (hreg : Registry s) (h : executePayout g env s = .ok u t) :
    ∃ grp, groupAt s g = some grp ∧ grp.status = .active ∧
      Moves s t g (some (nextStatus grp)) (statusAt s g) := by
  have hgroups := fun j hj => executePayout_groups (j := j) (hreg.own g) (Or.inl ⟨u, h⟩) hj
  have hkeys := executePayout_keys (Or.inl ⟨u, h⟩)
  obtain ⟨grp, recipient, amount, v, config, l, hp, rfl⟩ := executePayout_ok.mp h
  refine ⟨grp, hp.group, hp.valid.running.2.1, ?_⟩
  refine advanced_moves (marked grp) { (marked grp).advanced with payoutInProgress := false }
    (hreg.own g grp hp.group) hp.settles.cycle.1 (fun j => ?_) ⟨rfl, rfl⟩ hkeys
  by_cases hj : j = g
  · simp [hj, groupAt, paidState]
  · rw [if_neg hj]
    exact readAt_congr (hgroups j hj)

/-- And so does a tick. -/
theorem tick_moves (hreg : Registry s) (h : tick g env s = .ok u t) :
    ∃ grp, groupAt s g = some grp ∧ grp.status ≠ .completed ∧
      Moves s t g (some (nextStatus grp)) (statusAt s g) := by
  obtain ⟨grp, v, hgrp, -, hcomp, hpay, rfl⟩ := tick_ok h
  have hv : (∀ j, j ≠ g → v.persistent (.grp j) = s.persistent (.grp j)) ∧
      ∀ j, v.persistent (.grpStat j) = s.persistent (.grpStat j) := by
    rcases hpay with ⟨-, rfl⟩ | ⟨-, hends⟩
    · exact ⟨fun _ _ => rfl, fun _ => rfl⟩
    · exact ⟨fun j hj => executePayout_groups (hreg.own g) hends hj, executePayout_keys hends⟩
  refine ⟨grp, hgrp, ((Group.isComplete_eq_false grp).mp hcomp).2, ?_⟩
  refine advanced_moves grp grp.advanced (hreg.own g grp hgrp) hcomp (fun j => ?_) ⟨rfl, rfl⟩
    fun j => ?_
  · by_cases hj : j = g
    · simp [hj, groupAt]
    · rw [if_neg hj]
      simp only [groupAt, readAt]
      simp [hj, hv.1 j hj]
  · simpa using hv.2 j

/-- The record of a group survives a tick of another. -/
theorem tick_groups {j : Nat} (hreg : Registry s) (h : tick g env s = .ok u t)
    (hj : j ≠ g) : t.persistent (.grp j) = s.persistent (.grp j) := by
  obtain ⟨grp, v, -, -, -, hpay, rfl⟩ := tick_ok h
  have hv : v.persistent (.grp j) = s.persistent (.grp j) := by
    rcases hpay with ⟨-, rfl⟩ | ⟨-, hends⟩
    · rfl
    · exact executePayout_groups (hreg.own g) hends hj
  simpa [hj] using hv

/-- The vote that makes it unanimous cancels both copies; an earlier one changes none. -/
theorem voteDissolve_moves (hreg : Registry s) (h : voteDissolve g a env s = .ok u t) :
    ∃ grp, groupAt s g = some grp ∧
      ((statusAt s g).getD .pending = .active ∨ (statusAt s g).getD .pending = .paused) ∧
      if grp.memberCount ≤ dissolveVotes s g then Moves s t g (some .cancelled) (some .cancelled)
      else Still s t := by
  obtain ⟨grp, hgrp, hkey, hend⟩ := voteDissolve_ok h
  have hid := hreg.own g grp hgrp
  refine ⟨grp, hgrp, hkey, ?_⟩
  rcases hend with ⟨hle, config, -, hloop⟩ | ⟨hlt, rfl⟩
  · rw [if_pos hle]
    have hagree := Within.agree_ok (w := scope [.of .refund g] False True) hloop
    refine Moves.then_still ⟨fun j => ?_, fun j => ?_⟩
      (Still.of_agree hagree (by simp) (by simp))
    · by_cases hj : j = g <;> simp [tagAt, groupAt, dissolved, voted, hj, hid]
    · by_cases hj : j = g <;> simp [statusAt, dissolved, voted, hj]
  · rw [if_neg (by omega)]
    exact Still.of_persistent (fun j => by simp [voted]) fun j => by simp [voted]

/-- A merge cancels the keys of its two groups, and the record of the new one is `Active`
    while its key is `Pending`. -/
theorem mergeGroups_moves {g₁ g₂ : Nat} (h : mergeGroups g₁ g₂ env s = .ok n t) :
    (∀ j, tagAt t j = if j = lastId s + 1 then some (lastId s + 1, .active) else tagAt s j) ∧
    (∀ j, statusAt t j = if j = g₁ ∨ j = g₂ then some .cancelled
      else if j = lastId s + 1 then some .pending else statusAt s j) ∧
    (∀ j, j = g₁ ∨ j = g₂ → groupAt s j ≠ none ∧ (statusAt s j).getD .pending = .pending) := by
  obtain ⟨rfl, grp₁, grp₂, v, hopen, hloop, rfl⟩ := mergeGroups_ok h
  have hagree := Within.agree_ok
    -- the loop over the members writes profiles and seats only
    (w := scope [.of .mbrProf (lastId s + 1), .of .mbrPElig (lastId s + 1)] False False) hloop
  have hv := Still.of_agree hagree (by simp) (by simp)
  refine ⟨fun j => ?_, fun j => ?_, fun j hj => ?_⟩
  · have htag := hv.tags j
    by_cases hj : j = lastId s + 1
    · simpa [tagAt, groupAt, mergeBase, mergedGroup, Group.fresh, hj] using htag
    · simpa [tagAt, groupAt, mergeBase, hj] using htag
  -- the keys are written in this order: the second group, the first, the new one
  · have hkey := hv.keys j
    by_cases h₂ : j = g₂
    · simp [statusAt, h₂]
    by_cases h₁ : j = g₁
    · simp [statusAt, h₁]
    by_cases hj : j = lastId s + 1
    · subst hj
      simpa [statusAt, mergeBase, h₁, h₂] using hkey
    · simpa [statusAt, mergeBase, hj, h₁, h₂] using hkey
  · rcases hj with rfl | rfl
    · exact ⟨Option.ne_none_iff_exists'.mpr ⟨grp₁, hopen.first⟩, hopen.pending₁⟩
    · exact ⟨Option.ne_none_iff_exists'.mpr ⟨grp₂, hopen.second⟩, hopen.pending₂⟩

/-- A deletion takes both copies away. -/
theorem deleteGroup_moves (h : deleteGroup g env s = .ok u t) : Moves s t g none none := by
  simp [deleteGroup] at h
  obtain ⟨grp, -, -, -, rfl⟩ := h
  refine ⟨fun j => ?_, fun j => ?_⟩
  · by_cases hj : j = g <;> simp [tagAt, hj]
  · by_cases hj : j = g <;> simp [hj]

end Rows

/-! ## Edits

    Seven calls rewrite a record without touching what the rotation and the
    state machine are about. -/

/-- The two records differ in settings only. -/
structure SameCore (grp grp' : SaveData.Group) : Prop where
  id : grp'.id = grp.id
  status : grp'.status = grp.status
  memberCount : grp'.memberCount = grp.memberCount
  currentCycle : grp'.currentCycle = grp.currentCycle
  started : grp'.started = grp.started

theorem SameCore.refl (grp : SaveData.Group) : SameCore grp grp := ⟨rfl, rfl, rfl, rfl, rfl⟩

/-- The record of `g` was edited, no other record changed. -/
def Edited (s t : State) (g : Nat) : Prop :=
  ∃ grp grp', groupAt s g = some grp ∧ SameCore grp grp' ∧
    ∀ j, groupAt t j = if j = g then some grp' else groupAt s j

/-- The group whose settings a call edits. -/
def editedGroup : Call → Option Nat
  | .updateGroup g _ _ _ | .updateGroupMetadata g _ _ _ _ | .setInvitationOnly g _
  | .setContributionProofRequired g _ | .setDynamicContributions g _ | .archiveGroup _ g
  | .voteContributionChange g _ => some g
  | _ => none

section Edits

variable {env : Env} {s t : State} {g : Nat} {u : Unit} {a : Address}

/-- One write of an edited record, over a state with the same records. -/
theorem Edited.of_set {v : State} {grp : SaveData.Group} (grp' : SaveData.Group)
    (hgrp : groupAt s g = some grp) (hcore : SameCore grp grp') (hv : ∀ j, v.persistent (.grp j) = s.persistent (.grp j)) :
    Edited s (v.set (.grp g) (Codec.encode grp')) g := by
  refine ⟨grp, grp', hgrp, hcore, fun j => ?_⟩
  by_cases hj : j = g
  · simp [groupAt, hj]
  · simp [groupAt, readAt, hj, hv]

/-- An edit is one of the records alone. -/
theorem Edited.congr {v : State} (h : Edited s v g)
    (ht : ∀ j, t.persistent (.grp j) = v.persistent (.grp j)) : Edited s t g := by
  obtain ⟨grp, grp', hgrp, hcore, hv⟩ := h
  refine ⟨grp, grp', hgrp, hcore, fun j => ?_⟩
  rw [← hv j]
  exact readAt_congr (ht j)

theorem Edited.refl {grp : SaveData.Group} (hgrp : groupAt s g = some grp) : Edited s s g := by
  refine ⟨grp, grp, hgrp, SameCore.refl grp, fun j => ?_⟩
  by_cases hj : j = g
  · rw [if_pos hj, hj, hgrp]
  · rw [if_neg hj]

/-- `update_group` edits the record, without its status. -/
theorem updateGroup_edits {n : Int} {d m : Nat} (h : updateGroup g n d m env s = .ok u t) :
    Edited s t g := by
  rw [updateGroup] at h
  simp only [getOr_bind_ok, requireAuth_bind_ok, getD_bind_ok, failIf_bind_ok,
    getOpt_bind_ok] at h
  obtain ⟨grp, hgrp, -, -, -, -, h⟩ := h
  obtain ⟨⟨⟩, v, hcheck, hput⟩ := bind_ok.mp h
  obtain rfl := Within.eq_of_ok hcheck
  obtain rfl := put_ok.mp hput
  exact Edited.of_set _ hgrp ⟨rfl, rfl, rfl, rfl, rfl⟩ fun _ => rfl

theorem updateGroupMetadata_edits {name description imageUrl : String}
    (h : updateGroupMetadata g a name description imageUrl env s = .ok u t) : Edited s t g := by
  rw [updateGroupMetadata] at h
  simp only [getOr_bind_ok, requireAuth_bind_ok, failIf_bind_ok] at h
  obtain ⟨-, grp, hgrp, -, -, h⟩ := h
  obtain ⟨⟨⟩, v, hname, h₁⟩ := bind_ok.mp h
  obtain rfl := Within.eq_of_ok hname
  obtain ⟨⟨⟩, v', htext, hput⟩ := bind_ok.mp h₁
  obtain rfl := Within.eq_of_ok htext
  obtain rfl := put_ok.mp hput
  exact Edited.of_set _ hgrp ⟨rfl, rfl, rfl, rfl, rfl⟩ fun _ => rfl

theorem setInvitationOnly_edits {b : Bool} (h : setInvitationOnly g b env s = .ok u t) :
    Edited s t g := by
  simp [setInvitationOnly, loadPendingAsCreator] at h
  obtain ⟨grp, hgrp, -, -, -, rfl⟩ := h
  exact Edited.of_set _ hgrp ⟨rfl, rfl, rfl, rfl, rfl⟩ fun _ => rfl

theorem setContributionProofRequired_edits {b : Bool}
    (h : setContributionProofRequired g b env s = .ok u t) : Edited s t g := by
  simp [setContributionProofRequired] at h
  obtain ⟨grp, hgrp, -, rfl⟩ := h
  exact Edited.of_set _ hgrp ⟨rfl, rfl, rfl, rfl, rfl⟩ fun _ => rfl

theorem setDynamicContributions_edits {b : Bool}
    (h : setDynamicContributions g b env s = .ok u t) : Edited s t g := by
  simp [setDynamicContributions] at h
  obtain ⟨grp, hgrp, -, -, rfl⟩ := h
  exact Edited.of_set _ hgrp ⟨rfl, rfl, rfl, rfl, rfl⟩ fun _ => rfl

/-- Archiving sets a mark in the record, and no status. -/
theorem archiveGroup_edits (h : archiveGroup a g env s = .ok u t) : Edited s t g := by
  simp [archiveGroup] at h
  obtain ⟨-, grp, hgrp, -, -, -, -, rfl⟩ := h
  exact Edited.of_set _ hgrp ⟨rfl, rfl, rfl, rfl, rfl⟩ fun j => by simp

/-- A vote that carries writes the new amount into the record. -/
theorem voteContributionChange_edits (h : voteContributionChange g a env s = .ok u t) :
    Edited s t g := by
  simp [voteContributionChange, executeContributionChange, typedAt_set_of_ne] at h
  obtain ⟨-, grp, hgrp, -, -, n, -, -, -, -, ⟨-, -, rfl⟩ | ⟨-, rfl⟩⟩ := h
  · refine (Edited.of_set { grp with contributionAmount := n.val } hgrp ⟨rfl, rfl, rfl, rfl, rfl⟩
      fun j => rfl).congr fun j => ?_
    simp
  · exact (Edited.refl hgrp).congr fun j => by simp

/-- **AN EDIT** touches no status, whichever of the editing calls it is. -/
theorem call_edits {c : Call} (hc : editedGroup c = some g) (h : c.body env s = .ok () t) :
    Edited s t g := by
  -- each of these rewrites the record with its status as it was
  cases c with
  | updateGroup g' n d m =>
      obtain rfl := Option.some.inj hc
      exact updateGroup_edits h
  | updateGroupMetadata g' a name description imageUrl =>
      obtain rfl := Option.some.inj hc
      exact updateGroupMetadata_edits h
  | setInvitationOnly g' b =>
      obtain rfl := Option.some.inj hc
      exact setInvitationOnly_edits h
  | setContributionProofRequired g' b =>
      obtain rfl := Option.some.inj hc
      exact setContributionProofRequired_edits h
  | setDynamicContributions g' b =>
      obtain rfl := Option.some.inj hc
      exact setDynamicContributions_edits h
  | archiveGroup a g' =>
      obtain rfl := Option.some.inj hc
      exact archiveGroup_edits h
  | voteContributionChange g' a =>
      obtain rfl := Option.some.inj hc
      exact voteContributionChange_edits h
  | _ => cases hc

/-- An edit that leaves the keys alone leaves every status alone. -/
theorem Edited.still (h : Edited s t g)
    (hk : ∀ j, t.persistent (.grpStat j) = s.persistent (.grpStat j)) : Still s t := by
  obtain ⟨grp, grp', hgrp, hcore, ht⟩ := h
  exact Still.rewrite grp' hgrp ht ⟨hcore.id, hcore.status⟩ hk

/-- Who joins changes no status. -/
theorem joinGroup_still {referrer : Option Address}
    (h : joinGroup g a referrer env s = .ok u t) : Still s t := by
  obtain ⟨grp, hopen, rfl⟩ := joinGroup_ok h
  refine Still.rewrite { grp with memberCount := grp.memberCount + 1 } hopen.group (fun j => ?_)
    ⟨rfl, rfl⟩ fun j => ?_
  · by_cases hj : j = g <;> simp [groupAt, joined, hj]
  · rw [joined, noteReferrer_persistent (by simp)]
    simp

/-- Neither does who leaves. -/
theorem removeMember_still (h : removeMember g a env s = .ok u t) : Still s t := by
  obtain ⟨grp, profile, hopen, rfl⟩ := removeMember_ok h
  refine Still.rewrite { grp with memberCount := grp.memberCount - 1 } hopen.group (fun j => ?_)
    ⟨rfl, rfl⟩ fun j => ?_
  · by_cases hj : j = g <;> simp [groupAt, removed, hj]
  · simp [removed]

end Edits

/-! ## The table -/

/-- **EVERY CALL DOES WHAT THE TABLE SAYS**. -/
theorem call_status {env : Env} {s t : State} (hreg : Registry s) (c : Call)
    (h : c.body env s = .ok () t) : StatusEffect env s t c := by
  have hagree := Within.agree_ok (w := c.footprint) h
  cases c with
  | createGroup creator amount duration maxMembers tok grace order =>
      obtain ⟨n, hn⟩ := quietly_ok.mp h
      obtain ⟨-, rounded, decimals, l, rfl⟩ := createGroup_ok hn
      exact created_moves rfl
  | cloneGroup caller g o =>
      obtain ⟨n, hn⟩ := quietly_ok.mp h
      obtain ⟨rfl, amount, duration, maxMembers, minMembers, grace, config, rfl⟩ := cloneGroup_ok hn
      exact created_moves rfl
  | mergeGroups g₁ g₂ =>
      obtain ⟨n, hn⟩ := quietly_ok.mp h
      exact mergeGroups_moves hn
  | activateGroup g a => exact activateGroup_moves hreg h
  | pauseGroup g a => exact switchPause_moves hreg h
  | resumeGroup g a => exact switchPause_moves hreg h
  | raiseDispute g a reason => exact raiseDispute_moves hreg h
  | resolveDispute g a => exact resolveDispute_moves hreg h
  | cancelGroup g a => exact cancelGroup_moves hreg h
  | executePayout g => exact executePayout_moves hreg h
  | tick g => exact tick_moves hreg h
  | tryAdvanceCycle g =>
      obtain ⟨b, hb⟩ := quietly_ok.mp h
      exact tryAdvanceCycle_moves hreg hb
  | voteDissolve g a => exact voteDissolve_moves hreg h
  | deleteGroup g => exact deleteGroup_moves h
  -- to join and to leave write the record without its status
  | joinGroup g a referrer => exact joinGroup_still h
  | removeMember g a => exact removeMember_still h
  | updateGroup g n d m | updateGroupMetadata g a name description imageUrl
  | setInvitationOnly g b | setContributionProofRequired g b | setDynamicContributions g b
  | archiveGroup a g | voteContributionChange g a =>
      exact (call_edits rfl h).still fun j =>
        hagree.persistent _ (by simp [Call.footprint])
  | _ =>
      exact Still.of_agree hagree (fun j => Place.other_kind rfl) fun j => Place.other_kind rfl

/-! ## The discipline is kept -/

section Discipline

variable {env : Env} {s t : State} {g : Nat} {c : Call}

/-- What a step may do to what is stored: a record that appears carries its own
    id; nothing appears for an id handed out before, unless a record is there;
    and a key that goes takes the record with it. -/
structure Grows (s t : State) : Prop where
  ids : ∀ j id st, tagAt t j = some (id, st) → id = j ∨ tagAt s j = some (id, st)
  tags : ∀ j, tagAt t j ≠ none → tagAt s j ≠ none ∨ (lastId s < j ∧ j ≤ lastId t)
  keys : ∀ j, statusAt t j ≠ none →
    statusAt s j ≠ none ∨ tagAt s j ≠ none ∨ (lastId s < j ∧ j ≤ lastId t)
  deleted : ∀ j, statusAt s j ≠ none → statusAt t j = none → tagAt t j = none
  last : lastId s ≤ lastId t

theorem tagAt_eq_none {s : State} {j : Nat} : tagAt s j = none ↔ groupAt s j = none := by
  rw [tagAt]
  exact Option.map_eq_none_iff

/-- The registry of groups is kept by whatever only adds to it. -/
theorem Grows.registry (h : Grows s t) (hreg : Registry s) : Registry t where
  -- a record carries the id it is stored under, from its creation on
  own j grp hgrp := by
    have htag : tagAt t j = some (grp.id, grp.status) := by
      rw [tagAt, hgrp]
      rfl
    rcases h.ids j _ _ htag with hid | hold
    · exact hid
    · rw [tagAt] at hold
      obtain ⟨grp', hgrp', he⟩ := Option.map_eq_some_iff.mp hold
      have hid : grp'.id = grp.id := congrArg Prod.fst he
      rw [← hid]
      exact hreg.own j grp' hgrp'
  -- ids above the last are free, before and after
  below j hj := by
    obtain ⟨hg, hk⟩ := hreg.below j (Nat.lt_of_le_of_lt h.last hj)
    have htag := tagAt_eq_none.mpr hg
    constructor
    · by_contra hne
      rcases h.tags j fun he => hne (tagAt_eq_none.mp he) with hn | ⟨-, hle⟩
      · exact hn htag
      · omega
    · by_contra hne
      rcases h.keys j hne with hn | hn | ⟨-, hle⟩
      · exact hn hk
      · exact hn htag
      · omega

theorem Still.grows (h : Still s t) (hlast : lastId t = lastId s) : Grows s t where
  ids j _ _ ht := Or.inr (h.tags j ▸ ht)
  tags j hj := Or.inl (h.tags j ▸ hj)
  keys j hj := Or.inl (h.keys j ▸ hj)
  deleted j hs ht := absurd (h.keys j ▸ ht) hs
  last := Nat.le_of_eq hlast.symm

theorem Moves.ids {r k : Option GroupStatus} (h : Moves s t g r k) (j id : Nat)
    (st : GroupStatus) (ht : tagAt t j = some (id, st)) : id = j ∨ tagAt s j = some (id, st) := by
  rw [h.tags] at ht
  by_cases hj : j = g
  · rw [if_pos hj] at ht
    obtain ⟨st', -, he⟩ := Option.map_eq_some_iff.mp ht
    exact Or.inl (hj ▸ (congrArg Prod.fst he).symm)
  · rw [if_neg hj] at ht
    exact Or.inr ht

/-- Moving the pair of a group that is stored, or whose id was just handed
    out. -/
theorem Moves.grows {r k : Option GroupStatus} (h : Moves s t g r k)
    (hg : groupAt s g ≠ none ∨ (lastId s < g ∧ g ≤ lastId t))
    (hk : k = none → statusAt s g = none) (hlast : lastId s ≤ lastId t) : Grows s t where
  ids := Moves.ids h
  tags j hj := by
    by_cases he : j = g
    · exact he ▸ hg.imp_left fun hn hn' => hn (tagAt_eq_none.mp hn')
    · rw [h.tags, if_neg he] at hj
      exact Or.inl hj
  keys j hj := by
    by_cases he : j = g
    · exact Or.inr (he ▸ hg.imp_left fun hn hn' => hn (tagAt_eq_none.mp hn'))
    · rw [h.keys, if_neg he] at hj
      exact Or.inl hj
  deleted j hs ht := by
    rw [h.keys] at ht
    by_cases he : j = g
    · rw [if_pos he] at ht
      exact absurd (he ▸ hk ht) hs
    · rw [if_neg he] at ht
      exact absurd ht hs
  last := hlast

/-- Deleting a group. -/
theorem Moves.grows_delete (h : Moves s t g none none) (hlast : lastId s ≤ lastId t) :
    Grows s t where
  ids := Moves.ids h
  tags j hj := by
    rw [h.tags] at hj
    by_cases he : j = g
    · rw [if_pos he] at hj
      exact absurd rfl hj
    · rw [if_neg he] at hj
      exact Or.inl hj
  keys j hj := by
    rw [h.keys] at hj
    by_cases he : j = g
    · rw [if_pos he] at hj
      exact absurd rfl hj
    · rw [if_neg he] at hj
      exact Or.inl hj
  -- the record goes, and its status with it
  deleted j hs ht := by
    rw [h.keys] at ht
    rw [h.tags]
    by_cases he : j = g
    · rw [if_pos he]
      rfl
    · rw [if_neg he] at ht
      exact absurd ht hs
  last := hlast

/-- Only creations and merges hand out ids. -/
theorem lastId_eq (h : Agree c.footprint s t) (hc : ¬ c.footprint.persistent .cntNextG) :
    lastId t = lastId s := by
  rw [lastId, readAt_congr (h.persistent _ hc), lastId]

/-- A new group takes the next id. -/
theorem lastId_created (grp : SaveData.Group) (config : TokenConfig) :
    lastId (created s grp config) = lastId s + 1 := by
  simp [lastId, created]

/-- A merge makes one group more. -/
theorem mergeGroups_grows {g₁ g₂ n : Nat} (h : mergeGroups g₁ g₂ env s = .ok n t) :
    Grows s t := by
  obtain ⟨htags, hkeys, hold⟩ := mergeGroups_moves h
  have hlast := mergeGroups_lastId h
  have hstored : ∀ j, j = g₁ ∨ j = g₂ → tagAt s j ≠ none := fun j hj hn =>
    (hold j hj).1 (tagAt_eq_none.mp hn)
  -- a merge makes one record, and gives up none
  refine ⟨fun j id st ht => ?_, fun j hj => ?_, fun j hj => ?_, fun j hs ht => ?_, by omega⟩
  · rw [htags] at ht
    by_cases hj : j = lastId s + 1
    · rw [if_pos hj] at ht
      cases ht
      exact Or.inl hj.symm
    · rw [if_neg hj] at ht
      exact Or.inr ht
  · by_cases hn : j = lastId s + 1
    · exact Or.inr (by omega)
    · rw [htags, if_neg hn] at hj
      exact Or.inl hj
  · by_cases hm : j = g₁ ∨ j = g₂
    · exact Or.inr (Or.inl (hstored j hm))
    · by_cases hn : j = lastId s + 1
      · exact Or.inr (Or.inr (by omega))
      · rw [hkeys, if_neg hm, if_neg hn] at hj
        exact Or.inl hj
  · rw [hkeys] at ht
    by_cases hm : j = g₁ ∨ j = g₂
    · rw [if_pos hm] at ht
      cases ht
    · rw [if_neg hm] at ht
      by_cases hn : j = lastId s + 1
      · rw [if_pos hn] at ht
        cases ht
      · rw [if_neg hn] at ht
        exact absurd ht hs

/-- **WHAT A STEP DOES TO THE STORE**, for every call that ends well. -/
theorem grows_step (hreg : Registry s) (h : c.body env s = .ok () t) : Grows s t := by
  have heff := call_status hreg c h
  have hagree := Within.agree_ok (w := c.footprint) h
  have hsome : ∀ {j grp}, groupAt s j = some grp → groupAt s j ≠ none :=
    fun hgrp => Option.ne_none_iff_exists'.mpr ⟨_, hgrp⟩
  cases c with
  | createGroup creator amount duration maxMembers tok grace order =>
      obtain ⟨n, hn⟩ := quietly_ok.mp h
      obtain ⟨-, rounded, decimals, l, rfl⟩ := createGroup_ok hn
      have hl : lastId _ = lastId s + 1 := lastId_created (createdGroup s creator rounded duration
        maxMembers env.timestamp grace order) ⟨tok, decimals⟩
      exact heff.grows (Or.inr ⟨Nat.lt_succ_self _, hl.ge⟩) (by simp) (Nat.le_trans (Nat.le_succ _) hl.ge)
  | cloneGroup caller g o =>
      obtain ⟨n, hn⟩ := quietly_ok.mp h
      obtain ⟨rfl, amount, duration, maxMembers, minMembers, grace, config, rfl⟩ := cloneGroup_ok hn
      have hl := lastId_created (s := s) (Group.fresh (lastId s + 1) caller amount duration
        maxMembers minMembers env.timestamp grace false 0) config
      exact heff.grows (Or.inr ⟨Nat.lt_succ_self _, hl.ge⟩) (by simp) (Nat.le_trans (Nat.le_succ _) hl.ge)
  | mergeGroups g₁ g₂ =>
      obtain ⟨n, hn⟩ := quietly_ok.mp h
      exact mergeGroups_grows hn
  | activateGroup g a | resolveDispute g a =>
      exact heff.2.grows (Or.inl heff.1) (by simp)
        (lastId_eq hagree (by simp [Call.footprint])).ge
  | pauseGroup g a | resumeGroup g a =>
      exact heff.2.2.grows (Or.inl heff.1) (by simp)
        (lastId_eq hagree (by simp [Call.footprint])).ge
  | raiseDispute g a reason =>
      have hl := lastId_eq hagree (by simp [Call.footprint])
      obtain ⟨grp, hgrp, heff⟩ := heff
      by_cases hvote : grp.memberCount / 2 + 1 ≤ disputeVotes s g
      · rw [if_pos hvote] at heff
        exact heff.grows (Or.inl (hsome hgrp)) (by simp) hl.ge
      · rw [if_neg hvote] at heff
        exact heff.grows hl
  | voteDissolve g a =>
      have hl := lastId_eq hagree (by simp [Call.footprint])
      obtain ⟨grp, hgrp, -, heff⟩ := heff
      by_cases hvote : grp.memberCount ≤ dissolveVotes s g
      · rw [if_pos hvote] at heff
        exact heff.grows (Or.inl (hsome hgrp)) (by simp) hl.ge
      · rw [if_neg hvote] at heff
        exact heff.grows hl
  | cancelGroup g a =>
      obtain ⟨grp, hgrp, -, hmoves⟩ := heff
      exact hmoves.grows (Or.inl (hsome hgrp)) (by simp)
        (lastId_eq hagree (by simp [Call.footprint])).ge
  | executePayout g | tick g =>
      obtain ⟨grp, hgrp, -, hmoves⟩ := heff
      exact hmoves.grows (Or.inl (hsome hgrp)) id
        (lastId_eq hagree (by simp [Call.footprint])).ge
  | tryAdvanceCycle g =>
      have hl := lastId_eq hagree (by simp [Call.footprint])
      obtain ⟨grp, hgrp, -, heff⟩ := heff
      by_cases htime : getCurrentCycle grp env.timestamp ≤ grp.currentCycle
      · rw [if_pos htime] at heff
        exact heff.grows hl
      · rw [if_neg htime] at heff
        exact heff.grows (Or.inl (hsome hgrp)) id hl.ge
  | deleteGroup g =>
      exact heff.grows_delete (lastId_eq hagree (by simp [Call.footprint])).ge
  | _ =>
      exact Still.grows heff (lastId_eq hagree (Place.other_kind rfl))

/-- **THE DISCIPLINE IS KEPT**, by every call that ends well. -/
theorem registry_step (hreg : Registry s) (h : c.body env s = .ok () t) : Registry t :=
  (grows_step hreg h).registry hreg

/-- Along every run, from deployment on. -/
theorem registry_apply (x : Step) (s : State) (hs : Registry s) : Registry (apply x s) :=
  apply_invariant (C := fun _ _ => True) (fun _ _ _ _ _ hreg ht => registry_step hreg ht)
    (fun _ hs => ⟨hs.own, hs.below⟩) (fun _ _ hs => ⟨hs.own, hs.below⟩) x s trivial hs

theorem registry_deployed (l : Ledger) : Registry (deployed l) where
  own _ _ h := nomatch h
  below _ _ := ⟨rfl, rfl⟩

/-- **EVERY STATE REACHED** from deployment has the discipline of the registry. -/
theorem registry_run (l : Ledger) (steps : List Step) : Registry (run steps (deployed l)) :=
  exec_invariant_always registry_apply (registry_deployed l) steps

/-! The funded pair obeys it. -/

theorem pairState_group (k n j : Nat) :
    groupAt (pairState k n) j = if j = 1 then some (pairGroup k) else none := by
  by_cases hj : j = 1 <;>
    simp [pairState, pairMembers, pairContributions, groupAt, hj, deployed, readAt]

theorem pairState_status (k n j : Nat) :
    statusAt (pairState k n) j = if j = 1 then some .active else none := by
  by_cases hj : j = 1 <;>
    simp [pairState, pairMembers, pairContributions, statusAt, hj, deployed, readAt]

/-- The pair's state is one the registry allows. -/
theorem pairState_registry (k n : Nat) : Registry (pairState k n) where
  own j grp h := by
    rw [pairState_group] at h
    by_cases hj : j = 1
    · rw [if_pos hj] at h
      cases h
      exact hj.symm
    · rw [if_neg hj] at h
      cases h
  below j hj := by
    have hlast : lastId (pairState k n) = 1 := rfl
    have hne : j ≠ 1 := by omega
    rw [pairState_group, pairState_status, if_neg hne, if_neg hne]
    exact ⟨rfl, rfl⟩

end Discipline

end SaveStatus
