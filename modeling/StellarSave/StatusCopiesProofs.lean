import StellarSave.StatusProofs

/-! # Do the two copies agree?

    Read off the status table.  A call that ends well from a state where every
    record agrees with its key leaves it so, EXCEPT that a new group is born
    `Active` under a `Pending` key, a cancellation writes only the key, and a
    cycle that completes the group writes only the record. -/

namespace SaveStatusCopies

open HostProg SaveData SaveMembership SaveLifecycle SavePayout SaveRefund SaveCall SaveStatus

/-- Every stored record agrees with the key of its group. -/
def Synced (s : State) : Prop :=
  ∀ g grp, groupAt s g = some grp → statusAt s g = some grp.status

/-- The next cycle of the group would complete it. -/
def LastCycle (s : State) (g : Nat) : Prop :=
  ∃ grp, groupAt s g = some grp ∧ grp.maxMembers ≤ grp.currentCycle + 1

/-- The call writes both copies or neither. -/
def KeepsCopies (env : Env) (s : State) : Call → Prop
  | .createGroup _ _ _ _ _ _ _ | .cloneGroup _ _ _ | .mergeGroups _ _ | .cancelGroup _ _ => False
  | .executePayout g | .tick g => ¬ LastCycle s g
  | .tryAdvanceCycle g => ¬ (LastCycle s g ∧
      ∃ grp, groupAt s g = some grp ∧ grp.currentCycle < getCurrentCycle grp env.timestamp)
  | _ => True

section Copies

variable {env : Env} {s t : State} {g : Nat}

/-- In terms of tags. -/
theorem synced_iff_tags :
    Synced s ↔ ∀ g id st, tagAt s g = some (id, st) → statusAt s g = some st := by
  simp only [Synced, tagAt]
  constructor
  · intro h g id st ht
    obtain ⟨grp, hgrp, he⟩ := Option.map_eq_some_iff.mp ht
    cases he
    exact h g grp hgrp
  · intro h g grp hgrp
    refine h g grp.id grp.status ?_
    rw [hgrp]
    rfl

theorem synced_of_still (hs : Synced s) (h : Still s t) : Synced t := by
  rw [synced_iff_tags] at hs ⊢
  intro j id st ht
  rw [h.tags] at ht
  rw [h.keys]
  exact hs j id st ht

/-- Moving one pair keeps agreement exactly when the new pair agrees. -/
theorem synced_of_moves {r : GroupStatus} {k : Option GroupStatus} (hs : Synced s)
    (h : Moves s t g (some r) k) : Synced t ↔ k = some r := by
  rw [synced_iff_tags] at hs ⊢
  constructor
  · intro ht
    have hg := ht g g r (by rw [h.tags, if_pos rfl]; rfl)
    rwa [h.keys, if_pos rfl] at hg
  · intro hk j id st ht
    rw [h.tags] at ht
    rw [h.keys]
    by_cases hj : j = g
    · rw [if_pos hj] at ht ⊢
      cases ht
      exact hk
    · rw [if_neg hj] at ht ⊢
      exact hs j id st ht

/-- Deleting a pair keeps agreement. -/
theorem synced_of_delete (hs : Synced s) (h : Moves s t g none none) : Synced t := by
  rw [synced_iff_tags] at hs ⊢
  intro j id st ht
  rw [h.tags] at ht
  rw [h.keys]
  by_cases hj : j = g
  · rw [if_pos hj] at ht
    cases ht
  · rw [if_neg hj] at ht ⊢
    exact hs j id st ht

/-- Advancing a record that agreed keeps agreement unless it completes. -/
theorem synced_of_advance {grp : SaveData.Group} (hs : Synced s) (hgrp : groupAt s g = some grp)
    (hopen : grp.status ≠ .completed) (h : Moves s t g (some (nextStatus grp)) (statusAt s g)) :
    Synced t ↔ ¬ LastCycle s g := by
  rw [synced_of_moves hs h, hs g grp hgrp, Option.some.injEq]
  rw [nextStatus, LastCycle]
  by_cases hlast : grp.maxMembers ≤ grp.currentCycle + 1
  · rw [if_pos hlast]
    exact iff_of_false hopen fun hn => hn ⟨grp, hgrp, hlast⟩
  · rw [if_neg hlast]
    refine iff_of_true rfl ?_
    rintro ⟨grp', hgrp', hlast'⟩
    rw [hgrp] at hgrp'
    obtain rfl := Option.some.inj hgrp'
    exact hlast hlast'

/-- **ONE CALL**: agreement survives exactly the calls that keep the copies. -/
theorem synced_step {c : Call} (hreg : Registry s) (hs : Synced s)
    (h : c.body env s = .ok () t) : Synced t ↔ KeepsCopies env s c := by
  have heff := call_status hreg c h
  cases c with
  | createGroup creator amount duration maxMembers tok grace order =>
      exact (synced_of_moves hs heff).trans (iff_of_false (by decide) id)
  | cloneGroup caller g o =>
      exact (synced_of_moves hs heff).trans (iff_of_false (by decide) id)
  | mergeGroups g₁ g₂ =>
      obtain ⟨htags, hkeys, -⟩ := heff
      refine iff_of_false (fun ht => ?_) id
      -- The merged record is `Active`; its key is `Pending` or `Cancelled`.
      have hnew := synced_iff_tags.mp ht _ _ _ ((htags (lastId s + 1)).trans (if_pos rfl))
      rw [hkeys] at hnew
      by_cases hm : lastId s + 1 = g₁ ∨ lastId s + 1 = g₂
      · rw [if_pos hm] at hnew
        exact absurd hnew (by decide)
      · rw [if_neg hm, if_pos rfl] at hnew
        exact absurd hnew (by decide)
  | activateGroup g a | resolveDispute g a =>
      exact (synced_of_moves hs heff.2).trans (iff_of_true rfl trivial)
  | pauseGroup g a | resumeGroup g a =>
      exact (synced_of_moves hs heff.2.2).trans (iff_of_true rfl trivial)
  | raiseDispute g a reason =>
      obtain ⟨grp, hgrp, heff⟩ := heff
      by_cases hvote : grp.memberCount / 2 + 1 ≤ disputeVotes s g
      · rw [if_pos hvote] at heff
        exact (synced_of_moves hs heff).trans (iff_of_true rfl trivial)
      · rw [if_neg hvote] at heff
        exact iff_of_true (synced_of_still hs heff) trivial
  | voteDissolve g a =>
      obtain ⟨grp, hgrp, -, heff⟩ := heff
      by_cases hvote : grp.memberCount ≤ dissolveVotes s g
      · rw [if_pos hvote] at heff
        exact (synced_of_moves hs heff).trans (iff_of_true rfl trivial)
      · rw [if_neg hvote] at heff
        exact iff_of_true (synced_of_still hs heff) trivial
  | cancelGroup g a =>
      obtain ⟨grp, hgrp, hterm, hmoves⟩ := heff
      refine (synced_of_moves hs hmoves).trans (iff_of_false (fun he => ?_) id)
      rw [hs g grp hgrp, ← Option.some.inj he] at hterm
      exact absurd hterm (by decide)
  | executePayout g =>
      obtain ⟨grp, hgrp, hact, hmoves⟩ := heff
      exact synced_of_advance hs hgrp (by rw [hact]; decide) hmoves
  | tick g =>
      obtain ⟨grp, hgrp, hopen, hmoves⟩ := heff
      exact synced_of_advance hs hgrp hopen hmoves
  | tryAdvanceCycle g =>
      obtain ⟨grp, hgrp, hact, heff⟩ := heff
      by_cases htime : getCurrentCycle grp env.timestamp ≤ grp.currentCycle
      · rw [if_pos htime] at heff
        refine iff_of_true (synced_of_still hs heff) ?_
        rintro ⟨-, grp', hgrp', hlt⟩
        rw [hgrp] at hgrp'
        obtain rfl := Option.some.inj hgrp'
        omega
      · rw [if_neg htime] at heff
        refine (synced_of_advance hs hgrp (by rw [hact]; decide) heff).trans ?_
        exact not_congr ⟨fun hl => ⟨hl, grp, hgrp, by omega⟩, fun hl => hl.1⟩
  | deleteGroup g => exact iff_of_true (synced_of_delete hs heff) trivial
  | _ => exact iff_of_true (synced_of_still hs heff) trivial

end Copies

/-- **WHICH CALLS KEEP THE COPIES EQUAL**: for every state whose copies agree
    and every call that ends well there. -/
theorem copies_agree_iff (env : Env) (s : State) (c : Call) (hreg : Registry s) (hs : Synced s)
    (hsucc : Succeeds c.body env s) :
    Synced (commit c.body env s) ↔ KeepsCopies env s c := by
  obtain ⟨⟨⟩, t, ht⟩ := hsucc
  rw [commit_of_ok ht]
  exact synced_step hreg hs ht

theorem pairState_synced (k n : Nat) : Synced (pairState k n) := by
  intro j grp h
  rw [pairState_group] at h
  rw [pairState_status]
  by_cases hj : j = 1
  · rw [if_pos hj] at h ⊢
    cases h
    rfl
  · rw [if_neg hj] at h
    cases h

/-- The creator signs, time `20`. -/
def creatorEnv : Env := .plain 20 [⟨1⟩] first_signs

/-- **CANCELLED UNDER ONE KEY, ACTIVE UNDER THE OTHER**: the copies agree, the
    creator cancels, the call ends well, and they no longer agree. -/
theorem cancelGroup_splits_copies :
    Synced (pairState 3 200) ∧
      Succeeds (Call.cancelGroup 1 ⟨1⟩).body creatorEnv (pairState 3 200) ∧
      ¬ Synced (commit (Call.cancelGroup 1 ⟨1⟩).body creatorEnv (pairState 3 200)) := by
  have hrun : ∃ t, (Call.cancelGroup 1 ⟨1⟩).body creatorEnv (pairState 3 200) = .ok () t :=
    ⟨_, rfl⟩
  obtain ⟨t, ht⟩ := hrun
  refine ⟨pairState_synced 3 200, ⟨(), t, ht⟩, fun h => ?_⟩
  rw [commit_of_ok ht] at h
  exact (synced_step (pairState_registry 3 200) (pairState_synced 3 200) ht).mp h

/-- The theorem at a payout that is not the last. -/
theorem copies_agree_iff_instance :
    Registry (pairState 3 200) ∧ Synced (pairState 3 200) ∧
      (Synced (commit (Call.executePayout 1).body idleEnv (pairState 3 200)) ↔
        KeepsCopies idleEnv (pairState 3 200) (.executePayout 1)) :=
  ⟨pairState_registry 3 200, pairState_synced 3 200,
    copies_agree_iff idleEnv (pairState 3 200) (.executePayout 1) (pairState_registry 3 200)
      (pairState_synced 3 200) ⟨(), _, rfl⟩⟩

end SaveStatusCopies
