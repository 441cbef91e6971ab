import StellarSave.StatusMachineProofs

/-! # Standing — what a call leaves of a group that is under way

    Two questions about a stored group that every argument over runs comes back
    to.  Does the MEMBER COUNT stand still?  It does, except for joining,
    leaving and being created.  Can the group be `Pending` AGAIN?  It cannot:
    the record never goes back, and once the record or the key has left
    `Pending` the key stays away from it. -/

namespace SaveStanding

open HostProg Footprint TokenLedger SaveData SavePayout SaveRefund SaveMembership SaveLifecycle
open SaveAdmin SaveCall SaveStatus SaveStatusMachine Trace

/-! ## What a call does to the record -/

/-- The two records differ in the status and the flags that go with it; a
    pending record was not started in between. -/
def Relabelled (grp grp' : SaveData.Group) : Prop :=
  ∃ (status : GroupStatus) (active halted disputed started : Bool) (startedAt : Nat),
    grp' = { grp with
      status := status, isActive := active, paused := halted, disputeActive := disputed,
      started := started, startedAt := startedAt } ∧
    (status = .pending → started = grp.started)

/-- The record of `j` is as it was, or relabelled. -/
def RelabelsAt (s t : State) (j : Nat) : Prop :=
  t.persistent (.grp j) = s.persistent (.grp j) ∨
    ∃ grp grp', groupAt s j = some grp ∧ groupAt t j = some grp' ∧ Relabelled grp grp'

section Relabels

variable {env : Env} {s t v : State} {g j : Nat} {u : Unit} {a : Address}

/-- The record of one group is relabelled, the others are left alone. -/
theorem RelabelsAt.of_rewrite {grp grp' : SaveData.Group} (hgrp : groupAt s g = some grp)
    (ht : groupAt t g = some grp') (hlabel : Relabelled grp grp')
    (hother : ∀ j, j ≠ g → t.persistent (.grp j) = s.persistent (.grp j)) (j : Nat) :
    RelabelsAt s t j := by
  by_cases hj : j = g
  · subst hj
    exact Or.inr ⟨grp, grp', hgrp, ht, hlabel⟩
  · exact Or.inl (hother j hj)

/-- The start of a group is one change of its label. -/
theorem activateGroup_relabels (h : activateGroup g a env s = .ok u t) (j : Nat) :
    RelabelsAt s t j := by
  obtain ⟨grp, hgrp, -, -, -, -, rfl⟩ := activateGroup_ok h
  refine RelabelsAt.of_rewrite hgrp (by simp [groupAt]; rfl) ?_ (fun j hj => by simp [hj]) j
  exact ⟨_, _, _, _, _, _, rfl, by simp⟩

/-- So is a pause, and the end of one. -/
theorem switchPause_relabels {source target : GroupStatus} {p : Bool} (hreg : Registry s)
    (h : switchPause g a source target p env s = .ok u t) (j : Nat) : RelabelsAt s t j := by
  obtain ⟨grp, hgrp, -, -, -, rfl⟩ := switchPause_ok h
  obtain rfl := hreg.own g grp hgrp
  refine RelabelsAt.of_rewrite hgrp (by simp [groupAt]; rfl) ?_ (fun j hj => by simp [hj]) j
  exact ⟨_, _, _, _, _, _, rfl, fun _ => rfl⟩

/-- So is a dispute. -/
theorem raiseDispute_relabels {reason : String} (h : raiseDispute g a reason env s = .ok u t)
    (j : Nat) : RelabelsAt s t j := by
  simp only [raiseDispute, requireAuth_bind_ok, getOr_bind_ok, has_bind_ok, failIf_bind_ok,
    put_bind_ok] at h
  obtain ⟨-, grp, hgrp, -, -, h⟩ := h
  obtain ⟨⟨⟩, v, hreason, h₁⟩ := bind_ok.mp h
  have hv : ∀ j, v.persistent (.grp j) = s.persistent (.grp j) := fun j =>
    ((Within.agree_ok (w := scope [.of .grpDspR g] False False) hreason).persistent _
      (by simp)).trans (by simp)
  simp at h₁
  obtain ⟨-, -, -, ⟨-, rfl⟩ | ⟨-, rfl⟩⟩ := h₁
  · refine RelabelsAt.of_rewrite hgrp (by simp [groupAt]; rfl) ?_ (fun j hj => by simp [hj, hv]) j
    exact ⟨_, _, _, _, _, _, rfl, by simp⟩
  · exact Or.inl (by simp [hv])

/-- And the end of one. -/
theorem resolveDispute_relabels (h : resolveDispute g a env s = .ok u t) (j : Nat) :
    RelabelsAt s t j := by
  simp only [resolveDispute, requireAuth_bind_ok, getOr_bind_ok, failIf_bind_ok, put_bind_ok,
    del_bind_ok, getOpt_bind_ok] at h
  obtain ⟨-, grp, hgrp, -, -, -, hloop⟩ := h
  have hv := fun j =>
    (Within.agree_ok (w := scope [.of .grpDspV g] False False) hloop).persistent (.grp j) (by simp)
  refine RelabelsAt.of_rewrite hgrp (by rw [groupAt, readAt_congr (hv g)]; simp; rfl) ?_
    (fun j hj => (hv j).trans (by simp [hj])) j
  exact ⟨_, _, _, _, _, _, rfl, by simp⟩

/-- A dissolution cancels the group, and a vote before it changes nothing. -/
theorem voteDissolve_relabels (h : voteDissolve g a env s = .ok u t) (j : Nat) :
    RelabelsAt s t j := by
  obtain ⟨grp, hgrp, -, ⟨-, config, -, hloop⟩ | ⟨-, rfl⟩⟩ := voteDissolve_ok h
  · have hv := fun j =>
      (Within.agree_ok (w := scope [.of .refund g] False True) hloop).persistent (.grp j) (by simp)
    refine RelabelsAt.of_rewrite hgrp (by rw [groupAt, readAt_congr (hv g)]; simp [dissolved]; rfl)
      ?_ (fun j hj => (hv j).trans (by simp [dissolved, voted, hj])) j
    exact ⟨_, _, _, _, _, _, rfl, by simp⟩
  · exact Or.inl (by simp [voted])

/-- The group whose record a call relabels. -/
def relabelledGroup : Call → Option Nat
  | .activateGroup g _ | .pauseGroup g _ | .resumeGroup g _ | .raiseDispute g _ _
  | .resolveDispute g _ | .voteDissolve g _ => some g
  | _ => none

/-- All the calls that only relabel, together. -/
theorem call_relabels {c : Call} (hreg : Registry s) (hc : relabelledGroup c ≠ none)
    (h : c.body env s = .ok () t) (j : Nat) : RelabelsAt s t j := by
  cases c with
  | activateGroup g a => exact activateGroup_relabels h j
  | pauseGroup g a | resumeGroup g a => exact switchPause_relabels hreg h j
  | raiseDispute g a reason => exact raiseDispute_relabels h j
  | resolveDispute g a => exact resolveDispute_relabels h j
  | voteDissolve g a => exact voteDissolve_relabels h j
  | _ => exact absurd rfl hc

end Relabels

/-! ## What a call does to the member count -/

/-- The record of `g`, if it is still there, was there before, with the same
    member count; and a pending one was not started in between. -/
def SteadyAt (s t : State) (g : Nat) : Prop :=
  ∀ grp', groupAt t g = some grp' → ∃ grp, groupAt s g = some grp ∧
    grp'.memberCount = grp.memberCount ∧ (grp'.status = .pending → grp'.started = grp.started)

section Steady

variable {env : Env} {s t v : State} {g j : Nat} {u : Unit} {a : Address}

/-- A call that leaves the record alone leaves the group steady. -/
theorem SteadyAt.of_same (h : t.persistent (.grp j) = s.persistent (.grp j)) : SteadyAt s t j := by
  intro grp' hgrp'
  refine ⟨grp', ?_, rfl, fun _ => rfl⟩
  rwa [groupAt, readAt_congr h] at hgrp'

/-- The record of one group is rewritten, the others are left alone. -/
theorem SteadyAt.of_rewrite {grp grp' : SaveData.Group} (hgrp : groupAt s g = some grp)
    (ht : groupAt t g = some grp')
    (hother : ∀ j, j ≠ g → t.persistent (.grp j) = s.persistent (.grp j))
    (hcount : grp'.memberCount = grp.memberCount)
    (hstarted : grp'.status = .pending → grp'.started = grp.started) (j : Nat) :
    SteadyAt s t j := by
  by_cases hj : j = g
  · intro grp'' hgrp''
    rw [hj, ht] at hgrp''
    obtain rfl := Option.some.inj hgrp''
    exact ⟨grp, hj ▸ hgrp, hcount, hstarted⟩
  · exact SteadyAt.of_same (hother j hj)

/-- So does one that edits name and description. -/
theorem edited_steady (h : Edited s t g) (j : Nat) : SteadyAt s t j := by
  obtain ⟨grp, grp', hgrp, hcore, ht⟩ := h
  intro grp'' hgrp''
  rw [ht] at hgrp''
  by_cases hj : j = g
  · rw [if_pos hj] at hgrp''
    obtain rfl := Option.some.inj hgrp''
    exact ⟨grp, hj ▸ hgrp, hcore.memberCount, fun _ => hcore.started⟩
  · rw [if_neg hj] at hgrp''
    exact ⟨grp'', hgrp'', rfl, fun _ => rfl⟩

/-- Advancing touches neither the count nor the start. -/
theorem advanced_core (grp : SaveData.Group) :
    grp.advanced.memberCount = grp.memberCount ∧ grp.advanced.started = grp.started := by
  rw [Group.advanced]
  by_cases h : ({ grp with currentCycle := grp.currentCycle + 1 } : SaveData.Group).isComplete
  · rw [if_pos h]
    exact ⟨rfl, rfl⟩
  · rw [if_neg h]
    exact ⟨rfl, rfl⟩

/-- A relabelled group keeps its creator and its size. -/
theorem RelabelsAt.steady (h : RelabelsAt s t j) : SteadyAt s t j := by
  rcases h with hsame | ⟨grp, grp', hgrp, hgrp', status, _, _, _, _, _, rfl, hstarted⟩
  · exact SteadyAt.of_same hsame
  · intro grp'' hgrp''
    obtain rfl := Option.some.inj (hgrp'.symm.trans hgrp'')
    exact ⟨grp, hgrp, rfl, hstarted⟩

/-- A new cycle is steady. -/
theorem tryAdvanceCycle_steady {b : Bool} (h : tryAdvanceCycle g env s = .ok b t) (j : Nat) :
    SteadyAt s t j := by
  obtain ⟨grp, hgrp, -, -, -, ⟨-, rfl⟩ | ⟨-, rfl⟩⟩ := tryAdvanceCycle_ok h
  · exact SteadyAt.of_same rfl
  · obtain ⟨hcount, hstarted⟩ := advanced_core grp
    exact SteadyAt.of_rewrite hgrp (by simp [groupAt]) (fun j hj => by simp [hj]) hcount
      (fun _ => hstarted) j

/-- So is a payout, which may complete the group. -/
theorem executePayout_steady (hreg : Registry s) (h : executePayout g env s = .ok u t) (j : Nat) :
    SteadyAt s t j := by
  have hother := fun j hj => executePayout_groups (j := j) (hreg.own g) (Or.inl ⟨u, h⟩) hj
  obtain ⟨grp, recipient, amount, v, config, l, hp, rfl⟩ := executePayout_ok.mp h
  obtain ⟨hcount, hstarted⟩ := advanced_core (marked grp)
  have hafter : groupAt (paidState v g grp recipient amount env.timestamp l) g
      = some { (marked grp).advanced with payoutInProgress := false } := by
    simp [groupAt, paidState]
  exact SteadyAt.of_rewrite hp.group hafter hother hcount (fun _ => hstarted) j

/-- So is a tick, which may pay out or advance. -/
theorem tick_steady (hreg : Registry s) (h : tick g env s = .ok u t) (j : Nat) :
    SteadyAt s t j := by
  have hother := fun j hj => tick_groups (j := j) hreg h hj
  obtain ⟨grp, v, hgrp, -, -, -, rfl⟩ := tick_ok h
  obtain ⟨hcount, hstarted⟩ := advanced_core grp
  exact SteadyAt.of_rewrite hgrp (by simp [groupAt]) hother hcount (fun _ => hstarted) j

/-- The calls that change the count of `g`, or bring `g` into being. -/
def Regroups (s : State) (g : Nat) : Call → Prop
  | .joinGroup g' _ _ | .removeMember g' _ => g' = g
  | .createGroup _ _ _ _ _ _ _ | .cloneGroup _ _ _ | .mergeGroups _ _ => g = lastId s + 1
  | _ => False

/-- The calls that bring a group with a token into being. -/
def Creates : Call → Prop
  | .createGroup _ _ _ _ _ _ _ | .cloneGroup _ _ _ => True
  | _ => False

/-- A group is born `Active` and empty. -/
theorem creates_ok {c : Call} (h : c.body env s = .ok () t) (hc : Creates c) :
    ∃ grp config l, (created s grp config).setLedger l = t ∧
      grp.memberCount = 0 ∧ grp.status = .active := by
  cases c with
  | createGroup creator amount duration maxMembers tok grace order =>
      obtain ⟨n, hn⟩ := quietly_ok.mp h
      obtain ⟨-, rounded, decimals, l, rfl⟩ := createGroup_ok hn
      exact ⟨_, _, _, rfl, rfl, rfl⟩
  | cloneGroup caller g o =>
      obtain ⟨n, hn⟩ := quietly_ok.mp h
      obtain ⟨rfl, amount, duration, maxMembers, minMembers, grace, config, rfl⟩ := cloneGroup_ok hn
      exact ⟨_, config, s.ledger, rfl, rfl, rfl⟩
  | _ => exact absurd hc not_false

/-- A new group is at the next id: the others stay. -/
theorem creates_groups {c : Call} (h : c.body env s = .ok () t) (hc : Creates c)
    (hj : j ≠ lastId s + 1) : t.persistent (.grp j) = s.persistent (.grp j) := by
  obtain ⟨grp, config, l, rfl, -⟩ := creates_ok h hc
  simp [created, hj]

/-- To delete a group is to have no record of it, which is steady. -/
theorem deleteGroup_steady (h : deleteGroup g env s = .ok u t) (j : Nat) : SteadyAt s t j := by
  have hmoves := deleteGroup_moves h
  by_cases hj : j = g
  · have hgone := tagAt_eq_none.mp ((hmoves.tags j).trans (if_pos hj))
    intro grp' hgrp'
    rw [hgone] at hgrp'
    cases hgrp'
  · exact SteadyAt.of_same ((Within.agree_ok (w := scope [.of .grp g, .of .grpStat g] False False)
      h).persistent (.grp j) (by simp [hj]))

/-- **THE COUNT STANDS STILL** under every other call. -/
theorem steady_step {c : Call} (hreg : Registry s) (h : c.body env s = .ok () t)
    (hc : ¬ Regroups s j c) : SteadyAt s t j := by
  have hagree := Within.agree_ok (w := c.footprint) h
  cases c with
  | createGroup creator amount duration maxMembers tok grace order =>
      exact SteadyAt.of_same (creates_groups h trivial hc)
  | cloneGroup caller g o => exact SteadyAt.of_same (creates_groups h trivial hc)
  | mergeGroups g₁ g₂ =>
      obtain ⟨n, hn⟩ := quietly_ok.mp h
      exact SteadyAt.of_same (mergeGroups_frame hn (.grp j) hc (by simp))
  | activateGroup g a | pauseGroup g a | resumeGroup g a | raiseDispute g a reason
  | resolveDispute g a | voteDissolve g a =>
      exact (call_relabels hreg (by simp [relabelledGroup]) h j).steady
  | executePayout g => exact executePayout_steady hreg h j
  | tick g => exact tick_steady hreg h j
  | tryAdvanceCycle g =>
      obtain ⟨b, hb⟩ := quietly_ok.mp h
      exact tryAdvanceCycle_steady hb j
  | deleteGroup g => exact deleteGroup_steady h j
  | joinGroup g a referrer | removeMember g a =>
      exact SteadyAt.of_same (hagree.persistent _ (by simp [Ne.symm hc]))
  | updateGroup g n d m | updateGroupMetadata g a name description imageUrl
  | setInvitationOnly g b | setContributionProofRequired g b | setDynamicContributions g b
  | archiveGroup a g | voteContributionChange g a => exact edited_steady (call_edits rfl h) j
  | _ => exact SteadyAt.of_same (hagree.persistent _ (Place.other_kind rfl))

end Steady

/-! ## What a call does to the cycle -/

/-- The group is in the same cycle, or as absent, as before. -/
def SameCycleAt (s t : State) (j : Nat) : Prop :=
  (groupAt t j).map Group.currentCycle = (groupAt s j).map Group.currentCycle

/-- The calls that may change that: three advance the cycle of `g`, one deletes
    the record. -/
def Advances (g : Nat) : Call → Prop
  | .executePayout g' | .tick g' | .tryAdvanceCycle g' | .deleteGroup g' => g' = g
  | _ => False

section Cycle

variable {env : Env} {s t : State} {j : Nat}

/-- The cycle is in the record. -/
theorem SameCycleAt.of_same (h : t.persistent (.grp j) = s.persistent (.grp j)) :
    SameCycleAt s t j := by
  show (groupAt t j).map _ = _
  rw [groupAt, readAt_congr h]

/-- A rewritten record may keep it. -/
theorem SameCycleAt.of_rewrite {grp grp' : SaveData.Group} (hgrp : groupAt s j = some grp)
    (ht : groupAt t j = some grp') (hcycle : grp'.currentCycle = grp.currentCycle) :
    SameCycleAt s t j := by
  show (groupAt t j).map _ = (groupAt s j).map _
  rw [hgrp, ht, Option.map_some, Option.map_some, hcycle]

/-- A change of the label does. -/
theorem RelabelsAt.sameCycle (h : RelabelsAt s t j) : SameCycleAt s t j := by
  rcases h with hsame | ⟨grp, grp', hgrp, hgrp', _, _, _, _, _, _, rfl, -⟩
  · exact SameCycleAt.of_same hsame
  · exact SameCycleAt.of_rewrite hgrp hgrp' rfl

/-- **THE CYCLE STANDS STILL** under every other call on an id handed out. -/
theorem cycle_step {c : Call} (hreg : Registry s) (hissued : j ≤ lastId s)
    (h : c.body env s = .ok () t) (hc : ¬ Advances j c) : SameCycleAt s t j := by
  have hagree := Within.agree_ok (w := c.footprint) h
  have hnew : j ≠ lastId s + 1 := by omega
  -- the calls that advance a cycle are excluded by the hypothesis
  cases c with
  | createGroup creator amount duration maxMembers tok grace order =>
      exact SameCycleAt.of_same (creates_groups h trivial hnew)
  | cloneGroup caller g o => exact SameCycleAt.of_same (creates_groups h trivial hnew)
  | mergeGroups g₁ g₂ =>
      obtain ⟨n, hn⟩ := quietly_ok.mp h
      exact SameCycleAt.of_same (mergeGroups_frame hn (.grp j) hnew (by simp))
  | activateGroup g a | pauseGroup g a | resumeGroup g a | raiseDispute g a reason
  | resolveDispute g a | voteDissolve g a =>
      exact (call_relabels hreg (by simp [relabelledGroup]) h j).sameCycle
  | executePayout g =>
      exact SameCycleAt.of_same
        (executePayout_groups (hreg.own g) (Or.inl ⟨(), h⟩) fun he => hc he.symm)
  | tick g => exact SameCycleAt.of_same (tick_groups hreg h fun he => hc he.symm)
  | tryAdvanceCycle g | deleteGroup g =>
      exact SameCycleAt.of_same (hagree.persistent _ (by simp [Ne.symm hc]))
  | joinGroup g a referrer =>
      by_cases hj : j = g
      · subst hj
        obtain ⟨grp, hopen, rfl⟩ := joinGroup_ok h
        refine SameCycleAt.of_rewrite hopen.group (by simp [groupAt, joined]; rfl) ?_
        rfl
      · exact SameCycleAt.of_same (hagree.persistent _ (by simp [hj]))
  | removeMember g a =>
      by_cases hj : j = g
      · subst hj
        obtain ⟨grp, profile, hopen, rfl⟩ := removeMember_ok h
        refine SameCycleAt.of_rewrite hopen.group (by simp [groupAt, removed]; rfl) ?_
        rfl
      · exact SameCycleAt.of_same (hagree.persistent _ (by simp [hj]))
  | updateGroup g n d m | updateGroupMetadata g a name description imageUrl
  | setInvitationOnly g b | setContributionProofRequired g b | setDynamicContributions g b
  | archiveGroup a g | voteContributionChange g a =>
      obtain ⟨grp, grp', hgrp, hcore, ht⟩ := call_edits rfl h
      by_cases hj : j = g
      · exact SameCycleAt.of_rewrite (hj ▸ hgrp) ((ht j).trans (if_pos hj)) hcore.currentCycle
      · show (groupAt t j).map _ = _
        rw [ht, if_neg hj]
  | _ => exact SameCycleAt.of_same (hagree.persistent _ (Place.other_kind rfl))

end Cycle

/-! ## What a call does to the status

    Read off the status table: a record never becomes `Pending` again, and
    when it has left `Pending`, or the key has, the key stays away from it. -/

/-- The key as most calls read it. -/
abbrev keyAt (s : State) (g : Nat) : GroupStatus := (statusAt s g).getD .pending

/-- The pair of `g`, where it is there before and after, moves away from
    `Pending` only, the key first. -/
def Forward (s t : State) (g : Nat) : Prop :=
  ∀ x y, recordStatus s g = some x → recordStatus t g = some y →
    (y = .pending → x = .pending) ∧
    (y ≠ .pending → x = .pending ∨ keyAt s g ≠ .pending → keyAt t g ≠ .pending)

section Status

variable {env : Env} {s t : State} {g j : Nat} {u : Unit}

/-- What stands still does not go back. -/
theorem forward_of_still (h : Still s t) : Forward s t j := by
  intro x y hx hy
  rw [recordStatus, h.tags, ← recordStatus, hx] at hy
  obtain rfl := Option.some.inj hy
  simp only [keyAt]
  rw [h.keys]
  exact ⟨id, fun hy hor => hor.resolve_left hy⟩

/-- Only the pair that moves needs a look. -/
theorem forward_of_moves {r k : Option GroupStatus} (h : Moves s t g r k)
    (hmove : j = g → ∀ x y, recordStatus s g = some x → r = some y →
      (y = .pending → x = .pending) ∧
      (y ≠ .pending → x = .pending ∨ keyAt s g ≠ .pending → k.getD .pending ≠ .pending)) :
    Forward s t j := by
  intro x y hx hy
  rw [Moves.recordStatus h] at hy
  simp only [keyAt]
  rw [h.keys]
  by_cases hj : j = g
  · subst hj
    rw [if_pos rfl] at hy ⊢
    exact hmove rfl x y hx hy
  · rw [if_neg hj, hx] at hy
    rw [if_neg hj]
    obtain rfl := Option.some.inj hy
    exact ⟨id, fun hy hor => hor.resolve_left hy⟩

/-- Both copies to a status other than `Pending`. -/
theorem forward_of_both {st : GroupStatus} (h : Moves s t g (some st) (some st))
    (hst : st ≠ .pending) : Forward s t j := by
  refine forward_of_moves h fun _ x y _ hy => ?_
  obtain rfl := Option.some.inj hy
  exact ⟨fun he => absurd he hst, fun _ _ => hst⟩

/-- Advancing a record that is not `Pending`. -/
theorem forward_of_advance {grp : SaveData.Group} (hgrp : groupAt s g = some grp)
    (hleft : j = g → grp.status ≠ .pending)
    (h : Moves s t g (some (nextStatus grp)) (statusAt s g)) : Forward s t j := by
  refine forward_of_moves h fun hj x y hx hy => ?_
  rw [recordStatus_of_group hgrp] at hx
  obtain rfl := Option.some.inj hx
  obtain rfl := Option.some.inj hy
  refine ⟨fun he => ?_, fun _ hor => hor.resolve_left (hleft hj)⟩
  rw [nextStatus] at he
  by_cases hlast : grp.maxMembers ≤ grp.currentCycle + 1
  · rw [if_pos hlast] at he
    cases he
  · rwa [if_neg hlast] at he

/-- A pair that was not there has no past. -/
theorem forward_of_fresh (hreg : Registry s) (hj : lastId s < j) : Forward s t j := by
  intro x y hx
  rw [(fresh_none hreg hj).1] at hx
  cases hx

/-- A tick needs a started group. -/
theorem tick_started {grp : SaveData.Group} (hgrp : groupAt s g = some grp)
    (h : tick g env s = .ok u t) : grp.started = true := by
  rw [tick] at h
  simp only [getOr_bind_ok, failIf_bind_ok, now_bind_ok] at h
  obtain ⟨grp', hgrp', -, h⟩ := h
  obtain rfl := Option.some.inj (hgrp.symm.trans hgrp')
  obtain ⟨passed, v, hpass, h₁⟩ := bind_ok.mp h
  -- before the start no deadline passes
  by_contra hst
  rw [isCycleDeadlinePassed, if_pos (Bool.eq_false_of_not_eq_true hst)] at hpass
  obtain ⟨rfl, -⟩ := pure_ok.mp hpass
  exact (failIf_bind_ok.mp h₁).1 rfl

/-- **EVERY CALL MOVES FORWARD**, provided a pending record is not started. -/
theorem forward_step {c : Call} (hreg : Registry s) (h : c.body env s = .ok () t)
    (hopen : ∀ grp, groupAt s j = some grp → grp.status = .pending → grp.started = false) :
    Forward s t j := by
  have heff := call_status hreg c h
  cases c with
  | createGroup creator amount duration maxMembers tok grace order
  | cloneGroup caller g o =>
      refine forward_of_moves heff fun _ x y hx _ => ?_
      rw [(fresh_none hreg (Nat.lt_succ_self (lastId s))).1] at hx
      cases hx
  | mergeGroups g₁ g₂ =>
      obtain ⟨htags, hkeys, -⟩ := heff
      by_cases hj : j = lastId s + 1
      · exact forward_of_fresh hreg (hj ▸ Nat.lt_succ_self (lastId s))
      · intro x y hx hy
        rw [recordStatus, htags, if_neg hj, ← recordStatus, hx] at hy
        obtain rfl := Option.some.inj hy
        refine ⟨id, fun hy hor => ?_⟩
        rw [keyAt, hkeys]
        -- the sources keep their records, their keys are cancelled
        by_cases hm : j = g₁ ∨ j = g₂
        · rw [if_pos hm]
          decide
        · rw [if_neg hm, if_neg hj]
          exact hor.resolve_left hy
  | activateGroup g a | resolveDispute g a => exact forward_of_both heff.2 (by decide)
  | pauseGroup g a | resumeGroup g a => exact forward_of_both heff.2.2 (by decide)
  | raiseDispute g a reason =>
      obtain ⟨grp, -, heff⟩ := heff
      by_cases hvote : grp.memberCount / 2 + 1 ≤ disputeVotes s g
      · rw [if_pos hvote] at heff
        exact forward_of_both heff (by decide)
      · rw [if_neg hvote] at heff
        exact forward_of_still heff
  | voteDissolve g a =>
      obtain ⟨grp, -, -, heff⟩ := heff
      by_cases hvote : grp.memberCount ≤ dissolveVotes s g
      · rw [if_pos hvote] at heff
        exact forward_of_both heff (by decide)
      · rw [if_neg hvote] at heff
        exact forward_of_still heff
  | cancelGroup g a =>
      obtain ⟨grp, hgrp, -, hmoves⟩ := heff
      refine forward_of_moves hmoves fun _ x y hx hy => ?_
      rw [recordStatus_of_group hgrp] at hx
      rw [hy] at hx
      obtain rfl := Option.some.inj hx
      exact ⟨id, fun _ _ => by decide⟩
  | executePayout g =>
      obtain ⟨grp, hgrp, hact, hmoves⟩ := heff
      exact forward_of_advance hgrp (fun _ => by rw [hact]; decide) hmoves
  | tick g =>
      obtain ⟨grp, hgrp, -, hmoves⟩ := heff
      -- a tick needs a deadline that has passed, so a group that has started
      refine forward_of_advance hgrp (fun hj hpend => ?_) hmoves
      have hunstarted := hopen grp (hj ▸ hgrp) hpend
      rw [tick_started hgrp h] at hunstarted
      cases hunstarted
  | tryAdvanceCycle g =>
      obtain ⟨grp, hgrp, hact, heff⟩ := heff
      by_cases htime : getCurrentCycle grp env.timestamp ≤ grp.currentCycle
      · rw [if_pos htime] at heff
        exact forward_of_still heff
      · rw [if_neg htime] at heff
        exact forward_of_advance hgrp (fun _ => by rw [hact]; decide) heff
  | deleteGroup g => exact forward_of_moves heff fun _ _ _ _ hy => absurd hy (by simp)
  | _ => exact forward_of_still heff

end Status

end SaveStanding
