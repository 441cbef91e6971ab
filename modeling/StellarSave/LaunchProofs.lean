import StellarSave.LifecycleProofs
import StellarSave.ExecutorProofs

/-! # Launching a group — create, fill, start

    `create_group` stores a record that is already `Active` beside a key that
    says `Pending`; `join_group` asks the RECORD.  So no newcomer ever gets
    in, and since a group needs two members to start, no created group is
    ever launched. -/

namespace SaveLaunch

open HostProg Footprint TokenLedger SaveData SaveMembership SaveLifecycle SavePayout

/-- Members join one after the other, each with a signature and a time of
    their own; the first refusal ends it. -/
def joinAll (g : Nat) : List (Env × Address) → State → Option State
  | [], s => some s
  | (env, member) :: rest, s =>
      match joinGroup g member none env s with
      | .ok _ t => joinAll g rest t
      | _ => none

/-- Everyone joins, then the creator starts the group. -/
def launch (g : Nat) (creator : Address) (joins : List (Env × Address)) (env : Env)
    (s : State) : Option State :=
  match joinAll g joins s with
  | some t =>
      match activateGroup g creator env t with
      | .ok _ u => some u
      | _ => none
  | none => none

/-- The group runs with `k` members. -/
def Launched (s : State) (g k : Nat) : Prop :=
  statusAt s g = some .active ∧
    ∃ grp, groupAt s g = some grp ∧ grp.status = .active ∧ grp.memberCount = k

section Launch

variable {env : Env} {s t : State} {g : Nat} {creator tok member : Address} {amount : Int}
  {cycleDuration maxMembers grace : Nat} {order : PayoutOrder} {u : Unit}

/-- The record of a new group: already `Active`, waiting for two. -/
theorem createGroup_record
    (h : createGroup creator amount cycleDuration maxMembers tok grace order env s = .ok g t) :
    ∃ grp, groupAt t g = some grp ∧ grp.status = .active ∧ grp.minMembers = 2 := by
  obtain ⟨rfl, rounded, decimals, l, rfl⟩ := createGroup_ok h
  refine ⟨createdGroup s creator rounded cycleDuration maxMembers env.timestamp grace order,
    ?_, rfl, rfl⟩
  simp [created, groupAt]

/-- A group whose record is not `Pending` takes nobody in. -/
theorem joinGroup_refused {grp : Group} {referrer : Option Address} (hgrp : groupAt s g = some grp)
    (hstatus : grp.status ≠ .pending) : joinGroup g member referrer env s ≠ .ok u t := by
  intro h
  obtain ⟨grp', hopen, -⟩ := joinGroup_ok h
  have hsame := hopen.group
  rw [hgrp] at hsame
  obtain rfl := Option.some.inj hsame
  exact hstatus hopen.pending

/-- So nobody at all can be first. -/
theorem joinAll_none {grp : Group} (hgrp : groupAt s g = some grp) (hstatus : grp.status ≠ .pending)
    {joins : List (Env × Address)} (hne : joins ≠ []) : joinAll g joins s = none := by
  cases joins with
  | nil => exact absurd rfl hne
  | cons first rest =>
      obtain ⟨env', member'⟩ := first
      have hrefused : ∀ u t, joinGroup g member' none env' s ≠ .ok u t :=
        fun _ _ => joinGroup_refused hgrp hstatus
      rw [joinAll]
      cases hj : joinGroup g member' none env' s with
      | ok u t => exact absurd hj (hrefused u t)
      | err e t => rfl
      | trap => rfl
      | mistyped => rfl

/-- **NO CREATED GROUP IS EVER LAUNCHED**: for every accepted creation and every
    list of distinct newcomers of an admissible length, with any signatures at
    any times, the sequence does not reach a running group. -/
theorem created_group_never_launched (env : Env) (s t : State) (g : Nat) (creator tok : Address)
    (amount : Int) (cycleDuration maxMembers grace : Nat) (order : PayoutOrder)
    (hcreate : createGroup creator amount cycleDuration maxMembers tok grace order env s
      = .ok g t)
    (grp : Group) (hgrp : groupAt t g = some grp) (joins : List (Env × Address))
    (_hdistinct : (joins.map Prod.snd).Nodup) (hmin : grp.minMembers ≤ joins.length)
    (_hmax : joins.length ≤ grp.maxMembers) (env' : Env) :
    ¬ ∃ u, launch g creator joins env' t = some u ∧ Launched u g joins.length := by
  obtain ⟨grp', hgrp', hactive, htwo⟩ := createGroup_record hcreate
  rw [hgrp] at hgrp'
  obtain rfl := Option.some.inj hgrp'
  have hne : joins ≠ [] := by
    intro he
    rw [he, htwo] at hmin
    exact absurd hmin (by decide)
  have hpending : grp.status ≠ .pending := by
    rw [hactive]
    decide
  rintro ⟨u, hu, -⟩
  rw [launch, joinAll_none hgrp hpending hne] at hu
  cases hu

end Launch

/-! The smallest launch: one creator, two newcomers. -/

/-- An empty contract that knows one token. -/
def tokenState : State := deployed fun tok => if tok = ⟨9⟩ then some (heldToken 0) else none

/-- The creator signs. -/
def creatorEnv : Env := .plain 5 [⟨1⟩] first_signs

/-- Two newcomers, each with their own signature. -/
def newcomers : List (Env × Address) :=
  [(.plain 6 [⟨1⟩] first_signs, ⟨1⟩), (.plain 7 [⟨2⟩] second_signs, ⟨2⟩)]

/-- **CREATED AND STUCK**: the creation is accepted, two distinct addresses
    sign to join, and nothing is launched. -/
theorem created_pair_not_launched :
    ∃ t grp, createGroup ⟨1⟩ 1000000 3600 5 ⟨9⟩ 0 .sequential creatorEnv tokenState = .ok 1 t ∧
      groupAt t 1 = some grp ∧ (newcomers.map Prod.snd).Nodup ∧
      grp.minMembers ≤ newcomers.length ∧ newcomers.length ≤ grp.maxMembers ∧
      ¬ ∃ u, launch 1 ⟨1⟩ newcomers creatorEnv t = some u ∧ Launched u 1 newcomers.length := by
  have hrun : ∃ t grp,
      createGroup ⟨1⟩ 1000000 3600 5 ⟨9⟩ 0 .sequential creatorEnv tokenState = .ok 1 t ∧
      groupAt t 1 = some grp ∧ grp.minMembers ≤ 2 ∧ 2 ≤ grp.maxMembers ∧
      launch 1 ⟨1⟩ newcomers creatorEnv t = none :=
    ⟨_, _, rfl, rfl, by decide, by decide, rfl⟩
  obtain ⟨t, grp, hcreate, hgrp, hmin, hmax, hnone⟩ := hrun
  refine ⟨t, grp, hcreate, hgrp, by decide, hmin, hmax, ?_⟩
  rintro ⟨u, hu, -⟩
  rw [hnone] at hu
  cases hu

/-- The theorem at that creation. -/
theorem created_group_never_launched_instance :
    ∃ t, createGroup ⟨1⟩ 1000000 3600 5 ⟨9⟩ 0 .sequential creatorEnv tokenState = .ok 1 t ∧
      ¬ ∃ u, launch 1 ⟨1⟩ newcomers creatorEnv t = some u ∧ Launched u 1 newcomers.length := by
  have hrun : ∃ t grp,
      createGroup ⟨1⟩ 1000000 3600 5 ⟨9⟩ 0 .sequential creatorEnv tokenState = .ok 1 t ∧
      groupAt t 1 = some grp ∧ grp.minMembers ≤ 2 ∧ 2 ≤ grp.maxMembers :=
    ⟨_, _, rfl, rfl, by decide, by decide⟩
  obtain ⟨t, grp, hcreate, hgrp, hmin, hmax⟩ := hrun
  exact ⟨t, hcreate, created_group_never_launched creatorEnv tokenState t 1 ⟨1⟩ ⟨9⟩ 1000000 3600 5
    0 .sequential hcreate grp hgrp newcomers (by decide) hmin hmax creatorEnv⟩

end SaveLaunch
