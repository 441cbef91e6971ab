import StellarSave.BooksProofs
import StellarSave.IsolationProofs

/-! # Vacancy — from deployment on, nobody gets in

    `join_group` asks the RECORD of the group for the status `Pending`, and no line
    of the contract gives a record that status: it is born `Active`, and what
    rewrites it makes it paused, active, completed or cancelled.  The pending state
    of a new group lives under the status key only.  So no call ever brings a
    member in, and everything that needs a member stays as it was deployed:
    profiles, rosters, contributions, payouts; no group is ever started. -/

namespace SaveVacant

open HostProg Footprint TokenLedger SaveData SaveContribution SavePayout SaveRefund SaveMembership
open SaveLifecycle SaveAdmin SaveCall SaveStatus SaveStanding SaveRecord SaveMerge SaveBacking
open SaveFiling SaveRoster Trace

/-- A record nobody can join, empty and not started. -/
structure Closed (grp : SaveData.Group) : Prop where
  status : grp.status ≠ .pending
  empty : grp.memberCount = 0
  minimum : 2 ≤ grp.minMembers
  idle : grp.started = false

/-- **VACANT**: no members anywhere, and nothing that only members bring about. -/
structure Vacant (s : State) : Prop where
  order : InOrder s
  registry : Registry s
  closed : ∀ g grp, groupAt s g = some grp → Closed grp
  profiles : ∀ g a, s.persistent (.mbrProf g a) = none
  rosters : ∀ g, (rosterAt s g).members = []
  contributions : ∀ g c a, s.persistent (.contrib g c a) = none
  payouts : ∀ g c, s.persistent (.payout g c) = none ∧ s.persistent (.payRecip g c) = none

section Step

variable {env : Env} {s t v : State} {c : Call} {g n : Nat} {grp grp' : SaveData.Group}
  {a : Address} {u : Unit}

/-! ## What cannot happen -/

/-- No record has the status that joining asks for. -/
theorem joinGroup_fails {referrer : Option Address} (hs : Vacant s) :
    ¬ Succeeds (joinGroup g a referrer) env s := by
  rintro ⟨u, t, h⟩
  obtain ⟨grp, hopen, -⟩ := joinGroup_ok h
  exact (hs.closed g grp hopen.group).status hopen.pending

/-- There is no member to remove. -/
theorem removeMember_fails (hs : Vacant s) : ¬ Succeeds (removeMember g a) env s := by
  rintro ⟨u, t, h⟩
  obtain ⟨grp, profile, hopen, -⟩ := removeMember_ok h
  have hprofile := hopen.profile
  rw [profileAt, readAt, hs.profiles g a] at hprofile
  cases hprofile

/-- And none to withdraw. -/
theorem emergencyWithdraw_fails (hs : Vacant s) : ¬ Succeeds (emergencyWithdraw g a) env s := by
  rintro ⟨u, t, h⟩
  simp [emergencyWithdraw, hs.profiles g a] at h

/-- So there are always too few to start a group. -/
theorem activateGroup_fails (hs : Vacant s) : ¬ Succeeds (activateGroup g a) env s := by
  rintro ⟨u, t, h⟩
  obtain ⟨grp, hgrp, -, -, -, hcount, -⟩ := activateGroup_ok h
  have hclosed := hs.closed g grp hgrp
  have hmin := hclosed.minimum
  rw [hclosed.empty] at hcount
  omega

/-- No payout finds a seat. -/
theorem executePayout_unpaid (hs : Vacant s) (h : EndsIn (executePayout g) env s v) :
    NotPaid s v g := by
  rcases executePayout_notes (hs.order.rosters g) h with hnot | ⟨grp, recipient, amount, hpays⟩
  · exact hnot
  · have hseat := hpays.seat.2
    rw [(hs.closed g grp hpays.group).empty] at hseat
    exact absurd hseat (Nat.not_lt_zero _)

/-- Two empty groups merge into one. -/
theorem mergedRoster_empty {g₁ g₂ : Nat} (hs : Vacant s) : mergedRoster s g₁ g₂ = ∅ := by
  rw [mergedRoster, hs.rosters g₁, hs.rosters g₂]
  rfl

/-! ## What each call leaves -/

/-- A closed group that advances stays closed. -/
theorem closed_advanced (h : Closed grp) : Closed grp.advanced := by
  have hdesc := SaveIsolation.descends_advanced grp
  refine ⟨?_, ?_, hdesc.minMembers ▸ h.minimum, ?_⟩
  all_goals
    rw [Group.advanced]
    by_cases hdone : ({ grp with currentCycle := grp.currentCycle + 1 } : SaveData.Group).isComplete
  · simp [hdone]
  · simpa [hdone] using h.status
  · simpa [hdone] using h.empty
  · simpa [hdone] using h.empty
  · simpa [hdone] using h.idle
  · simpa [hdone] using h.idle

/-- The table opens no door. -/
theorem closed_rewritten (hs : Vacant s) (h : c.body env s = .ok () t)
    (hgrp : groupAt s g = some grp) (hrew : Rewrites g grp c grp') : Closed grp' := by
  have hclosed := hs.closed g grp hgrp
  cases hrew with
  | payout =>
      have hadv := closed_advanced hclosed
      exact ⟨hadv.status, hadv.empty, hadv.minimum, hadv.idle⟩
  | tick | advance => exact closed_advanced hclosed
  | activate b time => exact absurd ⟨(), t, h⟩ (activateGroup_fails hs)
  | join b referrer => exact absurd ⟨(), t, h⟩ (joinGroup_fails hs)
  | remove b => exact absurd ⟨(), t, h⟩ (removeMember_fails hs)
  | pause _ | resume _ | dispute _ _ | resolve _ | dissolve _ =>
      exact ⟨nofun, hclosed.empty, hclosed.minimum, hclosed.idle⟩
  | _ => exact ⟨hclosed.status, hclosed.empty, hclosed.minimum, hclosed.idle⟩

/-- Every group that is there after a call is closed. -/
theorem closed_step (hs : Vacant s) (h : c.body env s = .ok () t)
    (hgrp' : groupAt t g = some grp') : Closed grp' := by
  rcases record_rewritten hs.registry h g grp' hgrp' with ⟨grp, hgrp, rfl | hrew⟩ | ⟨hfresh, -⟩
  · exact hs.closed g _ hgrp
  · exact closed_rewritten hs h hgrp hrew
  subst hfresh
  have hactive : GroupStatus.active ≠ .pending := by decide
  have hagree := Within.agree_ok (w := c.footprint) h
  cases c with
  | createGroup creator amount duration maxMembers tok grace order =>
      obtain ⟨n, hn⟩ := quietly_ok.mp h
      obtain ⟨-, rounded, decimals, l, rfl⟩ := createGroup_ok hn
      simp [created, groupAt] at hgrp'
      subst hgrp'
      exact ⟨hactive, rfl, Nat.le_refl 2, rfl⟩
  | cloneGroup caller g' o =>
      obtain ⟨n, hn⟩ := quietly_ok.mp h
      obtain ⟨rfl, src, config, -, ⟨-, -, hmin, -⟩, rfl⟩ := cloneGroup_terms hn
      simp [created, groupAt] at hgrp'
      subst hgrp'
      exact ⟨hactive, rfl, hmin, rfl⟩
  | mergeGroups g₁ g₂ =>
      obtain ⟨n, hn⟩ := quietly_ok.mp h
      obtain ⟨grp₁, grp₂, h₁, h₂, hborn⟩ := merge_group hn
      obtain rfl := (mergeGroups_ok hn).1
      obtain rfl := Option.some.inj (hborn.symm.trans hgrp')
      refine ⟨hactive, ?_, ?_, rfl⟩
      · show (mergedRoster s g₁ g₂).size = 0
        rw [mergedRoster_empty hs]
        rfl
      · exact Nat.le_min.mpr ⟨(hs.closed g₁ grp₁ h₁).minimum, (hs.closed g₂ grp₂ h₂).minimum⟩
  | _ =>
      -- the others hand out no id, so the fresh one has no record
      exfalso
      have hlast : lastId t = lastId s := by
        rw [lastId, lastId, readAt_congr (hagree.persistent .cntNextG (Place.other_kind rfl))]
      have htag : tagAt t (lastId s + 1) ≠ none := by
        rw [Ne, tagAt_eq_none, hgrp']
        exact Option.some_ne_none _
      rcases (grows_step hs.registry h).tags _ htag with hold | ⟨-, hle⟩
      · exact hold (tagAt_eq_none.mpr (hs.registry.below _ (Nat.lt_succ_self _)).1)
      · omega

/-- No call writes a profile. -/
theorem profiles_step (hs : Vacant s) (h : c.body env s = .ok () t) (g : Nat) (a : Address) :
    t.persistent (.mbrProf g a) = none := by
  have hagree := Within.agree_ok (w := c.footprint) h
  -- nobody can join, leave or withdraw
  cases c with
  | joinGroup g' m referrer => exact absurd ⟨(), t, h⟩ (joinGroup_fails hs)
  | removeMember g' m => exact absurd ⟨(), t, h⟩ (removeMember_fails hs)
  | emergencyWithdraw g' m => exact absurd ⟨(), t, h⟩ (emergencyWithdraw_fails hs)
  -- to assign positions in an empty group writes nothing
  | assignPayoutPositions g' b mode =>
      obtain ⟨-, positions, v, n, -, -, hv, hloop⟩ := assignPayoutPositions_ok h
      have hdealt := dealt_members (g := g) (a := a) hloop
      rw [hv (.mbrProf g a) (by simp), hs.profiles g a] at hdealt
      by_contra hthere
      exact hdealt.mp hthere rfl
  | enableAutoContribute g' m =>
      obtain ⟨profile, -, hprofile, -⟩ := enableAutoContribute_ok h
      rw [profileAt, readAt, hs.profiles g' m] at hprofile
      cases hprofile
  | disableAutoContribute g' m =>
      obtain ⟨profile, -, hprofile, -⟩ := disableAutoContribute_ok h
      rw [profileAt, readAt, hs.profiles g' m] at hprofile
      cases hprofile
  -- the members of a merged group would be those of its parts
  | mergeGroups g₁ g₂ =>
      obtain ⟨n, hn⟩ := quietly_ok.mp h
      obtain ⟨rfl, grp₁, grp₂, v, -, hloop, rfl⟩ := mergeGroups_ok hn
      rw [mergedRoster_empty hs] at hloop
      obtain ⟨-, rfl⟩ := pure_ok.mp hloop
      simpa [mergeBase] using hs.profiles g a
  | _ => exact (hagree.persistent (.mbrProf g a) (Place.other_kind rfl)).trans (hs.profiles g a)

/-- Nor puts anybody on a roster. -/
theorem rosters_step (hs : Vacant s) (h : c.body env s = .ok () t) (g : Nat) :
    (rosterAt t g).members = [] := by
  have hagree := Within.agree_ok (w := c.footprint) h
  have hsame : t.persistent (.grpMbrs g) = s.persistent (.grpMbrs g) → (rosterAt t g).members = [] := by
    intro he
    rw [rosterAt, membersAt, readAt_congr he]
    exact hs.rosters g
  cases c with
  | joinGroup g' m referrer => exact absurd ⟨(), t, h⟩ (joinGroup_fails hs)
  | removeMember g' m => exact absurd ⟨(), t, h⟩ (removeMember_fails hs)
  | mergeGroups g₁ g₂ =>
      obtain ⟨n, hn⟩ := quietly_ok.mp h
      by_cases hg : g = n
      · rw [hg, merge_roster hn, hs.rosters g₁, hs.rosters g₂]
        rfl
      · have hid := (mergeGroups_ok hn).1
        exact hsame (mergeGroups_frame hn (.grpMbrs g) (hid ▸ hg) (by simp))
  | _ => exact hsame (hagree.persistent (.grpMbrs g) (Place.other_kind rfl))

/-- A contribution needs a profile or a place in the roster. -/
theorem contributions_step (hs : Vacant s) (h : c.body env s = .ok () t) (g cycle : Nat)
    (a : Address) : t.persistent (.contrib g cycle a) = none := by
  cases hc : contributesTo c with
  | none => exact (call_sameBooks hs.order.rosters hc h _ (by simp [bookKinds])).trans (hs.contributions g cycle a)
  | some j =>
      obtain ⟨grp, -, -, hfiled⟩ := contribution_filed hc h
      by_contra hthere
      by_cases hg : g = j
      · subst hg
        rcases hfiled.filers hthere with hold | ⟨-, hprofile | hlisted⟩
        · exact hold (hs.contributions g cycle a)
        · exact hprofile (hs.profiles g a)
        · rw [hs.rosters g] at hlisted
          exact List.not_mem_nil hlisted
      · have hagree := Within.agree_ok (w := c.footprint) h
        refine hthere ((hagree.persistent _ ?_).trans (hs.contributions g cycle a))
        cases c with
        | contribute j' _ _ | contributeBatch j' _ _ | executeAutoContributions j'
        | contributeWithProof j' _ _ =>
            obtain rfl := Option.some.inj hc
            simp [hg]
        | _ => cases hc

/-- Nor pays out. -/
theorem payouts_step (hs : Vacant s) (h : c.body env s = .ok () t) (g cycle : Nat) :
    t.persistent (.payout g cycle) = none ∧ t.persistent (.payRecip g cycle) = none := by
  have hagree := Within.agree_ok (w := c.footprint) h
  have hsame : t.persistent (.payout g cycle) = s.persistent (.payout g cycle) →
      t.persistent (.payRecip g cycle) = s.persistent (.payRecip g cycle) →
      t.persistent (.payout g cycle) = none ∧ t.persistent (.payRecip g cycle) = none :=
    fun h₁ h₂ => ⟨h₁.trans (hs.payouts g cycle).1, h₂.trans (hs.payouts g cycle).2⟩
  cases c with
  | executePayout j =>
      by_cases hg : g = j
      · subst hg
        have hnot := executePayout_unpaid hs (Or.inl ⟨(), h⟩)
        exact hsame (hnot.payout cycle) (hnot.payRecip cycle)
      · exact hsame (hagree.persistent _ (by simp [hg])) (hagree.persistent _ (by simp [hg]))
  | tick j =>
      by_cases hg : g = j
      · subst hg
        obtain ⟨grp, v, -, -, -, ⟨-, rfl⟩ | ⟨-, hends⟩, rfl⟩ := tick_ok h
        · exact hsame (by simp) (by simp)
        · have hnot := executePayout_unpaid hs hends
          exact hsame (by simpa using hnot.payout cycle) (by simpa using hnot.payRecip cycle)
      · exact hsame (hagree.persistent _ (by simp [hg])) (hagree.persistent _ (by simp [hg]))
  | _ => exact hsame (hagree.persistent _ (Place.other_kind rfl)) (hagree.persistent _ (Place.other_kind rfl))

/-- **ONE CALL** leaves a vacant contract vacant. -/
theorem vacant_step (hs : Vacant s) (h : c.body env s = .ok () t) : Vacant t where
  order := (inOrder_step hs.order h).1
  registry := registry_step hs.registry h
  closed _ _ := closed_step hs h
  profiles := profiles_step hs h
  rosters := rosters_step hs h
  contributions := contributions_step hs h
  payouts := payouts_step hs h

/-- Vacancy is in the storage. -/
theorem Vacant.congr (hs : Vacant s) (h : t.persistent = s.persistent) : Vacant t := by
  refine ⟨hs.order.congr h, ⟨?_, ?_⟩, ?_, ?_, ?_, ?_, ?_⟩
  all_goals simp only [groupAt, statusAt, lastId, rosterAt, membersAt, h]
  · exact hs.registry.own
  · exact hs.registry.below
  · exact hs.closed
  · exact hs.profiles
  · exact hs.rosters
  · exact hs.contributions
  · exact hs.payouts

/-- Every step keeps it. -/
theorem vacant_apply (x : Step) (s : State) (hs : Vacant s) : Vacant (apply x s) :=
  apply_invariant (C := fun _ _ => True) (fun _ _ _ _ _ hs h => vacant_step hs h)
    (fun _ hs => hs.congr rfl) (fun _ _ hs => hs.congr rfl) x s trivial hs

end Step

/-- And it begins so. -/
theorem vacant_deployed (l : Ledger) : Vacant (deployed l) where
  order := inOrder_deployed l
  registry := registry_deployed l
  closed g grp h := by
    have hnone : groupAt (deployed l) g = none := rfl
    rw [hnone] at h
    cases h
  profiles _ _ := rfl
  rosters _ := rfl
  contributions _ _ _ := rfl
  payouts _ _ := ⟨rfl, rfl⟩

/-- **NOBODY EVER GETS IN**: after any run from deployment, with any calls by anyone, no
    group has a member, a contribution or a payout, none is started, and `join_group` fails
    for every group and everybody. -/
theorem nobody_gets_in (l : Ledger) (steps : List Step) :
    (∀ g a, (run steps (deployed l)).persistent (.mbrProf g a) = none) ∧
      (∀ g c a, (run steps (deployed l)).persistent (.contrib g c a) = none) ∧
      (∀ g c, (run steps (deployed l)).persistent (.payout g c) = none) ∧
      (∀ g grp, groupAt (run steps (deployed l)) g = some grp →
        grp.memberCount = 0 ∧ grp.started = false) ∧
      ∀ env g a referrer, ¬ Succeeds (joinGroup g a referrer) env (run steps (deployed l)) := by
  have hs : Vacant (run steps (deployed l)) :=
    exec_invariant_always vacant_apply (vacant_deployed l) steps
  exact ⟨hs.profiles, hs.contributions, fun g c => (hs.payouts g c).1,
    fun g grp hgrp => ⟨(hs.closed g grp hgrp).empty, (hs.closed g grp hgrp).idle⟩,
    fun _ _ _ _ => joinGroup_fails hs⟩

end SaveVacant
