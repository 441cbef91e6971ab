import StellarSave.ViewProofs
import StellarSave.RosterProofs

/-! # The index — which groups a member is told about

    `list_groups_by_member` answers from an entry under the USER's key.  The
    members themselves are under the group's keys, and every operation that adds
    or drops one writes there and nowhere else: the user's entry is read by one
    view and written by nobody. -/

namespace SaveIndex

open HostProg Footprint TokenLedger SaveData SaveCall SaveView SaveRoster SaveMembership Trace

/-- The answer lists each group of the member once and nothing else. -/
def IndexExact (env : Env) (s : State) (member : Address) : Prop :=
  ∃ ids, listGroupsByMember member env s = .ok ids s ∧ ids.Nodup ∧
    ∀ g, ⟨g⟩ ∈ ids ↔ isMember g member env s = .ok true s

/-- The member is in none of the groups there are. -/
def Groupless (s : State) (member : Address) : Prop :=
  ∀ g, (∃ grp, groupAt s g = some grp) → s.persistent (.mbrProf g member) = none

variable {env : Env} {s : State} {member : Address}

theorem groupless_iff :
    Groupless s member ↔ ∀ g, isMember g member env s ≠ .ok true s := by
  constructor
  · intro hnone g hmember
    obtain ⟨⟨hgrp, hprofile⟩, -⟩ := isMember_ok.mp hmember
    rw [hnone g hgrp] at hprofile
    cases hprofile
  · intro hnone g hgrp
    by_contra hprofile
    exact hnone g (isMember_ok.mpr ⟨⟨hgrp, Option.isSome_iff_ne_none.mpr hprofile⟩, rfl⟩)

/-- **NOBODY WRITES THE INDEX**. -/
theorem index_frozen (steps : List Step) (s : State) (member : Address) :
    (run steps s).persistent (.usrGrps member) = s.persistent (.usrGrps member) :=
  exec_frozen (f := fun t => t.persistent (.usrGrps member))
    (persistent_apply fun c => by cases c <;> exact Place.other_kind rfl) steps s

/-- An entry that was never written reads as no groups at all. -/
theorem exact_iff_of_absent (h : s.persistent (.usrGrps member) = none) :
    IndexExact env s member ↔ Groupless s member := by
  have hread : listGroupsByMember member env s = .ok [] s :=
    listGroupsByMember_ok.mpr ⟨⟨typedAt_of_none h, by rw [readAt, h]; rfl⟩, rfl⟩
  rw [show Groupless s member ↔ ∀ g, isMember g member env s ≠ .ok true s from groupless_iff]
  constructor
  · rintro ⟨ids, hids, -, hexact⟩ g hmember
    cases hread.symm.trans hids
    exact absurd ((hexact g).mpr hmember) List.not_mem_nil
  · intro hnone
    exact ⟨[], hread, List.nodup_nil, fun g => iff_of_false List.not_mem_nil (hnone g)⟩

/-- **THE INDEX IS RIGHT FOR NON-MEMBERS ONLY**: from a state in which nothing is
    stored under the user's key, after any steps at all, the answer is the list of
    the user's groups exactly when there are none. -/
theorem index_exact_iff (s : State) (member : Address)
    (hs : s.persistent (.usrGrps member) = none) (steps : List Step) (env : Env) :
    IndexExact env (run steps s) member ↔ Groupless (run steps s) member :=
  exact_iff_of_absent ((index_frozen steps s member).trans hs)

/-- **A MEMBER WITHOUT GROUPS**: somebody joins and is listed nowhere. -/
theorem joined_not_listed :
    openState.persistent (.usrGrps ⟨1⟩) = none ∧
      isMember 1 ⟨1⟩ trioEnv (run [.call trioEnv (.joinGroup 1 ⟨1⟩ none)] openState)
        = .ok true (run [.call trioEnv (.joinGroup 1 ⟨1⟩ none)] openState) ∧
      ¬ IndexExact trioEnv (run [.call trioEnv (.joinGroup 1 ⟨1⟩ none)] openState) ⟨1⟩ := by
  have hmember : isMember 1 ⟨1⟩ trioEnv (run [.call trioEnv (.joinGroup 1 ⟨1⟩ none)] openState)
      = .ok true (run [.call trioEnv (.joinGroup 1 ⟨1⟩ none)] openState) := rfl
  refine ⟨rfl, hmember, ?_⟩
  rintro ⟨ids, hids, -, hexact⟩
  obtain rfl : ids = [] := by cases hids; rfl
  exact absurd ((hexact 1).mpr hmember) List.not_mem_nil

/-- The theorem for somebody who has joined nothing. -/
theorem index_exact_iff_stranger :
    openState.persistent (.usrGrps ⟨9⟩) = none ∧
      IndexExact trioEnv (run [.call trioEnv (.joinGroup 1 ⟨1⟩ none)] openState) ⟨9⟩ := by
  refine ⟨rfl, (index_exact_iff openState ⟨9⟩ rfl [.call trioEnv (.joinGroup 1 ⟨1⟩ none)]
    trioEnv).mpr ?_⟩
  intro g _
  -- the only profile ever written is the newcomer's
  show (run [.call trioEnv (.joinGroup 1 ⟨1⟩ none)] openState).persistent (.mbrProf g ⟨9⟩) = none
  have hjoin : joinGroup 1 ⟨1⟩ none trioEnv openState = .ok () soloState := rfl
  have hrun : run [.call trioEnv (.joinGroup 1 ⟨1⟩ none)] openState = soloState := commit_of_ok hjoin
  obtain ⟨grp, -, ht⟩ := joinGroup_ok hjoin
  rw [hrun, ← ht]
  simp [joined, noteReferrer, openState, deployed]

end SaveIndex
