import StellarSave.MergeProofs
import StellarSave.StandingProofs
import StellarSave.BallotProofs

/-! # The record — every way it is rewritten

    A group's record is read whole, changed in a few fields and written back.
    ONE table says which call changes which fields of the record; that a field
    never changes, or changes in one direction only, is then read off the table
    without looking at a single call. -/

namespace SaveRecord

open HostProg Footprint TokenLedger SaveData SavePayout SaveRefund SaveMembership SaveLifecycle
open SaveAdmin SaveCall SaveStatus SaveStanding SaveBallot SaveRoster SaveMerge Trace

/-- **THE TABLE**: what the calls on `g` that write its record make of it. -/
inductive Rewrites (g : Nat) (grp : SaveData.Group) : Call → SaveData.Group → Prop
  | update (n : Int) (d m : Nat) : Rewrites g grp (.updateGroup g n d m)
      { grp with contributionAmount := n, cycleDuration := d, maxMembers := m }
  | metadata (a : Address) (name description imageUrl : String) :
      Rewrites g grp (.updateGroupMetadata g a name description imageUrl)
        { grp with name := some name, description := some description, imageUrl := some imageUrl }
  | amount (a : Address) (n : Int) : Rewrites g grp (.voteContributionChange g a)
      { grp with contributionAmount := n }
  | invitation (b : Bool) : Rewrites g grp (.setInvitationOnly g b) { grp with invitationOnly := b }
  | proof (b : Bool) : Rewrites g grp (.setContributionProofRequired g b)
      { grp with requireContributionProof := b }
  | dynamic (b : Bool) : Rewrites g grp (.setDynamicContributions g b)
      { grp with allowDynamicContributions := b }
  | archive (a : Address) : Rewrites g grp (.archiveGroup a g) { grp with archived := true }
  | activate (a : Address) (time : Nat) : Rewrites g grp (.activateGroup g a)
      { grp with started := true, startedAt := time, status := .active, isActive := true }
  | pause (a : Address) : Rewrites g grp (.pauseGroup g a)
      { grp with paused := true, status := .paused }
  | resume (a : Address) : Rewrites g grp (.resumeGroup g a)
      { grp with paused := false, status := .active }
  | dispute (a : Address) (reason : String) : Rewrites g grp (.raiseDispute g a reason)
      { grp with disputeActive := true, paused := true, status := .paused }
  | resolve (a : Address) : Rewrites g grp (.resolveDispute g a)
      { grp with disputeActive := false, paused := false, status := .active }
  | dissolve (a : Address) : Rewrites g grp (.voteDissolve g a)
      { grp with status := .cancelled, isActive := false }
  | payout : Rewrites g grp (.executePayout g) { grp.advanced with payoutInProgress := false }
  | tick : Rewrites g grp (.tick g) grp.advanced
  | advance : Rewrites g grp (.tryAdvanceCycle g) grp.advanced
  | join (m : Address) (referrer : Option Address) : Rewrites g grp (.joinGroup g m referrer)
      { grp with memberCount := grp.memberCount + 1 }
  | remove (m : Address) : Rewrites g grp (.removeMember g m)
      { grp with memberCount := grp.memberCount - 1 }

/-- A record that has just been made. -/
def Newborn (g : Nat) (grp : SaveData.Group) : Prop :=
  ∃ creator amount duration maxMembers minMembers time grace order count,
    grp = { Group.fresh g creator amount duration maxMembers minMembers time grace false 0 with
      payoutOrder := order, memberCount := count }

/-- From the record of `g` in `s` to the one in `t`. -/
def RecordStep (c : Call) (s t : State) (g : Nat) : Prop :=
  ∀ grp', groupAt t g = some grp' →
    (∃ grp, groupAt s g = some grp ∧ (grp' = grp ∨ Rewrites g grp c grp')) ∨
      (g = lastId s + 1 ∧ Newborn g grp')

section Step

variable {env : Env} {s t : State} {c : Call} {g : Nat} {grp grp' : SaveData.Group}

theorem RecordStep.of_same (h : t.persistent (.grp g) = s.persistent (.grp g)) :
    RecordStep c s t g := by
  intro grp hgrp
  exact Or.inl ⟨grp, (readAt_congr h).symm.trans hgrp, Or.inl rfl⟩

theorem RecordStep.of_rewrite (hgrp : groupAt s g = some grp) (hgrp' : groupAt t g = some grp')
    (h : Rewrites g grp c grp') : RecordStep c s t g := by
  intro grp'' hgrp''
  obtain rfl := Option.some.inj (hgrp'.symm.trans hgrp'')
  exact Or.inl ⟨grp, hgrp, Or.inr h⟩

theorem RecordStep.of_birth (hg : g = lastId s + 1) (hgrp' : groupAt t g = some grp')
    (h : Newborn g grp') : RecordStep c s t g := by
  intro grp'' hgrp''
  obtain rfl := Option.some.inj (hgrp'.symm.trans hgrp'')
  exact Or.inr ⟨hg, h⟩

/-- Setting the payout mark, or taking it away, commutes with the advance. -/
theorem advanced_marked (grp : SaveData.Group) :
    { (marked grp).advanced with payoutInProgress := false }
      = { grp.advanced with payoutInProgress := false } := by
  rw [Group.advanced, Group.advanced]
  by_cases h : ({ grp with currentCycle := grp.currentCycle + 1 } : SaveData.Group).isComplete
  · have h' : ({ marked grp with currentCycle := (marked grp).currentCycle + 1 } :
        SaveData.Group).isComplete := h
    rw [if_pos h, if_pos h']
  · have h' : ¬ ({ marked grp with currentCycle := (marked grp).currentCycle + 1 } :
        SaveData.Group).isComplete := h
    rw [if_neg h, if_neg h']

/-- The calls that edit settings. -/
theorem edited_rewritten (hc : editedGroup c = some g) (h : c.body env s = .ok () t) :
    RecordStep c s t g := by
  cases c with
  | updateGroup g' n d m =>
      obtain rfl := Option.some.inj hc
      simp only [Call.body, updateGroup, getOr_bind_ok, requireAuth_bind_ok, getD_bind_ok,
        failIf_bind_ok, getOpt_bind_ok] at h
      obtain ⟨grp, hgrp, -, -, -, -, h⟩ := h
      obtain ⟨⟨⟩, v, hcheck, hput⟩ := bind_ok.mp h
      obtain rfl := Within.eq_of_ok hcheck
      obtain rfl := put_ok.mp hput
      exact .of_rewrite hgrp (by simp [groupAt]) (.update n d m)
  | updateGroupMetadata g' a name description imageUrl =>
      obtain rfl := Option.some.inj hc
      simp only [Call.body, updateGroupMetadata, getOr_bind_ok, requireAuth_bind_ok,
        failIf_bind_ok] at h
      obtain ⟨-, grp, hgrp, -, -, h⟩ := h
      obtain ⟨⟨⟩, v, hname, h₁⟩ := bind_ok.mp h
      obtain rfl := Within.eq_of_ok hname
      obtain ⟨⟨⟩, v', htext, hput⟩ := bind_ok.mp h₁
      obtain rfl := Within.eq_of_ok htext
      obtain rfl := put_ok.mp hput
      exact .of_rewrite hgrp (by simp [groupAt]) (.metadata a name description imageUrl)
  | setInvitationOnly g' b =>
      obtain rfl := Option.some.inj hc
      simp [Call.body, setInvitationOnly, loadPendingAsCreator] at h
      obtain ⟨grp, hgrp, -, -, -, rfl⟩ := h
      exact .of_rewrite hgrp (by simp [groupAt]) (.invitation b)
  | setContributionProofRequired g' b =>
      obtain rfl := Option.some.inj hc
      simp [Call.body, setContributionProofRequired] at h
      obtain ⟨grp, hgrp, -, rfl⟩ := h
      exact .of_rewrite hgrp (by simp [groupAt]) (.proof b)
  | setDynamicContributions g' b =>
      obtain rfl := Option.some.inj hc
      simp [Call.body, setDynamicContributions] at h
      obtain ⟨grp, hgrp, -, -, rfl⟩ := h
      exact .of_rewrite hgrp (by simp [groupAt]) (.dynamic b)
  | archiveGroup a g' =>
      obtain rfl := Option.some.inj hc
      simp [Call.body, archiveGroup] at h
      obtain ⟨-, grp, hgrp, -, -, -, -, rfl⟩ := h
      exact .of_rewrite hgrp (by simp [groupAt]) (.archive a)
  | voteContributionChange g' a =>
      obtain rfl := Option.some.inj hc
      obtain ⟨grp, n, hopen, ⟨-, -, rfl⟩ | ⟨-, rfl⟩⟩ := voteContributionChange_ok.mp h
      · exact .of_rewrite hopen.group (by simp [changed, groupAt]) (.amount a n)
      · exact .of_same (by simp [tallied])
  | _ => cases hc

/-- The calls that change the status and the flags beside it. -/
theorem relabelled_rewritten (hreg : Registry s) (hc : relabelledGroup c = some g)
    (h : c.body env s = .ok () t) : RecordStep c s t g := by
  cases c with
  | activateGroup g' a =>
      obtain rfl := Option.some.inj hc
      obtain ⟨grp, hgrp, -, -, -, -, rfl⟩ := activateGroup_ok h
      exact .of_rewrite hgrp (by simp [groupAt]) (.activate a env.timestamp)
  | pauseGroup g' a =>
      obtain rfl := Option.some.inj hc
      obtain ⟨grp, hgrp, -, -, -, rfl⟩ := switchPause_ok h
      obtain rfl := hreg.own g' grp hgrp
      exact .of_rewrite hgrp (by simp [groupAt]) (.pause a)
  | resumeGroup g' a =>
      obtain rfl := Option.some.inj hc
      obtain ⟨grp, hgrp, -, -, -, rfl⟩ := switchPause_ok h
      obtain rfl := hreg.own g' grp hgrp
      exact .of_rewrite hgrp (by simp [groupAt]) (.resume a)
  | raiseDispute g' a reason =>
      obtain rfl := Option.some.inj hc
      simp only [Call.body, raiseDispute, requireAuth_bind_ok, getOr_bind_ok, has_bind_ok,
        failIf_bind_ok, put_bind_ok] at h
      obtain ⟨-, grp, hgrp, -, -, h⟩ := h
      obtain ⟨⟨⟩, v, hreason, h₁⟩ := bind_ok.mp h
      have hv : v.persistent (.grp g') = s.persistent (.grp g') :=
        ((Within.agree_ok (w := scope [.of .grpDspR g'] False False) hreason).persistent _
          (by simp)).trans (by simp)
      simp at h₁
      obtain ⟨-, -, -, ⟨-, rfl⟩ | ⟨-, rfl⟩⟩ := h₁
      · exact .of_rewrite hgrp (by simp [groupAt]) (.dispute a reason)
      · exact .of_same (by simp [hv])
  | resolveDispute g' a =>
      obtain rfl := Option.some.inj hc
      simp only [Call.body, resolveDispute, requireAuth_bind_ok, getOr_bind_ok, failIf_bind_ok,
        put_bind_ok, del_bind_ok, getOpt_bind_ok] at h
      obtain ⟨-, grp, hgrp, -, -, -, hloop⟩ := h
      have hv := (Within.agree_ok (w := scope [.of .grpDspV g'] False False) hloop).persistent
        (.grp g') (by simp)
      exact .of_rewrite hgrp (by rw [groupAt, readAt_congr hv]; simp) (.resolve a)
  | voteDissolve g' a =>
      obtain rfl := Option.some.inj hc
      obtain ⟨grp, hgrp, -, ⟨-, config, -, hloop⟩ | ⟨-, rfl⟩⟩ := voteDissolve_ok h
      · have hv := (Within.agree_ok (w := scope [.of .refund g'] False True) hloop).persistent
          (.grp g') (by simp)
        exact .of_rewrite hgrp (by rw [groupAt, readAt_congr hv]; simp [dissolved]) (.dissolve a)
      · exact .of_same (by simp [voted])
  | _ => cases hc

/-- A pause or its end writes the record under the id it carries. -/
theorem switchPause_other {source target : GroupStatus} {p : Bool} {a : Address} {u : Unit}
    {j : Nat} (hreg : Registry s) (h : switchPause g a source target p env s = .ok u t)
    (hj : j ≠ g) : t.persistent (.grp j) = s.persistent (.grp j) := by
  obtain ⟨grp, hgrp, -, -, -, rfl⟩ := switchPause_ok h
  obtain rfl := hreg.own g grp hgrp
  simp [hj]

/-- **EVERY RECORD COMES FROM THE TABLE**: it is the old one, or what the call
    makes of the old one, or has just been made. -/
theorem record_rewritten (hreg : Registry s) (h : c.body env s = .ok () t) (g : Nat) :
    RecordStep c s t g := by
  have hagree := Within.agree_ok (w := c.footprint) h
  -- the calls left over do not write the record
  cases c with
  | createGroup creator amount duration maxMembers tok grace order =>
      obtain ⟨n, hn⟩ := quietly_ok.mp h
      obtain ⟨-, rounded, decimals, l, rfl⟩ := createGroup_ok hn
      by_cases hg : g = lastId s + 1
      · subst hg
        have hgrp : groupAt (created s (createdGroup s creator rounded duration maxMembers
            env.timestamp grace order) ⟨tok, decimals⟩) (lastId s + 1)
            = some (createdGroup s creator rounded duration maxMembers env.timestamp grace order) := by
          simp [created, groupAt]
        exact .of_birth rfl hgrp ⟨_, _, _, _, _, _, _, order, 0, rfl⟩
      · exact .of_same (by simp [created, hg])
  | cloneGroup caller g' o =>
      obtain ⟨n, hn⟩ := quietly_ok.mp h
      obtain ⟨rfl, amount, duration, maxMembers, minMembers, grace, config, rfl⟩ := cloneGroup_ok hn
      by_cases hg : g = lastId s + 1
      · subst hg
        refine .of_birth rfl (by simp [created, groupAt]; rfl) ?_
        exact ⟨_, _, _, _, _, _, _, .sequential, 0, rfl⟩
      · exact .of_same (by simp [created, hg])
  | mergeGroups g₁ g₂ =>
      obtain ⟨n, hn⟩ := quietly_ok.mp h
      obtain ⟨grp₁, grp₂, -, -, hgrp⟩ := merge_group hn
      obtain rfl := (mergeGroups_ok hn).1
      by_cases hg : g = lastId s + 1
      · subst hg
        exact .of_birth rfl hgrp ⟨_, _, _, _, _, _, _, .sequential, _, rfl⟩
      · exact .of_same (mergeGroups_frame hn (.grp g) hg (by simp))
  | executePayout g' =>
      by_cases hg : g = g'
      · subst hg
        obtain ⟨grp, recipient, amount, v, config, l, hp, rfl⟩ := executePayout_ok.mp h
        refine .of_rewrite hp.group ?_ .payout
        rw [← advanced_marked]
        simp [groupAt, paidState]
      · exact .of_same (executePayout_groups (hreg.own g') (Or.inl ⟨(), h⟩) hg)
  | tick g' =>
      by_cases hg : g = g'
      · subst hg
        obtain ⟨grp, v, hgrp, -, -, -, rfl⟩ := tick_ok h
        exact .of_rewrite hgrp (by simp [groupAt]) .tick
      · exact .of_same (tick_groups hreg h hg)
  | tryAdvanceCycle g' =>
      by_cases hg : g = g'
      · subst hg
        obtain ⟨b, hb⟩ := quietly_ok.mp h
        obtain ⟨grp, hgrp, -, -, -, ⟨-, rfl⟩ | ⟨-, rfl⟩⟩ := tryAdvanceCycle_ok hb
        · exact .of_same rfl
        · exact .of_rewrite hgrp (by simp [groupAt]) .advance
      · exact .of_same (hagree.persistent (.grp g) (by simp [hg]))
  | joinGroup g' member referrer =>
      by_cases hg : g = g'
      · subst hg
        obtain ⟨grp, hopen, rfl⟩ := joinGroup_ok h
        exact .of_rewrite hopen.group (joined_views member grp env.timestamp referrer).1
          (.join member referrer)
      · exact .of_same (hagree.persistent (.grp g) (by simp [hg]))
  | removeMember g' a =>
      by_cases hg : g = g'
      · subst hg
        obtain ⟨grp, profile, hopen, rfl⟩ := removeMember_ok h
        exact .of_rewrite hopen.group (by simp [removed, groupAt]) (.remove a)
      · exact .of_same (hagree.persistent (.grp g) (by simp [hg]))
  | deleteGroup g' =>
      by_cases hg : g = g'
      · intro grp hgrp
        rw [tagAt_eq_none.mp (((deleteGroup_moves h).tags g).trans (if_pos hg))] at hgrp
        cases hgrp
      · exact .of_same (hagree.persistent (.grp g) (by simp [hg]))
  | pauseGroup g' a | resumeGroup g' a =>
      by_cases hg : g = g'
      · subst hg
        exact relabelled_rewritten hreg rfl h
      · exact .of_same (switchPause_other hreg h hg)
  | activateGroup g' a | raiseDispute g' a reason | resolveDispute g' a | voteDissolve g' a =>
      by_cases hg : g = g'
      · subst hg
        exact relabelled_rewritten hreg rfl h
      · exact .of_same (hagree.persistent (.grp g) (by simp [hg]))
  | updateGroup g' n d m | updateGroupMetadata g' a name description imageUrl
  | setInvitationOnly g' b | setContributionProofRequired g' b | setDynamicContributions g' b
  | archiveGroup a g' | voteContributionChange g' a =>
      by_cases hg : g = g'
      · subst hg
        exact edited_rewritten rfl h
      · exact .of_same (hagree.persistent (.grp g) (by simp [hg]))
  | _ => exact .of_same (hagree.persistent (.grp g) (Place.other_kind rfl))

/-- The table has no line that takes a cycle back. -/
theorem rewrites_cycle (h : Rewrites g grp c grp') : grp.currentCycle ≤ grp'.currentCycle := by
  cases h with
  | payout | tick | advance =>
      simp only [Group.advanced_currentCycle]
      omega
  | _ => exact Nat.le_refl _

end Step

/-! ## Members

    Who has a profile changes by joining, by being removed and by withdrawing. -/

/-- The call brings `a` into the group. -/
def Enters (g : Nat) (a : Address) : Call → Prop
  | .joinGroup g' m _ => g' = g ∧ m = a
  | _ => False

/-- The call takes `a` out of the group. -/
def Quits (g : Nat) (a : Address) : Call → Prop
  | .removeMember g' m | .emergencyWithdraw g' m => g' = g ∧ m = a
  | _ => False

section Members

variable {env : Env} {s t : State} {c : Call} {g : Nat} {a : Address}

/-- Writing a profile over a profile makes nobody a member. -/
theorem stored_set_profile {g' : Nat} {m : Address} {profile profile' : MemberProfile}
    (hprofile : profileAt s g' m = some profile) :
    (s.set (.mbrProf g' m) (Codec.encode profile')).persistent (.mbrProf g a) ≠ none ↔
      s.persistent (.mbrProf g a) ≠ none := by
  by_cases hkey : Key.mbrProf g a = .mbrProf g' m
  · rw [hkey, (readAt_eq_some _ _ _).mp hprofile]
    simp
  · rw [HostState.set_persistent, if_neg hkey]

/-- Dealing out positions rewrites the profiles of members. -/
theorem dealt_members {positions : List Nat} {xs : List Address} {i n : Nat} {g' : Nat}
    (h : foldEach (assignPosition g' positions) i xs env s = .ok n t) :
    t.persistent (.mbrProf g a) ≠ none ↔ s.persistent (.mbrProf g a) ≠ none := by
  refine foldEach_invariant (I := fun _ v => v.persistent (.mbrProf g a) ≠ none ↔
    s.persistent (.mbrProf g a) ≠ none) ?_ Iff.rfl h
  intro m _ j v j' v' hv hstep
  obtain ⟨p, -, profile, hprofile, -, rfl⟩ := assignPosition_ok.mp hstep
  refine Iff.trans ?_ hv
  simpa using stored_set_profile hprofile

/-- **WHO IS A MEMBER** after a call: whoever was and did not quit, and whoever
    entered. -/
theorem member_step (h : c.body env s = .ok () t) (hissued : g ≤ lastId s) (a : Address) :
    t.persistent (.mbrProf g a) ≠ none ↔
      Enters g a c ∨ (s.persistent (.mbrProf g a) ≠ none ∧ ¬ Quits g a c) := by
  have hagree := Within.agree_ok (w := c.footprint) h
  have hnew : g ≠ lastId s + 1 := by omega
  have hsame : t.persistent (.mbrProf g a) = s.persistent (.mbrProf g a) → ¬ Enters g a c →
      ¬ Quits g a c → (t.persistent (.mbrProf g a) ≠ none ↔
        Enters g a c ∨ (s.persistent (.mbrProf g a) ≠ none ∧ ¬ Quits g a c)) := by
    intro he henters hquits
    rw [he]
    exact ⟨fun hm => Or.inr ⟨hm, hquits⟩, fun hm => (hm.resolve_left henters).1⟩
  cases c with
  | mergeGroups g₁ g₂ =>
      obtain ⟨n, hn⟩ := quietly_ok.mp h
      exact hsame (mergeGroups_frame hn _ hnew (by simp)) id id
  | joinGroup g' m referrer =>
      by_cases hkey : g' = g ∧ m = a
      · obtain ⟨rfl, rfl⟩ := hkey
        obtain ⟨grp, -, rfl⟩ := joinGroup_ok h
        refine iff_of_true ?_ (Or.inl ⟨rfl, rfl⟩)
        rw [joined, noteReferrer_persistent (by simp)]
        simp
      · refine hsame ?_ hkey id
        obtain ⟨grp, -, rfl⟩ := joinGroup_ok h
        rw [joined, noteReferrer_persistent (by simp)]
        have hne : ¬ (g = g' ∧ a = m) := fun he => hkey ⟨he.1.symm, he.2.symm⟩
        simp [hne]
  | removeMember g' m =>
      obtain ⟨grp, profile, -, rfl⟩ := removeMember_ok h
      by_cases hkey : g' = g ∧ m = a
      · obtain ⟨rfl, rfl⟩ := hkey
        exact iff_of_false (by simp [removed]) fun he => he.elim id fun hm => hm.2 ⟨rfl, rfl⟩
      · refine hsame ?_ id hkey
        have hne : ¬ (g = g' ∧ a = m) := fun he => hkey ⟨he.1.symm, he.2.symm⟩
        simp [removed, hne]
  | emergencyWithdraw g' m =>
      have hgone : t.persistent (.mbrProf g' m) = none ∧
          (¬ (g' = g ∧ m = a) → t.persistent (.mbrProf g a) = s.persistent (.mbrProf g a)) := by
        obtain ⟨grp, total, received, -, ⟨-, -, config, l, -, -, rfl⟩ | ⟨-, rfl⟩⟩ :=
          emergencyWithdraw_ok h
        all_goals
          refine ⟨by simp, fun hkey => ?_⟩
          have hne : ¬ (g = g' ∧ a = m) := fun he => hkey ⟨he.1.symm, he.2.symm⟩
          simp [hne]
      by_cases hkey : g' = g ∧ m = a
      · obtain ⟨rfl, rfl⟩ := hkey
        exact iff_of_false (fun hm => hm hgone.1) fun he => he.elim id fun hm => hm.2 ⟨rfl, rfl⟩
      · exact hsame (hgone.2 hkey) id hkey
  | assignPayoutPositions g' b mode =>
      obtain ⟨-, positions, v, n, -, -, hv, hloop⟩ := assignPayoutPositions_ok h
      have hdealt := dealt_members (g := g) (a := a) hloop
      rw [hv (.mbrProf g a) (by simp)] at hdealt
      simpa [Enters, Quits] using hdealt
  | enableAutoContribute g' m =>
      obtain ⟨profile, -, hprofile, rfl | rfl⟩ := enableAutoContribute_ok h
      · simpa [Enters, Quits] using stored_set_profile hprofile
      · exact hsame rfl id id
  | disableAutoContribute g' m =>
      obtain ⟨profile, -, hprofile, rfl | rfl⟩ := disableAutoContribute_ok h
      · simpa [Enters, Quits] using stored_set_profile hprofile
      · exact hsame rfl id id
  | _ => exact hsame (hagree.persistent (.mbrProf g a) (Place.other_kind rfl)) id id

end Members

end SaveRecord
