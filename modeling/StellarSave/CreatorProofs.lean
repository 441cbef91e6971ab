import StellarSave.MergeProofs
import StellarSave.StandingProofs

/-! # Creators — whose word changes a group

    Changing a group's terms, cancelling it, moving a member to another seat and
    storing a drawn order are the creator's to do, or the members' by vote.  Each
    of the entry points checks for itself who signed.  Two look elsewhere: a merge
    asks the creator of its FIRST group and cancels both, and drawing an order asks
    nobody. -/

namespace SaveCreator

open HostProg Footprint TokenLedger SaveData SaveMembership SaveLifecycle SaveRefund SaveAdmin
open SavePayout SaveCall SaveStatus SaveStanding SaveRoster SaveMerge Trace

/-- The parameters a group was set up with. -/
def terms (grp : SaveData.Group) : Int × Nat × Nat × Nat × Bool :=
  (grp.contributionAmount, grp.cycleDuration, grp.maxMembers, grp.minMembers, grp.invitationOnly)

/-- What happened to the group between the two states is for its creator to do. -/
inductive CreatorEffect (s t : State) (g : Nat) : Prop
  | terms {grp grp' : SaveData.Group} (hgrp : groupAt s g = some grp)
      (hgrp' : groupAt t g = some grp') (hne : terms grp' ≠ terms grp)
  | cancelled (hold : statusAt s g ≠ some .cancelled) (hnew : statusAt t g = some .cancelled)
  | recordCancelled {grp grp' : SaveData.Group} (hgrp : groupAt s g = some grp)
      (hgrp' : groupAt t g = some grp') (hold : grp.status ≠ .cancelled)
      (hnew : grp'.status = .cancelled)
  | seat {m : Address} (hm : s.persistent (.mbrProf g m) ≠ none)
      (hm' : t.persistent (.mbrProf g m) ≠ none)
      (hne : seatOf t g m ≠ seatOf s g m ∨ eligAt t g m ≠ eligAt s g m)
  | sequence (hne : t.persistent (.grpSeq g) ≠ s.persistent (.grpSeq g))

/-- The members' own decisions. -/
def Votes (g : Nat) : Call → Prop
  | .voteDissolve g' _ | .voteContributionChange g' _ => g' = g
  | _ => False

/-- A merge that takes the group in as its second. -/
def Absorbs (g : Nat) : Call → Prop
  | .mergeGroups _ g₂ => g₂ = g
  | _ => False

/-- The group whose creator a call asks for. -/
def creatorOf : Call → Option Nat
  | .updateGroup g _ _ _ | .updateGroupMetadata g _ _ _ _ | .assignPayoutPositions g _ _
  | .pauseGroup g _ | .resumeGroup g _ | .resolveDispute g _ | .cancelGroup g _
  | .setInvitationOnly g _ | .mergeGroups g _ | .deleteGroup g | .archiveGroup _ g
  | .removeMember g _ | .activateGroup g _ | .setContributionProofRequired g _
  | .setDynamicContributions g _ => some g
  | _ => none

section Asked

variable {env : Env} {s t : State} {c : Call} {g : Nat} {grp : SaveData.Group}

/-- **ASKED AND SIGNED**: a call that asks for a creator and ends well was signed
    by that creator. -/
theorem creator_signed (h : c.body env s = .ok () t) (hc : creatorOf c = some g) :
    ∃ grp, groupAt s g = some grp ∧ grp.creator ∈ env.signers := by
  cases c with
  | updateGroup g' amount duration maxMembers =>
      obtain rfl := Option.some.inj hc
      simp only [Call.body, updateGroup, getOr_bind_ok, requireAuth_bind_ok] at h
      obtain ⟨grp, hgrp, hsigned, -⟩ := h
      exact ⟨grp, hgrp, hsigned⟩
  -- these three ask for the creator's word and do nothing for a stranger
  | setContributionProofRequired g' b | setDynamicContributions g' b | deleteGroup g' =>
      obtain rfl := Option.some.inj hc
      simp only [Call.body, setContributionProofRequired, setDynamicContributions, deleteGroup,
        getOr_bind_ok, requireAuth_bind_ok] at h
      obtain ⟨grp, hgrp, hsigned, -⟩ := h
      exact ⟨grp, hgrp, hsigned⟩
  | setInvitationOnly g' b =>
      obtain rfl := Option.some.inj hc
      simp only [Call.body, setInvitationOnly, loadPendingAsCreator, bind_bind_ok, getOr_bind_ok,
        requireAuth_bind_ok] at h
      obtain ⟨grp, hgrp, hsigned, -⟩ := h
      exact ⟨grp, hgrp, hsigned⟩
  | updateGroupMetadata g' caller name description imageUrl =>
      obtain rfl := Option.some.inj hc
      simp only [Call.body, updateGroupMetadata, getOr_bind_ok, requireAuth_bind_ok,
        failIf_bind_ok] at h
      obtain ⟨hsigned, grp, hgrp, hcreator, -⟩ := h
      exact ⟨grp, hgrp, not_not.mp hcreator ▸ hsigned⟩
  | assignPayoutPositions g' caller mode | resolveDispute g' caller | archiveGroup caller g'
  | activateGroup g' caller =>
      obtain rfl := Option.some.inj hc
      simp only [Call.body, assignPayoutPositions, resolveDispute, archiveGroup, activateGroup,
        getOr_bind_ok, requireAuth_bind_ok, failIf_bind_ok] at h
      obtain ⟨hsigned, grp, hgrp, hcreator, -⟩ := h
      exact ⟨grp, hgrp, not_not.mp hcreator ▸ hsigned⟩
  -- the record is read before the word is asked for
  | pauseGroup g' caller | resumeGroup g' caller | cancelGroup g' caller =>
      obtain rfl := Option.some.inj hc
      simp only [Call.body, pauseGroup, resumeGroup, switchPause, cancelGroup, requireCreator,
        bind_bind_ok, getOr_bind_ok, requireAuth_bind_ok, failIf_bind_ok] at h
      obtain ⟨grp, hgrp, hsigned, hcreator, -⟩ := h
      exact ⟨grp, hgrp, not_not.mp hcreator ▸ hsigned⟩
  -- a merge asks the creator of the first group alone
  | mergeGroups g₁ g₂ =>
      obtain rfl := Option.some.inj hc
      obtain ⟨n, hn⟩ := quietly_ok.mp h
      obtain ⟨-, grp₁, grp₂, v, hopen, -⟩ := mergeGroups_ok hn
      exact ⟨grp₁, hopen.first, hopen.signed⟩
  | removeMember g' member =>
      obtain rfl := Option.some.inj hc
      obtain ⟨grp, profile, hopen, -⟩ := removeMember_ok h
      exact ⟨grp, hopen.group, hopen.signed⟩
  | _ => cases hc

/-- So without that signature the call is about some other group. -/
theorem creatorOf_ne (h : c.body env s = .ok () t) (hgrp : groupAt s g = some grp)
    (hunsigned : grp.creator ∉ env.signers) : creatorOf c ≠ some g := by
  intro hc
  obtain ⟨grp', hgrp', hsigned⟩ := creator_signed h hc
  obtain rfl := Option.some.inj (hgrp.symm.trans hgrp')
  exact hunsigned hsigned

end Asked

/-! ## The record -/

section Record

variable {env : Env} {s t : State} {c : Call} {g j : Nat} {grp grp' : SaveData.Group}

/-- The creator and the parameters are the same. -/
def SameTerms (grp grp' : SaveData.Group) : Prop :=
  grp'.creator = grp.creator ∧ terms grp' = terms grp

/-- A new cycle has the same terms. -/
theorem advanced_sameTerms (grp : SaveData.Group) : SameTerms grp grp.advanced := by
  rw [SameTerms, Group.advanced]
  by_cases h : ({ grp with currentCycle := grp.currentCycle + 1 } : SaveData.Group).isComplete
  · rw [if_pos h]
    exact ⟨rfl, rfl⟩
  · rw [if_neg h]
    exact ⟨rfl, rfl⟩

/-- So has another label. -/
theorem relabelled_sameTerms (h : Relabelled grp grp') : SameTerms grp grp' := by
  obtain ⟨status, active, halted, disputed, started, startedAt, rfl, -⟩ := h
  exact ⟨rfl, rfl⟩

/-- The record of `j` is still there, with the same terms. -/
def KeepsTermsAt (s t : State) (j : Nat) : Prop :=
  ∀ grp, groupAt s j = some grp → ∃ grp', groupAt t j = some grp' ∧ SameTerms grp grp'

/-- A call that leaves the record alone keeps them. -/
theorem KeepsTermsAt.of_same (h : t.persistent (.grp j) = s.persistent (.grp j)) :
    KeepsTermsAt s t j := by
  intro grp hgrp
  exact ⟨grp, (readAt_congr h).trans hgrp, rfl, rfl⟩

/-- So does one that writes a record with them. -/
theorem KeepsTermsAt.of_rewrite (hgrp : groupAt s j = some grp) (hgrp' : groupAt t j = some grp')
    (h : SameTerms grp grp') : KeepsTermsAt s t j := by
  intro grp₁ h₁
  cases hgrp.symm.trans h₁
  exact ⟨grp', hgrp', h⟩

/-- So does one that relabels. -/
theorem relabels_keepsTerms (h : RelabelsAt s t j) : KeepsTermsAt s t j := by
  rcases h with hsame | ⟨grp, grp', hgrp, hgrp', hlabel⟩
  · exact .of_same hsame
  · exact .of_rewrite hgrp hgrp' (relabelled_sameTerms hlabel)

/-- So does one that goes on to the next cycle. -/
theorem tryAdvanceCycle_keepsTerms {b : Bool} (h : tryAdvanceCycle g env s = .ok b t) :
    KeepsTermsAt s t g := by
  obtain ⟨grp, hgrp, -, -, -, ⟨-, rfl⟩ | ⟨-, rfl⟩⟩ := tryAdvanceCycle_ok h
  · exact .of_same rfl
  · exact .of_rewrite hgrp (by simp [groupAt]) (advanced_sameTerms grp)

/-- **THE TERMS STAND** under every call that the creator did not sign and the
    members did not vote on. -/
theorem terms_step (hreg : Registry s) (h : c.body env s = .ok () t) (hissued : g ≤ lastId s)
    (hc : creatorOf c ≠ some g) (hvote : ¬ Votes g c) : KeepsTermsAt s t g := by
  have hagree := Within.agree_ok (w := c.footprint) h
  have hnew : g ≠ lastId s + 1 := by omega
  cases c with
  | createGroup creator amount duration maxMembers tok grace order =>
      exact .of_same (creates_groups h trivial hnew)
  | cloneGroup caller g' o => exact .of_same (creates_groups h trivial hnew)
  | mergeGroups g₁ g₂ =>
      obtain ⟨n, hn⟩ := quietly_ok.mp h
      exact .of_same (mergeGroups_frame hn (.grp g) hnew (by simp))
  -- the label may change, the terms do not
  | activateGroup g' a | pauseGroup g' a | resumeGroup g' a | raiseDispute g' a reason
  | resolveDispute g' a | voteDissolve g' a =>
      exact relabels_keepsTerms (call_relabels hreg (by simp [relabelledGroup]) h g)
  -- a payout stores the record it read, with the cycle advanced
  | executePayout g' =>
      by_cases hg : g = g'
      · subst hg
        obtain ⟨grp, recipient, amount, v, config, l, hp, rfl⟩ := executePayout_ok.mp h
        have hafter : groupAt (paidState v g grp recipient amount env.timestamp l) g
            = some { (marked grp).advanced with payoutInProgress := false } := by
          simp [groupAt, paidState]
        exact .of_rewrite hp.group hafter (advanced_sameTerms (marked grp))
      · exact .of_same (executePayout_groups (hreg.own g') (Or.inl ⟨(), h⟩) hg)
  | tick g' =>
      by_cases hg : g = g'
      · subst hg
        obtain ⟨grp, v, hgrp, -, -, -, rfl⟩ := tick_ok h
        exact .of_rewrite hgrp (by simp [groupAt]) (advanced_sameTerms grp)
      · exact .of_same (tick_groups hreg h hg)
  | tryAdvanceCycle g' =>
      by_cases hg : g = g'
      · subst hg
        obtain ⟨b, hb⟩ := quietly_ok.mp h
        exact tryAdvanceCycle_keepsTerms hb
      · exact .of_same (hagree.persistent (.grp g) (by simp [hg]))
  | joinGroup g' member referrer =>
      by_cases hg : g = g'
      · subst hg
        obtain ⟨grp, hopen, rfl⟩ := joinGroup_ok h
        exact .of_rewrite hopen.group (joined_views member grp env.timestamp referrer).1 ⟨rfl, rfl⟩
      · exact .of_same (hagree.persistent (.grp g) (by simp [hg]))
  | voteContributionChange g' member =>
      have hg : g ≠ g' := fun he => hvote he.symm
      exact .of_same (hagree.persistent (.grp g) (by simp [hg]))
  -- the calls of the creator are excluded by the hypothesis
  | updateGroup g' a b d | updateGroupMetadata g' a name b d | setInvitationOnly g' b
  | deleteGroup g' | archiveGroup a g' | removeMember g' a | setContributionProofRequired g' b
  | setDynamicContributions g' b =>
      have hg : g ≠ g' := fun he => hc (congrArg some he.symm)
      exact .of_same (hagree.persistent (.grp g) (by simp [hg]))
  | _ => exact .of_same (hagree.persistent (.grp g) (Place.other_kind rfl))

/-- The record of `j` has not become cancelled. -/
def NotCancelledAt (s t : State) (j : Nat) : Prop :=
  ∀ grp grp', groupAt s j = some grp → groupAt t j = some grp' →
    grp'.status = .cancelled → grp.status = .cancelled

/-- A group whose status key stays is not cancelled by the call. -/
theorem notCancelled_of_tag (h : tagAt t j = tagAt s j) : NotCancelledAt s t j := by
  intro grp grp' hgrp hgrp' hcancelled
  rw [tagAt, tagAt, hgrp, hgrp', Option.map_some, Option.map_some, Option.some.injEq] at h
  rw [← (Prod.mk.inj h).2]
  exact hcancelled

/-- Nor is one whose status goes somewhere else. -/
theorem notCancelled_of_moves {r k : Option GroupStatus} (h : Moves s t g r k)
    (hr : j = g → ∀ grp, groupAt s j = some grp → r = some .cancelled → grp.status = .cancelled) :
    NotCancelledAt s t j := by
  by_cases hj : j = g
  · intro grp grp' hgrp hgrp' hcancelled
    have htag := h.tags j
    rw [if_pos hj, tagAt, hgrp', Option.map_some] at htag
    cases r with
    | none => cases htag
    | some st =>
        obtain ⟨-, hst⟩ := Prod.mk.inj (Option.some.inj htag)
        exact hr hj grp hgrp (congrArg some (hst.symm.trans hcancelled))
  · exact notCancelled_of_tag ((h.tags j).trans (if_neg hj))

/-- The status after a cycle is cancelled only if it was. -/
theorem nextStatus_cancelled (h : nextStatus grp = .cancelled) : grp.status = .cancelled := by
  rw [nextStatus] at h
  by_cases hlast : grp.maxMembers ≤ grp.currentCycle + 1
  · rw [if_pos hlast] at h
    cases h
  · rwa [if_neg hlast] at h

/-- **NOT CANCELLED**, in the record. -/
theorem record_step (hreg : Registry s) (h : c.body env s = .ok () t) (hissued : g ≤ lastId s)
    (hc : creatorOf c ≠ some g) (hvote : ¬ Votes g c) : NotCancelledAt s t g := by
  have heff := call_status hreg c h
  have hnew : g ≠ lastId s + 1 := by omega
  have hsame : ∀ {grp' : SaveData.Group}, groupAt s g = some grp' →
      ∀ grp, groupAt s g = some grp → some (nextStatus grp') = some GroupStatus.cancelled →
        grp.status = .cancelled := by
    intro grp' hgrp' grp hgrp hnext
    cases hgrp'.symm.trans hgrp
    exact nextStatus_cancelled (Option.some.inj hnext)
  cases c with
  | createGroup creator amount duration maxMembers tok grace order | cloneGroup caller g' o =>
      exact notCancelled_of_moves heff fun he => absurd he hnew
  | mergeGroups g₁ g₂ =>
      exact notCancelled_of_tag ((heff.1 g).trans (if_neg hnew))
  | activateGroup g' a | resolveDispute g' a =>
      exact notCancelled_of_moves heff.2 fun _ _ _ hr => by cases hr
  -- a pause and its end are between statuses other than cancelled
  | pauseGroup g' a | resumeGroup g' a =>
      exact notCancelled_of_moves heff.2.2 fun _ _ _ hr => by cases hr
  | raiseDispute g' a reason =>
      obtain ⟨grp, -, heff⟩ := heff
      by_cases hover : grp.memberCount / 2 + 1 ≤ disputeVotes s g'
      · rw [if_pos hover] at heff
        exact notCancelled_of_moves heff fun _ _ _ hr => by cases hr
      · rw [if_neg hover] at heff
        exact notCancelled_of_tag (heff.tags g)
  -- only the creator cancels, but for a dissolution by vote
  | cancelGroup g' a =>
      obtain ⟨grp, -, -, hmoves⟩ := heff
      exact notCancelled_of_moves hmoves fun he => absurd (congrArg some he.symm) hc
  | deleteGroup g' => exact notCancelled_of_moves heff fun _ _ _ hr => by cases hr
  | executePayout g' | tick g' =>
      obtain ⟨grp, hgrp, -, hmoves⟩ := heff
      refine notCancelled_of_moves hmoves ?_
      rintro rfl
      exact hsame hgrp
  | tryAdvanceCycle g' =>
      obtain ⟨grp, hgrp, -, heff⟩ := heff
      by_cases htime : getCurrentCycle grp env.timestamp ≤ grp.currentCycle
      · rw [if_pos htime] at heff
        exact notCancelled_of_tag (heff.tags g)
      · rw [if_neg htime] at heff
        refine notCancelled_of_moves heff ?_
        rintro rfl
        exact hsame hgrp
  -- a vote that dissolves is excluded by the hypothesis
  | voteDissolve g' a =>
      obtain ⟨grp, hgrp, -, heff⟩ := heff
      by_cases hover : grp.memberCount ≤ dissolveVotes s g'
      · rw [if_pos hover] at heff
        exact notCancelled_of_moves heff fun he => absurd he.symm hvote
      · rw [if_neg hover] at heff
        exact notCancelled_of_tag (heff.tags g)
  | _ => exact notCancelled_of_tag (Still.tags heff g)

end Record

/-! ## The key, the seats and the order -/

section Keys

variable {env : Env} {s t : State} {c : Call} {g : Nat}

/-- A merge writes the status of its two groups and of the new one only. -/
theorem merge_key {g₁ g₂ n : Nat} (h : mergeGroups g₁ g₂ env s = .ok n t)
    (hnew : g ≠ lastId s + 1) (h₁ : g ≠ g₁) (h₂ : g ≠ g₂) :
    t.persistent (.grpStat g) = s.persistent (.grpStat g) := by
  obtain ⟨rfl, grp₁, grp₂, v, -, hloop, rfl⟩ := mergeGroups_ok h
  have hv := (Within.agree_ok (w := scope [.of .mbrProf (lastId s + 1), .of .mbrPElig (lastId s + 1)]
    False False) hloop).persistent (.grpStat g) (by simp)
  simp only [HostState.set_persistent, Key.grpStat.injEq, h₁, h₂, if_false]
  rw [hv]
  simp [mergeBase, hnew]

/-- Who may touch the key of `g` without its creator: the members, by a vote or
    a dispute, and a merge that takes it in. -/
theorem key_step (h : c.body env s = .ok () t) (hissued : g ≤ lastId s)
    (hc : creatorOf c ≠ some g) (hvote : ¬ Votes g c) (habsorb : ¬ Absorbs g c) :
    t.persistent (.grpStat g) = s.persistent (.grpStat g) ∨
      ∃ a reason, c = .raiseDispute g a reason := by
  have hagree := Within.agree_ok (w := c.footprint) h
  have hnew : g ≠ lastId s + 1 := by omega
  cases c with
  -- the key of another group, or of the one that is new
  | createGroup creator amount duration maxMembers tok grace order =>
      obtain ⟨n, hn⟩ := quietly_ok.mp h
      obtain ⟨-, rounded, decimals, l, rfl⟩ := createGroup_ok hn
      exact Or.inl (by simp [created, hnew])
  | cloneGroup caller g' o =>
      obtain ⟨n, hn⟩ := quietly_ok.mp h
      obtain ⟨rfl, amount, duration, maxMembers, minMembers, grace, config, rfl⟩ := cloneGroup_ok hn
      exact Or.inl (by simp [created, hnew])
  | mergeGroups g₁ g₂ =>
      obtain ⟨n, hn⟩ := quietly_ok.mp h
      exact Or.inl (merge_key hn hnew (fun he => hc (congrArg some he.symm))
        fun he => habsorb he.symm)
  | raiseDispute g' a reason =>
      by_cases hg : g = g'
      · subst hg
        exact Or.inr ⟨a, reason, rfl⟩
      · exact Or.inl (hagree.persistent _ (by simp [hg]))
  | voteDissolve g' a =>
      have hg : g ≠ g' := fun he => hvote he.symm
      exact Or.inl (hagree.persistent _ (by simp [hg]))
  -- whoever writes the key of this group is its creator
  | pauseGroup g' a | resumeGroup g' a | resolveDispute g' a | cancelGroup g' a | deleteGroup g'
  | activateGroup g' a =>
      have hg : g ≠ g' := fun he => hc (congrArg some he.symm)
      exact Or.inl (hagree.persistent _ (by simp [hg]))
  | _ => exact Or.inl (hagree.persistent (.grpStat g) (Place.other_kind rfl))

/-- A drawn order is stored by the creator's assignment or by a draw. -/
theorem sequence_step (h : c.body env s = .ok () t) (hc : creatorOf c ≠ some g)
    (hdraw : ∀ seed, c ≠ .randomizePayoutOrder g seed) :
    t.persistent (.grpSeq g) = s.persistent (.grpSeq g) := by
  have hagree := Within.agree_ok (w := c.footprint) h
  cases c with
  | randomizePayoutOrder g' seed =>
      have hg : g ≠ g' := by
        rintro rfl
        exact hdraw seed rfl
      exact hagree.persistent _ (by simp [hg])
  | assignPayoutPositions g' a mode =>
      have hg : g ≠ g' := fun he => hc (congrArg some he.symm)
      exact hagree.persistent _ (by simp [hg])
  | _ => exact hagree.persistent (.grpSeq g) (Place.other_kind rfl)

/-- Switching automatic contributions moves nobody. -/
theorem autoContribute_seat {g' : Nat} {a m : Address}
    (h : (Call.enableAutoContribute g' a).body env s = .ok () t ∨
      (Call.disableAutoContribute g' a).body env s = .ok () t) :
    seatOf t g m = seatOf s g m := by
  have hsame : ∀ {profile : MemberProfile} (b : Bool), profileAt s g' a = some profile →
      seatOf (s.set (.mbrProf g' a) (Codec.encode { profile with autoContributeEnabled := b })) g m
        = seatOf s g m := by
    intro profile b hprofile
    by_cases hm : g = g' ∧ m = a
    · obtain ⟨rfl, rfl⟩ := hm
      rw [seatOf_of_profile hprofile]
      simp [seatOf]
    · simp [seatOf, hm]
  rcases h with h | h
  · obtain ⟨profile, -, hprofile, rfl | rfl⟩ := enableAutoContribute_ok h
    · rw [← hsame true hprofile]
      simp [seatOf]
    · rfl
  · obtain ⟨profile, -, hprofile, rfl | rfl⟩ := disableAutoContribute_ok h
    · rw [← hsame false hprofile]
      simp [seatOf]
    · rfl

/-- **THE SEATS STAND** under every call that the creator did not sign. -/
theorem seat_step (h : c.body env s = .ok () t) (hissued : g ≤ lastId s)
    (hc : creatorOf c ≠ some g) {m : Address} (hm : s.persistent (.mbrProf g m) ≠ none)
    (hm' : t.persistent (.mbrProf g m) ≠ none) :
    seatOf t g m = seatOf s g m ∧ eligAt t g m = eligAt s g m := by
  have hagree := Within.agree_ok (w := c.footprint) h
  have hnew : g ≠ lastId s + 1 := by omega
  have hframe : t.persistent (.mbrProf g m) = s.persistent (.mbrProf g m) →
      t.persistent (.mbrPElig g m) = s.persistent (.mbrPElig g m) →
      seatOf t g m = seatOf s g m ∧ eligAt t g m = eligAt s g m := fun hprof helig =>
    ⟨congrArg (Option.map _) (readAt_congr hprof), readAt_congr helig⟩
  cases c with
  | mergeGroups g₁ g₂ =>
      obtain ⟨n, hn⟩ := quietly_ok.mp h
      exact hframe (mergeGroups_frame hn _ hnew (by simp)) (mergeGroups_frame hn _ hnew (by simp))
  | joinGroup g' member referrer =>
      by_cases hg : g = g'
      · subst hg
        obtain ⟨grp, hopen, rfl⟩ := joinGroup_ok h
        obtain ⟨-, -, hprofile, helig, -⟩ := joined_views (s := s) (g := g) member grp
          env.timestamp referrer
        -- whoever has a profile is not the newcomer
        have hne : m ≠ member := by
          rintro rfl
          exact hm hopen.newcomer
        rw [seatOf, seatOf, hprofile, helig, if_neg hne, if_neg hne]
        exact ⟨rfl, rfl⟩
      · exact hframe (hagree.persistent _ (by simp [hg])) (hagree.persistent _ (by simp [hg]))
  | emergencyWithdraw g' member =>
      by_cases hg : g = g' ∧ m = member
      · obtain ⟨rfl, rfl⟩ := hg
        obtain ⟨grp, total, received, -, ⟨-, -, config, l, -, -, rfl⟩ | ⟨-, rfl⟩⟩ :=
          emergencyWithdraw_ok h
        · exact absurd (by simp) hm'
        · exact absurd (by simp) hm'
      · obtain ⟨grp, total, received, -, ⟨-, -, config, l, -, -, rfl⟩ | ⟨-, rfl⟩⟩ :=
          emergencyWithdraw_ok h
        · exact hframe (by simp [hg]) (by simp)
        · exact hframe (by simp [hg]) (by simp)
  | enableAutoContribute g' a =>
      exact ⟨autoContribute_seat (Or.inl h), readAt_congr (hagree.persistent _ (by simp))⟩
  | disableAutoContribute g' a =>
      exact ⟨autoContribute_seat (Or.inr h), readAt_congr (hagree.persistent _ (by simp))⟩
  | assignPayoutPositions g' a mode | removeMember g' a =>
      have hg : g ≠ g' := fun he => hc (congrArg some he.symm)
      exact hframe (hagree.persistent _ (by simp [hg])) (hagree.persistent _ (by simp [hg]))
  | _ =>
      exact hframe (hagree.persistent (.mbrProf g m) (Place.other_kind rfl))
        (hagree.persistent (.mbrPElig g m) (Place.other_kind rfl))

/-- **NO EFFECT** without the creator, the members, a merge or a draw. -/
theorem no_effect (hreg : Registry s) (h : c.body env s = .ok () t) (hissued : g ≤ lastId s)
    (hc : creatorOf c ≠ some g) (hvote : ¬ Votes g c) (habsorb : ¬ Absorbs g c)
    (hdraw : ∀ seed, c ≠ .randomizePayoutOrder g seed) : ¬ CreatorEffect s t g := by
  intro heffect
  cases heffect with
  -- each effect is undone by the lemma about its part
  | terms hgrp hgrp' hne =>
      obtain ⟨grp, hgrp'', -, hterms⟩ := terms_step hreg h hissued hc hvote _ hgrp
      cases hgrp'.symm.trans hgrp''
      exact hne hterms
  | recordCancelled hgrp hgrp' hold hnew =>
      exact hold (record_step hreg h hissued hc hvote _ _ hgrp hgrp' hnew)
  | cancelled hold hnew =>
      rcases key_step h hissued hc hvote habsorb with hsame | ⟨a, reason, rfl⟩
      · rw [statusAt, readAt_congr hsame] at hnew
        exact hold hnew
      · -- a dispute pauses the group, if it does anything
        obtain ⟨grp, -, heff⟩ := call_status hreg (.raiseDispute g a reason) h
        by_cases hover : grp.memberCount / 2 + 1 ≤ disputeVotes s g
        · rw [if_pos hover] at heff
          rw [heff.keys g, if_pos rfl] at hnew
          cases hnew
        · rw [if_neg hover] at heff
          rw [heff.keys g] at hnew
          exact hold hnew
  | seat hm hm' hne =>
      obtain ⟨hseat, helig⟩ := seat_step h hissued hc hm hm'
      rcases hne with hne | hne
      · exact hne hseat
      · exact hne helig
  | sequence hne => exact hne (sequence_step h hc hdraw)

end Keys

/-! ## What an assignment needs -/

/-- What a mode asks for beside a roster: an order not drawn yet, or a position
    for each member. -/
def Fits (s : State) (g : Nat) (roster : MemberMap) : AssignmentMode → Prop
  | .sequential => True
  | .randomized => s.persistent (.grpSeq g) = none
  | .manual positions => positions.length = roster.size

/-- The group is ready to have its positions assigned by `caller`. -/
structure AssignReady (s : State) (g : Nat) (caller : Address) (mode : AssignmentMode) : Prop where
  creator : ∃ grp, groupAt s g = some grp ∧ grp.creator = caller
  typed : TypedAt GroupStatus s.persistent (.grpStat g)
  pending : (statusAt s g).getD .pending = .pending
  roster : ∃ roster, membersAt s g = some roster ∧ Fits s g roster mode ∧
    ∀ m ∈ roster.members, ∃ profile, profileAt s g m = some profile

section Shuffling

/-- Two places of a list can be exchanged. -/
theorem swap_some {xs : List Nat} {i j : Nat} (hi : i < xs.length) (hj : j < xs.length) :
    ∃ ys, swap xs i j = some ys := by
  rw [swap, List.getElem?_eq_getElem hi, List.getElem?_eq_getElem hj]
  exact ⟨_, rfl⟩

/-- A shuffle never reaches outside its list. -/
theorem shuffle_some (seed : Nat) {n : Nat} {xs : List Nat} (h : n ≤ xs.length) :
    ∃ ys, shuffle seed n xs = some ys := by
  induction n generalizing xs with
  | zero => exact ⟨xs, rfl⟩
  | succ n ih =>
      cases n with
      | zero => exact ⟨xs, rfl⟩
      | succ n =>
          have hj : seed * (n + 2) % (u64Max + 1) % (n + 2) < n + 2 := Nat.mod_lt _ (by omega)
          obtain ⟨zs, hzs⟩ : ∃ zs, swap xs (n + 1) (seed * (n + 2) % (u64Max + 1) % (n + 2)) = some zs :=
            swap_some (by omega) (by omega)
          have hzlen : n + 1 ≤ zs.length := by
            rw [(swap_perm hzs).length_eq]
            omega
          obtain ⟨ys, hys⟩ := ih hzlen
          refine ⟨ys, ?_⟩
          rw [shuffle, hzs]
          exact hys

/-- A lookup that succeeds everywhere succeeds on the list. -/
theorem mapM_some {f : Nat → Option Address} {ps : List Nat} (h : ∀ p ∈ ps, ∃ a, f p = some a) :
    ∃ xs, ps.mapM f = some xs := by
  induction ps with
  | nil => exact ⟨[], rfl⟩
  | cons p ps ih =>
      obtain ⟨a, ha⟩ := h p List.mem_cons_self
      obtain ⟨xs, hxs⟩ := ih fun q hq => h q (List.mem_cons_of_mem _ hq)
      refine ⟨a :: xs, ?_⟩
      rw [List.mapM_cons, ha, hxs]
      rfl

end Shuffling

section Assigning

variable {env : Env} {s t : State} {g : Nat} {caller : Address} {mode : AssignmentMode}

/-- A draw goes through wherever a roster is stored and none was drawn. -/
theorem randomize_succeeds {seed : Nat} {grp : SaveData.Group} {roster : MemberMap}
    (hgrp : groupAt s g = some grp) (hroster : membersAt s g = some roster)
    (hfree : s.persistent (.grpSeq g) = none) :
    ∃ positions t, randomizePayoutOrder g seed env s = .ok positions t := by
  have hlen : roster.members.length ≤ (List.range roster.members.length).length := by
    rw [List.length_range]
  obtain ⟨positions, hshuffle⟩ := shuffle_some
    ((seed + env.prng + env.timestamp + g) % (u64Max + 1)) hlen
  have hinside : ∀ p ∈ positions, ∃ a, roster.members[p]? = some a := by
    intro p hp
    have hlt := List.mem_range.mp ((shuffle_perm hshuffle).mem_iff.mp hp)
    exact ⟨_, List.getElem?_eq_getElem hlt⟩
  obtain ⟨sequence, hsequence⟩ := mapM_some hinside
  refine ⟨positions, s.set (.grpSeq g) (Codec.encode sequence), ?_⟩
  simp only [randomizePayoutOrder, getOr_bind_ok, has_bind_ok, failIf_bind_ok, ask_bind_ok,
    unwrap_bind_ok, put_bind_ok, pure_ok]
  exact ⟨grp, hgrp, by simp [hfree], roster, hroster, positions, hshuffle, sequence, hsequence,
    rfl, rfl⟩

/-- The positions of a mode can be chosen exactly when it fits. -/
theorem chosen_iff {roster : MemberMap} {grp : SaveData.Group} (hgrp : groupAt s g = some grp)
    (hroster : membersAt s g = some roster) :
    (∃ positions t, chosenPositions g roster mode env s = .ok positions t) ↔
      Fits s g roster mode := by
  cases mode with
  | sequential => exact iff_of_true ⟨_, _, rfl⟩ trivial
  | manual ps =>
      constructor
      · rintro ⟨positions, t, h⟩
        exact not_not.mp (failIf_bind_ok.mp h).1
      · intro hlen
        exact ⟨ps, s, failIf_bind_ok.mpr ⟨not_not.mpr hlen, rfl⟩⟩
  | randomized =>
      constructor
      · rintro ⟨positions, t, h⟩
        have hdraw := now_bind_ok.mp h
        simp only [randomizePayoutOrder, getOr_bind_ok, has_bind_ok, failIf_bind_ok] at hdraw
        obtain ⟨-, -, hfree, -⟩ := hdraw
        simpa [Fits] using hfree
      · intro hfree
        exact randomize_succeeds hgrp hroster hfree

/-- Dealing out positions needs one for each member, and a profile. -/
theorem deal_iff {positions : List Nat} {xs : List Address} {i : Nat}
    (hlen : i + xs.length ≤ positions.length) :
    (∃ n t, foldEach (assignPosition g positions) i xs env s = .ok n t) ↔
      ∀ m ∈ xs, ∃ profile, profileAt s g m = some profile := by
  induction xs generalizing i s with
  | nil => exact iff_of_true ⟨i, s, rfl⟩ fun m hm => absurd hm List.not_mem_nil
  | cons a xs ih =>
      rw [List.length_cons] at hlen
      -- one deal writes a profile where there was one
      have hstill : ∀ {profile p m}, profileAt s g a = some profile →
          ((∃ q, profileAt (((s.set (.mbrProf g a)
              (Codec.encode { profile with payoutPosition := p })).set
              (.mbrPElig g a) (Codec.encode (U32.mk p))).set
              (.grpPosIx g p) (Codec.encode a)) g m = some q) ↔
            ∃ q, profileAt s g m = some q) := by
        intro profile p m hprofile
        by_cases hm : m = a
        · subst hm
          simp [hprofile]
        · simp [hm]
      have hp : positions[i]? = some positions[i] := List.getElem?_eq_getElem (by omega)
      constructor
      · rintro ⟨n, t, h⟩ m hm
        obtain ⟨j, u, hfirst, hrest⟩ := bind_ok.mp h
        obtain ⟨p, -, profile, hprofile, rfl, rfl⟩ := assignPosition_ok.mp hfirst
        rcases List.mem_cons.mp hm with rfl | hm'
        · exact ⟨profile, hprofile⟩
        · exact (hstill hprofile).mp ((ih (by omega)).mp ⟨n, t, hrest⟩ m hm')
      · intro hall
        obtain ⟨profile, hprofile⟩ := hall a List.mem_cons_self
        have hfirst : assignPosition g positions i a env s = .ok (i + 1) _ :=
          assignPosition_ok.mpr ⟨positions[i], hp, profile, hprofile, rfl, rfl⟩
        obtain ⟨n, t, hrest⟩ := (ih (i := i + 1) (by omega)).mpr fun m hm =>
          (hstill (p := positions[i]) hprofile).mpr (hall m (List.mem_cons_of_mem _ hm))
        exact ⟨n, t, bind_ok.mpr ⟨_, _, hfirst, hrest⟩⟩

/-- **WHEN AN ASSIGNMENT GOES THROUGH**. -/
theorem assign_succeeds_iff :
    Succeeds (assignPayoutPositions g caller mode) env s ↔
      caller ∈ env.signers ∧ AssignReady s g caller mode := by
  constructor
  -- whoever is dealt a position had a profile to write it to
  · rintro ⟨⟨⟩, t, h⟩
    obtain ⟨grp, roster, positions, v, n, h⟩ := assignPayoutPositions_iff.mp h
    obtain ⟨hlen, -, hsame⟩ := chosenPositions_ok (rosterAt_eq h.listed) h.chosen
    refine ⟨h.signed, ⟨grp, h.group, h.creator⟩, h.typed, h.pending, roster, h.listed,
      (chosen_iff h.group h.listed).mp ⟨positions, v, h.chosen⟩, ?_⟩
    intro m hm
    obtain ⟨profile, hprofile⟩ := (deal_iff (by rw [Nat.zero_add, length_members, hlen])).mp
      ⟨n, t, h.dealt⟩ m hm
    exact ⟨profile, (readAt_congr (hsame (.mbrProf g m) (by simp))).symm.trans hprofile⟩
  -- the positions can be chosen, and every member has a profile to receive his
  · rintro ⟨hsigned, ⟨grp, hgrp, hcreator⟩, htyped, hpending, roster, hroster, hfits, hall⟩
    obtain ⟨positions, v, hchosen⟩ : ∃ positions v,
        chosenPositions g roster mode env s = .ok positions v :=
      (chosen_iff hgrp hroster).mpr hfits
    obtain ⟨hlen, -, hsame⟩ := chosenPositions_ok (rosterAt_eq hroster) hchosen
    have hall' : ∀ m ∈ roster.members, ∃ profile, profileAt v g m = some profile := by
      intro m hm
      obtain ⟨profile, hprofile⟩ := hall m hm
      exact ⟨profile, (readAt_congr (hsame (.mbrProf g m) (by simp))).trans hprofile⟩
    obtain ⟨n, w, hloop⟩ : ∃ n w,
        foldEach (assignPosition g positions) 0 roster.members env v = .ok n w :=
      (deal_iff (by rw [Nat.zero_add, length_members, hlen])).mpr hall'
    exact ⟨(), w, assignPayoutPositions_iff.mpr ⟨grp, roster, positions, v, n, hsigned, hgrp, hcreator, htyped,
      hpending, hroster, hchosen, hloop⟩⟩

end Assigning

/-! ## Strangers -/

/-- The member who speaks in a call about a group, where one has to. -/
def memberOf : Call → Option (Nat × Address)
  | .voteDissolve g a | .voteContributionChange g a | .raiseDispute g a _
  | .emergencyWithdraw g a | .enableAutoContribute g a | .disableAutoContribute g a => some (g, a)
  | _ => none

/-- Neither the creator nor a member of the group has signed. -/
structure Stranger (env : Env) (s : State) (g : Nat) : Prop where
  creator : ∀ grp, groupAt s g = some grp → grp.creator ∉ env.signers
  member : ∀ m, s.persistent (.mbrProf g m) ≠ none → m ∉ env.signers

/-- What a stranger can do to a later assignment: have the group absorbed, draw
    the order first, or make a list too short by joining. -/
def Disturbs (g : Nat) (mode : AssignmentMode) : Call → Prop
  | .mergeGroups _ g₂ => g₂ = g
  | .randomizePayoutOrder g' _ => g' = g ∧ mode = .randomized
  | .joinGroup g' _ _ => g' = g ∧ ∃ positions, mode = .manual positions
  | _ => False

/-- A stranger's call that does none of these; dropped temporaries and ledger
    moves. -/
def Undisturbed (g : Nat) (mode : AssignmentMode) : Step → State → Prop
  | .call env c, s => Stranger env s g ∧ ¬ Disturbs g mode c
  | _, _ => True

section Strangers

variable {env : Env} {s t : State} {c : Call} {g : Nat} {caller : Address} {mode : AssignmentMode}

/-- **SPOKEN AND SIGNED**: a member's call is signed by a member. -/
theorem member_signed {a : Address} (h : c.body env s = .ok () t) (hc : memberOf c = some (g, a)) :
    a ∈ env.signers ∧ s.persistent (.mbrProf g a) ≠ none := by
  have hstored : ∀ {profile : MemberProfile}, profileAt s g a = some profile →
      s.persistent (.mbrProf g a) ≠ none := by
    intro profile hprofile hnone
    rw [(readAt_eq_some _ _ _).mp hprofile] at hnone
    cases hnone
  -- each call reads the profile it is about before it goes on
  cases c with
  | voteDissolve g' a' =>
      cases hc
      simp only [Call.body, voteDissolve, requireAuth_bind_ok, getOr_bind_ok, has_bind_ok,
        failIf_bind_ok, getD_bind_ok] at h
      obtain ⟨hsigned, grp, -, -, -, -, hmember, -⟩ := h
      exact ⟨hsigned, by simpa using hmember⟩
  | voteContributionChange g' a' =>
      cases hc
      simp only [Call.body, voteContributionChange, requireAuth_bind_ok, getOr_bind_ok,
        has_bind_ok, failIf_bind_ok] at h
      obtain ⟨hsigned, grp, -, -, hmember, -⟩ := h
      exact ⟨hsigned, by simpa using hmember⟩
  | raiseDispute g' a' reason =>
      cases hc
      simp only [Call.body, raiseDispute, requireAuth_bind_ok, getOr_bind_ok, has_bind_ok,
        failIf_bind_ok] at h
      obtain ⟨hsigned, grp, -, hmember, -⟩ := h
      exact ⟨hsigned, by simpa using hmember⟩
  | emergencyWithdraw g' a' =>
      cases hc
      obtain ⟨grp, total, received, hopen, -⟩ := emergencyWithdraw_ok h
      exact ⟨hopen.signed, hopen.profile⟩
  | enableAutoContribute g' a' =>
      cases hc
      obtain ⟨profile, hsigned, hprofile, -⟩ := enableAutoContribute_ok h
      exact ⟨hsigned, hstored hprofile⟩
  | disableAutoContribute g' a' =>
      cases hc
      obtain ⟨profile, hsigned, hprofile, -⟩ := disableAutoContribute_ok h
      exact ⟨hsigned, hstored hprofile⟩
  | _ => cases hc

/-- So a stranger's call is no member's. -/
theorem Stranger.memberOf_ne (hs : Stranger env s g) (h : c.body env s = .ok () t) (a : Address) :
    memberOf c ≠ some (g, a) := by
  intro hc
  obtain ⟨hsigned, hmember⟩ := member_signed h hc
  exact hs.member a hmember hsigned

/-- The members after an insertion are those before it and the one inserted. -/
theorem mem_of_mem_insert {m : MemberMap} {k : Nat} {a b : Address}
    (h : b ∈ MemberMap.members (m.insert k a)) : b = a ∨ b ∈ m.members := by
  obtain ⟨j, hj⟩ := mem_members.mp h
  rw [Std.TreeMap.getElem?_insert] at hj
  by_cases hkj : compare k j = .eq
  · rw [if_pos hkj] at hj
    exact Or.inl (Option.some.inj hj).symm
  · rw [if_neg hkj] at hj
    exact Or.inr (mem_members.mpr ⟨j, hj⟩)

/-- A stranger leaves the roster alone, unless to join. -/
theorem roster_step (h : c.body env s = .ok () t) (hissued : g ≤ lastId s)
    (hc : creatorOf c ≠ some g) :
    t.persistent (.grpMbrs g) = s.persistent (.grpMbrs g) ∨
      ∃ member referrer, c = .joinGroup g member referrer := by
  have hagree := Within.agree_ok (w := c.footprint) h
  have hnew : g ≠ lastId s + 1 := by omega
  cases c with
  | mergeGroups g₁ g₂ =>
      obtain ⟨n, hn⟩ := quietly_ok.mp h
      exact Or.inl (mergeGroups_frame hn _ hnew (by simp))
  | joinGroup g' member referrer =>
      by_cases hg : g = g'
      · subst hg
        exact Or.inr ⟨member, referrer, rfl⟩
      · exact Or.inl (hagree.persistent _ (by simp [hg]))
  | removeMember g' a =>
      have hg : g ≠ g' := fun he => hc (congrArg some he.symm)
      exact Or.inl (hagree.persistent _ (by simp [hg]))
  | _ => exact Or.inl (hagree.persistent (.grpMbrs g) (Place.other_kind rfl))

/-- A stranger takes nobody's profile away. -/
theorem profile_step (hs : Stranger env s g) (h : c.body env s = .ok () t) (hissued : g ≤ lastId s)
    (hc : creatorOf c ≠ some g) {m : Address} {profile : MemberProfile}
    (hm : profileAt s g m = some profile) : profileAt t g m = some profile := by
  have hagree := Within.agree_ok (w := c.footprint) h
  have hnew : g ≠ lastId s + 1 := by omega
  have hmember := hs.memberOf_ne h
  cases c with
  | mergeGroups g₁ g₂ =>
      obtain ⟨n, hn⟩ := quietly_ok.mp h
      exact (readAt_congr (mergeGroups_frame hn (.mbrProf g m) hnew (by simp))).trans hm
  -- a newcomer has no profile yet, so nobody's is overwritten
  | joinGroup g' member referrer =>
      by_cases hg : g = g'
      · subst hg
        obtain ⟨grp, hopen, rfl⟩ := joinGroup_ok h
        have hne : m ≠ member := by
          rintro rfl
          have hfree := hopen.newcomer
          rw [(readAt_eq_some _ _ _).mp hm] at hfree
          cases hfree
        rw [(joined_views member grp env.timestamp referrer).2.2.1, if_neg hne]
        exact hm
      · exact (readAt_congr (hagree.persistent (.mbrProf g m) (by simp [hg]))).trans hm
  -- the member himself signs these
  | emergencyWithdraw g' a | enableAutoContribute g' a | disableAutoContribute g' a =>
      have hg : g ≠ g' := by
        rintro rfl
        exact hmember a rfl
      exact (readAt_congr (hagree.persistent (.mbrProf g m) (by simp [hg]))).trans hm
  | assignPayoutPositions g' a mode | removeMember g' a =>
      have hg : g ≠ g' := fun he => hc (congrArg some he.symm)
      exact (readAt_congr (hagree.persistent (.mbrProf g m) (by simp [hg]))).trans hm
  | _ => exact (readAt_congr (hagree.persistent (.mbrProf g m) (Place.other_kind rfl))).trans hm

/-- **STILL READY** after a stranger's call that disturbs nothing. -/
theorem ready_step (hreg : Registry s) (hready : AssignReady s g caller mode)
    (hs : Stranger env s g) (hquiet : ¬ Disturbs g mode c) (h : c.body env s = .ok () t) :
    AssignReady t g caller mode := by
  obtain ⟨grp, hgrp, hcreator⟩ := hready.creator
  -- the group is there, so its id was issued
  have hissued : g ≤ lastId s := by
    by_contra hlt
    rw [(hreg.below g (by omega)).1] at hgrp
    cases hgrp
  have hc := creatorOf_ne h hgrp (hs.creator grp hgrp)
  have hmember := hs.memberOf_ne h
  have hvote : ¬ Votes g c := by
    intro hv
    cases c with
    | voteDissolve g' a | voteContributionChange g' a =>
        obtain rfl : g' = g := hv
        exact hmember a rfl
    | _ => exact hv.elim
  have habsorb : ¬ Absorbs g c := by
    intro ha
    cases c with
    | mergeGroups g₁ g₂ => exact hquiet ha
    | _ => exact ha.elim
  -- the status stays pending: only a member could have disputed it
  have hkey : t.persistent (.grpStat g) = s.persistent (.grpStat g) := by
    rcases key_step h hissued hc hvote habsorb with hsame | ⟨a, reason, rfl⟩
    · exact hsame
    · exact absurd rfl (hmember a)
  obtain ⟨grp', hgrp', hcreator', -⟩ := terms_step hreg h hissued hc hvote grp hgrp
  obtain ⟨roster, hroster, hfits, hall⟩ := hready.roster
  refine ⟨⟨grp', hgrp', hcreator'.trans hcreator⟩, hready.typed.congr hkey, ?_, ?_⟩
  · rw [statusAt, readAt_congr hkey]
    exact hready.pending
  · rcases roster_step h hissued hc with hsame | ⟨member, referrer, rfl⟩
    · refine ⟨roster, (readAt_congr hsame).trans hroster, ?_, ?_⟩
      · cases mode with
        | sequential => trivial
        | manual positions => exact hfits
        | randomized =>
            refine (sequence_step h hc ?_).trans hfits
            rintro seed rfl
            exact hquiet ⟨rfl, rfl⟩
      · intro m hm
        obtain ⟨profile, hprofile⟩ := hall m hm
        exact ⟨profile, profile_step hs h hissued hc hprofile⟩
    · -- a newcomer has a profile like everybody else on the roster
      have hprofiles : ∀ m profile, profileAt s g m = some profile →
          profileAt t g m = some profile :=
        fun m profile hm => profile_step hs h hissued hc hm
      have hseq := sequence_step h hc fun seed => by simp
      obtain ⟨grp₀, hopen, rfl⟩ := joinGroup_ok h
      refine ⟨roster.insert grp₀.memberCount member, ?_, ?_, ?_⟩
      · rw [← rosterAt_eq hroster]
        simp [joined]
      · cases mode with
        | sequential => trivial
        | manual positions => exact absurd ⟨rfl, positions, rfl⟩ hquiet
        | randomized => exact hseq.trans hfits
      · intro m hm
        rcases mem_of_mem_insert hm with rfl | hold
        · exact ⟨_, (joined_views m grp₀ env.timestamp referrer).2.2.1 m |>.trans (if_pos rfl)⟩
        · obtain ⟨profile, hprofile⟩ := hall m hold
          exact ⟨profile, hprofiles m profile hprofile⟩

/-- Along every undisturbed run. -/
theorem ready_run (hreg : Registry s) (hready : AssignReady s g caller mode) {steps : List Step}
    (hrun : Along apply (Undisturbed g mode) steps s) : AssignReady (run steps s) g caller mode := by
  refine (exec_invariant (I := fun t => Registry t ∧ AssignReady t g caller mode) ?_
    ⟨hreg, hready⟩ hrun).2
  intro x u hx hu
  refine ⟨registry_apply x u hu.1, ?_⟩
  cases x with
  | call env c =>
      rcases commit_eq_or c env u with ⟨t, ht, he⟩ | ⟨-, he⟩
      · show AssignReady (commit c.body env u) g caller mode
        rw [he]
        exact ready_step hu.1 hu.2 hx.1 hx.2 ht
      · show AssignReady (commit c.body env u) g caller mode
        rw [he]
        exact hu.2
  | expire => exact ⟨hu.2.creator, hu.2.typed, hu.2.pending, hu.2.roster⟩
  | external l => exact ⟨hu.2.creator, hu.2.typed, hu.2.pending, hu.2.roster⟩

end Strangers

/-- **WHOSE WORD**: a call other than a draw that changes a group's terms,
    cancels it, moves a member or stores an order is signed by the group's creator,
    or is a vote of its members, or takes the group into a merge.  And an
    assignment the creator could make stays possible through every run of
    strangers' calls, among them no merge that takes the group in, no draw before a
    random assignment and no newcomer before a listed one. -/
theorem creator_has_the_word (s : State) (hreg : Registry s) (g : Nat) :
    (∀ (env : Env) (c : Call) (t : State) (grp : SaveData.Group), c.body env s = .ok () t →
      groupAt s g = some grp → (∀ seed, c ≠ .randomizePayoutOrder g seed) →
      CreatorEffect s t g → grp.creator ∈ env.signers ∨ Votes g c ∨ Absorbs g c) ∧
    (∀ (env env' : Env) (caller : Address) (mode : AssignmentMode) (steps : List Step),
      Along apply (Undisturbed g mode) steps s →
      Succeeds (assignPayoutPositions g caller mode) env s → caller ∈ env'.signers →
      Succeeds (assignPayoutPositions g caller mode) env' (run steps s)) := by
  constructor
  · intro env c t grp h hgrp hdraw heffect
    have hissued : g ≤ lastId s := by
      by_contra hlt
      rw [(hreg.below g (by omega)).1] at hgrp
      cases hgrp
    by_contra hnone
    push Not at hnone
    obtain ⟨hunsigned, hvote, habsorb⟩ := hnone
    exact no_effect hreg h hissued (creatorOf_ne h hgrp hunsigned) hvote habsorb hdraw heffect
  · intro env env' caller mode steps hrun hbefore hsigned
    obtain ⟨-, hready⟩ := assign_succeeds_iff.mp hbefore
    exact assign_succeeds_iff.mpr ⟨hsigned, ready_run hreg hready hrun⟩

/-! Two groups, each with a creator of its own. -/

def rivalGroup (g : Nat) : SaveData.Group :=
  { Group.fresh g ⟨g⟩ 100 1000 3 2 0 0 false 0 with status := .pending, memberCount := 1 }

/-- Group `g`, open, with its creator as the only member. -/
def withRival (s : State) (g : Nat) : State :=
  ((s.set (.grp g) (Codec.encode (rivalGroup g))).set
    (.grpMbrs g) (Codec.encode ((∅ : MemberMap).insert 0 ⟨g⟩))).set
    (.mbrProf g ⟨g⟩) (Codec.encode (MemberProfile.mk ⟨g⟩ g 0 0 false))

def rivals : State :=
  withRival (withRival ((deployed fun _ => none).set .cntNextG (Codec.encode (U64.mk 2))) 1) 2

/-- One creator signs at a time. -/
def firstAlone : Env := .plain 10 [⟨1⟩] first_signs

def secondAlone : Env := .plain 10 [⟨2⟩] second_signs

/-- The example has two groups with different creators. -/
theorem rivals_group (g : Nat) : groupAt rivals g
    = if g = 2 then some (rivalGroup 2) else if g = 1 then some (rivalGroup 1) else none := by
  by_cases h₂ : g = 2
  · simp [rivals, withRival, h₂]
  · by_cases h₁ : g = 1
    · simp [rivals, withRival, h₁]
    · simp [rivals, withRival, h₁, h₂, deployed, readAt]

/-- Registered as they should be. -/
theorem rivals_registry : Registry rivals where
  own g grp h := by
    rw [rivals_group] at h
    by_cases h₂ : g = 2
    · rw [if_pos h₂] at h
      cases h
      exact h₂.symm
    · rw [if_neg h₂] at h
      by_cases h₁ : g = 1
      · rw [if_pos h₁] at h
        cases h
        exact h₁.symm
      · rw [if_neg h₁] at h
        cases h
  below g hg := by
    have hlast : lastId rivals = 2 := rfl
    have h₁ : g ≠ 1 := by omega
    have h₂ : g ≠ 2 := by omega
    rw [rivals_group, if_neg h₂, if_neg h₁]
    exact ⟨rfl, by simp [rivals, withRival, deployed, readAt]⟩

/-- The creator of the first has no say in the second. -/
theorem rivals_stranger : Stranger firstAlone rivals 2 where
  creator grp hgrp := by
    cases hgrp
    decide
  member m hm hsigned := by
    obtain rfl : m = ⟨1⟩ := List.mem_singleton.mp hsigned
    exact hm rfl

def absorbed : State := commit (Call.mergeGroups 1 2).body firstAlone rivals

/-- **TAKEN OVER**: the first creator merges the second's group with its own.
    The second group is cancelled, its creator has signed nothing, and can no
    longer assign the positions it could assign before. -/
theorem merge_takes_over :
    groupAt rivals 2 = some (rivalGroup 2) ∧
      (Call.mergeGroups 1 2).body firstAlone rivals = .ok () absorbed ∧
      CreatorEffect rivals absorbed 2 ∧ (rivalGroup 2).creator ∉ firstAlone.signers ∧
      ¬ Votes 2 (.mergeGroups 1 2) ∧ Stranger firstAlone rivals 2 ∧
      Succeeds (assignPayoutPositions 2 ⟨2⟩ .sequential) secondAlone rivals ∧
      ¬ Succeeds (assignPayoutPositions 2 ⟨2⟩ .sequential) secondAlone
        (run [.call firstAlone (.mergeGroups 1 2)] rivals) := by
  have hkey : statusAt absorbed 2 = some .cancelled := rfl
  refine ⟨rfl, rfl, .cancelled (fun h => by cases h) hkey, by decide, id, rivals_stranger,
    ⟨(), _, rfl⟩, ?_⟩
  intro hafter
  have hpending := (assign_succeeds_iff.mp hafter).2.pending
  rw [show statusAt (run [.call firstAlone (.mergeGroups 1 2)] rivals) 2
    = some .cancelled from hkey] at hpending
  cases hpending

/-- The theorem for a newcomer, who does not stand in the way of an assignment in
    order, and for a creator who cancels. -/
theorem creator_has_the_word_instance :
    Succeeds (assignPayoutPositions 2 ⟨2⟩ .sequential) secondAlone
        (run [.call firstAlone (.joinGroup 2 ⟨1⟩ none)] rivals) ∧
      ((rivalGroup 2).creator ∈ secondAlone.signers ∨ Votes 2 (.cancelGroup 2 ⟨2⟩) ∨
        Absorbs 2 (.cancelGroup 2 ⟨2⟩)) := by
  constructor
  · refine (creator_has_the_word rivals rivals_registry 2).2 secondAlone secondAlone ⟨2⟩ .sequential
      [.call firstAlone (.joinGroup 2 ⟨1⟩ none)] ?_ ⟨(), _, rfl⟩ (by decide)
    exact ⟨⟨rivals_stranger, by simp [Disturbs]⟩, trivial⟩
  · exact (creator_has_the_word rivals rivals_registry 2).1 secondAlone (.cancelGroup 2 ⟨2⟩)
      (commit (Call.cancelGroup 2 ⟨2⟩).body secondAlone rivals) (rivalGroup 2) rfl rfl
      (fun seed => by simp) (.cancelled (fun h => by cases h) rfl)

end SaveCreator
