import StellarSave.FilingProofs
import StellarSave.StandingProofs
import StellarSave.RotationProofs

/-! # Complete cycles — the counter and the scan agree

    `is_cycle_complete` compares a counter with a number; the scan of
    `get_missed_contributions` looks for every member's record.  Payouts trust
    the counter, people read the scan.

    Once a group is under way its roster stands still for good: joining needs
    a `Pending` record, leaving a `Pending` key, and neither comes back.  A
    withdrawal takes a profile and nothing else.  So only members of that one
    roster ever file, each once a cycle.

    Whoever left before still counts.  A merged group has an `Active` record
    under a `Pending` key: its members may contribute, and may be removed after
    they have.  The counter reaches the number of members exactly when the scan
    misses no more people than had contributed and left. -/

namespace SaveCompletion

open HostProg Footprint TokenLedger SaveData SaveContribution SaveMembership SaveRefund
open SaveLifecycle SaveAdmin SaveCall SaveBacking SaveFiling SaveStatus SaveStatusMachine
open SaveStanding SaveRoster SaveRotation Tally Trace

/-! ## The two tests -/

/-- `is_cycle_complete`. -/
def isCycleComplete (g cycle : Nat) : SaveM Bool := do
  let grp : Group ← getOr (.grp g) .groupNotFound
  let count : U32 ← getD (.cycCount g cycle) ⟨0⟩
  pure (decide (count.val ≥ grp.memberCount))

/-- The scan of `get_missed_contributions`. -/
def missedMembers (g cycle : Nat) (members : List Address) : SaveM (List Address) :=
  foldEach (fun (missed : List Address) member => do
    let contributed ← has (.contrib g cycle member)
    pure (if contributed = true then missed else missed ++ [member])) [] members

/-- Whether a started group is still within its grace period; plain arithmetic,
    so overflow traps. -/
def withinGrace (grp : Group) (cycle time : Nat) : SaveM Bool :=
  if grp.started = false then pure false else do
    let span ← unwrap (checkedU64 (grp.cycleDuration * (cycle + 1)))
    let deadline ← unwrap (checkedU64 (grp.startedAt + span))
    let graceEnd ← unwrap (checkedU64 (deadline + grp.gracePeriodSeconds))
    pure (decide (time ≤ graceEnd))

/-- `get_missed_contributions`: nobody is reported within the grace period. -/
def getMissedContributions (g cycle : Nat) : SaveM (List Address) := do
  let grp : Group ← getOr (.grp g) .groupNotFound
  let time ← now
  let early ← withinGrace grp cycle time
  if early = true then pure [] else do
    let roster : MemberMap ← getOr (.grpMbrs g) .groupNotFound
    missedMembers g cycle roster.members

section Tests

variable {env : Env} {s t : State} {g cycle : Nat}

/-- Who is missing: the members without a record. -/
def withoutRecord (s : State) (g cycle : Nat) (members : List Address) : List Address :=
  members.filter fun a => (s.persistent (.contrib g cycle a)).isNone

/-- The scan from any point on, by induction along the members left. -/
theorem missedMembers_from {members acc : List Address} :
    foldEach (fun (missed : List Address) member => do
      let contributed ← has (.contrib g cycle member)
      pure (if contributed = true then missed else missed ++ [member]) : _ → _ → SaveM _)
      acc members env s = .ok (acc ++ withoutRecord s g cycle members) s := by
  -- a member without a record goes to the end of the list
  induction members generalizing acc with
  | nil =>
      show (.ok acc s : Outcome State SaveError (List Address)) = .ok (acc ++ []) s
      rw [List.append_nil]
  | cons a members ih =>
      cases hrec : s.persistent (.contrib g cycle a) with
      | none =>
          have hstep : withoutRecord s g cycle (a :: members)
              = a :: withoutRecord s g cycle members := by
            simp [withoutRecord, hrec]
          rw [foldEach_cons, hstep]
          refine (bind_of_ok (bind_ok.mpr ⟨false, s, ?_, rfl⟩)).trans (ih.trans ?_)
          · simp [hrec]
          · simp
      | some v =>
          have hstep : withoutRecord s g cycle (a :: members) = withoutRecord s g cycle members := by
            simp [withoutRecord, hrec]
          rw [foldEach_cons, hstep]
          refine (bind_of_ok (bind_ok.mpr ⟨true, s, ?_, rfl⟩)).trans ih
          simp [hrec]

/-- `missed_members` lists those of the roster without a record. -/
theorem missedMembers_eq (members : List Address) :
    missedMembers g cycle members env s = .ok (withoutRecord s g cycle members) s :=
  missedMembers_from

/-- `is_cycle_complete` compares the counter with the number of members. -/
theorem isCycleComplete_eq {grp : SaveData.Group} (hgrp : groupAt s g = some grp)
    (htyped : TypedAt U32 s.persistent (.cycCount g cycle)) :
    isCycleComplete g cycle env s = .ok (decide (grp.memberCount ≤ cycCountAt s g cycle)) s := by
  simp [isCycleComplete, hgrp, htyped]

/-- Once the grace period is over the report is the scan. -/
theorem getMissedContributions_eq {grp : SaveData.Group} {roster : MemberMap}
    (hgrp : groupAt s g = some grp) (hroster : membersAt s g = some roster)
    (hlate : withinGrace grp cycle env.timestamp env s = .ok false s) :
    getMissedContributions g cycle env s
      = .ok (withoutRecord s g cycle roster.members) s := by
  simp only [getMissedContributions, getOr_bind_ok, now_bind_ok]
  refine ⟨grp, hgrp, bind_ok.mpr ⟨false, s, hlate, ?_⟩⟩
  rw [if_neg (by decide), getOr_bind_ok]
  exact ⟨roster, hroster, missedMembers_eq roster.members⟩

/-- Nobody missed exactly if everybody has a record. -/
theorem withoutRecord_eq_nil {members : List Address} :
    withoutRecord s g cycle members = [] ↔
      ∀ a ∈ members, s.persistent (.contrib g cycle a) ≠ none := by
  simp [withoutRecord, List.filter_eq_nil_iff]

end Tests

/-! ## A group under way -/

/-- A group under way: its roster stands, everybody with a profile is on it,
    and neither copy of the status is `Pending`. -/
structure Underway (s : State) (g : Nat) (roster : MemberMap) : Prop where
  registry : Registry s
  books : InOrder s
  issued : g ≤ lastId s
  listed : membersAt s g = some roster
  profiles : ∀ a, s.persistent (.mbrProf g a) ≠ none → a ∈ roster.members
  standing : ∀ grp, groupAt s g = some grp →
    grp.status ≠ .pending ∧ keyAt s g ≠ .pending ∧ grp.memberCount = roster.size

/-- Has contributed to the cycle, and is not on the roster. -/
def Departed (s : State) (g cycle : Nat) (roster : MemberMap) (a : Address) : Prop :=
  s.persistent (.contrib g cycle a) ≠ none ∧ a ∉ roster.members

section Standing

variable {env : Env} {s t : State} {g : Nat} {roster : MemberMap} {c : Call}

/-- **WHO FILES** is on the roster. -/
theorem Underway.filers_step (hs : Underway s g roster) (h : c.body env s = .ok () t)
    {cycle : Nat} {a : Address} (ha : t.persistent (.contrib g cycle a) ≠ none) :
    s.persistent (.contrib g cycle a) ≠ none ∨ a ∈ roster.members := by
  cases hc : contributesTo c with
  | none =>
      rw [call_sameBooks hs.books.rosters hc h _ (by simp [bookKinds])] at ha
      exact Or.inl ha
  | some g' =>
      obtain ⟨grp, -, -, hfiled⟩ := contribution_filed hc h
      by_cases hg : g' = g
      · -- members file by their profile, the automatic sweep goes along the roster
        subst hg
        rcases hfiled.filers ha with hold | ⟨-, hmember | hlisted⟩
        · exact Or.inl hold
        · exact Or.inr (hs.profiles a hmember)
        · exact Or.inr (by rwa [rosterAt_eq hs.listed] at hlisted)
      · rw [hfiled.elsewhere (Ne.symm hg)] at ha
        exact Or.inl ha

/-- **THE DEPARTED** stay the same people: nobody off the roster files, and no
    record goes away. -/
theorem Underway.departed_step (hs : Underway s g roster) (h : c.body env s = .ok () t)
    (cycle : Nat) (a : Address) : Departed t g cycle roster a ↔ Departed s g cycle roster a := by
  constructor
  · rintro ⟨ha, hout⟩
    exact ⟨(hs.filers_step h ha).resolve_right hout, hout⟩
  · rintro ⟨ha, hout⟩
    refine ⟨?_, hout⟩
    rwa [(inOrder_step hs.books h).2 g cycle a ha]

/-- Positions are assigned in a group that is there. -/
theorem assignPayoutPositions_group {caller : Address} {mode : AssignmentMode}
    (h : assignPayoutPositions g caller mode env s = .ok () t) :
    ∃ grp, groupAt s g = some grp := by
  obtain ⟨grp, roster, positions, v, n, h⟩ := assignPayoutPositions_iff.mp h
  exact ⟨grp, h.group⟩

/-- Switching automatic contributions rewrites profiles that are there. -/
theorem autoContribute_profiles {g' : Nat} {m a : Address}
    (h : (Call.enableAutoContribute g' m).body env s = .ok () t ∨
      (Call.disableAutoContribute g' m).body env s = .ok () t)
    (ha : t.persistent (.mbrProf g a) ≠ none) : s.persistent (.mbrProf g a) ≠ none := by
  intro hnone
  have hthere : ∀ {profile}, profileAt s g' m = some profile → ¬ (g = g' ∧ a = m) := by
    rintro profile hprofile ⟨rfl, rfl⟩
    rw [(readAt_eq_some _ _ _).mp hprofile] at hnone
    cases hnone
  refine ha ?_
  rcases h with h | h
  · obtain ⟨profile, -, hprofile, rfl | rfl⟩ := enableAutoContribute_ok h
    · simp [hthere hprofile, hnone]
    · exact hnone
  · obtain ⟨profile, -, hprofile, rfl | rfl⟩ := disableAutoContribute_ok h
    · simp [hthere hprofile, hnone]
    · exact hnone

/-- **THE ROSTER STANDS**, and profiles can only go. -/
theorem Underway.seats_step (hs : Underway s g roster) (h : c.body env s = .ok () t) :
    t.persistent (.grpMbrs g) = s.persistent (.grpMbrs g) ∧
      ∀ a, t.persistent (.mbrProf g a) ≠ none → s.persistent (.mbrProf g a) ≠ none := by
  have hagree := Within.agree_ok (w := c.footprint) h
  have hframe : (∀ k : Key, k.group = g → k.kind ∈ [Kind.grpMbrs, .mbrProf] →
      t.persistent k = s.persistent k) →
      t.persistent (.grpMbrs g) = s.persistent (.grpMbrs g) ∧
        ∀ a, t.persistent (.mbrProf g a) ≠ none → s.persistent (.mbrProf g a) ≠ none := by
    intro hsame
    refine ⟨hsame _ rfl (by simp), fun a ha => ?_⟩
    rwa [← hsame (.mbrProf g a) rfl (by simp)]
  cases c with
  -- the three that seat members need a `Pending` group; the others only go by the roster
  | joinGroup g' m referrer =>
      by_cases hg : g' = g
      · obtain ⟨grp, hopen, -⟩ := joinGroup_ok h
        exact absurd hopen.pending (hs.standing grp (hg ▸ hopen.group)).1
      · exact hframe fun k hk hkind => hagree.persistent k
          (Place.not_covered (by simp [Place.Spares, hg]) k hk hkind)
  | removeMember g' m =>
      by_cases hg : g' = g
      · obtain ⟨grp, profile, hopen, -⟩ := removeMember_ok h
        subst hg
        exact absurd hopen.status.2 (hs.standing grp hopen.group).2.1
      · exact hframe fun k hk hkind => hagree.persistent k
          (Place.not_covered (by simp [Place.Spares, hg]) k hk hkind)
  | assignPayoutPositions g' caller mode =>
      by_cases hg : g' = g
      · subst hg
        obtain ⟨grp, hgrp⟩ := assignPayoutPositions_group h
        exact absurd (assignPayoutPositions_ok h).1 (hs.standing grp hgrp).2.1
      · exact hframe fun k hk hkind => hagree.persistent k
          (Place.not_covered (by simp [Place.Spares, hg]) k hk hkind)
  | mergeGroups g₁ g₂ =>
      -- a merge seats members too, but those of a group it has just created
      obtain ⟨n, hn⟩ := quietly_ok.mp h
      refine hframe fun k hk hkind => mergeGroups_frame hn k ?_ ?_
      · have := hs.issued
        omega
      · revert hkind
        cases k.kind <;> simp
  | emergencyWithdraw g' m =>
      refine ⟨hagree.persistent _ (by simp), fun a ha hnone => ha ?_⟩
      obtain ⟨grp, total, received, -, ⟨-, -, config, l, -, -, rfl⟩ | ⟨-, rfl⟩⟩ :=
        emergencyWithdraw_ok h
      · simp [hnone]
      · simp [hnone]
  | enableAutoContribute g' m =>
      exact ⟨hagree.persistent _ (by simp),
        fun a ha => autoContribute_profiles (Or.inl h) ha⟩
  | disableAutoContribute g' m =>
      exact ⟨hagree.persistent _ (by simp),
        fun a ha => autoContribute_profiles (Or.inr h) ha⟩
  | _ =>
      exact hframe fun k hk hkind => hagree.persistent k
        (Place.not_covered (Place.spares_of_kinds rfl) k hk hkind)

/-- Nobody joins, leaves or creates a group that is under way. -/
theorem Underway.not_regroups (hs : Underway s g roster) (h : c.body env s = .ok () t) :
    ¬ Regroups s g c := by
  intro hc
  have hissued := hs.issued
  cases c with
  | joinGroup g' m referrer =>
      obtain ⟨grp, hopen, -⟩ := joinGroup_ok h
      exact (hs.standing grp (hc ▸ hopen.group)).1 hopen.pending
  | removeMember g' m =>
      obtain ⟨grp, profile, hopen, -⟩ := removeMember_ok h
      obtain rfl : g' = g := hc
      exact (hs.standing grp hopen.group).2.1 hopen.status.2
  | createGroup creator amount duration maxMembers tok grace order
  | cloneGroup caller g' o | mergeGroups g₁ g₂ =>
      have hnew : g = lastId s + 1 := hc
      omega
  | _ => exact hc

/-- **ONE CALL** keeps a group under way. -/
theorem Underway.step (hs : Underway s g roster) (h : c.body env s = .ok () t) :
    Underway t g roster := by
  obtain ⟨hroster, hprofiles⟩ := hs.seats_step h
  have hgrows := grows_step hs.registry h
  refine ⟨hgrows.registry hs.registry, (inOrder_step hs.books h).1,
    hs.issued.trans hgrows.last, (readAt_congr hroster).trans hs.listed,
    fun a ha => hs.profiles a (hprofiles a ha), fun grp' hgrp' => ?_⟩
  obtain ⟨grp, hgrp, hcount, -⟩ := steady_step hs.registry h (hs.not_regroups h) grp' hgrp'
  obtain ⟨hleft, hkey, hsize⟩ := hs.standing grp hgrp
  have hopen : ∀ grp, groupAt s g = some grp → grp.status = .pending → grp.started = false :=
    fun grp₁ hgrp₁ hpend => absurd hpend (hs.standing grp₁ hgrp₁).1
  obtain ⟨hback, hon⟩ := forward_step hs.registry h hopen grp.status grp'.status
    (recordStatus_of_group hgrp) (recordStatus_of_group hgrp')
  have hleft' : grp'.status ≠ .pending := fun he => hleft (hback he)
  exact ⟨hleft', hon hleft' (Or.inr hkey), hcount.trans hsize⟩

/-- **ALONG A RUN** the group stays under way, and the departed stay the same. -/
theorem Underway.run_departed (hs : Underway s g roster) (steps : List Step) :
    Underway (run steps s) g roster ∧
      ∀ cycle a, Departed (run steps s) g cycle roster a ↔ Departed s g cycle roster a := by
  refine exec_invariant_always (I := fun t => Underway t g roster ∧
    ∀ cycle a, Departed t g cycle roster a ↔ Departed s g cycle roster a) ?_
    ⟨hs, fun _ _ => Iff.rfl⟩ steps
  intro x u hu
  refine apply_invariant (C := fun _ _ => True) (I := fun t => Underway t g roster ∧
    ∀ cycle a, Departed t g cycle roster a ↔ Departed s g cycle roster a) ?_ ?_ ?_ x u trivial hu
  · intro env c s t _ hs h
    exact ⟨hs.1.step h, fun cycle a => (hs.1.departed_step h cycle a).trans (hs.2 cycle a)⟩
  -- neither the temporary entries nor the ledger are looked at
  · intro s hs
    exact ⟨⟨registry_apply .expire s hs.1.registry, hs.1.books.congr rfl, hs.1.issued, hs.1.listed,
      hs.1.profiles, hs.1.standing⟩, hs.2⟩
  · intro s l hs
    exact ⟨⟨registry_apply (.external l) s hs.1.registry, hs.1.books.congr rfl, hs.1.issued,
      hs.1.listed, hs.1.profiles, hs.1.standing⟩, hs.2⟩

/-- Of a group that is under way the roster stays, along every run. -/
theorem Underway.run (hs : Underway s g roster) (steps : List Step) :
    Underway (run steps s) g roster := (hs.run_departed steps).1

/-- So the number of its members stays theirs. -/
theorem Underway.counted (hs : Underway s g roster) (hnodup : roster.members.Nodup)
    {grp : SaveData.Group} (hgrp : groupAt s g = some grp) :
    Counted (· ∈ roster.members) grp.memberCount := by
  rw [(hs.standing grp hgrp).2.2, ← length_members]
  exact counted_list hnodup

/-- Those who have contributed to a cycle, those of them who are off the roster
    among them, are finitely many. -/
theorem Underway.departed_counted (hs : Underway s g roster) (cycle : Nat) :
    ∃ departed, Counted (Departed s g cycle roster) departed := by
  have hb := hs.books.balanced g cycle
  have hfilers : Counted (fun a => s.persistent (.contrib g cycle a) ≠ none)
      (cycCountAt s g cycle) :=
    hb.tallied.counted.congr fun a => (filedAmount_eq_none hb).not.symm
  exact hfilers.part

/-- **THE TWO TESTS** in a group under way: the counter is content when no more
    members are missing than have contributed and left. -/
theorem Underway.complete_iff (hs : Underway s g roster) (hnodup : roster.members.Nodup)
    {grp : SaveData.Group} (hgrp : groupAt s g = some grp) {cycle departed : Nat}
    (hdeparted : Counted (Departed s g cycle roster) departed) :
    grp.memberCount ≤ cycCountAt s g cycle ↔
      (withoutRecord s g cycle roster.members).length ≤ departed := by
  have hb := hs.books.balanced g cycle
  have hfilers : Counted (fun a => s.persistent (.contrib g cycle a) ≠ none)
      (cycCountAt s g cycle) :=
    hb.tallied.counted.congr fun a => (filedAmount_eq_none hb).not.symm
  -- the contributors are members or departed, the members contributors or missing
  obtain ⟨present, hpresent⟩ := hfilers.part (q := (· ∈ roster.members))
  have hcount := hfilers.unique (hpresent.add hdeparted)
  have hmissing : Counted (fun a => a ∈ roster.members ∧ ¬ s.persistent (.contrib g cycle a) ≠ none)
      (withoutRecord s g cycle roster.members).length := by
    refine (counted_list (hnodup.filter _)).congr fun a => ?_
    rw [List.mem_filter, Option.isNone_iff_eq_none, not_not]
  have hmembers := (hs.counted hnodup hgrp).unique
    ((hpresent.congr fun a => and_comm).add hmissing)
  omega

/-- **THE TWO TESTS AGREE** where only members have contributed. -/
theorem Underway.agree (hs : Underway s g roster) (hnodup : roster.members.Nodup)
    {grp : SaveData.Group} (hgrp : groupAt s g = some grp) {cycle : Nat}
    (honly : ∀ a, ¬ Departed s g cycle roster a) :
    grp.memberCount ≤ cycCountAt s g cycle ↔ withoutRecord s g cycle roster.members = [] := by
  rw [hs.complete_iff hnodup hgrp (counted_none honly), Nat.le_zero, List.length_eq_zero_iff]

end Standing

/-- A well-formed group that has started: its books are in order, its roster
    is stored, and neither status copy is `Pending`. -/
structure Activated (s : State) (g : Nat) : Prop where
  registry : Registry s
  books : InOrder s
  seated : WellFormed s g
  listed : ∃ roster, membersAt s g = some roster
  started : ∀ grp, groupAt s g = some grp → grp.started = true ∧ grp.status ≠ .pending
  key : keyAt s g ≠ .pending

/-- And only members have contributed. -/
structure Started (s : State) (g : Nat) : Prop extends Activated s g where
  filers : ∀ c a, s.persistent (.contrib g c a) ≠ none → a ∈ (rosterAt s g).members

/-- An activated group is under way with the roster it has. -/
theorem Activated.underway {s : State} {g : Nat} (hs : Activated s g) :
    Underway s g (rosterAt s g) where
  registry := hs.registry
  books := hs.books
  issued := by
    obtain ⟨grp, hgrp, -⟩ := hs.seated.count
    refine known_of_stored hs.registry (Or.inl ?_)
    rw [ne_eq, tagAt_eq_none, hgrp]
    exact Option.some_ne_none grp
  listed := by
    obtain ⟨roster, hroster⟩ := hs.listed
    rw [hroster, rosterAt_eq hroster]
  profiles a ha := by
    obtain ⟨profile, hprofile, -⟩ := hs.seated.profiles a ha
    exact (hs.seated.seated.only a).mpr ⟨profile.payoutPosition, seatOf_of_profile hprofile⟩
  standing grp hgrp := by
    obtain ⟨grp', hgrp', hsize⟩ := hs.seated.count
    obtain rfl := Option.some.inj (hgrp.symm.trans hgrp')
    exact ⟨(hs.started grp hgrp).2, hs.key, hsize⟩

/-- **ONE NOTION OF A COMPLETE CYCLE, BUT FOR THE DEPARTED**: in every state a
    run reaches from a well-formed started group, the counter has reached the
    member count exactly when the scan of the roster misses no more members than
    had contributed to the cycle at the start and were off the roster.  Where
    there are none, it is when the scan finds nobody missing; and once the grace
    period is over that scan is what is reported. -/
theorem complete_iff_none_missed (s : State) (g : Nat) (hs : Activated s g) (steps : List Step)
    (env : Env) (grp : SaveData.Group) (hgrp : groupAt (run steps s) g = some grp) :
    ∃ roster complete missed departed, membersAt (run steps s) g = some roster ∧
      isCycleComplete g grp.currentCycle env (run steps s) = .ok complete (run steps s) ∧
      missedMembers g grp.currentCycle roster.members env (run steps s)
        = .ok missed (run steps s) ∧
      (withinGrace grp grp.currentCycle env.timestamp env (run steps s)
          = .ok false (run steps s) →
        getMissedContributions g grp.currentCycle env (run steps s) = .ok missed (run steps s)) ∧
      Counted (Departed s g grp.currentCycle (rosterAt s g)) departed ∧
      (complete = true ↔ missed.length ≤ departed) ∧
      ((∀ a, ¬ Departed s g grp.currentCycle (rosterAt s g) a) →
        (complete = true ↔ missed = [])) := by
  obtain ⟨hrun, hsame⟩ := hs.underway.run_departed steps
  have hnodup := hs.seated.seated.nodup
  obtain ⟨departed, hdeparted⟩ := hs.underway.departed_counted grp.currentCycle
  refine ⟨rosterAt s g, _, _, departed, hrun.listed,
    isCycleComplete_eq hgrp (hrun.books.balanced g grp.currentCycle).count_typed,
    missedMembers_eq _, getMissedContributions_eq hgrp hrun.listed, hdeparted, ?_, fun hnone => ?_⟩
  · rw [decide_eq_true_iff]
    exact hrun.complete_iff hnodup hgrp (hdeparted.congr fun a => hsame grp.currentCycle a)
  · rw [decide_eq_true_iff]
    exact hrun.agree hnodup hgrp fun a ha => hnone a ((hsame grp.currentCycle a).mp ha)

/-- A well-formed group is started by its activation. -/
theorem activateGroup_activated {env : Env} {s t : State} {g : Nat} {creator : Address}
    (hreg : Registry s) (hbooks : InOrder s) (hwf : WellFormed s g)
    (hlisted : ∃ roster, membersAt s g = some roster)
    (h : activateGroup g creator env s = .ok () t) : Activated t g := by
  have hstep := registry_step (c := .activateGroup g creator) hreg h
  have hbooks' := (inOrder_step (c := .activateGroup g creator) hbooks h).1
  have hframe := (Within.agree_ok (w := Call.footprint (.activateGroup g creator)) h).persistent
  have hseats : ∀ k : Key, k.group = g → k.kind ∈ seatKinds → t.persistent k = s.persistent k := by
    intro k hg hk
    exact hframe k (Place.not_covered (Place.spares_of_kinds rfl) k hg hk)
  obtain ⟨grp, hgrp, -, -, -, -, rfl⟩ := activateGroup_ok h
  refine ⟨hstep, hbooks', hwf.congr ?_ hseats, ?_, ?_, ?_⟩
  · simp [groupAt, hgrp]
  · obtain ⟨roster, hroster⟩ := hlisted
    exact ⟨roster, by simpa [membersAt] using hroster⟩
  · intro grp' hgrp'
    simp [groupAt] at hgrp'
    subst hgrp'
    exact ⟨rfl, by simp⟩
  · simp [keyAt, statusAt]

/-- And if nobody has contributed yet, only members have. -/
theorem activated_started {env : Env} {s t : State} {g : Nat} {creator : Address}
    (hreg : Registry s) (hbooks : InOrder s) (hwf : WellFormed s g)
    (hlisted : ∃ roster, membersAt s g = some roster)
    (hempty : ∀ c a, s.persistent (.contrib g c a) = none)
    (h : activateGroup g creator env s = .ok () t) : Started t g := by
  refine ⟨activateGroup_activated hreg hbooks hwf hlisted h, ?_⟩
  obtain ⟨grp, -, -, -, -, -, rfl⟩ := activateGroup_ok h
  intro c a ha
  refine absurd (hempty c a) ?_
  simpa using ha

/-! A pair that has just started. -/

/-- The pair of members, activated. -/
def startedDuo : State := commit (Call.activateGroup 1 ⟨1⟩).body trioEnv fundedDuo

/-- The group of two starts. -/
theorem duo_starts : activateGroup 1 ⟨1⟩ trioEnv fundedDuo = .ok () startedDuo := rfl

/-- Nothing is recorded yet in the storage of the examples. -/
theorem fundedOpen_inOrder : InOrder fundedOpen :=
  inOrder_of_empty (fun _ => typedAt_of_none rfl) (fun _ _ _ => rfl) (fun _ _ => rfl) fun _ _ => rfl

/-- Nor in that of the two. -/
theorem fundedDuo_inOrder : InOrder fundedDuo :=
  (inOrder_step (c := .joinGroup 1 ⟨2⟩ none)
    (inOrder_step (c := .joinGroup 1 ⟨1⟩ none) fundedOpen_inOrder solo_joins).1 duo_joins).1

/-- Their group has just started, with a record of nobody. -/
theorem startedDuo_started : Started startedDuo 1 :=
  activated_started fundedDuo_registry fundedDuo_inOrder fundedDuo_wellFormed ⟨_, rfl⟩
    (fun _ _ => rfl) duo_starts

/-- The first of the two contributes. -/
def firstIn : State := run [.call trioEnv (.contributeWithProof 1 ⟨1⟩ 100)] startedDuo

/-- The theorem there: the counter says one of two, and the scan finds somebody
    missing. -/
theorem complete_iff_none_missed_instance :
    Activated startedDuo 1 ∧ isCycleComplete 1 0 trioEnv firstIn = .ok false firstIn ∧
      ∃ (roster : MemberMap) (missed : List Address), membersAt firstIn 1 = some roster ∧
        missedMembers 1 0 roster.members trioEnv firstIn = .ok missed firstIn ∧ missed ≠ [] := by
  obtain ⟨roster, complete, missed, departed, hroster, hcomplete, hmissed, -, -, -, hiff⟩ :=
    complete_iff_none_missed startedDuo 1 startedDuo_started.toActivated
      [.call trioEnv (.contributeWithProof 1 ⟨1⟩ 100)] trioEnv _ rfl
  have hcount : isCycleComplete 1 0 trioEnv firstIn = .ok false firstIn := rfl
  refine ⟨startedDuo_started.toActivated, hcount, roster, missed, hroster, hmissed, fun hnil => ?_⟩
  have htrue := hcomplete.symm.trans hcount
  rw [(hiff fun a ha => ha.1 rfl).mpr hnil] at htrue
  cases htrue

/-! Three members of a merged group: its record is `Active`, its key `Pending`. -/

/-- The group record of a merge. -/
def mergedRecord : SaveData.Group :=
  { Group.fresh 1 ⟨1⟩ 100 1000 3 2 0 0 false 0 with memberCount := 3 }

/-- Three members, seated, as an assignment leaves a merged group. -/
def joinedTrio : State := commit (joinGroup 1 ⟨3⟩ none) trioEnv fundedDuo
def mergedTrio : State := joinedTrio.set (.grp 1) (Codec.encode mergedRecord)

/-- The third contributes and is removed, then the group is activated. -/
def paidTrio : State := commit (contributeWithProof 1 ⟨3⟩ 100) trioEnv mergedTrio
def leftDuo : State := commit (removeMember 1 ⟨3⟩) trioEnv paidTrio
def activeDuo : State := commit (activateGroup 1 ⟨1⟩) trioEnv leftDuo

section Merged

/-- A third joins. -/
theorem trio_joins : joinGroup 1 ⟨3⟩ none trioEnv fundedDuo = .ok () joinedTrio := rfl

/-- The third pays, with a proof, when merging has made the record active. -/
theorem third_pays : contributeWithProof 1 ⟨3⟩ 100 trioEnv mergedTrio = .ok () paidTrio := rfl

/-- And leaves, since the key of the status still says pending. -/
theorem third_leaves : removeMember 1 ⟨3⟩ trioEnv paidTrio = .ok () leftDuo := rfl

/-- The two that remain start, with a record of the third behind them. -/
theorem duo_activates : activateGroup 1 ⟨1⟩ trioEnv leftDuo = .ok () activeDuo := rfl

/-- The merged group is registered like any other. -/
theorem mergedTrio_registry : Registry mergedTrio := by
  have hjoined := registry_step (c := .joinGroup 1 ⟨3⟩ none) fundedDuo_registry trio_joins
  refine ⟨fun g grp h => ?_, fun g hg => ?_⟩
  · by_cases hone : g = 1
    · subst hone
      obtain rfl := Option.some.inj ((rfl : groupAt mergedTrio 1 = some mergedRecord).symm.trans h)
      rfl
    · refine hjoined.own g grp ?_
      simpa [groupAt, mergedTrio, hone] using h
  · have hone : g ≠ 1 := fun he => absurd hg (he ▸ Nat.lt_irrefl 1)
    simpa [groupAt, mergedTrio, hone] using hjoined.below g hg

/-- And nothing is recorded in it yet. -/
theorem mergedTrio_inOrder : InOrder mergedTrio := by
  have hjoined := (inOrder_step (c := .joinGroup 1 ⟨3⟩ none) fundedDuo_inOrder trio_joins).1
  refine ⟨fun g => (hjoined.rosters g).congr (by simp [mergedTrio]), fun g c => ?_⟩
  refine (hjoined.balanced g c).congr fun k hk => ?_
  exact persistent_set_of_mem hk (by simp [bookKinds])

/-- The roster of the three is in order when the third has paid. -/
theorem paidTrio_wellFormed : WellFormed paidTrio 1 := by
  have hjoined : WellFormed joinedTrio 1 := (join_wellFormed_iff fundedDuo_wellFormed trio_joins).mpr rfl
  have hmerged : WellFormed mergedTrio 1 :=
    hjoined.congr rfl fun k _ hk => persistent_set_of_mem hk (by simp [seatKinds])
  refine hmerged.congr rfl fun k hg hk => ?_
  exact (Within.agree_ok (w := Call.footprint (.contributeWithProof 1 ⟨3⟩ 100))
    third_pays).persistent k (Place.not_covered (Place.spares_of_kinds rfl) k hg hk)

/-- The start is an activation that went through, and it finds a record of one who left. -/
theorem activeDuo_activated : Activated activeDuo 1 := by
  have hpaid := registry_step (c := .contributeWithProof 1 ⟨3⟩ 100) mergedTrio_registry third_pays
  have hbooks := (inOrder_step (c := .contributeWithProof 1 ⟨3⟩ 100) mergedTrio_inOrder third_pays).1
  have hleft : WellFormed leftDuo 1 :=
    (remove_wellFormed_iff paidTrio_wellFormed third_leaves).mpr ⟨2, rfl, rfl, rfl⟩
  exact activateGroup_activated (registry_step (c := .removeMember 1 ⟨3⟩) hpaid third_leaves)
    (inOrder_step (c := .removeMember 1 ⟨3⟩) hbooks third_leaves).1 hleft ⟨_, rfl⟩ duo_activates

end Merged

/-- The first of the two contributes. -/
def onePaid : State := run [.call trioEnv (.contributeWithProof 1 ⟨1⟩ 100)] activeDuo

/-- **COMPLETE, AND THE SECOND IS MISSING**: the one who left still counts. -/
theorem departed_completes :
    Activated activeDuo 1 ∧ Departed activeDuo 1 0 (rosterAt activeDuo 1) ⟨3⟩ ∧
      isCycleComplete 1 0 trioEnv onePaid = .ok true onePaid ∧
      missedMembers 1 0 (rosterAt onePaid 1).members trioEnv onePaid = .ok [⟨2⟩] onePaid := by
  have hroster : (rosterAt activeDuo 1).members = [⟨1⟩, ⟨2⟩] := rfl
  refine ⟨activeDuo_activated, ⟨?_, ?_⟩, rfl, rfl⟩
  · have hrec : (activeDuo.persistent (.contrib 1 0 ⟨3⟩)).isSome := rfl
    exact Option.isSome_iff_ne_none.mp hrec
  · rw [hroster]
    decide

/-- A second open group, and the calls that bring it there from two open groups. -/
def twoOpen : State :=
  (fundedDuo.set .cntNextG (Codec.encode (U64.mk 2))).set (.grp 2) (Codec.encode { openGroup with id := 2 })
def mergeAndLeave : List Step :=
  [.call trioEnv (.joinGroup 2 ⟨3⟩ none), .call trioEnv (.mergeGroups 1 2),
    .call trioEnv (.assignPayoutPositions 3 ⟨1⟩ .sequential),
    .call trioEnv (.contributeWithProof 3 ⟨3⟩ 100), .call trioEnv (.removeMember 3 ⟨3⟩),
    .call trioEnv (.activateGroup 3 ⟨1⟩), .call trioEnv (.contributeWithProof 3 ⟨1⟩ 100)]

example : isCycleComplete 3 0 trioEnv (run mergeAndLeave twoOpen)
      = .ok true (run mergeAndLeave twoOpen) ∧
    missedMembers 3 0 (rosterAt (run mergeAndLeave twoOpen) 3).members trioEnv
      (run mergeAndLeave twoOpen) = .ok [⟨2⟩] (run mergeAndLeave twoOpen) := ⟨rfl, rfl⟩

end SaveCompletion
