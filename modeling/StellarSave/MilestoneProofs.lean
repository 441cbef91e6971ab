import StellarSave.RewardProofs
import StellarSave.ViewProofs
import StellarSave.StreakProofs

/-! # Milestones — counted as they come, counted again from the records

    `update_streak` counts contributions in the order they are made, and emits a
    milestone when the count crosses a threshold.  `get_member_milestones` counts
    the cycles with a record, in the order of the cycles and up to the current one.
    A batch may pay cycles ahead, and in any order: what is then a chain for the one
    is no row for the other. -/

namespace SaveMilestone

open HostProg Footprint TokenLedger SaveData SaveContribution SaveMembership SaveCall SaveStatus
open SaveRecord SaveFiling SaveBacking SaveRoster Streak Trace
open SaveView (getMemberMilestones milestoneThresholds replayStreak getGroup)
open SaveReward (readyToPay)
open SaveRotation (fundedOpen fundedOpen_registry)

/-- The thresholds are between two and the largest count. -/
theorem threshold_bounds {n : Nat} (hn : n ∈ milestoneThresholds) : 2 ≤ n ∧ n ≤ u32Max := by
  simp only [milestoneThresholds, List.mem_cons, List.not_mem_nil, or_false] at hn
  rcases hn with rfl | rfl | rfl
  · exact ⟨by decide, by decide⟩
  · exact ⟨by decide, by decide⟩
  · exact ⟨by decide, by decide⟩

/-! ## As they come -/

/-- The events of `update_streak`: each threshold crossed, with the cycle. -/
def reached (old new : ContributionStreak) (cycle : Nat) : List (Nat × Nat) :=
  (passed milestoneThresholds old.currentStreak new.currentStreak).map (·, cycle)

/-- The events of one `update_streak` after the other. -/
def emitted : ContributionStreak → List Nat → List (Nat × Nat)
  | _, [] => []
  | streak, cycle :: cycles =>
      reached streak (nextStreak streak cycle) cycle ++ emitted (nextStreak streak cycle) cycles

/-- A streak counts the chain of the cycles it was updated for, the latest first. -/
structure Counts (visits : List Nat) (streak : ContributionStreak) : Prop where
  count : streak.currentStreak = min (chain visits) u32Max
  last : streak.lastContributedCycle = visits.headD u32Max

section Online

variable {streak : ContributionStreak} {visits cycles : List Nat} {n c : Nat}

/-- A streak begins at zero. -/
theorem counts_default : Counts [] .default := ⟨rfl, rfl⟩

/-- **ONE UPDATE** counts one more; the sentinel is a cycle that no other follows. -/
theorem Counts.next (h : Counts visits streak) (hc : c ≤ u32Max) :
    Counts (c :: visits) (nextStreak streak c) := by
  refine ⟨?_, rfl⟩
  rw [nextStreak]
  show (if streak.lastContributedCycle = u32Max then 1 else
    if c = streak.lastContributedCycle + 1 then saturatingU32 (streak.currentStreak + 1) else 1) = _
  cases visits with
  | nil =>
      have hlast : streak.lastContributedCycle = u32Max := h.last
      rw [if_pos hlast]
      rfl
  | cons d visits =>
      have hlast : streak.lastContributedCycle = d := h.last
      rw [hlast, chain_cons_cons]
      -- a contribution to the last `u32` looks like none at all, and nothing can follow it either
      by_cases hsentinel : d = u32Max
      · rw [if_pos hsentinel, if_neg (by omega)]
        rfl
      · rw [if_neg hsentinel]
        by_cases hnext : c = d + 1
        · rw [if_pos hnext, if_pos hnext, saturatingU32, h.count]
          omega
        · rw [if_neg hnext, if_neg hnext]
          rfl

/-- An update emits a threshold when the chain comes to stand on it. -/
theorem mem_reached (h : Counts visits streak) (hc : c ≤ u32Max) {d : Nat} :
    (n, d) ∈ reached streak (nextStreak streak c) c ↔
      d = c ∧ n ∈ milestoneThresholds ∧ chain (c :: visits) = n := by
  have hstep : chain (c :: visits) = chain visits + 1 ∨ chain (c :: visits) ≤ 1 := by
    cases visits with
    | nil => exact Or.inr (Nat.le_refl 1)
    | cons e visits =>
        rw [chain_cons_cons]
        by_cases hnext : c = e + 1
        · exact Or.inl (if_pos hnext)
        · exact Or.inr (Nat.le_of_eq (if_neg hnext))
  rw [reached, List.mem_map, h.count, (h.next hc).count]
  constructor
  · rintro ⟨mark, hmark, heq⟩
    obtain ⟨rfl, rfl⟩ := Prod.mk.inj heq
    obtain ⟨hthreshold, hpassed⟩ := mem_passed.mp hmark
    obtain ⟨htwo, hbound⟩ := threshold_bounds hthreshold
    exact ⟨rfl, hthreshold, (passes_iff htwo hbound hstep).mp hpassed⟩
  · rintro ⟨rfl, hthreshold, hchain⟩
    obtain ⟨htwo, hbound⟩ := threshold_bounds hthreshold
    exact ⟨n, mem_passed.mpr ⟨hthreshold, (passes_iff htwo hbound hstep).mpr hchain⟩, rfl⟩

/-- **WHAT IS EMITTED**: a threshold for each chain of contributions that came to
    stand on it, with the cycle of its last. -/
theorem mem_emitted (h : Counts visits streak) (hcycles : ∀ c ∈ cycles, c ≤ u32Max) :
    (n, c) ∈ emitted streak cycles ↔ n ∈ milestoneThresholds ∧
      ∃ before after, cycles = before ++ c :: after ∧ chain (c :: (before.reverse ++ visits)) = n := by
  induction cycles generalizing streak visits with
  | nil => simp [emitted]
  | cons d cycles ih =>
      have hd := hcycles d List.mem_cons_self
      rw [emitted, List.mem_append, mem_reached h hd,
        ih (h.next hd) fun e he => hcycles e (List.mem_cons_of_mem _ he)]
      constructor
      · rintro (⟨rfl, hthreshold, hchain⟩ | ⟨hthreshold, before, after, rfl, hchain⟩)
        · exact ⟨hthreshold, [], cycles, rfl, hchain⟩
        · refine ⟨hthreshold, d :: before, after, rfl, ?_⟩
          rwa [List.reverse_cons, List.append_assoc]
      · rintro ⟨hthreshold, before, after, hsplit, hchain⟩
        cases before with
        | nil =>
            obtain ⟨rfl, rfl⟩ := List.cons.inj hsplit
            exact Or.inl ⟨rfl, hthreshold, hchain⟩
        | cons e before =>
            obtain ⟨rfl, rfl⟩ := List.cons.inj hsplit
            rw [List.reverse_cons, List.append_assoc] at hchain
            exact Or.inr ⟨hthreshold, before, after, rfl, hchain⟩

end Online

/-! ## From the records -/

/-- The member has a contribution record for the cycle. -/
def given (s : State) (g : Nat) (m : Address) (c : Nat) : Bool :=
  (s.persistent (.contrib g c m)).isSome

/-- A replay of the cycles below `k`. -/
structure Replays (visited : Nat → Bool) (k : Nat) (replay : Nat × Option Nat × List (Nat × Nat)) :
    Prop where
  count : replay.1 = min (row visited k) u32Max
  /-- A contribution to the next cycle goes on from here. -/
  goesOn : replay.2.1.all (fun last => decide (k = last + 1)) = true
  milestones : ∀ n c, (n, c) ∈ replay.2.2 ↔
    n ∈ milestoneThresholds ∧ c < k ∧ row visited (c + 1) = n

section Replay

variable {visited : Nat → Bool} {k : Nat} {replay : Nat × Option Nat × List (Nat × Nat)}
  {env : Env} {s : State} {g : Nat} {m : Address} {grp : SaveData.Group}

/-- **ONE CYCLE** of the replay. -/
theorem Replays.next (h : Replays visited k replay) :
    Replays visited (k + 1) (replayStreak replay k (visited k)) := by
  -- a visited cycle makes the chain longer, a missed one ends it
  cases hvisited : visited k with
  | true =>
      have hrow := row_of_visited hvisited
      have hstreak : saturatingU32 (replay.1 + 1) = min (row visited (k + 1)) u32Max := by
        rw [saturatingU32, h.count, hrow]
        omega
      rw [replayStreak, if_pos rfl]
      simp only [h.goesOn, if_true, hstreak]
      refine ⟨rfl, by simp, fun n c => ?_⟩
      show (n, c) ∈ replay.2.2 ++ (passed milestoneThresholds replay.1 _).map (·, k) ↔ _
      rw [List.mem_append, h.milestones, List.mem_map, h.count]
      constructor
      · rintro (⟨hthreshold, hlt, hn⟩ | ⟨mark, hmark, heq⟩)
        · exact ⟨hthreshold, Nat.lt_succ_of_lt hlt, hn⟩
        · obtain ⟨rfl, rfl⟩ := Prod.mk.inj heq
          obtain ⟨hthreshold, hpassed⟩ := mem_passed.mp hmark
          obtain ⟨htwo, hbound⟩ := threshold_bounds hthreshold
          exact ⟨hthreshold, Nat.lt_succ_self _, (passes_iff htwo hbound (Or.inl hrow)).mp hpassed⟩
      · rintro ⟨hthreshold, hlt, hn⟩
        rcases Nat.lt_succ_iff_lt_or_eq.mp hlt with hlt | rfl
        · exact Or.inl ⟨hthreshold, hlt, hn⟩
        · obtain ⟨htwo, hbound⟩ := threshold_bounds hthreshold
          exact Or.inr ⟨n, mem_passed.mpr ⟨hthreshold, (passes_iff htwo hbound (Or.inl hrow)).mpr hn⟩, rfl⟩
  | false =>
      have hrow := row_of_not hvisited
      rw [replayStreak, if_neg (by simp)]
      refine ⟨by rw [hrow]; rfl, rfl, fun n c => ?_⟩
      show (n, c) ∈ replay.2.2 ↔ _
      rw [h.milestones]
      constructor
      · rintro ⟨hthreshold, hlt, hn⟩
        exact ⟨hthreshold, Nat.lt_succ_of_lt hlt, hn⟩
      · rintro ⟨hthreshold, hlt, hn⟩
        rcases Nat.lt_succ_iff_lt_or_eq.mp hlt with hlt | rfl
        · exact ⟨hthreshold, hlt, hn⟩
        · -- a gap stands on no threshold
          have htwo := (threshold_bounds hthreshold).1
          omega

/-- The replay of the first cycles follows what was visited. -/
theorem replays_range (k : Nat) :
    Replays visited k ((List.range k).foldl (fun replay c => replayStreak replay c (visited c))
      (0, none, [])) := by
  induction k with
  | zero => exact ⟨rfl, rfl, fun n c => by simp⟩
  | succ k ih =>
      rw [List.range_succ, List.foldl_append]
      exact ih.next

/-- **WHAT IS RECONSTRUCTED**: a threshold for each row of recorded cycles, up to
    the current one, that comes to stand on it. -/
theorem getMemberMilestones_eq (hgrp : groupAt s g = some grp)
    (hmem : s.persistent (.mbrProf g m) ≠ none) :
    ∃ ms, getMemberMilestones g m env s = .ok ms s ∧ ∀ n c, (n, c) ∈ ms ↔
      n ∈ milestoneThresholds ∧ c ≤ grp.currentCycle ∧ row (given s g m) (c + 1) = n := by
  refine ⟨((List.range (grp.currentCycle + 1)).foldl
    (fun replay c => replayStreak replay c (given s g m c)) (0, none, [])).2.2, ?_, ?_⟩
  · rw [getMemberMilestones, getGroup, getOr_bind_ok]
    refine ⟨grp, hgrp, ?_⟩
    rw [has_bind_ok, failIf_bind_ok]
    refine ⟨by simpa [Option.isSome_iff_ne_none] using hmem, ?_⟩
    refine bind_ok.mpr ⟨_, s, foldEach_of_value (f := fun replay c =>
      replayStreak replay c (given s g m c)) ?_ _ _, rfl⟩
    intro replay c
    rw [has_bind_ok]
    rfl
  · intro n c
    have hreplays : Replays (given s g m) (grp.currentCycle + 1) _ := replays_range _
    rw [hreplays.milestones, Nat.lt_succ_iff]

end Replay

/-! ## What a step records -/

/-- The cycles a call may record a contribution for, in its order. -/
def listed (s : State) : Call → List Nat
  | .contribute g _ _ | .contributeWithProof g _ _ | .executeAutoContributions g =>
      ((groupAt s g).map Group.currentCycle).toList
  | .contributeBatch _ _ cycles => cycles
  | _ => []

/-- The cycles a step records for a member, in order. -/
def recordedBy (g : Nat) (m : Address) (x : Step) (s : State) : List Nat :=
  match x with
  | .call _ c => (listed s c).filter fun cycle => !given s g m cycle && given (apply x s) g m cycle
  | _ => []

/-- From `s` to `t` the member's contributions to these cycles were recorded, one
    `update_streak` after the other. -/
structure Files (g : Nat) (m : Address) (s t : State) (cycles : List Nat) : Prop where
  streak : streakAt t g m = cycles.foldl nextStreak (streakAt s g m)
  given : ∀ c, given t g m c = (given s g m c || decide (c ∈ cycles))
  fresh : ∀ c ∈ cycles, SaveMilestone.given s g m c = false

section Files

variable {env : Env} {s t u : State} {g g' c : Nat} {m a : Address} {cycles cycles' : List Nat}
  {amount : Int}

/-- A call that leaves streak and records of the member files nothing. -/
theorem Files.of_same (hstreak : t.persistent (.mbrStrk g m) = s.persistent (.mbrStrk g m))
    (hrecords : ∀ c, t.persistent (.contrib g c m) = s.persistent (.contrib g c m)) :
    Files g m s t [] := by
  refine ⟨?_, fun c => ?_, fun c hc => absurd hc List.not_mem_nil⟩
  · rw [streakAt, readAt_congr hstreak]
    rfl
  · rw [SaveMilestone.given, hrecords]
    simp [SaveMilestone.given]

/-- To do nothing is one. -/
theorem Files.refl (s : State) : Files g m s s [] := .of_same rfl fun _ => rfl

/-- What else changes does not matter. -/
theorem Files.then_same (h : Files g m s u cycles) (hu : t.persistent = u.persistent) :
    Files g m s t cycles := by
  refine ⟨?_, fun c => ?_, h.fresh⟩
  · rw [← h.streak, streakAt, streakAt, hu]
  · rw [← h.given, SaveMilestone.given, SaveMilestone.given, hu]

/-- Filings follow one another. -/
theorem Files.trans (h : Files g m s u cycles) (h' : Files g m u t cycles') :
    Files g m s t (cycles ++ cycles') := by
  refine ⟨?_, fun c => ?_, fun c hc => ?_⟩
  · rw [h'.streak, h.streak, List.foldl_append]
  · rw [h'.given, h.given, Bool.or_assoc]
    simp [List.mem_append]
  · rcases List.mem_append.mp hc with hc | hc
    · exact h.fresh c hc
    · have hu := h'.fresh c hc
      rw [h.given, Bool.or_eq_false_iff] at hu
      exact hu.1

/-- The member's own record, if it is the member's. -/
def own (g g' : Nat) (m a : Address) (cycles : List Nat) : List Nat :=
  if g = g' ∧ m = a then cycles else []

/-- **ONE RECORD**. -/
theorem files_recorded {time : Nat} (hfree : s.persistent (.contrib g' c a) = none) :
    Files g m s (recorded s g' c a amount time) (own g g' m a [c]) := by
  by_cases hown : g = g' ∧ m = a
  · obtain ⟨rfl, rfl⟩ := hown
    rw [own, if_pos ⟨rfl, rfl⟩]
    refine ⟨by simp [recorded, streakAt], fun d => ?_, fun d hd => ?_⟩
    · by_cases hd : d = c
      · simp [given, recorded, hd]
      · simp [given, recorded, hd]
    · obtain rfl := List.mem_singleton.mp hd
      rw [given, hfree]
      rfl
  · rw [own, if_neg hown]
    refine .of_same (by simp [recorded, hown]) fun d => ?_
    have hne : ¬ (g = g' ∧ d = c ∧ m = a) := fun h => hown ⟨h.1, h.2.2⟩
    simp [recorded, hne]

/-- A contribution files the current cycle, for its member. -/
theorem contribute_files {x : Unit} (h : contribute g' a amount env s = .ok x t) :
    ∃ grp, groupAt s g' = some grp ∧ Files g m s t (own g g' m a [grp.currentCycle]) := by
  obtain ⟨grp, config, l, hc, rfl⟩ := contribute_ok h
  refine ⟨grp, hc.group, Files.then_same (files_recorded ?_) rfl⟩
  exact hc.free

/-- So does one with a proof. -/
theorem contributeWithProof_files {x : Unit} (h : contributeWithProof g' a amount env s = .ok x t) :
    ∃ grp, groupAt s g' = some grp ∧ Files g m s t (own g g' m a [grp.currentCycle]) := by
  obtain ⟨⟨-, ⟨grp, hgrp, -, rfl, -, hfree, -⟩, -⟩, grp', hgrp', rfl⟩ :=
    contributeWithProof_ok.mp h
  rw [hgrp] at hgrp'
  obtain rfl := Option.some.inj hgrp'
  exact ⟨grp, hgrp, files_recorded hfree⟩

/-- The loop of a batch, by induction along its cycles. -/
theorem recordBatch_files {time : Nat} {x : Unit}
    (hrun : forEach (fun cycle => do
      let _ ← recordContributionUnchecked g' cycle a amount time
      pure ()) cycles env s = .ok x t)
    (hnodup : cycles.Nodup) (hfree : ∀ c ∈ cycles, s.persistent (.contrib g' c a) = none) :
    Files g m s t (own g g' m a cycles) := by
  -- a cycle of the batch comes after those recorded before it
  induction cycles generalizing s with
  | nil =>
      rw [forEach_nil, pure_ok] at hrun
      have hnil : own g g' m a [] = [] := ite_self _
      rw [← hrun.2, hnil]
      exact .refl s
  | cons c cycles ih =>
      rw [forEach_cons, bind_bind_ok, recordContributionUnchecked_bind_ok, pure_bind_ok] at hrun
      obtain ⟨-, hrest⟩ := hrun
      obtain ⟨hc, hnodup'⟩ := List.nodup_cons.mp hnodup
      have hsplit : own g g' m a (c :: cycles) = own g g' m a [c] ++ own g g' m a cycles := by
        by_cases hown : g = g' ∧ m = a
        · simp [own, hown]
        · simp [own, hown]
      rw [hsplit]
      refine (files_recorded (hfree c List.mem_cons_self)).trans (ih hrest hnodup' ?_)
      intro d hd
      have hne : d ≠ c := fun he => hc (he ▸ hd)
      simpa [recorded, hne] using hfree d (List.mem_cons_of_mem _ hd)

/-- A batch files its cycles, in their order. -/
theorem contributeBatch_files {x : Unit} (h : contributeBatch g' a cycles env s = .ok x t) :
    Files g m s t (own g g' m a cycles) := by
  obtain ⟨grp, config, w, l, hbatch, rfl⟩ := contributeBatch_ok h
  exact (recordBatch_files hbatch.recorded hbatch.distinct fun c hc => (hbatch.upcoming c hc).2).then_same rfl

/-- One member of the automatic sweep. -/
theorem autoContributeMember_files {tok : Address} {time executed executed' : Nat}
    (hrun : autoContributeMember g' c tok amount time executed a env u = .ok executed' t) :
    Files g m u t [] ∨ Files g m u t [c] := by
  rcases autoContributeMember_ok hrun with ⟨-, rfl⟩ | ⟨l, hfree, -, -, -, rfl⟩
  · exact Or.inl (.refl u)
  · have hfiles : Files g m u (recorded u g' c a amount time) (own g g' m a [c]) := files_recorded hfree
    by_cases hown : g = g' ∧ m = a
    · rw [own, if_pos hown] at hfiles
      exact Or.inr (hfiles.then_same rfl)
    · rw [own, if_neg hown] at hfiles
      exact Or.inl (hfiles.then_same rfl)

/-- The sweep records each member once at most, the second slot of one included. -/
theorem executeAutoContributions_files {n : Nat}
    (h : executeAutoContributions g' env s = .ok n t) :
    ∃ grp, groupAt s g' = some grp ∧
      (Files g m s t [] ∨ Files g m s t [grp.currentCycle]) := by
  obtain ⟨grp, config, roster, hgrp, -, -, -, hrun⟩ := executeAutoContributions_ok h
  refine ⟨grp, hgrp, foldEach_invariant
    (I := fun _ v => Files g m s v [] ∨ Files g m s v [grp.currentCycle]) ?_ (Or.inl (.refl s)) hrun⟩
  intro b hb _ v _ w hv hstep
  rcases autoContributeMember_files (g := g) (m := m) hstep with hnone | hone
  · rcases hv with hv | hv
    · exact Or.inl (hv.trans hnone)
    · exact Or.inr (hv.trans hnone)
  · rcases hv with hv | hv
    · exact Or.inr (hv.trans hone)
    · -- the slot was filled before
      have hfilled := hv.given grp.currentCycle
      rw [hone.fresh _ (List.mem_singleton_self _)] at hfilled
      simp at hfilled

/-- All the other calls record nothing. -/
theorem other_files {call : Call} (hc : contributesTo call = none)
    (h : call.body env s = .ok () t) : Files g m s t [] := by
  have hagree := Within.agree_ok (w := call.footprint) h
  cases call with
  | contribute | contributeBatch | executeAutoContributions | contributeWithProof => cases hc
  | _ =>
      exact .of_same (hagree.persistent _ (Place.other_kind rfl))
        fun c => hagree.persistent _ (Place.other_kind rfl)

/-- What a call records is all that is listed, or nothing. -/
theorem call_files {call : Call} (h : call.body env s = .ok () t) :
    ∃ cycles, (cycles = [] ∨ cycles = listed s call) ∧ Files g m s t cycles := by
  have hown : ∀ {g' : Nat} {a : Address} {cycles : List Nat}, Files g m s t (own g g' m a cycles) →
      ∃ xs, (xs = [] ∨ xs = cycles) ∧ Files g m s t xs := by
    intro g' a cycles hfiles
    -- a contribution of somebody else, or to another group, files nothing here
    by_cases hmine : g = g' ∧ m = a
    · rw [own, if_pos hmine] at hfiles
      exact ⟨cycles, Or.inr rfl, hfiles⟩
    · rw [own, if_neg hmine] at hfiles
      exact ⟨[], Or.inl rfl, hfiles⟩
  cases call with
  | contribute g' a n =>
      obtain ⟨grp, hgrp, hfiles⟩ := contribute_files (g := g) (m := m) h
      rw [listed, hgrp]
      exact hown hfiles
  | contributeWithProof g' a n =>
      obtain ⟨grp, hgrp, hfiles⟩ := contributeWithProof_files (g := g) (m := m) h
      rw [listed, hgrp]
      exact hown hfiles
  | contributeBatch g' a cycles => exact hown (contributeBatch_files h)
  -- the collection contributes for each member it charges, this one among them or not
  | executeAutoContributions g' =>
      obtain ⟨n, hn⟩ := quietly_ok.mp h
      obtain ⟨grp, hgrp, hnone | hone⟩ := executeAutoContributions_files (g := g) (m := m) hn
      · exact ⟨[], Or.inl rfl, hnone⟩
      · rw [listed, hgrp]
        exact ⟨_, Or.inr rfl, hone⟩
  | _ => exact ⟨[], Or.inl rfl, other_files rfl h⟩

/-- **ONE STEP** records what it is said to. -/
theorem step_files (x : Step) (s : State) : Files g m s (apply x s) (recordedBy g m x s) := by
  cases x with
  | call env call =>
      have hread : ∀ {cycles : List Nat}, (cycles = [] ∨ cycles = listed s call) →
          Files g m s (apply (.call env call) s) cycles →
          Files g m s (apply (.call env call) s) (recordedBy g m (.call env call) s) := by
        intro cycles hcycles hfiles
        have hsame : recordedBy g m (.call env call) s = cycles := by
          rcases hcycles with rfl | rfl
          · refine List.filter_eq_nil_iff.mpr fun c _ => ?_
            rw [hfiles.given]
            simp
          · refine List.filter_eq_self.mpr fun c hc => ?_
            rw [hfiles.given, hfiles.fresh c hc]
            simpa using hc
        rw [hsame]
        exact hfiles
      rcases commit_eq_or call env s with ⟨t, ht, he⟩ | ⟨-, he⟩
      · have happly : apply (.call env call) s = t := he
        obtain ⟨cycles, hcycles, hfiles⟩ := call_files (g := g) (m := m) ht
        exact hread hcycles (happly ▸ hfiles)
      · have happly : apply (.call env call) s = s := he
        exact hread (Or.inl rfl) (happly.symm ▸ .refl s)
  | expire => exact (Files.refl s).then_same rfl
  | external l => exact (Files.refl s).then_same rfl

end Files

/-! ## Runs -/

/-- The cycles a run records for a member, in order. -/
def recordedAlong (g : Nat) (m : Address) : List Step → State → List Nat
  | [], _ => []
  | x :: xs, s => recordedBy g m x s ++ recordedAlong g m xs (apply x s)

/-- The milestones a run emits for a member. -/
def emittedAlong (g : Nat) (m : Address) : List Step → State → List (Nat × Nat)
  | [], _ => []
  | x :: xs, s =>
      emitted (streakAt s g m) (recordedBy g m x s) ++ emittedAlong g m xs (apply x s)

/-- The member has never contributed to the group. -/
structure Untouched (s : State) (g : Nat) (m : Address) : Prop where
  streak : streakAt s g m = .default
  records : ∀ c, given s g m c = false

/-- What is reconstructed is what was emitted. -/
def Agrees (env : Env) (s : State) (g : Nat) (m : Address) (events : List (Nat × Nat)) : Prop :=
  ∃ ms, getMemberMilestones g m env s = .ok ms s ∧ ∀ x, x ∈ ms ↔ x ∈ events

/-- A contribution stands on a threshold in the chain of contributions, counted in
    the order they were made, exactly when it is due and stands on it in the row of
    contributed cycles. -/
def InStep (cycles : List Nat) (current : Nat) : Prop :=
  ∀ n ∈ milestoneThresholds, ∀ c,
    (∃ before after, cycles = before ++ c :: after ∧ chain (c :: before.reverse) = n) ↔
      c ≤ current ∧ row (fun d => decide (d ∈ cycles)) (c + 1) = n

section Runs

variable {env : Env} {s t : State} {g : Nat} {m : Address} {grp : SaveData.Group} {steps : List Step}

/-- What is emitted is emitted cycle by cycle. -/
theorem emitted_append (streak : ContributionStreak) (xs ys : List Nat) :
    emitted streak (xs ++ ys) = emitted streak xs ++ emitted (xs.foldl nextStreak streak) ys := by
  induction xs generalizing streak with
  | nil => rfl
  | cons c xs ih => rw [List.cons_append, emitted, emitted, ih, List.append_assoc, List.foldl_cons]

/-- A run files what its calls do. -/
theorem run_files (steps : List Step) (s : State) :
    Files g m s (run steps s) (recordedAlong g m steps s) := by
  induction steps generalizing s with
  | nil => exact .refl s
  | cons x steps ih => exact (step_files x s).trans (ih (apply x s))

/-- The events of a run are those of its cycles, one after the other. -/
theorem emittedAlong_eq (steps : List Step) (s : State) :
    emittedAlong g m steps s = emitted (streakAt s g m) (recordedAlong g m steps s) := by
  induction steps generalizing s with
  | nil => rfl
  | cons x steps ih =>
      rw [emittedAlong, recordedAlong, emitted_append, ih, (step_files x s).streak]

/-- The records after a run are those of the cycles it filed. -/
theorem given_run (hs : Untouched s g m) (c : Nat) :
    given (run steps s) g m c = decide (c ∈ recordedAlong g m steps s) := by
  rw [(run_files steps s).given, hs.records, Bool.false_or]

/-- **EXACTLY WHEN THEY AGREE**, at the end of any run. -/
theorem agrees_iff (hs : Untouched s g m) (hu : ∀ c ∈ recordedAlong g m steps s, c ≤ u32Max)
    (hgrp : groupAt (run steps s) g = some grp)
    (hmem : (run steps s).persistent (.mbrProf g m) ≠ none) :
    Agrees env (run steps s) g m (emittedAlong g m steps s) ↔
      InStep (recordedAlong g m steps s) grp.currentCycle := by
  -- both sides are read off the cycles the run filed
  have hvisited : given (run steps s) g m = fun c => decide (c ∈ recordedAlong g m steps s) :=
    funext fun c => given_run hs c
  have hemitted : ∀ n c, (n, c) ∈ emittedAlong g m steps s ↔ n ∈ milestoneThresholds ∧
      ∃ before after, recordedAlong g m steps s = before ++ c :: after ∧
        chain (c :: before.reverse) = n := by
    intro n c
    rw [emittedAlong_eq, hs.streak, mem_emitted counts_default hu]
    simp only [List.append_nil]
  obtain ⟨ms, hms, hmem_ms⟩ := @getMemberMilestones_eq env _ _ _ _ hgrp hmem
  rw [hvisited] at hmem_ms
  constructor
  -- if the answers agree, a chain and a row end at the same cycles
  · rintro ⟨ms', hms', hagree⟩ n hn c
    obtain ⟨rfl, -⟩ := Outcome.ok.inj (hms.symm.trans hms')
    have hboth := (hmem_ms n c).symm.trans ((hagree (n, c)).trans (hemitted n c))
    rw [and_congr_right_iff] at hboth
    exact (hboth hn).symm
  · intro hstep
    refine ⟨ms, hms, ?_⟩
    rintro ⟨n, c⟩
    rw [hmem_ms, hemitted]
    exact and_congr_right fun hn => (hstep n hn c).symm

/-! ## In order and when due -/

/-- The contributions of a step come in the order of their cycles, after all the
    earlier ones, and none that ends a row of a threshold's length is ahead of the
    current cycle. -/
structure Orderly (g : Nat) (m : Address) (x : Step) (s : State) : Prop where
  fits : ∀ c ∈ recordedBy g m x s, c ≤ u32Max
  ascends : (recordedBy g m x s).Pairwise (· < ·)
  above : ∀ c ∈ recordedBy g m x s, ∀ d, given s g m d = true → d < c
  due : ∀ c ∈ recordedBy g m x s, row (given (apply x s) g m) (c + 1) ∈ milestoneThresholds →
    ∀ grp, groupAt s g = some grp → c ≤ grp.currentCycle

/-- The cycles of an orderly run go up. -/
theorem recordedAlong_ascends (hrun : Along apply (Orderly g m) steps s) :
    (recordedAlong g m steps s).Pairwise (· < ·) ∧
      ∀ c ∈ recordedAlong g m steps s, c ≤ u32Max ∧ ∀ d, given s g m d = true → d < c := by
  induction steps generalizing s with
  | nil => exact ⟨.nil, fun c hc => absurd hc List.not_mem_nil⟩
  | cons x steps ih =>
      obtain ⟨hx, hrest⟩ := hrun
      obtain ⟨hascends, habove⟩ := ih hrest
      have hgiven := (step_files (g := g) (m := m) x s).given
      rw [recordedAlong]
      refine ⟨List.pairwise_append.mpr ⟨hx.ascends, hascends, fun c hc d hd => ?_⟩, fun c hc => ?_⟩
      · exact (habove d hd).2 c (by rw [hgiven]; simp [hc])
      · rcases List.mem_append.mp hc with hc | hc
        · exact ⟨hx.fits c hc, hx.above c hc⟩
        · obtain ⟨hfits, hlast⟩ := habove c hc
          exact ⟨hfits, fun d hd => hlast d (by rw [hgiven, hd]; rfl)⟩

/-- What is kept along an orderly run: nothing is recorded for a group that there
    has not been, and no row has come to a threshold ahead of its time. -/
structure Due (g : Nat) (m : Address) (s : State) : Prop where
  registry : Registry s
  issued : ∀ c, given s g m c = true → g ≤ lastId s
  due : ∀ c, row (given s g m) (c + 1) ∈ milestoneThresholds →
    ∀ grp, groupAt s g = some grp → c ≤ grp.currentCycle

/-- A group that something is recorded for is there. -/
theorem group_of_recordedBy {x : Step} {c : Nat} (hc : c ∈ recordedBy g m x s) :
    ∃ env call t grp, x = .call env call ∧ call.body env s = .ok () t ∧ groupAt s g = some grp := by
  -- only a contribution files a cycle, and it reads the group's record
  cases x with
  | call env call =>
      have hfiles := step_files (g := g) (m := m) (.call env call) s
      have hnew := hfiles.fresh c hc
      have hgiven : given (apply (.call env call) s) g m c = true := by
        rw [hfiles.given]
        simp [hc]
      rcases commit_eq_or call env s with ⟨t, ht, he⟩ | ⟨-, he⟩
      · have happly : apply (.call env call) s = t := he
        rw [happly] at hgiven
        refine ⟨env, call, t, ?_⟩
        by_cases hfor : contributesTo call = some g
        · obtain ⟨grp, hgrp, -⟩ := contribution_filed hfor ht
          exact ⟨grp, rfl, ht, hgrp⟩
        · -- the books of other groups are not touched
          have hkept := Within.agree_ok (w := call.footprint) ht
          have hsame : t.persistent (.contrib g c m) = s.persistent (.contrib g c m) := by
            refine hkept.persistent _ ?_
            cases call with
            | contribute g' a n | contributeBatch g' a cycles | executeAutoContributions g'
            | contributeWithProof g' a n =>
                have hne : g ≠ g' := fun he => hfor (congrArg some he.symm)
                simp [Call.footprint, hne]
            | _ => exact Place.other_kind rfl
          rw [given, hsame] at hgiven
          exact absurd (hnew.symm.trans hgiven) (by decide)
      · have happly : apply (.call env call) s = s := he
        rw [happly, hnew] at hgiven
        cases hgiven
  | expire => exact absurd hc List.not_mem_nil
  | external l => exact absurd hc List.not_mem_nil

/-- A cycle does not go back, and ids do not come back. -/
theorem group_step (hreg : Registry s) (x : Step) :
    lastId s ≤ lastId (apply x s) ∧ ∀ grp', groupAt (apply x s) g = some grp' →
      (∃ grp, groupAt s g = some grp ∧ grp.currentCycle ≤ grp'.currentCycle) ∨ g = lastId s + 1 := by
  have hkept : apply x s = s → lastId s ≤ lastId (apply x s) ∧
      ∀ grp', groupAt (apply x s) g = some grp' →
        (∃ grp, groupAt s g = some grp ∧ grp.currentCycle ≤ grp'.currentCycle) ∨ g = lastId s + 1 := by
    intro he
    rw [he]
    exact ⟨Nat.le_refl _, fun grp hgrp => Or.inl ⟨grp, hgrp, Nat.le_refl _⟩⟩
  cases x with
  | call env call =>
      rcases commit_eq_or call env s with ⟨t, ht, he⟩ | ⟨-, he⟩
      · have happly : apply (.call env call) s = t := he
        rw [happly]
        refine ⟨(grows_step hreg ht).last, fun grp' hgrp' => ?_⟩
        rcases record_rewritten hreg ht g grp' hgrp' with ⟨grp, hgrp, rfl | hrewrites⟩ | ⟨hnew, -⟩
        · exact Or.inl ⟨grp', hgrp, Nat.le_refl _⟩
        · exact Or.inl ⟨grp, hgrp, rewrites_cycle hrewrites⟩
        · exact Or.inr hnew
      · exact hkept he
  | expire => exact ⟨Nat.le_refl _, fun grp hgrp => Or.inl ⟨grp, hgrp, Nat.le_refl _⟩⟩
  | external l => exact ⟨Nat.le_refl _, fun grp hgrp => Or.inl ⟨grp, hgrp, Nat.le_refl _⟩⟩

/-- **ONE ORDERLY STEP** keeps what is due. -/
theorem due_step (x : Step) (s : State) (hx : Orderly g m x s) (hs : Due g m s) :
    Due g m (apply x s) := by
  have hgiven := (step_files (g := g) (m := m) x s).given
  obtain ⟨hlast, hgroup⟩ := group_step (g := g) hs.registry x
  -- nothing is filed in a group that is not there
  have hrecorded : ∀ c ∈ recordedBy g m x s, g ≤ lastId s := by
    intro c hc
    obtain ⟨-, -, -, grp, -, -, hgrp⟩ := group_of_recordedBy hc
    by_contra hlt
    have hnone := (hs.registry.below g (Nat.lt_of_not_le hlt)).1
    rw [hnone] at hgrp
    cases hgrp
  have hissued : ∀ c, given (apply x s) g m c = true → g ≤ lastId s := by
    intro c hc
    rw [hgiven, Bool.or_eq_true, decide_eq_true_eq] at hc
    rcases hc with hc | hc
    · exact hs.issued c hc
    · exact hrecorded c hc
  refine ⟨registry_apply x s hs.registry, fun c hc => (hissued c hc).trans hlast, ?_⟩
  intro c hrow grp' hgrp'
  have hc : given (apply x s) g m c = true :=
    visited_of_row (Nat.lt_of_lt_of_le Nat.zero_lt_two (threshold_bounds hrow).1)
  -- the group was there before the step, or is new and has no rows
  rcases hgroup grp' hgrp' with ⟨grp, hgrp, hle⟩ | hnew
  · refine Nat.le_trans ?_ hle
    rw [hgiven, Bool.or_eq_true, decide_eq_true_eq] at hc
    rcases hc with hold | hadded
    · -- what the step adds lies above an old row
      have hsame : ∀ i, i < c + 1 → given (apply x s) g m i = given s g m i := by
        intro i hi
        have hout : i ∉ recordedBy g m x s := by
          intro hmem
          have hlt := hx.above i hmem c hold
          omega
        rw [hgiven]
        simp [hout]
      rw [row_congr hsame] at hrow
      exact hs.due c hrow grp hgrp
    · exact hx.due c hadded hrow grp hgrp
  · have hle := hissued c hc
    omega

/-- Contributions in the order of their cycles, none of which stands on a threshold that
    is not due yet, are in step. -/
theorem inStep_of_ascending {cycles : List Nat} {current : Nat} (hascends : cycles.Pairwise (· < ·))
    (hdue : ∀ c, row (fun d => decide (d ∈ cycles)) (c + 1) ∈ milestoneThresholds → c ≤ current) :
    InStep cycles current := by
  intro n hn c
  constructor
  · rintro ⟨before, after, rfl, hchain⟩
    have hrow : row (fun d => decide (d ∈ before ++ c :: after)) (c + 1) = n := by
      rw [← hchain, chain_of_ascending hascends]
    exact ⟨hdue c (hrow ▸ hn), hrow⟩
  · rintro ⟨-, hrow⟩
    have hpos : 0 < row (fun d => decide (d ∈ cycles)) (c + 1) := by
      rw [hrow]
      exact Nat.lt_of_lt_of_le Nat.zero_lt_two (threshold_bounds hn).1
    obtain ⟨before, after, hsplit⟩ :=
      List.append_of_mem (of_decide_eq_true (visited_of_row hpos))
    refine ⟨before, after, hsplit, ?_⟩
    rw [hsplit] at hascends hrow
    rw [chain_of_ascending hascends, hrow]

/-- **AN ORDERLY RUN** is in step. -/
theorem inStep_of_orderly (hreg : Registry s) (hs : Untouched s g m)
    (hrun : Along apply (Orderly g m) steps s) (hgrp : groupAt (run steps s) g = some grp) :
    InStep (recordedAlong g m steps s) grp.currentCycle := by
  have hdue : Due g m (run steps s) := by
    refine exec_invariant due_step ⟨hreg, fun c hc => ?_, fun c hrow => ?_⟩ hrun
    · rw [hs.records] at hc
      cases hc
    · have hc : given s g m c = true :=
        visited_of_row (Nat.lt_of_lt_of_le Nat.zero_lt_two (threshold_bounds hrow).1)
      rw [hs.records] at hc
      cases hc
  have hvisited : given (run steps s) g m = fun c => decide (c ∈ recordedAlong g m steps s) :=
    funext fun c => given_run hs c
  refine inStep_of_ascending (recordedAlong_ascends hrun).1 fun c hrow => ?_
  rw [← hvisited] at hrow
  exact hdue.due c hrow grp hgrp

/-- **ONLINE AND REPLAYED**: at the end of any run they agree exactly when the
    contributions are in step with the rows of cycles; along an orderly run they
    agree in every state. -/
theorem milestones_agree (hreg : Registry s) (hs : Untouched s g m) (steps : List Step) :
    (∀ env grp, (∀ c ∈ recordedAlong g m steps s, c ≤ u32Max) →
      groupAt (run steps s) g = some grp → (run steps s).persistent (.mbrProf g m) ≠ none →
      (Agrees env (run steps s) g m (emittedAlong g m steps s) ↔
        InStep (recordedAlong g m steps s) grp.currentCycle)) ∧
    (Along apply (Orderly g m) steps s → ∀ before after, steps = before ++ after →
      ∀ env grp, groupAt (run before s) g = some grp →
        (run before s).persistent (.mbrProf g m) ≠ none →
        Agrees env (run before s) g m (emittedAlong g m before s)) := by
  refine ⟨fun env grp hu hgrp hmem => agrees_iff hs hu hgrp hmem, ?_⟩
  rintro hrun before after rfl env grp hgrp hmem
  obtain ⟨hbefore, -⟩ := (along_append apply (Orderly g m) before after s).mp hrun
  have hu : ∀ c ∈ recordedAlong g m before s, c ≤ u32Max :=
    fun c hc => ((recordedAlong_ascends hbefore).2 c hc).1
  exact (agrees_iff hs hu hgrp hmem).mpr (inStep_of_orderly hreg hs hbefore hgrp)

end Runs

/-! Five contributions paid ahead. -/

/-- Nobody has contributed in the example yet. -/
theorem fundedOpen_untouched : Untouched fundedOpen 1 ⟨1⟩ where
  streak := rfl
  records c := by simp [given, fundedOpen, deployed]

/-- When every deadline is past. -/
def muchLater : Env := .plain 100000 [⟨1⟩, ⟨2⟩, ⟨3⟩] trio_signs

/-- A group of six cycles, of which the first member pays five ahead; then the fifth is
    reached. -/
def caughtUp : List Step :=
  .call trioEnv (.updateGroup 1 100 1000 6) :: readyToPay ++
    [.call trioEnv (.contributeBatch 1 ⟨1⟩ [0, 1, 2, 3, 4])] ++
    List.replicate 4 (.call muchLater (.tick 1))

/-- The theorem where a milestone was emitted and its cycle has come. -/
theorem milestones_agree_caught_up :
    emittedAlong 1 ⟨1⟩ caughtUp fundedOpen = [(5, 4)] ∧
      Agrees trioEnv (run caughtUp fundedOpen) 1 ⟨1⟩ (emittedAlong 1 ⟨1⟩ caughtUp fundedOpen) := by
  have hemitted : emittedAlong 1 ⟨1⟩ caughtUp fundedOpen = [(5, 4)] := by decide +kernel
  have hrecorded : recordedAlong 1 ⟨1⟩ caughtUp fundedOpen = [0, 1, 2, 3, 4] := by decide +kernel
  have hcycle : (groupAt (run caughtUp fundedOpen) 1).map Group.currentCycle = some 4 := by
    decide +kernel
  obtain ⟨grp, hgrp, hfour⟩ := Option.map_eq_some_iff.mp hcycle
  have hmem : (run caughtUp fundedOpen).persistent (.mbrProf 1 ⟨1⟩) ≠ none :=
    Option.isSome_iff_ne_none.mp (by decide +kernel)
  refine ⟨hemitted, ((milestones_agree fundedOpen_registry fundedOpen_untouched caughtUp).1 trioEnv
    grp ?_ hgrp hmem).mpr ?_⟩
  · rw [hrecorded]
    decide
  · rw [hrecorded, hfour]
    refine inStep_of_ascending (by decide) fun c hrow => ?_
    -- a row that stands on a threshold ends with a contribution
    have hpaid : c ∈ [0, 1, 2, 3, 4] := of_decide_eq_true
      (visited_of_row (Nat.lt_of_lt_of_le Nat.zero_lt_two (threshold_bounds hrow).1))
    simp only [List.mem_cons, List.not_mem_nil, or_false] at hpaid
    omega

/-- The first member pays for five cycles in the first of them. -/
def fivePaid : List Step := readyToPay ++ [.call trioEnv (.contributeBatch 1 ⟨1⟩ [0, 1, 2, 3, 4])]

/-- **EMITTED, NOT RECONSTRUCTED**: the fifth contribution in a row is announced, for
    cycle `4`; the group is in cycle `0`, and the replay looks no further. -/
theorem paid_ahead_not_reconstructed :
    emittedAlong 1 ⟨1⟩ fivePaid fundedOpen = [(5, 4)] ∧
      (∃ ms, getMemberMilestones 1 ⟨1⟩ trioEnv (run fivePaid fundedOpen) =
        .ok ms (run fivePaid fundedOpen) ∧ (5, 4) ∉ ms) ∧
      ¬ Agrees trioEnv (run fivePaid fundedOpen) 1 ⟨1⟩ (emittedAlong 1 ⟨1⟩ fivePaid fundedOpen) := by
  have hemitted : emittedAlong 1 ⟨1⟩ fivePaid fundedOpen = [(5, 4)] := by decide +kernel
  obtain ⟨grp, hgrp⟩ : ∃ grp, groupAt (run fivePaid fundedOpen) 1 = some grp :=
    Option.isSome_iff_exists.mp (by decide +kernel)
  have hcycle : grp.currentCycle = 0 := by
    have h : (groupAt (run fivePaid fundedOpen) 1).map Group.currentCycle = some 0 := by
      decide +kernel
    rw [hgrp] at h
    exact Option.some.inj h
  have hmem : (run fivePaid fundedOpen).persistent (.mbrProf 1 ⟨1⟩) ≠ none :=
    Option.isSome_iff_ne_none.mp (by decide +kernel)
  obtain ⟨ms, hms, hmilestones⟩ := @getMemberMilestones_eq trioEnv _ _ _ _ hgrp hmem
  have hout : (5, 4) ∉ ms := by
    intro hin
    have hdue := ((hmilestones 5 4).mp hin).2.1
    omega
  refine ⟨hemitted, ⟨ms, hms, hout⟩, ?_⟩
  rintro ⟨ms', hms', hagree⟩
  obtain ⟨rfl, -⟩ := Outcome.ok.inj (hms.symm.trans hms')
  exact hout ((hagree (5, 4)).mpr (hemitted ▸ List.mem_singleton_self _))

end SaveMilestone
