import StellarSave.DeadlineProofs

/-! # Clocks — two readings of the elapsed time

    `helpers::calculate_current_cycle` caps the number of elapsed cycles and then
    narrows it to a `u32`; `cycle_advancement::get_current_cycle` narrows it first.
    What is cut off there makes a late time look like an early cycle. -/

namespace SaveClock

open HostProg Footprint TokenLedger SaveData SaveMembership SaveLifecycle SaveRoster
open SaveCompletion (startedDuo)
open SaveDeadline (startedGroup startedDuo_group)

/-- `helpers::calculate_current_cycle`: a cycle without length is a division by
    zero, a group without members an underflow. -/
def calculateCurrentCycle (g : Nat) : SaveM Nat := do
  let grp : SaveData.Group ← getOr (.grp g) .groupNotFound
  if grp.started = false then pure 0 else do
    let time ← now
    if time < grp.startedAt then pure 0 else do
      demand (grp.cycleDuration ≠ 0)
      let cycles := (time - grp.startedAt) / grp.cycleDuration
      demand (1 ≤ grp.maxMembers)
      pure (min cycles (grp.maxMembers - 1))

/-- The cycles that have gone by, not narrowed. -/
def elapsedCycles (grp : SaveData.Group) (time : Nat) : Nat :=
  (time - grp.startedAt) / grp.cycleDuration

/-- What is left of a number of cycles in a `u32`. -/
def narrowed (cycles : Nat) : Nat := cycles % (u32Max + 1)

/-- At the first time both clocks show the same cycle, up to the cap of the one
    that caps lower, and neither goes back until the second. -/
def ClocksAgree (env : Env) (s : State) (g : Nat) (grp : SaveData.Group) (time time' : Nat) : Prop :=
  ∃ cycle cycle',
    calculateCurrentCycle g { env with timestamp := time } s = .ok cycle s ∧
    calculateCurrentCycle g { env with timestamp := time' } s = .ok cycle' s ∧
    min (getCurrentCycle grp time) (grp.maxMembers - 1) = cycle ∧
    cycle ≤ cycle' ∧ getCurrentCycle grp time ≤ getCurrentCycle grp time'

/-- There is a cycle to count and somebody to count it for, once the group has
    started. -/
def Countable (grp : SaveData.Group) (time : Nat) : Prop :=
  time < grp.startedAt ∨ (0 < grp.cycleDuration ∧ 0 < grp.maxMembers)

instance (grp : SaveData.Group) (time : Nat) : Decidable (Countable grp time) :=
  inferInstanceAs (Decidable (_ ∨ _))

/-- What narrowing takes away is above the caps, or nothing. -/
def NothingLost (grp : SaveData.Group) (time time' : Nat) : Prop :=
  (elapsedCycles grp time ≤ u32Max ∨ grp.maxMembers - 1 ≤ narrowed (elapsedCycles grp time)) ∧
    (narrowed (elapsedCycles grp time) ≤ narrowed (elapsedCycles grp time') ∨
      grp.maxMembers ≤ narrowed (elapsedCycles grp time'))

instance (grp : SaveData.Group) (time time' : Nat) : Decidable (NothingLost grp time time') :=
  inferInstanceAs (Decidable (_ ∧ _))

section Clocks

variable {env : Env} {s : State} {g time time' cycle : Nat} {grp : SaveData.Group}

theorem elapsedCycles_mono (h : time ≤ time') : elapsedCycles grp time ≤ elapsedCycles grp time' :=
  Nat.div_le_div_right (Nat.sub_le_sub_right h _)

theorem calculateCurrentCycle_ok (hgrp : groupAt s g = some grp) (hstarted : grp.started = true) :
    calculateCurrentCycle g { env with timestamp := time } s = .ok cycle s ↔
      Countable grp time ∧ min (elapsedCycles grp time) (grp.maxMembers - 1) = cycle := by
  have hread : calculateCurrentCycle g { env with timestamp := time } s = .ok cycle s ↔
      (time < grp.startedAt ∧ 0 = cycle) ∨ (¬ time < grp.startedAt ∧ grp.cycleDuration ≠ 0 ∧
        1 ≤ grp.maxMembers ∧ min (elapsedCycles grp time) (grp.maxMembers - 1) = cycle) := by
    simp [calculateCurrentCycle, hgrp, hstarted, elapsedCycles]
  rw [hread, Countable]
  by_cases hearly : time < grp.startedAt
  · have hnone : elapsedCycles grp time = 0 := by
      rw [elapsedCycles, Nat.sub_eq_zero_of_le (Nat.le_of_lt hearly), Nat.zero_div]
    simp [hearly, hnone]
  · simp [hearly, Nat.pos_iff_ne_zero, and_assoc, Nat.one_le_iff_ne_zero]

/-- The other clock, where there is anything to count. -/
theorem getCurrentCycle_eq (hstarted : grp.started = true) (h : Countable grp time) :
    getCurrentCycle grp time = min (narrowed (elapsedCycles grp time)) grp.maxMembers := by
  rw [getCurrentCycle, narrowed, elapsedCycles]
  by_cases hearly : time < grp.startedAt
  · have hnone : time - grp.startedAt = 0 := Nat.sub_eq_zero_of_le (Nat.le_of_lt hearly)
    simp [hearly, hnone]
  · have hlength : grp.cycleDuration ≠ 0 := Nat.pos_iff_ne_zero.mp (h.resolve_left hearly).1
    simp [hstarted, hearly, hlength]

theorem narrowed_le (cycles : Nat) : narrowed cycles ≤ cycles := Nat.mod_le _ _

/-- Capped, the narrowed number is the number itself exactly when nothing is lost
    below the cap. -/
theorem narrowed_capped_iff {cycles cap : Nat} :
    min (narrowed cycles) cap = min cycles cap ↔ cycles ≤ u32Max ∨ cap ≤ narrowed cycles := by
  have hle := narrowed_le cycles
  by_cases hfits : cycles ≤ u32Max
  · have hsame : narrowed cycles = cycles := Nat.mod_eq_of_lt (Nat.lt_succ_of_le hfits)
    simp [hsame, hfits]
  · have hlost : narrowed cycles < cycles := by
      have hbound : narrowed cycles < u32Max + 1 := Nat.mod_lt _ (Nat.succ_pos _)
      omega
    simp only [hfits, false_or]
    omega

theorem capped_le_iff {m n cap : Nat} : min m cap ≤ min n cap ↔ m ≤ n ∨ cap ≤ n := by
  omega

/-- **ONE PAIR OF TIMES**. -/
theorem clocksAgree_iff (hgrp : groupAt s g = some grp) (hstarted : grp.started = true)
    (htimes : time ≤ time') :
    ClocksAgree env s g grp time time' ↔ Countable grp time' ∧ NothingLost grp time time' := by
  have hmono : min (elapsedCycles grp time) (grp.maxMembers - 1) ≤
      min (elapsedCycles grp time') (grp.maxMembers - 1) :=
    capped_le_iff.mpr (Or.inl (elapsedCycles_mono htimes))
  -- the number of cycles caps both answers
  have hcap : min (min (narrowed (elapsedCycles grp time)) grp.maxMembers) (grp.maxMembers - 1) =
      min (narrowed (elapsedCycles grp time)) (grp.maxMembers - 1) := by
    rw [Nat.min_assoc, Nat.min_eq_right (Nat.sub_le _ _)]
  constructor
  · rintro ⟨cycle, cycle', hc, hc', hsame, -, hback⟩
    obtain ⟨hcount, hcycle⟩ := (calculateCurrentCycle_ok hgrp hstarted).mp hc
    obtain ⟨hcount', -⟩ := (calculateCurrentCycle_ok hgrp hstarted).mp hc'
    rw [getCurrentCycle_eq hstarted hcount] at hsame hback
    rw [getCurrentCycle_eq hstarted hcount'] at hback
    rw [hcap, ← hcycle] at hsame
    exact ⟨hcount', narrowed_capped_iff.mp hsame, capped_le_iff.mp hback⟩
  -- and the other way: what is lost in narrowing is cut off by the cap
  · rintro ⟨hcount', hlost, hback⟩
    have hcount : Countable grp time := hcount'.imp_left (Nat.lt_of_le_of_lt htimes)
    refine ⟨_, _, (calculateCurrentCycle_ok hgrp hstarted).mpr ⟨hcount, rfl⟩,
      (calculateCurrentCycle_ok hgrp hstarted).mpr ⟨hcount', rfl⟩, ?_, hmono, ?_⟩
    · rw [getCurrentCycle_eq hstarted hcount, hcap]
      exact narrowed_capped_iff.mpr hlost
    · rw [getCurrentCycle_eq hstarted hcount, getCurrentCycle_eq hstarted hcount']
      exact capped_le_iff.mpr hback

/-- While the cycles fit a `u32` nothing is lost. -/
theorem nothingLost_of_fits (htimes : time ≤ time') (h : elapsedCycles grp time' ≤ u32Max) :
    NothingLost grp time time' := by
  have hle : elapsedCycles grp time ≤ elapsedCycles grp time' := elapsedCycles_mono htimes
  refine ⟨Or.inl (hle.trans h), Or.inl ?_⟩
  rw [narrowed, narrowed, Nat.mod_eq_of_lt (Nat.lt_succ_of_le h),
    Nat.mod_eq_of_lt (Nat.lt_succ_of_le (hle.trans h))]
  exact hle

/-- At all times a clock can show: as long as the last of them is not so late
    that the cycles need more than a `u32`. -/
theorem clocksAgree_always_iff (hgrp : groupAt s g = some grp) (hstarted : grp.started = true)
    (hlength : 0 < grp.cycleDuration) (hmembers : 2 ≤ grp.maxMembers) :
    (∀ time time', time ≤ time' → time' ≤ u64Max → ClocksAgree env s g grp time time') ↔
      elapsedCycles grp u64Max ≤ u32Max := by
  constructor
  · intro hall
    by_contra hlate
    -- the first time at which the narrowed number is zero again
    have hfits : grp.startedAt + grp.cycleDuration * (u32Max + 1) ≤ u64Max := by
      have hspan : (u32Max + 1) * grp.cycleDuration ≤ u64Max - grp.startedAt :=
        (Nat.le_div_iff_mul_le hlength).mp (Nat.lt_of_not_le hlate)
      have hpos : 0 < (u32Max + 1) * grp.cycleDuration := Nat.mul_pos (Nat.succ_pos _) hlength
      rw [Nat.mul_comm]
      omega
    have hcycles : elapsedCycles grp (grp.startedAt + grp.cycleDuration * (u32Max + 1)) = u32Max + 1 := by
      rw [elapsedCycles, Nat.add_sub_cancel_left, Nat.mul_div_cancel_left _ hlength]
    obtain ⟨-, hlost, -⟩ := (clocksAgree_iff hgrp hstarted (Nat.le_refl _)).mp
      (hall _ _ (Nat.le_refl _) hfits)
    rw [hcycles, narrowed, Nat.mod_self] at hlost
    omega
  · intro hfits time time' htimes hlast
    refine (clocksAgree_iff hgrp hstarted htimes).mpr ⟨Or.inr ⟨hlength, by omega⟩, ?_⟩
    exact nothingLost_of_fits htimes ((elapsedCycles_mono hlast).trans hfits)

end Clocks

/-- **WHEN THE CLOCKS AGREE**: at two times exactly when nothing is lost below the
    caps, and at all times exactly when no clock can show a cycle beyond the last
    `u32`. -/
theorem cycle_clocks_agree_iff {s : State} {g : Nat} {grp : SaveData.Group} (env : Env)
    (hgrp : groupAt s g = some grp) (hstarted : grp.started = true) :
    (∀ time time', time ≤ time' →
      (ClocksAgree env s g grp time time' ↔ Countable grp time' ∧ NothingLost grp time time')) ∧
    (0 < grp.cycleDuration → 2 ≤ grp.maxMembers →
      ((∀ time time', time ≤ time' → time' ≤ u64Max → ClocksAgree env s g grp time time') ↔
        elapsedCycles grp u64Max ≤ u32Max)) :=
  ⟨fun _ _ htimes => clocksAgree_iff hgrp hstarted htimes,
    fun hlength hmembers => clocksAgree_always_iff hgrp hstarted hlength hmembers⟩

/-- In the second cycle both clocks show it. -/
theorem cycle_clocks_agree_second : ClocksAgree trioEnv startedDuo 1 startedGroup 10 1010 :=
  ((cycle_clocks_agree_iff trioEnv startedDuo_group rfl).1 10 1010 (by decide)).mpr
    ⟨Or.inr (by decide), by decide⟩

/-- **AN EARLY CYCLE, LATE**: `2 ^ 32` cycles after the start one clock is back at the
    first cycle, and the other shows the last. -/
theorem late_time_looks_early :
    groupAt startedDuo 1 = some startedGroup ∧ startedGroup.started = true ∧
      getCurrentCycle startedGroup 2010 = 2 ∧ getCurrentCycle startedGroup 4294967296010 = 0 ∧
      calculateCurrentCycle 1 { trioEnv with timestamp := 4294967296010 } startedDuo
        = .ok 2 startedDuo ∧
      ¬ ClocksAgree trioEnv startedDuo 1 startedGroup 4294967296010 4294967296010 ∧
      ¬ ClocksAgree trioEnv startedDuo 1 startedGroup 2010 4294967296010 := by
  refine ⟨startedDuo_group, rfl, by decide, by decide, rfl, fun h => ?_, fun h => ?_⟩
  · obtain ⟨-, hlost, -⟩ := (clocksAgree_iff startedDuo_group rfl (Nat.le_refl _)).mp h
    exact absurd hlost (by decide)
  · obtain ⟨-, -, hback⟩ := (clocksAgree_iff startedDuo_group rfl (by decide)).mp h
    exact absurd hback (by decide)

end SaveClock
