import StellarSave.FilingProofs
import StellarSave.RosterProofs
import StellarSave.StatusProofs

/-! # Ticks — a funded cycle is paid or written off

    `tick` runs the executor as an ordinary function and goes on when it errs:
    the cycle is then written off as defaulted, ON PURPOSE.  What the failed
    attempt wrote is not rolled back, so it matters how far it came.

    With a roster stored as a map, as every writer stores it, a payout errs
    before it has written anything but its two marks: the guard, and the flag
    in the record, over which `tick` saves its own copy.  One error comes
    later, when the paid-out total overflows; it is left out here, and so is
    the guard. -/

namespace SaveTick

open HostProg Footprint TokenLedger SaveData SavePayout SaveMembership SaveCall SaveFiling
open SaveStatus SaveRoster Tally

section Attempt

variable {env : Env} {s t v : State} {g : Nat} {grp : SaveData.Group}

/-- Only the fields of a cycle's end differ. -/
def Closed (grp grp' : SaveData.Group) : Prop :=
  ∃ (status : GroupStatus) (active : Bool), grp' = { grp with
    currentCycle := grp.currentCycle + 1, status := status, isActive := active }

theorem advanced_closed (grp : SaveData.Group) : Closed grp grp.advanced := by
  show Closed grp (if _ then _ else _)
  by_cases h : ({ grp with currentCycle := grp.currentCycle + 1 } : SaveData.Group).isComplete
  · rw [if_pos h]
    exact ⟨_, _, rfl⟩
  · rw [if_neg h]
    exact ⟨_, _, rfl⟩

/-- Room for one more payout in the paid-out total. -/
def PaidFits (s : State) (g : Nat) (grp : SaveData.Group) : Prop :=
  checkedI128 (grpPaidAt s g + grp.contributionAmount * grp.memberCount) ≠ none

/-- **A FAILED ATTEMPT** leaves nothing but its marks. -/
theorem executePayout_failed {e : SaveError} (hmap : TypedAt MemberMap s.persistent (.grpMbrs g))
    (hgrp : groupAt s g = some grp) (hfits : PaidFits s g grp)
    (h : executePayout g env s = .err e v) : Agree (scope [.of .grp g] True False) s v := by
  rcases executePayout_err_marks hmap h with hagree | ⟨grp', recipient, amount, hgrp', hv, hover, -⟩
  · exact hagree
  · obtain rfl := Option.some.inj (hgrp.symm.trans hgrp')
    have hamount : grp.contributionAmount * grp.memberCount = amount := hv.amount_eq
    exact absurd (hamount ▸ hover) hfits

/-- A payout that ends well notes the cycle. -/
theorem executePayout_noted {x : Unit} (hgrp : groupAt s g = some grp)
    (h : executePayout g env s = .ok x v) : v.persistent (.payout g grp.currentCycle) ≠ none := by
  obtain ⟨grp', recipient, amount, u, config, l, hp, rfl⟩ := executePayout_ok.mp h
  obtain rfl := Option.some.inj (hgrp.symm.trans hp.group)
  simp [paidState, settled, noted]

/-- **A FUNDED CYCLE IS ATTEMPTED**: when every member of a well-formed group
    has contributed, the counter says so. -/
theorem count_of_all (hbooks : InOrder s) (hwf : WellFormed s g) (hgrp : groupAt s g = some grp)
    {cycle : Nat}
    (hall : ∀ a ∈ (rosterAt s g).members, s.persistent (.contrib g cycle a) ≠ none) :
    grp.memberCount ≤ cycCountAt s g cycle := by
  have hb := hbooks.balanced g cycle
  obtain ⟨grp', hgrp', hsize⟩ := hwf.count
  obtain rfl := Option.some.inj (hgrp.symm.trans hgrp')
  rw [hsize, ← length_members]
  refine (counted_list hwf.seated.nodup).le hb.tallied.counted ?_
  intro a ha
  exact (filedAmount_eq_none hb).not.mpr (hall a ha)

end Attempt

/-- **PAID OR WRITTEN OFF**: a tick that goes through closes exactly one cycle.
    If every member had contributed to it, its payout was attempted, and where
    that ends well the payout is on record.  Where it fails, or was not due, no
    token moved and nothing but the cycle's end was written. -/
theorem tick_pays_or_defaults (env : Env) (s t : State) (g : Nat)
    (hmap : TypedAt MemberMap s.persistent (.grpMbrs g)) (h : tick g env s = .ok () t) :
    ∃ grp grp', groupAt s g = some grp ∧ groupAt t g = some grp' ∧ Closed grp grp' ∧
      (InOrder s → WellFormed s g →
        (∀ a ∈ (rosterAt s g).members, s.persistent (.contrib g grp.currentCycle a) ≠ none) →
        Succeeds (executePayout g) env s →
          t.persistent (.payout g grp.currentCycle) ≠ none) ∧
      (¬ Succeeds (executePayout g) env s ∨ cycCountAt s g grp.currentCycle < grp.memberCount →
        PaidFits s g grp →
          t.ledger = s.ledger ∧ ∀ k, k ≠ .grp g → t.persistent k = s.persistent k) := by
  obtain ⟨grp, v, hgrp, -, -, hpay, rfl⟩ := tick_ok h
  refine ⟨grp, grp.advanced, hgrp, by simp [groupAt], advanced_closed grp, ?_, ?_⟩
  · intro hbooks hwf hall ⟨x, w, hok⟩
    have hcount := count_of_all hbooks hwf hgrp hall
    have hv : EndsIn (executePayout g) env s v := by
      rcases hpay with ⟨hlt, -⟩ | ⟨-, hends⟩
      · exact absurd hcount (Nat.not_le_of_lt hlt)
      · exact hends
    -- the executor is a function: the attempt is the payout that ends well
    have hnoted : v.persistent (.payout g grp.currentCycle) ≠ none := by
      rcases hv with ⟨y, hv⟩ | ⟨e, hv⟩
      · exact executePayout_noted hgrp hv
      · rw [hok] at hv
        cases hv
    simpa using hnoted
  · intro hfail hfits
    have hv : Agree (scope [.of .grp g] True False) s v := by
      rcases hpay with ⟨-, rfl⟩ | ⟨hcount, ⟨x, hok⟩ | ⟨e, herr⟩⟩
      · exact Agree.refl _ s
      · rcases hfail with hfail | hlt
        · exact absurd ⟨x, v, hok⟩ hfail
        · exact absurd hcount (Nat.not_le_of_lt hlt)
      · exact executePayout_failed hmap hgrp hfits herr
    refine ⟨hv.ledger not_false, ?_⟩
    intro k hk
    rw [HostState.set_persistent, if_neg hk]
    refine hv.persistent k ?_
    -- of the group's entries a failed attempt marks the record alone
    rintro ⟨p, hp, hcov⟩
    rw [List.mem_singleton] at hp
    subst hp
    obtain ⟨hkind, rfl⟩ := hcov
    cases k with
    | grp j => exact hk rfl
    | _ => cases hkind

/-! The funded pair, after the deadline of cycle `0`. -/

/-- Long after the deadline, nobody signs. -/
def lateEnv : Env := .plain 2000 [] List.not_mem_nil

theorem pairState_members (n : Nat) : (rosterAt (pairState 3 n) 1).members = [⟨1⟩, ⟨2⟩] := rfl

theorem pairState_map (n : Nat) : TypedAt MemberMap (pairState 3 n).persistent (.grpMbrs 1) :=
  typedAt_of_readAt (a := ((∅ : MemberMap).insert 0 ⟨1⟩).insert 1 ⟨2⟩) rfl

/-- **WRITTEN OFF**: both members of the pair have contributed, the contract
    holds only half of it, and the tick closes the cycle without a payout. -/
theorem funded_cycle_written_off :
    (∀ a ∈ (rosterAt (pairState 3 100) 1).members,
        (pairState 3 100).persistent (.contrib 1 0 a) ≠ none) ∧
      ∃ t, tick 1 lateEnv (pairState 3 100) = .ok () t ∧
        (groupAt t 1).map Group.currentCycle = some 1 ∧ t.persistent (.payout 1 0) = none := by
  refine ⟨?_, _, rfl, rfl, rfl⟩
  rw [pairState_members]
  decide

/-- The theorem at the pair whose payout goes through, and at the one whose
    payout fails. -/
theorem tick_pays_or_defaults_instance :
    (∃ t, tick 1 lateEnv (pairState 3 200) = .ok () t ∧
      ∃ grp grp', groupAt (pairState 3 200) 1 = some grp ∧ groupAt t 1 = some grp' ∧
        Closed grp grp') ∧
      ∃ t, tick 1 lateEnv (pairState 3 100) = .ok () t ∧ t.ledger = (pairState 3 100).ledger := by
  constructor
  · obtain ⟨grp, grp', hgrp, hgrp', hclosed, -⟩ :=
      tick_pays_or_defaults lateEnv (pairState 3 200) _ 1 (pairState_map 200) rfl
    exact ⟨_, rfl, grp, grp', hgrp, hgrp', hclosed⟩
  · obtain ⟨grp, grp', hgrp, -, -, -, hfailed⟩ :=
      tick_pays_or_defaults lateEnv (pairState 3 100) _ 1 (pairState_map 100) rfl
    obtain rfl := Option.some.inj (hgrp.symm.trans (rfl : _ = some (pairGroup 3)))
    have hfits : PaidFits (pairState 3 100) 1 (pairGroup 3) := by
      show checkedI128 200 ≠ none
      decide
    refine ⟨_, rfl, (hfailed (Or.inl ?_) hfits).1⟩
    rintro ⟨x, t, h⟩
    cases h

end SaveTick
