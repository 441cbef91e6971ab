import Mathlib.Data.Rat.Defs
import StellarSave.OverlapProofs

/-! # Reputation — totals that are read and written back

    `recordContribution` reads the record of an address, adds to its totals and writes
    them back; the indexer starts it for each event that it stores and does not wait for
    it.  A call that reads before another has written writes over what that one counted. -/

namespace Reputation

open Trace Overlap

/-- What is stored under an address. -/
structure MemberReputationTotals where
  totalContributions : Int
  onTimeContributions : Int
  score : ℚ
  deriving DecidableEq

/-- A contribution event of a member. -/
structure Contribution where
  address : String
  onTime : Bool
  deriving DecidableEq

/-- `existing?.totalContributions ?? 0`. -/
def totalOf (existing : Option MemberReputationTotals) : Int :=
  (existing.map MemberReputationTotals.totalContributions).getD 0

/-- `existing?.onTimeContributions ?? 0`. -/
def onTimeOf (existing : Option MemberReputationTotals) : Int :=
  (existing.map MemberReputationTotals.onTimeContributions).getD 0

/-- What `recordContribution` hands to `upsertTotals`, by what `findByAddress` gave it. -/
def recordContribution (event : Contribution) (existing : Option MemberReputationTotals) :
    Option MemberReputationTotals :=
  let totalContributions := totalOf existing + 1
  let onTimeContributions := onTimeOf existing + if event.onTime = true then 1 else 0
  let score : ℚ := if totalContributions > 0 then onTimeContributions / totalContributions else 0
  some ⟨totalContributions, onTimeContributions, score⟩

/-- `findByAddress` and `upsertTotals` of any number of calls, one after the other. -/
abbrev step : Event Contribution → State Contribution String (Option MemberReputationTotals) →
    State Contribution String (Option MemberReputationTotals) :=
  Overlap.step Contribution.address recordContribution

/-- The calls for an address. -/
def callsFor (address : String) (s : State Contribution String (Option MemberReputationTotals)) : Nat :=
  s.calls.countP fun c => decide (c.input.address = address)

/-- Those that are on time. -/
def onTimeCallsFor (address : String)
    (s : State Contribution String (Option MemberReputationTotals)) : Nat :=
  s.calls.countP fun c => decide (c.input.address = address) && c.input.onTime

/-- Both totals have grown by what the calls report. -/
def CountsAll (address : String) (before : Option MemberReputationTotals)
    (s : State Contribution String (Option MemberReputationTotals)) : Prop :=
  totalOf (s.store address) = totalOf before + callsFor address s ∧
    onTimeOf (s.store address) = onTimeOf before + onTimeCallsFor address s

instance (address : String) (before : Option MemberReputationTotals)
    (s : State Contribution String (Option MemberReputationTotals)) :
    Decidable (CountsAll address before s) := inferInstanceAs (Decidable (_ ∧ _))

/-- After all calls, what was written are all of them. -/
theorem written_eq_callsFor {address : String}
    {s : State Contribution String (Option MemberReputationTotals)} (h : Finished s) :
    written Contribution.address (fun _ => 1) address s = callsFor address s := by
  obtain ⟨store, calls⟩ := s
  show Pool.total _ calls = calls.countP _
  induction calls with
  | nil => rfl
  | cons c calls ih =>
      have hrest := ih fun d hd => h d (List.mem_cons_of_mem c hd)
      have hdone : c.phase.isFinished = true := h c List.mem_cons_self
      rw [Pool.total_cons, List.countP_cons, hrest, Nat.add_comm]
      simp [hdone]

theorem written_eq_onTimeCallsFor {address : String}
    {s : State Contribution String (Option MemberReputationTotals)} (h : Finished s) :
    written Contribution.address (fun event => if event.onTime = true then 1 else 0) address s =
      onTimeCallsFor address s := by
  obtain ⟨store, calls⟩ := s
  show Pool.total _ calls = calls.countP _
  induction calls with
  | nil => rfl
  | cons c calls ih =>
      have hrest := ih fun d hd => h d (List.mem_cons_of_mem c hd)
      have hdone : c.phase.isFinished = true := h c List.mem_cons_self
      rw [Pool.total_cons, List.countP_cons, hrest, Nat.add_comm]
      cases htime : c.input.onTime <;> simp [hdone, htime]

/-- **THE TOTALS COUNT EVERY EVENT EXACTLY WHEN** no two calls for the address overlap: each
    of them reads while none is between its read and its write. -/
theorem totals_exact_iff (address : String) (records : String → Option MemberReputationTotals)
    (xs : List (Event Contribution)) (hdone : Finished (exec step xs ⟨records, []⟩)) :
    CountsAll address (records address) (exec step xs ⟨records, []⟩) ↔
      Along step (Alone Contribution.address address) xs ⟨records, []⟩ := by
  have htotal : ∀ event existing, totalOf (recordContribution event existing) = totalOf existing + 1 :=
    fun _ _ => rfl
  have hexact : totalOf ((exec step xs ⟨records, []⟩).store address) = totalOf (records address) +
      written Contribution.address (fun _ => 1) address (exec step xs ⟨records, []⟩) ↔
        Along step (Alone Contribution.address address) xs ⟨records, []⟩ :=
    count_iff_alone htotal hdone
  rw [written_eq_callsFor hdone] at hexact
  constructor
  · rintro ⟨hcount, -⟩
    exact hexact.mp hcount
  · intro hrun
    refine ⟨hexact.mpr hrun, ?_⟩
    have honTime : ∀ event existing, onTimeOf (recordContribution event existing) =
        onTimeOf existing + ((if event.onTime = true then 1 else 0 : Nat) : Int) := by
      intro event existing
      show onTimeOf existing + _ = _
      cases event.onTime <;> rfl
    rw [count_of_alone honTime hrun, written_eq_onTimeCallsFor hdone]

/-- Nothing is stored yet. -/
def noRecords : String → Option MemberReputationTotals := fun _ => none

/-- One call after the other, one of them late. -/
def inTurn : List (Event Contribution) :=
  [.call ⟨"G", true⟩, .read 0, .write 0, .call ⟨"G", false⟩, .read 1, .write 1]

theorem totals_exact_in_turn : Along step (Alone Contribution.address "G") inTurn ⟨noRecords, []⟩ ∧
    CountsAll "G" none (exec step inTurn ⟨noRecords, []⟩) :=
  ⟨by decide, (totals_exact_iff "G" noRecords inTurn (by decide)).mpr (by decide)⟩

/-- Two events of one page, both read before either is written: one contribution in all. -/
theorem second_event_lost :
    Finished (exec step [.call ⟨"G", true⟩, .call ⟨"G", true⟩, .read 0, .read 1, .write 0, .write 1]
        ⟨noRecords, []⟩) ∧
      totalOf ((exec step [.call ⟨"G", true⟩, .call ⟨"G", true⟩, .read 0, .read 1, .write 0, .write 1]
        ⟨noRecords, []⟩).store "G") = 1 ∧
      ¬ CountsAll "G" none (exec step
        [.call ⟨"G", true⟩, .call ⟨"G", true⟩, .read 0, .read 1, .write 0, .write 1] ⟨noRecords, []⟩) := by
  refine ⟨by decide, rfl, ?_⟩
  rintro ⟨hcount, -⟩
  exact absurd hcount (by decide)

end Reputation
