import StellarSave.PoolProofs
import StellarSave.TraceProofs

/-! # KYC — a status, and the history that should explain it

    `submitKyc`, `pollAndUpdateStatus` and `emitKycStatusChange` (`services/kyc.ts`), for
    one user.  A poll records a change before it writes the new status; a submission
    writes a status and records nothing.  Each operation of the database is a step, and
    so is each answer of the provider. -/

namespace Kyc

open Trace

/-- The stored record of a user. -/
structure KycRecord where
  walletAddress : String
  status : String
  kycProviderId : Option String
  deriving DecidableEq, Repr

structure KycStatusEvent where
  oldStatus : String
  newStatus : String
  deriving DecidableEq, Repr

/-- Where a call stands: what it waits for, with what it has in hand. -/
inductive Phase where
  | submitting (walletAddress : String)
  | upserting (walletAddress : String) (kycProviderId : Option String)
  | reading
  | fetching (status : String)
  | emitting (oldStatus newStatus : String)
  | updating (newStatus : String)
  | answering
  | finished
  deriving DecidableEq, Repr

/-- The record, the events in order, and the calls. -/
structure State where
  record : Option KycRecord
  events : List KycStatusEvent
  calls : List Phase
  deriving DecidableEq, Repr

/-- What the provider answers: a body with or without the text that is asked for, another
    status, or nothing that can be read. -/
inductive Answer where
  | ok (text : Option String)
  | notOk
  | throws
  deriving DecidableEq, Repr

/-- A call is made, the provider answers it, the database does what it waits for or fails. -/
inductive Event where
  | submitKyc (walletAddress : String)
  | pollAndUpdateStatus
  | provider (k : Nat) (answer : Answer)
  | database (k : Nat) (ok : Bool)
  deriving DecidableEq, Repr

def start : State := ⟨none, [], []⟩

/-- The `k`th call goes on. -/
def State.advance (k : Nat) (phase : Phase) (s : State) : State := { s with calls := s.calls.set k phase }

/-- `!record.kycProviderId`. -/
def known (kycProviderId : Option String) : Bool :=
  match kycProviderId with
  | some id => decide (id ≠ "")
  | none => false

/-- The answer of the provider to a call that waits for one. -/
def answered (k : Nat) (answer : Answer) (s : State) : State :=
  match s.calls[k]? with
  | some (.submitting walletAddress) =>
      match answer with
      | .ok id => s.advance k (.upserting walletAddress id)
      | .notOk => s.advance k (.upserting walletAddress none)
      | .throws => s.advance k .finished
  | some (.fetching status) =>
      match answer with
      | .ok new =>
          if new.getD status ≠ status then s.advance k (.emitting status (new.getD status))
          else s.advance k .answering
      | .notOk => s.advance k .answering
      | .throws => s.advance k .finished
  | _ => s

/-- The operation of the database that a call waits for. -/
def operated (k : Nat) (s : State) : State :=
  match s.calls[k]? with
  | some (.upserting walletAddress kycProviderId) =>
      State.advance k .finished { s with record := some ⟨walletAddress, "pending", kycProviderId⟩ }
  | some .reading =>
      match s.record with
      | some record =>
          if known record.kycProviderId = true then s.advance k (.fetching record.status)
          else s.advance k .answering
      | none => s.advance k .answering
  | some (.emitting oldStatus newStatus) =>
      State.advance k (.updating newStatus) { s with events := s.events ++ [⟨oldStatus, newStatus⟩] }
  | some (.updating newStatus) =>
      State.advance k .answering
        { s with record := s.record.map fun record => { record with status := newStatus } }
  | some .answering => s.advance k .finished
  | _ => s

/-- Where the operation fails, the call does. -/
def failed (k : Nat) (s : State) : State :=
  match s.calls[k]? with
  | some (.submitting _) => s
  | some (.fetching _) => s
  | some _ => s.advance k .finished
  | none => s

def step : Event → State → State
  | .submitKyc walletAddress, s => { s with calls := s.calls ++ [.submitting walletAddress] }
  | .pollAndUpdateStatus, s => { s with calls := s.calls ++ [.reading] }
  | .provider k answer, s => answered k answer s
  | .database k ok, s => if ok = true then operated k s else failed k s

/-! ## What the history says -/

/-- Each old status is the new one before it, the first one the given. -/
def Chained : String → List KycStatusEvent → Prop
  | _, [] => True
  | status, e :: events => e.oldStatus = status ∧ Chained e.newStatus events

/-- The new status of the last event. -/
def lastStatus : String → List KycStatusEvent → String
  | status, [] => status
  | _, e :: events => lastStatus e.newStatus events

/-- The events form a chain, and when no call is active it ends with the stored status. -/
def Explains (s : State) : Prop :=
  Chained "pending" s.events ∧
    ((∀ phase ∈ s.calls, phase = .finished) →
      ∀ record, s.record = some record → record.status = lastStatus "pending" s.events)

def Phase.isUpdating : Phase → Bool
  | .updating _ => true
  | _ => false

/-- Some poll is between its event and its update. -/
def State.updating (s : State) : Bool := s.calls.any Phase.isUpdating

/-- A submission overwrites no other status than `pending`, or one that is about to be
    written again; a poll records its event while what it has read is still stored and no
    other poll is about to write; and no poll fails to write what it has recorded. -/
def Careful (x : Event) (s : State) : Prop :=
  match x with
  | .database k true =>
      match s.calls[k]? with
      | some (.upserting _ _) =>
          (∀ record ∈ s.record, record.status = "pending") ∨ s.updating = true
      | some (.emitting oldStatus _) =>
          s.record.map KycRecord.status = some oldStatus ∧ s.updating = false
      | _ => True
  | .database k false => ∀ newStatus, s.calls[k]? ≠ some (.updating newStatus)
  | _ => True

/-- A history is chained on by an event that begins where it ends. -/
theorem chained_concat (status : String) (events : List KycStatusEvent) (e : KycStatusEvent) :
    Chained status (events ++ [e]) ↔ Chained status events ∧ e.oldStatus = lastStatus status events := by
  induction events generalizing status with
  | nil => exact ⟨fun h => ⟨trivial, h.1⟩, fun h => ⟨h.2, trivial⟩⟩
  | cons first events ih =>
      show _ ∧ Chained first.newStatus (events ++ [e]) ↔ (_ ∧ Chained first.newStatus events) ∧ _
      rw [ih, and_assoc]
      rfl

/-- And then ends with the new status. -/
theorem lastStatus_concat (status : String) (events : List KycStatusEvent) (e : KycStatusEvent) :
    lastStatus status (events ++ [e]) = e.newStatus := by
  induction events generalizing status with
  | nil => rfl
  | cons first events ih => exact ih first.newStatus

/-! ## The invariant of careful runs -/

/-- The history is a chain; one poll at most is about to write what it ends with, and when
    none is, that is stored. -/
structure Kept (s : State) : Prop where
  chain : Chained "pending" s.events
  pendingWrite : ∀ (k : Nat) newStatus, s.calls[k]? = some (.updating newStatus) →
    newStatus = lastStatus "pending" s.events ∧ s.record ≠ none
  single : ∀ (j k : Nat) m n, s.calls[j]? = some (.updating m) → s.calls[k]? = some (.updating n) → j = k
  stored : s.updating = false → ∀ record, s.record = some record →
    record.status = lastStatus "pending" s.events
  unsaved : s.record = none → s.events = []

section Calls

variable {calls : List Phase} {j k : Nat} {p q : Phase} {n : String} {s s' : State}

/-- Somebody is updating exactly if one of the calls is. -/
theorem updating_iff : s.updating = true ↔ ∃ (k : Nat) (n : String), s.calls[k]? = some (.updating n) := by
  rw [State.updating, List.any_eq_true]
  constructor
  · rintro ⟨phase, hmem, hphase⟩
    obtain ⟨k, hk⟩ := List.mem_iff_getElem?.mp hmem
    cases phase with
    | updating n => exact ⟨k, n, hk⟩
    | _ => exact nomatch hphase
  · rintro ⟨k, n, hk⟩
    exact ⟨_, List.mem_of_getElem? hk, rfl⟩

/-- Nobody is, if none is. -/
theorem not_updating_iff : s.updating = false ↔ ∀ (k : Nat) (n : String), s.calls[k]? ≠ some (.updating n) := by
  rw [← Bool.not_eq_true, updating_iff]
  exact ⟨fun h k n hk => h ⟨k, n, hk⟩, fun h ⟨k, n, hk⟩ => h k n hk⟩

/-- After a call has gone on, one that is about to write is that one or was so before. -/
theorem updating_set (h : (calls.set k q)[j]? = some (.updating n)) :
    j = k ∧ q = .updating n ∨ j ≠ k ∧ calls[j]? = some (.updating n) := by
  rw [List.getElem?_set] at h
  split at h
  · next hkj =>
      split at h
      · exact Or.inl ⟨hkj.symm, Option.some.inj h⟩
      · exact nomatch h
  · next hkj => exact Or.inr ⟨Ne.symm hkj, h⟩

/-- A call that neither was nor will be about to write. -/
theorem updating_advance (hk : s.calls[k]? = some p) (hp : p.isUpdating = false) (hq : q.isUpdating = false)
    (hcalls : s'.calls = s.calls.set k q) (j : Nat) (n : String) :
    s'.calls[j]? = some (.updating n) ↔ s.calls[j]? = some (.updating n) := by
  rw [hcalls]
  by_cases hj : k = j
  · subst hj
    obtain ⟨hlt, -⟩ := List.getElem?_eq_some_iff.mp hk
    rw [List.getElem?_set_self hlt, hk]
    refine iff_of_false ?_ ?_
    · rintro h
      rw [Option.some.inj h] at hq
      exact nomatch hq
    · rintro h
      rw [Option.some.inj h] at hp
      exact nomatch hp
  · rw [List.getElem?_set_ne hj]

/-- Nothing but the calls has changed, and none of them is about to write that was not. -/
theorem Kept.of_same (h : Kept s) (hrecord : s'.record = s.record) (hevents : s'.events = s.events)
    (hcalls : ∀ (j : Nat) n, s'.calls[j]? = some (.updating n) ↔ s.calls[j]? = some (.updating n)) :
    Kept s' where
  chain := by rw [hevents]; exact h.chain
  pendingWrite := by
    intro k n hk
    rw [hevents, hrecord]
    exact h.pendingWrite k n ((hcalls k n).mp hk)
  single := fun i j m n hi hj => h.single i j m n ((hcalls i m).mp hi) ((hcalls j n).mp hj)
  stored := by
    intro hnone record hrec
    rw [hevents]
    rw [hrecord] at hrec
    refine h.stored (not_updating_iff.mpr fun k n hk => ?_) record hrec
    exact not_updating_iff.mp hnone k n ((hcalls k n).mpr hk)
  unsaved := by rw [hevents, hrecord]; exact h.unsaved

/-- A call that is not updating, before or after, changes nothing the history is about. -/
theorem Kept.advance (h : Kept s) (hk : s.calls[k]? = some p) (hp : p.isUpdating = false)
    (hq : q.isUpdating = false) : Kept (s.advance k q) :=
  h.of_same rfl rfl (updating_advance hk hp hq rfl)

end Calls

/-! ## What each step keeps -/

section Steps

variable {s : State} {k : Nat}

/-- Nor does a new call. -/
theorem Kept.join (h : Kept s) {phase : Phase} (hphase : phase.isUpdating = false) :
    Kept { s with calls := s.calls ++ [phase] } := by
  refine h.of_same rfl rfl fun j n => ?_
  show (s.calls ++ [phase])[j]? = _ ↔ _
  rw [List.getElem?_append]
  split
  · exact Iff.rfl
  · next hge =>
      rw [List.getElem?_eq_none (Nat.le_of_not_lt hge)]
      refine iff_of_false (fun hj => ?_) nofun
      rw [← List.mem_singleton.mp (List.mem_of_getElem? hj)] at hphase
      exact nomatch hphase

/-- The provider's answer opens an update, or ends the call. -/
theorem Kept.answered (h : Kept s) (answer : Answer) : Kept (answered k answer s) := by
  rw [Kyc.answered]
  split
  · next walletAddress hk =>
      cases answer with
      | ok id => exact h.advance hk rfl rfl
      | notOk => exact h.advance hk rfl rfl
      | throws => exact h.advance hk rfl rfl
  · next status hk =>
      cases answer with
      | ok new =>
          show Kept (if _ then _ else _)
          split
          · exact h.advance hk rfl rfl
          · exact h.advance hk rfl rfl
      | notOk => exact h.advance hk rfl rfl
      | throws => exact h.advance hk rfl rfl
  · exact h

/-- A failure before the update leaves the history as it is. -/
theorem Kept.failed (h : Kept s) (hcareful : ∀ n, s.calls[k]? ≠ some (.updating n)) :
    Kept (failed k s) := by
  rw [Kyc.failed]
  split
  · exact h
  · exact h
  · next phase _ _ hk =>
      refine h.advance hk ?_ rfl
      cases phase with
      | updating n => exact absurd hk (hcareful n)
      | _ => rfl
  · exact h

/-- A submission writes `pending`, over nothing else or before a poll writes again. -/
theorem Kept.upserted (h : Kept s) {walletAddress : String} {kycProviderId : Option String}
    (hk : s.calls[k]? = some (.upserting walletAddress kycProviderId))
    (hcareful : (∀ record ∈ s.record, record.status = "pending") ∨ s.updating = true) :
    Kept (State.advance k .finished { s with record := some ⟨walletAddress, "pending", kycProviderId⟩ }) := by
  have hcalls : ∀ (j : Nat) n, (s.calls.set k .finished)[j]? = some (.updating n) ↔
      s.calls[j]? = some (.updating n) :=
    updating_advance hk rfl rfl (show (s.advance k .finished).calls = s.calls.set k .finished from rfl)
  refine ⟨h.chain, fun j n hj => ⟨(h.pendingWrite j n ((hcalls j n).mp hj)).1, nofun⟩,
    fun i j m n hi hj => h.single i j m n ((hcalls i m).mp hi) ((hcalls j n).mp hj), fun hnone record hrec => ?_,
    nofun⟩
  have hidle : s.updating = false :=
    not_updating_iff.mpr fun j n hj => not_updating_iff.mp hnone j n ((hcalls j n).mpr hj)
  obtain rfl := Option.some.inj hrec
  show "pending" = lastStatus "pending" s.events
  obtain hpending | hwrites := hcareful
  · cases hrecord : s.record with
    | none =>
        rw [h.unsaved hrecord]
        rfl
    | some old =>
        exact (hpending old hrecord).symm.trans (h.stored hidle old hrecord)
  · exact nomatch hidle.symm.trans hwrites

/-- A poll records the change of what is stored, and is then the one that writes. -/
theorem Kept.emitted (h : Kept s) {oldStatus newStatus : String}
    (hk : s.calls[k]? = some (.emitting oldStatus newStatus))
    (hread : s.record.map KycRecord.status = some oldStatus) (hidle : s.updating = false) :
    Kept (State.advance k (.updating newStatus) { s with events := s.events ++ [⟨oldStatus, newStatus⟩] }) := by
  obtain ⟨hlt, -⟩ := List.getElem?_eq_some_iff.mp hk
  obtain ⟨record, hrecord, rfl⟩ := Option.map_eq_some_iff.mp hread
  have honly : ∀ (j : Nat) n, (s.calls.set k (.updating newStatus))[j]? = some (.updating n) →
      j = k ∧ n = newStatus := by
    intro j n hj
    obtain ⟨hjk, hn⟩ | ⟨-, hold⟩ := updating_set hj
    · exact ⟨hjk, (Phase.updating.inj hn).symm⟩
    · exact absurd hold (not_updating_iff.mp hidle j n)
  refine ⟨?_, fun j n hj => ?_, fun i j m n hi hj => ?_, fun hnone => ?_, fun hnone => ?_⟩
  · exact (chained_concat _ _ _).mpr ⟨h.chain, h.stored hidle record hrecord⟩
  · show n = lastStatus "pending" (s.events ++ [_]) ∧ s.record ≠ none
    rw [lastStatus_concat, hrecord]
    exact ⟨(honly j n hj).2, nofun⟩
  · rw [(honly i m hi).1, (honly j n hj).1]
  · exact absurd (List.getElem?_set_self hlt) (not_updating_iff.mp hnone k newStatus)
  · exact nomatch hrecord.symm.trans hnone

/-- It writes what the history ends with. -/
theorem Kept.updated (h : Kept s) {newStatus : String} (hk : s.calls[k]? = some (.updating newStatus)) :
    Kept (State.advance k .answering
      { s with record := s.record.map fun record => { record with status := newStatus } }) := by
  have hnone : ∀ (j : Nat) n, (s.calls.set k .answering)[j]? ≠ some (.updating n) := by
    intro j n hj
    obtain ⟨-, hn⟩ | ⟨hjk, hold⟩ := updating_set hj
    · exact nomatch hn
    · exact hjk (h.single j k n newStatus hold hk)
  refine ⟨h.chain, fun j n hj => absurd hj (hnone j n), fun i j m n hi => absurd hi (hnone i m),
    fun _ record hrec => ?_, fun hrec => ?_⟩
  · obtain ⟨old, -, rfl⟩ := Option.map_eq_some_iff.mp hrec
    exact (h.pendingWrite k newStatus hk).1
  · exact absurd (Option.map_eq_none_iff.mp hrec) (h.pendingWrite k newStatus hk).2

/-- The update writes status and event together. -/
theorem Kept.operated (h : Kept s) (hcareful : Careful (.database k true) s) : Kept (operated k s) := by
  rw [Kyc.operated]
  cases hk : s.calls[k]? with
  | none => exact h
  | some phase =>
      rw [Careful, hk] at hcareful
      cases phase with
      | submitting walletAddress => exact h
      | fetching status => exact h
      | finished => exact h
      | answering => exact h.advance hk rfl rfl
      | upserting walletAddress kycProviderId => exact h.upserted hk hcareful
      | emitting oldStatus newStatus => exact h.emitted hk hcareful.1 hcareful.2
      | updating newStatus => exact h.updated hk
      | reading =>
          show Kept (match s.record with
            | some record => if known record.kycProviderId = true then _ else _
            | none => _)
          split
          · split
            · exact h.advance hk rfl rfl
            · exact h.advance hk rfl rfl
          · exact h.advance hk rfl rfl

/-- One event keeps the history, if the database fails only outside of an update. -/
theorem Kept.step (x : Event) (hx : Careful x s) (h : Kept s) : Kept (step x s) := by
  cases x with
  | submitKyc walletAddress => exact h.join rfl
  | pollAndUpdateStatus => exact h.join rfl
  | provider k answer => exact h.answered answer
  | database k ok =>
      cases ok with
      | true => exact h.operated hx
      | false => exact h.failed hx

end Steps

/-- At first nothing has happened. -/
theorem start_kept : Kept start where
  chain := trivial
  pendingWrite := fun _ _ hk => (nomatch hk)
  single := fun _ _ _ _ hj => (nomatch hj)
  stored := fun _ _ hrec => (nomatch hrec)
  unsaved := fun _ => rfl

/-- So the history explains the status. -/
theorem Kept.explains {s : State} (h : Kept s) : Explains s := by
  refine ⟨h.chain, fun hidle record hrec => h.stored (not_updating_iff.mpr fun k n hk => ?_) record hrec⟩
  exact nomatch hidle _ (List.mem_of_getElem? hk)

/-- **THE HISTORY EXPLAINS THE STATUS** in every state of a careful run. -/
theorem history_explains (xs : List Event) (hrun : Along step Careful xs start) :
    Explains (exec step xs start) :=
  (exec_invariant (fun x _ hx h => h.step x hx) start_kept hrun).explains

/-- A submission and a poll that finds it approved, one after the other. -/
def approved : List Event :=
  [.submitKyc "G", .provider 0 (.ok (some "p1")), .database 0 true, .pollAndUpdateStatus, .database 1 true,
    .provider 1 (.ok (some "approved")), .database 1 true, .database 1 true, .database 1 true]

/-- An approval, and the history that explains it. -/
theorem history_explains_approved : Explains (exec step approved start) := by
  refine history_explains approved ⟨trivial, trivial, Or.inl nofun, trivial, trivial, trivial, ⟨rfl, rfl⟩,
    trivial, trivial, trivial⟩

/-- Rejected, and submitted again. -/
def submittedAgain : List Event :=
  [.submitKyc "G", .provider 0 (.ok (some "p1")), .database 0 true, .pollAndUpdateStatus, .database 1 true,
    .provider 1 (.ok (some "rejected")), .database 1 true, .database 1 true, .database 1 true,
    .submitKyc "G", .provider 2 (.ok (some "p2")), .database 2 true]

/-- No call is active, the last event says `rejected`, and `pending` is stored. -/
theorem pending_unexplained : ¬ Explains (exec step submittedAgain start) := by
  rintro ⟨-, hidle⟩
  have hstored := hidle (by decide) ⟨"G", "pending", some "p2"⟩ (by decide)
  exact absurd hstored (by decide)

end Kyc
