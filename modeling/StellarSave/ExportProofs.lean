import StellarSave.PoolProofs
import StellarSave.TraceProofs

/-! # The warehouse export — which rows a watermark ships

    `WarehouseExportPipeline.run` (`warehouse_export.ts`) exports the events of
    the ledgers behind a watermark, uploads them as one file, and saves the last
    ledger of the file as the new watermark once the metrics are uploaded too.
    A watermark is a ledger: it knows nothing of a row that arrives later for a
    ledger already exported, nor of an upload it was not saved after. -/

namespace WarehouseExport

open Trace

/-- The columns of an event that the export reads or checks. -/
structure ContractEvent where
  id : String
  contractId : String
  eventType : String
  txHash : String
  ledgerSeq : Nat
  deriving DecidableEq, Repr

/-- `fact_contract_events/<day>_ledger_<first>_to_<last>.ndjson`. -/
structure S3Key where
  day : Nat
  first : Nat
  last : Nat
  deriving DecidableEq, Repr

structure File where
  key : S3Key
  rows : List ContractEvent
  deriving DecidableEq, Repr

/-- Where a run stands. -/
inductive Phase where
  | started
  | loaded (watermark : Nat)
  | found (watermark : Nat) (events : List ContractEvent)
  | uploaded (watermark newWatermark : Nat)
  | measured (watermark newWatermark : Nat)
  | done
  | failed
  deriving DecidableEq, Repr

/-- One call of `run`; `since` is how many rows there were when it was made, and
    `day` the date of its `exportedAt`. -/
structure Call where
  phase : Phase
  since : Nat
  day : Nat
  deriving DecidableEq, Repr

/-- The rows of `ContractEvent`, the persisted watermark, the bucket, the calls
    and the date. -/
structure State where
  rows : List ContractEvent
  watermark : Option Nat
  files : List File
  calls : List Call
  day : Nat
  deriving DecidableEq, Repr

def start : State := ⟨[], none, [], [], 0⟩

/-- What can happen: a row is inserted, a run is called, one of the steps of a
    run succeeds or fails, a day passes. -/
inductive Event where
  | insert (row : ContractEvent)
  | run
  | loadWatermark (k : Nat) (ok : Bool)
  | findMany (k : Nat) (ok : Bool)
  | upload (k : Nat) (ok : Bool)
  | metrics (k : Nat) (ok : Bool)
  | saveWatermark (k : Nat) (ok : Bool)
  | nextDay
  deriving DecidableEq, Repr

/-- `where: { ledgerSeq: { gt: watermark } }, orderBy: { ledgerSeq: 'asc' }`. -/
def eventsAfter (rows : List ContractEvent) (watermark : Nat) : List ContractEvent :=
  (rows.filter fun row => watermark < row.ledgerSeq).insertionSort
    fun a b => a.ledgerSeq ≤ b.ledgerSeq

/-- The ledger of the last event found, or the old watermark. -/
def newWatermark (watermark : Nat) (events : List ContractEvent) : Nat :=
  match events.getLast? with
  | some row => row.ledgerSeq
  | none => watermark

/-- `runQualityChecks`: the check a batch fails. -/
def runQualityChecks (rows : List ContractEvent) : Option String :=
  if rows.any fun row => [row.id, row.contractId, row.eventType, row.txHash].any (· == "") then
    some "null_required_field"
  else if ¬ (rows.map ContractEvent.id).Nodup then some "duplicate_pk"
  else none

/-- `PutObject`: a file under a key replaces the one there. -/
def putObject (files : List File) (key : S3Key) (rows : List ContractEvent) : List File :=
  files.filter (fun file => file.key ≠ key) ++ [⟨key, rows⟩]

/-- Call `k` goes on. -/
def State.goto (s : State) (k : Nat) (call : Call) (phase : Phase) : State :=
  { s with calls := s.calls.set k { call with phase := phase } }

def step : Event → State → State
  | .insert row, s =>
      if row.id ∈ s.rows.map ContractEvent.id then s else { s with rows := s.rows ++ [row] }
  | .run, s => { s with calls := s.calls ++ [⟨.started, s.rows.length, 0⟩] }
  | .loadWatermark k ok, s =>
      match s.calls[k]? with
      | some ⟨.started, since, _⟩ =>
          -- a failed read is caught and counts as no watermark
          s.goto k ⟨.started, since, s.day⟩
            (.loaded (if ok = true then s.watermark.getD 0 else 0))
      | _ => s
  | .findMany k ok, s =>
      match s.calls[k]? with
      | some ⟨.loaded watermark, since, day⟩ =>
          let events := eventsAfter s.rows watermark
          if ok = true ∧ runQualityChecks events = none then
            s.goto k ⟨.loaded watermark, since, day⟩ (.found watermark events)
          else s.goto k ⟨.loaded watermark, since, day⟩ .failed
      | _ => s
  | .upload k ok, s =>
      match s.calls[k]? with
      | some ⟨.found watermark events, since, day⟩ =>
          let last := newWatermark watermark events
          if ok = true then
            { s with
              files := if events = [] then s.files
                else putObject s.files ⟨day, watermark + 1, last⟩ events }.goto k
              ⟨.found watermark events, since, day⟩ (.uploaded watermark last)
          else s.goto k ⟨.found watermark events, since, day⟩ .failed
      | _ => s
  | .metrics k ok, s =>
      match s.calls[k]? with
      | some ⟨.uploaded watermark last, since, day⟩ =>
          s.goto k ⟨.uploaded watermark last, since, day⟩
            (if ok = true then .measured watermark last else .failed)
      | _ => s
  | .saveWatermark k ok, s =>
      match s.calls[k]? with
      | some ⟨.measured watermark last, since, day⟩ =>
          if ok = true then
            { s with watermark := if watermark < last then some last else s.watermark }.goto k
              ⟨.measured watermark last, since, day⟩ .done
          else s.goto k ⟨.measured watermark last, since, day⟩ .failed
      | _ => s
  | .nextDay, s => { s with day := s.day + 1 }

/-! ## What the export promises -/

def State.ledger (s : State) : Nat := s.watermark.getD 0

/-- How many uploaded files a row is in. -/
def State.shipped (s : State) (row : ContractEvent) : Nat :=
  s.files.countP fun file => row ∈ file.rows

/-- Every row that a completed run found in the table is in exactly one file. -/
def ExactlyOnce (s : State) : Prop :=
  ∀ call ∈ s.calls, call.phase = .done → ∀ row ∈ s.rows.take call.since, s.shipped row = 1

/-- The state a step leads to, and the watermark over the step. -/
def Promised (x : Event) (s : State) : Prop :=
  ExactlyOnce (step x s) ∧ s.ledger ≤ (step x s).ledger

/-- The last ledger of the file a run is about to upload, or has. -/
def Phase.last? : Phase → Option Nat
  | .found watermark events => some (newWatermark watermark events)
  | .uploaded _ last => some last
  | .measured _ last => some last
  | _ => none

def Phase.inFlight : Phase → Bool
  | .loaded _ => true
  | .found _ _ => true
  | .uploaded _ _ => true
  | .measured _ _ => true
  | _ => false

/-- Whether a run has uploaded a file its watermark was not saved after. -/
def Phase.unsaved : Phase → Bool
  | .uploaded watermark last => decide (watermark < last)
  | .measured watermark last => decide (watermark < last)
  | _ => false

/-- Rows arrive for ledgers behind everything exported or found, one run is on
    at a time, a watermark that is there is read, and no run fails between its
    upload and its watermark. -/
def Orderly (x : Event) (s : State) : Prop :=
  match x with
  | .insert row => s.ledger < row.ledgerSeq ∧
      ∀ call ∈ s.calls, ∀ last, call.phase.last? = some last → last < row.ledgerSeq
  | .loadWatermark _ ok => (∀ call ∈ s.calls, call.phase.inFlight = false) ∧ (ok = false → s.ledger = 0)
  | .metrics k ok => ok = false → ∀ call, s.calls[k]? = some call → call.phase.unsaved = false
  | .saveWatermark k ok => ok = false → ∀ call, s.calls[k]? = some call → call.phase.unsaved = false
  | _ => True

/-! ## The rows a run finds -/

theorem mem_eventsAfter {rows : List ContractEvent} {watermark : Nat} {row : ContractEvent} :
    row ∈ eventsAfter rows watermark ↔ row ∈ rows ∧ watermark < row.ledgerSeq := by
  simp [eventsAfter]

/-- The new watermark is the highest ledger found. -/
theorem le_newWatermark {rows : List ContractEvent} {watermark : Nat} {row : ContractEvent}
    (h : row ∈ eventsAfter rows watermark) :
    row.ledgerSeq ≤ newWatermark watermark (eventsAfter rows watermark) := by
  have hsorted : (eventsAfter rows watermark).Pairwise fun a b => a.ledgerSeq ≤ b.ledgerSeq := by
    have : Std.Total fun a b : ContractEvent => a.ledgerSeq ≤ b.ledgerSeq :=
      ⟨fun a b => Nat.le_total a.ledgerSeq b.ledgerSeq⟩
    have : IsTrans ContractEvent fun a b => a.ledgerSeq ≤ b.ledgerSeq := ⟨fun _ _ _ => Nat.le_trans⟩
    exact List.pairwise_insertionSort _ _
  unfold newWatermark
  split
  case h_1 last hlast =>
    obtain ⟨before, heq⟩ := List.getLast?_eq_some_iff.mp hlast
    rw [heq] at h hsorted
    obtain h | h := List.mem_append.mp h
    · exact (List.pairwise_append.mp hsorted).2.2 row h last (List.mem_singleton.mpr rfl)
    · exact (List.mem_singleton.mp h) ▸ Nat.le_refl _
  case h_2 hnone => exact absurd h (by simp [List.getLast?_eq_none_iff.mp hnone])

theorem watermark_lt {rows : List ContractEvent} {watermark : Nat}
    (h : eventsAfter rows watermark ≠ []) :
    watermark < newWatermark watermark (eventsAfter rows watermark) := by
  unfold newWatermark
  split
  case h_1 last hlast => exact (mem_eventsAfter.mp (List.mem_of_getLast? hlast)).2
  case h_2 hnone => exact absurd (List.getLast?_eq_none_iff.mp hnone) h

/-! ## Runs in order -/

/-- What a run in its phase knows, in a table of `rows` with the watermark at
    `ledger` and everything shipped up to `m`. -/
structure Knows (rows : List ContractEvent) (ledger m : Nat) (call : Call) : Prop where
  since : call.since ≤ rows.length
  loaded : ∀ watermark, call.phase = .loaded watermark → watermark = ledger
  found : ∀ watermark events, call.phase = .found watermark events →
    watermark = ledger ∧ watermark ≤ newWatermark watermark events ∧
      (events ≠ [] → watermark < newWatermark watermark events) ∧
      (∀ row ∈ events, row.ledgerSeq ≤ newWatermark watermark events) ∧
      (∀ row ∈ rows, row ∈ events ↔
        watermark < row.ledgerSeq ∧ row.ledgerSeq ≤ newWatermark watermark events) ∧
      ∀ row ∈ rows.take call.since, row.ledgerSeq ≤ newWatermark watermark events
  sent : ∀ watermark last, call.phase = .uploaded watermark last ∨ call.phase = .measured watermark last →
    watermark = ledger ∧ m = last ∧ ∀ row ∈ rows.take call.since, row.ledgerSeq ≤ last
  done : call.phase = .done → ∀ row ∈ rows.take call.since, row.ledgerSeq ≤ ledger

def Call.flying (call : Call) : Nat := if call.phase.inFlight = true then 1 else 0

/-- Every row up to `m` is in one file, and no other row is in any. -/
structure Shipped (s : State) (m : Nat) : Prop where
  ledger_le : s.ledger ≤ m
  shipped : ∀ row ∈ s.rows, s.shipped row = if row.ledgerSeq ≤ m then 1 else 0
  files : ∀ file ∈ s.files, file.key.last ≤ m ∧ ∀ row ∈ file.rows, row.ledgerSeq ≤ m
  single : Pool.total Call.flying s.calls ≤ 1
  calls : ∀ call ∈ s.calls, Knows s.rows s.ledger m call
  saved : (∀ call ∈ s.calls, call.phase.unsaved = false) → m = s.ledger

theorem unsaved_inFlight {phase : Phase} (h : phase.unsaved = true) : phase.inFlight = true := by
  cases phase <;> simp_all [Phase.unsaved, Phase.inFlight]

theorem last?_of_unsaved {phase : Phase} (h : phase.unsaved = true) :
    ∃ watermark last, phase = .uploaded watermark last ∨ phase = .measured watermark last := by
  cases phase <;> simp_all [Phase.unsaved]

/-- A run that has not begun, or failed, knows nothing. -/
theorem Knows.quiet {rows : List ContractEvent} {ledger m : Nat} {call : Call}
    (hsince : call.since ≤ rows.length) (h : call.phase = .started ∨ call.phase = .failed) :
    Knows rows ledger m call where
  since := hsince
  loaded watermark hphase := by obtain h | h := h <;> simp [h] at hphase
  found watermark events hphase := by obtain h | h := h <;> simp [h] at hphase
  sent watermark last hphase := by obtain h | h := h <;> simp [h] at hphase
  done hphase := by obtain h | h := h <;> simp [h] at hphase

/-- A run that is not on knows what it knew. -/
theorem Knows.idle {rows : List ContractEvent} {ledger ledger' m m' : Nat} {call : Call}
    (h : Knows rows ledger m call) (hidle : call.phase.inFlight = false) (hle : ledger ≤ ledger') :
    Knows rows ledger' m' call where
  since := h.since
  loaded watermark hphase := absurd hidle (by simp [hphase, Phase.inFlight])
  found watermark events hphase := absurd hidle (by simp [hphase, Phase.inFlight])
  sent watermark last hphase := by
    obtain hphase | hphase := hphase <;> simp [hphase, Phase.inFlight] at hidle
  done hphase row hrow := Nat.le_trans (h.done hphase row hrow) hle

section
variable {s : State} {m : Nat}

/-- **PROMISED**: what has been shipped is shipped once. -/
theorem Shipped.exactlyOnce (h : Shipped s m) : ExactlyOnce s := by
  intro call hcall hdone row hrow
  have hle := (h.calls call hcall).done hdone row hrow
  rw [h.shipped row (List.mem_of_mem_take hrow), if_pos (Nat.le_trans hle h.ledger_le)]

/-- While one run is on, the others are not. -/
theorem Shipped.others (h : Shipped s m) {k : Nat} {call q : Call} (hk : s.calls[k]? = some call)
    (hon : call.phase.inFlight = true) :
    ∀ other ∈ s.calls.set k q, other = q ∨ (other ∈ s.calls ∧ other.phase.inFlight = false) := by
  intro other hother
  by_cases heq : other = q
  · exact Or.inl heq
  · have hmem := Pool.mem_eraseIdx_of_set hother heq
    have htotal := Pool.total_eraseIdx Call.flying hk
    have hone : call.flying = 1 := by simp [Call.flying, hon]
    have hle := Pool.le_total Call.flying hmem
    have hzero : other.flying = 0 := by
      have := h.single
      omega
    refine Or.inr ⟨List.mem_of_mem_eraseIdx hmem, ?_⟩
    simpa [Call.flying] using hzero

/-- **A RUN GOES ON**, the only one that is on: what is left to show is about it. -/
theorem Shipped.goto (h : Shipped s m) {s' : State} {k m' : Nat} {q : Call}
    (hrows : s'.rows = s.rows) (hcalls : s'.calls = s.calls.set k q)
    (hothers : ∀ other ∈ s.calls.set k q, other = q ∨ (other ∈ s.calls ∧ other.phase.inFlight = false))
    (hsingle : Pool.total Call.flying (s.calls.set k q) ≤ 1) (hmem : q ∈ s.calls.set k q)
    (hgrow : s.ledger ≤ s'.ledger) (hle : s'.ledger ≤ m')
    (hshipped : ∀ row ∈ s.rows, s'.shipped row = if row.ledgerSeq ≤ m' then 1 else 0)
    (hfiles : ∀ file ∈ s'.files, file.key.last ≤ m' ∧ ∀ row ∈ file.rows, row.ledgerSeq ≤ m')
    (hq : Knows s.rows s'.ledger m' q) (hsaved : q.phase.unsaved = false → m' = s'.ledger) :
    Shipped s' m' where
  ledger_le := hle
  shipped := hrows ▸ hshipped
  files := hfiles
  single := hcalls ▸ hsingle
  calls := by
    rw [hcalls, hrows]
    intro other hother
    obtain rfl | ⟨hold, hidle⟩ := hothers other hother
    · exact hq
    · exact (h.calls other hold).idle hidle hgrow
  saved := fun hall => hsaved (hall q (hcalls ▸ hmem))

/-- The run that is on moves, with the files and the watermark as they were. -/
theorem Shipped.move (h : Shipped s m) {k : Nat} {call : Call} {phase : Phase}
    (hk : s.calls[k]? = some call) (hon : call.phase.inFlight = true)
    (hq : Knows s.rows s.ledger m { call with phase := phase })
    (hsaved : phase.unsaved = false → m = s.ledger) : Shipped (s.goto k call phase) m := by
  have htotal := Pool.total_set Call.flying hk { call with phase := phase }
  have hone : call.flying = 1 := by simp [Call.flying, hon]
  have hq1 : Call.flying { call with phase := phase } ≤ 1 := by
    unfold Call.flying
    split <;> omega
  have hsingle := h.single
  have hlt : k < s.calls.length := (List.getElem?_eq_some_iff.mp hk).1
  exact h.goto rfl rfl (h.others hk hon) (by omega) (List.mem_set hlt _) (Nat.le_refl _)
    h.ledger_le h.shipped h.files hq hsaved

/-- **INSERTED**: a row behind everything exported or found. -/
theorem Shipped.insert (h : Shipped s m) {row : ContractEvent}
    (hledger : s.ledger < row.ledgerSeq)
    (hlast : ∀ call ∈ s.calls, ∀ last, call.phase.last? = some last → last < row.ledgerSeq) :
    Shipped { s with rows := s.rows ++ [row] } m := by
  -- the new row is past all that an export has seen: nobody can have skipped it
  have hm : m < row.ledgerSeq := by
    by_cases hall : ∀ call ∈ s.calls, call.phase.unsaved = false
    · rwa [h.saved hall]
    · push Not at hall
      obtain ⟨call, hcall, hunsaved⟩ := hall
      obtain ⟨watermark, last, hphase⟩ := last?_of_unsaved (by simpa using hunsaved)
      obtain ⟨-, rfl, -⟩ := (h.calls call hcall).sent watermark last hphase
      refine hlast call hcall m ?_
      obtain hphase | hphase := hphase <;> simp [hphase, Phase.last?]
  refine ⟨h.ledger_le, ?_, h.files, h.single, ?_, h.saved⟩
  · intro r hr
    obtain hr | rfl := Pool.mem_concat hr
    · exact h.shipped r hr
    · rw [if_neg (Nat.not_le.mpr hm)]
      refine List.countP_eq_zero.mpr fun file hfile => ?_
      have hnot : r ∉ file.rows := fun hmem => absurd ((h.files file hfile).2 r hmem) (Nat.not_le.mpr hm)
      simpa using hnot
  -- the rows an export knows are those that were there when it began
  · intro call hcall
    have hknows := h.calls call hcall
    have htake : (s.rows ++ [row]).take call.since = s.rows.take call.since :=
      List.take_append_of_le_length hknows.since
    refine ⟨by simpa using Nat.le_succ_of_le hknows.since, hknows.loaded, ?_, ?_, ?_⟩
    · intro watermark events hphase
      obtain ⟨heq, hle, hlt, hevents, hmem, hsince⟩ := hknows.found watermark events hphase
      refine ⟨heq, hle, hlt, hevents, ?_, htake ▸ hsince⟩
      intro r hr
      obtain hr | rfl := Pool.mem_concat hr
      · exact hmem r hr
      · have hbehind : newWatermark watermark events < r.ledgerSeq :=
          hlast call hcall _ (by simp [hphase, Phase.last?])
        constructor
        · exact fun hin => absurd (hevents r hin) (Nat.not_le.mpr hbehind)
        · exact fun hin => absurd hin.2 (Nat.not_le.mpr hbehind)
    · intro watermark last hphase
      obtain ⟨heq, hm, hsince⟩ := hknows.sent watermark last hphase
      exact ⟨heq, hm, htake ▸ hsince⟩
    · intro hphase
      exact htake ▸ hknows.done hphase

/-- **CALLED**: a new run. -/
theorem Shipped.run (h : Shipped s m) :
    Shipped { s with calls := s.calls ++ [⟨.started, s.rows.length, 0⟩] } m := by
  refine ⟨h.ledger_le, h.shipped, h.files, ?_, ?_, ?_⟩
  · have hsingle := h.single
    rw [Pool.total_append, Pool.total_cons, Pool.total_nil]
    exact hsingle
  · intro call hcall
    obtain hcall | rfl := Pool.mem_concat hcall
    · exact h.calls call hcall
    · exact .quiet (Nat.le_refl _) (Or.inl rfl)
  · exact fun hall => h.saved fun call hcall => hall call (List.mem_append_left _ hcall)

/-- **LOADED**: with no other run on. -/
theorem Shipped.load (h : Shipped s m) {k since day day' watermark : Nat}
    (hk : s.calls[k]? = some ⟨.started, since, day⟩)
    (halone : ∀ call ∈ s.calls, call.phase.inFlight = false) (hwatermark : watermark = s.ledger) :
    Shipped (s.goto k ⟨.started, since, day'⟩ (.loaded watermark)) m := by
  have hknows := h.calls _ (List.mem_of_getElem? hk)
  have hlt : k < s.calls.length := (List.getElem?_eq_some_iff.mp hk).1
  -- no other export is on its way, so nothing is unsaved
  have hm : m = s.ledger := by
    refine h.saved fun call hcall => ?_
    by_contra hunsaved
    have hon := unsaved_inFlight (by simpa using hunsaved)
    simp [halone call hcall] at hon
  refine h.goto rfl rfl (fun other hother => ?_) ?_ (List.mem_set hlt _) (Nat.le_refl _) h.ledger_le
    h.shipped h.files ?_ fun _ => hm
  · obtain rfl | hold := Pool.mem_set hother
    · exact Or.inl rfl
    · exact Or.inr ⟨hold, halone other hold⟩
  -- this is the one export on its way now
  · have hzero : Pool.total Call.flying s.calls = 0 :=
      Pool.total_eq_zero fun call hcall => by simp [Call.flying, halone call hcall]
    have htotal := Pool.total_set Call.flying hk ⟨.loaded watermark, since, day'⟩
    have hone : Call.flying ⟨.loaded watermark, since, day'⟩ = 1 := rfl
    show Pool.total Call.flying (s.calls.set k ⟨.loaded watermark, since, day'⟩) ≤ 1
    omega
  · refine ⟨hknows.since, fun _ hphase => ?_, fun _ _ hphase => ?_, fun _ _ hphase => ?_, fun hphase => ?_⟩
    · obtain rfl : watermark = _ := by simpa using hphase
      exact hwatermark
    · cases hphase
    · obtain hphase | hphase := hphase <;> cases hphase
    · cases hphase

/-- With only this run on and nothing of it unsaved, the watermark is up to date. -/
theorem Shipped.upToDate (h : Shipped s m) {k : Nat} {call : Call} (hk : s.calls[k]? = some call)
    (hon : call.phase.inFlight = true) (hsaved : call.phase.unsaved = false) : m = s.ledger := by
  have hset : s.calls.set k call = s.calls := by
    obtain ⟨hlt, rfl⟩ := List.getElem?_eq_some_iff.mp hk
    exact List.set_getElem_self hlt
  refine h.saved fun other hother => ?_
  rw [← hset] at hother
  obtain rfl | ⟨-, hidle⟩ := h.others (q := call) hk hon other hother
  · exact hsaved
  · by_contra hunsaved
    have hothers := unsaved_inFlight (by simpa using hunsaved)
    simp [hidle] at hothers

/-- **FOUND**: everything behind the watermark. -/
theorem Shipped.find (h : Shipped s m) {k since day watermark : Nat}
    (hk : s.calls[k]? = some ⟨.loaded watermark, since, day⟩) :
    Shipped (s.goto k ⟨.loaded watermark, since, day⟩
      (.found watermark (eventsAfter s.rows watermark))) m := by
  have hknows := h.calls _ (List.mem_of_getElem? hk)
  refine h.move hk rfl ⟨hknows.since, fun _ hphase => ?_, ?_, fun _ _ hphase => ?_, fun hphase => ?_⟩
    fun _ => h.upToDate hk rfl rfl
  · cases hphase
  -- what the query finds is all that lies past the watermark
  · intro _ _ hphase
    cases hphase
    have hle : watermark ≤ newWatermark watermark (eventsAfter s.rows watermark) := by
      by_cases hempty : eventsAfter s.rows watermark = []
      · simp [hempty, newWatermark]
      · exact (watermark_lt hempty).le
    have hmem : ∀ row ∈ s.rows, row ∈ eventsAfter s.rows watermark ↔ watermark < row.ledgerSeq ∧
        row.ledgerSeq ≤ newWatermark watermark (eventsAfter s.rows watermark) := by
      intro row hrow
      constructor
      · exact fun hin => ⟨(mem_eventsAfter.mp hin).2, le_newWatermark hin⟩
      · exact fun hin => mem_eventsAfter.mpr ⟨hrow, hin.1⟩
    refine ⟨hknows.loaded watermark rfl, hle, watermark_lt, fun row => le_newWatermark, hmem, ?_⟩
    intro row hrow
    by_cases hbehind : watermark < row.ledgerSeq
    · exact le_newWatermark (mem_eventsAfter.mpr ⟨List.mem_of_mem_take hrow, hbehind⟩)
    · exact Nat.le_trans (Nat.not_lt.mp hbehind) hle
  · obtain hphase | hphase := hphase <;> cases hphase
  · cases hphase

/-- A key that ends behind all others replaces no file. -/
theorem putObject_new {files : List File} {key : S3Key} {rows : List ContractEvent}
    (h : ∀ file ∈ files, file.key.last < key.last) : putObject files key rows = files ++ [⟨key, rows⟩] := by
  unfold putObject
  rw [List.filter_eq_self.mpr fun file hfile => ?_]
  refine decide_eq_true fun heq => ?_
  exact absurd (h file hfile) (by simp [heq])

/-- **UPLOADED**: the rows found are in one more file, which was in none. -/
theorem Shipped.upload (h : Shipped s m) {k since day watermark : Nat} {events : List ContractEvent}
    (hk : s.calls[k]? = some ⟨.found watermark events, since, day⟩) :
    let last := newWatermark watermark events
    Shipped ({ s with
      files := if events = [] then s.files
        else putObject s.files ⟨day, watermark + 1, last⟩ events }.goto k
      ⟨.found watermark events, since, day⟩ (.uploaded watermark last)) last := by
  intro last
  have hknows := h.calls _ (List.mem_of_getElem? hk)
  obtain ⟨heq, hle, hlt, hevents, hmem, hsince⟩ := hknows.found watermark events rfl
  have hm : m = s.ledger := h.upToDate hk rfl rfl
  have hposition : k < s.calls.length := (List.getElem?_eq_some_iff.mp hk).1
  -- the name of the file is new: older files end at the watermark
  have hfiles : events ≠ [] → putObject s.files ⟨day, watermark + 1, last⟩ events =
      s.files ++ [⟨⟨day, watermark + 1, last⟩, events⟩] := by
    intro hne
    refine putObject_new fun file hfile => ?_
    have hbelow := (h.files file hfile).1
    have habove := hlt hne
    show file.key.last < newWatermark watermark events
    omega
  have htotal := Pool.total_set Call.flying hk ⟨.uploaded watermark last, since, day⟩
  have hsingle : Pool.total Call.flying (s.calls.set k ⟨.uploaded watermark last, since, day⟩) ≤ 1 := by
    have hbefore := h.single
    have hone : Call.flying ⟨.found watermark events, since, day⟩ = 1 := rfl
    have hone' : Call.flying ⟨.uploaded watermark last, since, day⟩ = 1 := rfl
    omega
  have hledger : s.ledger ≤ last := heq ▸ hle
  refine h.goto rfl rfl (h.others hk rfl) hsingle (List.mem_set hposition _) (Nat.le_refl _) hledger
    ?_ ?_ ?_ ?_
  -- each row up to the new watermark is in one file, the others in none
  · intro row hrow
    have hold := h.shipped row hrow
    have hin := hmem row hrow
    by_cases hempty : events = []
    · have hsame : last = watermark := by simp [last, hempty, newWatermark]
      simp only [State.shipped, State.goto, hempty, if_true] at hold ⊢
      rw [hold, hsame, heq, hm]
    · simp only [State.shipped, State.goto, hempty, if_false, hfiles hempty, List.countP_append,
        List.countP_singleton] at hold ⊢
      rw [hold]
      by_cases hmember : row ∈ events
      · have hrange := hin.mp hmember
        rw [if_neg (by omega), if_pos (by simpa using hmember), if_pos hrange.2]
      · have hout := fun hrange => hmember (hin.mpr hrange)
        rw [if_neg (c := decide (row ∈ events) = true) (by simpa using hmember)]
        have hiff : row.ledgerSeq ≤ m ↔ row.ledgerSeq ≤ last := by
          constructor
          · intro hrow
            omega
          · intro hrow
            by_contra hnot
            exact hout ⟨by omega, hrow⟩
        simp [hiff]
  -- an empty export writes no file
  · intro file hfile
    by_cases hempty : events = []
    · simp only [State.goto, hempty, if_true] at hfile
      obtain ⟨hkey, hrows⟩ := h.files file hfile
      exact ⟨by omega, fun row hrow => by have := hrows row hrow; omega⟩
    · simp only [State.goto, hempty, if_false, hfiles hempty, List.mem_append,
        List.mem_singleton] at hfile
      obtain hfile | rfl := hfile
      · obtain ⟨hkey, hrows⟩ := h.files file hfile
        exact ⟨by omega, fun row hrow => by have := hrows row hrow; omega⟩
      · exact ⟨Nat.le_refl _, hevents⟩
  · refine ⟨hknows.since, fun _ hphase => ?_, fun _ _ hphase => ?_, fun _ _ hphase => ?_, fun hphase => ?_⟩
    · cases hphase
    · cases hphase
    · obtain hphase | hphase := hphase
      · cases hphase
        exact ⟨heq, rfl, hsince⟩
      · cases hphase
    · cases hphase
  · intro hsaved
    have hnot : ¬ watermark < last := by simpa [Phase.unsaved] using hsaved
    show last = s.ledger
    omega

/-- **FAILED**: harmless with nothing unsaved. -/
theorem Shipped.fail (h : Shipped s m) {k : Nat} {call : Call} (hk : s.calls[k]? = some call)
    (hon : call.phase.inFlight = true) (hsaved : call.phase.unsaved = false) :
    Shipped (s.goto k call .failed) m :=
  have hknows := h.calls _ (List.mem_of_getElem? hk)
  h.move hk hon (.quiet hknows.since (Or.inr rfl)) fun _ => h.upToDate hk hon hsaved

/-- **MEASURED**: the metrics are neither events nor the watermark. -/
theorem Shipped.measure (h : Shipped s m) {k since day watermark last : Nat}
    (hk : s.calls[k]? = some ⟨.uploaded watermark last, since, day⟩) :
    Shipped (s.goto k ⟨.uploaded watermark last, since, day⟩ (.measured watermark last)) m := by
  have hknows := h.calls _ (List.mem_of_getElem? hk)
  have hsent := hknows.sent watermark last (Or.inl rfl)
  refine h.move hk rfl ⟨hknows.since, fun _ hphase => ?_, fun _ _ hphase => ?_, fun _ _ hphase => ?_,
    fun hphase => ?_⟩ fun hsaved => h.upToDate hk rfl hsaved
  · cases hphase
  · cases hphase
  · obtain hphase | hphase := hphase
    · cases hphase
    · cases hphase
      exact hsent
  · cases hphase

/-- **SAVED**: the watermark is where the files end. -/
theorem Shipped.save (h : Shipped s m) {k since day watermark last : Nat}
    (hk : s.calls[k]? = some ⟨.measured watermark last, since, day⟩) :
    let s' := { s with watermark := if watermark < last then some last else s.watermark }.goto k
      ⟨.measured watermark last, since, day⟩ .done
    Shipped s' m ∧ s.ledger ≤ s'.ledger := by
  intro s'
  have hknows := h.calls _ (List.mem_of_getElem? hk)
  obtain ⟨heq, hm, hsince⟩ := hknows.sent watermark last (Or.inr rfl)
  have hle := h.ledger_le
  have hledger : s'.ledger = last := by
    by_cases hlt : watermark < last
    · simp [s', State.ledger, State.goto, hlt]
    · have hsame : s.ledger = last := by omega
      simpa [s', State.ledger, State.goto, hlt] using hsame
  have hgrow : s.ledger ≤ s'.ledger := by omega
  have hposition : k < s.calls.length := (List.getElem?_eq_some_iff.mp hk).1
  have htotal := Pool.total_set Call.flying hk ⟨.done, since, day⟩
  have hsingle : Pool.total Call.flying (s.calls.set k ⟨.done, since, day⟩) ≤ 1 := by
    have hbefore := h.single
    have hone : Call.flying ⟨.done, since, day⟩ = 0 := rfl
    omega
  refine ⟨h.goto rfl rfl (h.others hk rfl) hsingle (List.mem_set hposition _) hgrow (by omega)
    h.shipped h.files ?_ fun _ => by omega, hgrow⟩
  -- the export is done and knows nothing any more
  refine ⟨hknows.since, fun _ hphase => ?_, fun _ _ hphase => ?_, fun _ _ hphase => ?_,
    fun _ row hrow => ?_⟩
  · cases hphase
  · cases hphase
  · obtain hphase | hphase := hphase <;> cases hphase
  · exact hledger ▸ hsince row hrow

/-- **ONE STEP**: an orderly step ships nothing twice, leaves nothing out and
    never takes the watermark back. -/
theorem step_shipped (x : Event) (hx : Orderly x s) (h : Shipped s m) :
    (∃ m', Shipped (step x s) m') ∧ s.ledger ≤ (step x s).ledger := by
  -- one export at a time, by the order of the run
  cases x with
  | insert row =>
      simp only [step]
      split
      · exact ⟨⟨m, h⟩, Nat.le_refl _⟩
      · exact ⟨⟨m, h.insert hx.1 hx.2⟩, Nat.le_refl _⟩
  | run => exact ⟨⟨m, h.run⟩, Nat.le_refl _⟩
  | loadWatermark k ok =>
      simp only [step]
      split
      case h_1 since day hk =>
        refine ⟨⟨m, h.load hk hx.1 ?_⟩, Nat.le_refl _⟩
        cases ok with
        | true => rfl
        | false => exact (hx.2 rfl).symm
      case h_2 => exact ⟨⟨m, h⟩, Nat.le_refl _⟩
  | findMany k ok =>
      simp only [step]
      split
      case h_1 watermark since day hk =>
        split
        · exact ⟨⟨m, h.find hk⟩, Nat.le_refl _⟩
        · exact ⟨⟨m, h.fail hk rfl rfl⟩, Nat.le_refl _⟩
      case h_2 => exact ⟨⟨m, h⟩, Nat.le_refl _⟩
  | upload k ok =>
      simp only [step]
      split
      case h_1 watermark events since day hk =>
        split
        · exact ⟨⟨_, h.upload hk⟩, Nat.le_refl _⟩
        · exact ⟨⟨m, h.fail hk rfl rfl⟩, Nat.le_refl _⟩
      case h_2 => exact ⟨⟨m, h⟩, Nat.le_refl _⟩
  | metrics k ok =>
      simp only [step]
      split
      case h_1 watermark last since day hk =>
        cases ok with
        | true => exact ⟨⟨m, h.measure hk⟩, Nat.le_refl _⟩
        | false => exact ⟨⟨m, h.fail hk rfl (hx rfl _ hk)⟩, Nat.le_refl _⟩
      case h_2 => exact ⟨⟨m, h⟩, Nat.le_refl _⟩
  | saveWatermark k ok =>
      simp only [step]
      split
      case h_1 watermark last since day hk =>
        cases ok with
        | true => exact ⟨⟨m, (h.save hk).1⟩, (h.save hk).2⟩
        | false => exact ⟨⟨m, h.fail hk rfl (hx rfl _ hk)⟩, Nat.le_refl _⟩
      case h_2 => exact ⟨⟨m, h⟩, Nat.le_refl _⟩
  | nextDay => exact ⟨⟨m, ⟨h.ledger_le, h.shipped, h.files, h.single, h.calls, h.saved⟩⟩, Nat.le_refl _⟩

end

theorem start_shipped : Shipped start 0 where
  ledger_le := Nat.le_refl 0
  shipped := fun _ hrow => absurd hrow List.not_mem_nil
  files := fun _ hfile => absurd hfile List.not_mem_nil
  single := Nat.zero_le 1
  calls := fun _ hcall => absurd hcall List.not_mem_nil
  saved := fun _ => rfl

/-! ## Every interleaving -/

/-- **EXACTLY ONCE**: along an orderly run every row that a completed export found
    in the table is in exactly one file, and the watermark never decreases. -/
theorem exports_once (xs : List Event) (hrun : Along step Orderly xs start) :
    Along step Promised xs start := by
  refine along_of_invariant (I := fun s => ∃ m, Shipped s m) (fun x s hx h => ?_)
    ⟨0, start_shipped⟩ hrun
  obtain ⟨m, h⟩ := h
  obtain ⟨⟨m', hnext⟩, hgrow⟩ := step_shipped x hx h
  exact ⟨⟨hnext.exactlyOnce, hgrow⟩, m', hnext⟩

def sample (id : String) (ledger : Nat) : ContractEvent := ⟨id, "contract", "contribution", "tx", ledger⟩

theorem exports_once_run : Along step Promised
    [.insert (sample "a" 1), .run, .loadWatermark 0 true, .findMany 0 true, .upload 0 true,
      .metrics 0 true, .saveWatermark 0 true] start :=
  exports_once _ ⟨⟨by decide, fun _ hcall => nomatch hcall⟩, trivial, ⟨by decide, Bool.noConfusion⟩,
    trivial, trivial, Bool.noConfusion, Bool.noConfusion, trivial⟩

/-- A second event of an exported ledger is stored later, and no file ever has
    it. -/
theorem late_row_lost : ¬ ∀ xs : List Event, Along step Promised xs start := by
  intro h
  have hrun := h (([.insert (sample "a" 1), .run, .loadWatermark 0 true, .findMany 0 true, .upload 0 true,
    .metrics 0 true, .saveWatermark 0 true, .insert (sample "b" 1), .run, .loadWatermark 1 true,
    .findMany 1 true, .upload 1 true, .metrics 1 true] : List Event) ++ [Event.saveWatermark 1 true])
  have hlast := ((along_append step Promised _ _ start).mp hrun).2.1.1
  have hshipped := hlast ⟨.done, 2, 0⟩ (by decide) rfl (sample "b" 1) (by decide)
  exact absurd hshipped (by decide)

end WarehouseExport
