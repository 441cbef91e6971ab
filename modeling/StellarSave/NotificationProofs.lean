import StellarSave.PoolProofs
import StellarSave.TraceProofs

/-! # The notification queue — two processors, one table

    `NotificationService.processQueuedNotifications` (`notification_service.ts`)
    and `processDueReminders` (`services/notifications.ts`) find pending rows,
    and then, row by row, write `processing`, send, and write how it went.  The
    first write does not ask whether the row is still pending, and a reminder is
    a row for both of them. -/

namespace NotificationQueue

open Trace

inductive Status where
  | pending
  | processing
  | completed
  | failed
  deriving DecidableEq, Repr

/-- The columns that decide who processes a row and when. -/
structure Notification where
  id : Nat
  notificationType : String
  templateKey : String
  priority : Int
  scheduledFor : Nat
  status : Status
  deriving DecidableEq, Repr

inductive Processor where
  | queuedNotifications
  | dueReminders
  deriving DecidableEq, Repr

/-- Where a run stands.  `closing` is about to write how it went; `caught` tells
    whether an error of that write is caught, and `failed` written instead. -/
inductive Phase where
  | started
  | claiming (row : Notification) (rest : List Notification)
  | sending (row : Notification) (rest : List Notification)
  | closing (row : Notification) (rest : List Notification) (ok caught : Bool)
  | ended
  deriving DecidableEq, Repr

structure Run where
  processor : Processor
  batchSize : Nat
  phase : Phase
  deriving DecidableEq, Repr

/-- The table, the runs, the clock, and the rows handed to a sender so far. -/
structure State where
  rows : List Notification
  runs : List Run
  now : Nat
  sent : List Nat
  deriving DecidableEq, Repr

def start : State := ⟨[], [], 0, []⟩

inductive Outcome where
  | sent
  | notSent
  | threw
  deriving DecidableEq, Repr

/-- What can happen: a row is queued, a run begins, one of its steps is taken,
    its process dies, time passes. -/
inductive Event where
  | queueNotification (row : Notification)
  | process (processor : Processor) (batchSize : Nat)
  | findMany (k : Nat) (ok : Bool)
  | claim (k : Nat) (ok : Bool)
  | send (k : Nat) (outcome : Outcome)
  | close (k : Nat) (ok : Bool)
  | crash (k : Nat)
  | pass (ms : Nat)
  deriving DecidableEq, Repr

/-- The rows a processor selects. -/
def Due (processor : Processor) (now : Nat) (row : Notification) : Prop :=
  row.status = .pending ∧ row.scheduledFor ≤ now ∧
    match processor with
    | .queuedNotifications => True
    | .dueReminders => row.notificationType = "email" ∧
        row.templateKey.startsWith "contribution_reminder_" = true

instance (processor : Processor) (now : Nat) (row : Notification) : Decidable (Due processor now row) := by
  cases processor <;> exact inferInstanceAs (Decidable (_ ∧ _ ∧ _))

/-- `orderBy: [{ priority: 'desc' }, { scheduledFor: 'asc' }]`. -/
def Before (a b : Notification) : Prop :=
  b.priority < a.priority ∨ a.priority = b.priority ∧ a.scheduledFor ≤ b.scheduledFor

instance : DecidableRel Before := fun _ _ => inferInstanceAs (Decidable (_ ∨ _))

def findMany (rows : List Notification) (processor : Processor) (now batchSize : Nat) :
    List Notification :=
  ((rows.filter fun row => Due processor now row).insertionSort Before).take batchSize

/-- `update({ where: { id }, data: { status } })`, whatever the status was. -/
def update (rows : List Notification) (id : Nat) (status : Status) : List Notification :=
  rows.map fun row => if row.id = id then { row with status := status } else row

/-- The loop at the next row. -/
def Phase.next : List Notification → Phase
  | [] => .ended
  | row :: rest => .claiming row rest

/-- Whether a processor has a sender for a row: the first one lets other types
    than email and push pass as processed. -/
def Sends (processor : Processor) (row : Notification) : Prop :=
  processor = .dueReminders ∨ row.notificationType = "email" ∨ row.notificationType = "push"

instance (processor : Processor) (row : Notification) : Decidable (Sends processor row) :=
  inferInstanceAs (Decidable (_ ∨ _))

/-- After the sender: what is written next, if anything. -/
def Phase.afterSend (processor : Processor) (row : Notification) (rest : List Notification) :
    Outcome → Phase
  | .sent => .closing row rest true (processor = .queuedNotifications)
  | .notSent => .closing row rest false false
  | .threw =>
      match processor with
      | .queuedNotifications => .closing row rest false false
      | .dueReminders => .ended

def State.goto (s : State) (k : Nat) (run : Run) (phase : Phase) : State :=
  { s with runs := s.runs.set k { run with phase := phase } }

def step : Event → State → State
  | .queueNotification row, s =>
      if row.id ∈ s.rows.map Notification.id then s
      else { s with rows := s.rows ++ [{ row with status := .pending }] }
  | .process processor batchSize, s => { s with runs := s.runs ++ [⟨processor, batchSize, .started⟩] }
  | .findMany k ok, s =>
      match s.runs[k]? with
      | some ⟨processor, batchSize, .started⟩ =>
          s.goto k ⟨processor, batchSize, .started⟩
            (if ok = true then .next (findMany s.rows processor s.now batchSize) else .ended)
      | _ => s
  | .claim k ok, s =>
      match s.runs[k]? with
      | some ⟨processor, batchSize, .claiming row rest⟩ =>
          if ok = true then
            { s with rows := update s.rows row.id .processing }.goto k
              ⟨processor, batchSize, .claiming row rest⟩ (.sending row rest)
          else
            s.goto k ⟨processor, batchSize, .claiming row rest⟩
              (match processor with
              | .queuedNotifications => .closing row rest false false
              | .dueReminders => .ended)
      | _ => s
  | .send k outcome, s =>
      match s.runs[k]? with
      | some ⟨processor, batchSize, .sending row rest⟩ =>
          { s with sent := if Sends processor row then s.sent ++ [row.id] else s.sent }.goto k
            ⟨processor, batchSize, .sending row rest⟩ (.afterSend processor row rest outcome)
      | _ => s
  | .close k ok, s =>
      match s.runs[k]? with
      | some ⟨processor, batchSize, .closing row rest done caught⟩ =>
          if ok = true then
            { s with rows := update s.rows row.id (if done = true then .completed else .failed) }.goto k
              ⟨processor, batchSize, .closing row rest done caught⟩ (.next rest)
          else
            s.goto k ⟨processor, batchSize, .closing row rest done caught⟩
              (if caught = true then .closing row rest false false else .ended)
      | _ => s
  | .crash k, s =>
      match s.runs[k]? with
      | some run => s.goto k run .ended
      | none => s
  | .pass ms, s => { s with now := s.now + ms }

/-! ## What the queue promises -/

/-- Each row is handed to a sender at most once. -/
def SentOnce (s : State) : Prop := s.sent.Nodup

/-- No row is left in `processing` when no run is active. -/
def NoneStuck (s : State) : Prop :=
  (∀ run ∈ s.runs, run.phase = .ended) → ∀ row ∈ s.rows, row.status ≠ .processing

def Promised (x : Event) (s : State) : Prop := SentOnce (step x s) ∧ NoneStuck (step x s)

/-- The rows a run has found and not yet claimed. -/
def Phase.unclaimed : Phase → List Notification
  | .started => []
  | .claiming row rest => row :: rest
  | .sending _ rest => rest
  | .closing _ rest _ _ => rest
  | .ended => []

/-- The row a run has claimed and not yet closed. -/
def Phase.current? : Phase → Option Notification
  | .sending row _ => some row
  | .closing row _ _ _ => some row
  | _ => none

/-- Whether an event makes run `k` end before it is through. -/
def Ends (x : Event) (k : Nat) (run : Run) : Prop :=
  match x with
  | .crash j => j = k
  | .send j outcome => j = k ∧ run.processor = .dueReminders ∧ outcome = .threw
  | .close j ok => j = k ∧ ok = false ∧ ∀ row rest done, run.phase ≠ .closing row rest done true
  | _ => False

/-- No run finds a row that another has found and not yet claimed, and none ends
    early while the row it is at is in `processing`. -/
def Apart (x : Event) (s : State) : Prop :=
  (∀ k ok finder, x = .findMany k ok → s.runs[k]? = some finder → ∀ run ∈ s.runs,
      ∀ row ∈ run.phase.unclaimed,
        row.id ∉ (findMany s.rows finder.processor s.now finder.batchSize).map Notification.id) ∧
    ∀ k run, s.runs[k]? = some run → Ends x k run → ∀ row, run.phase.current? = some row →
      ∀ r ∈ s.rows, r.id = row.id → r.status ≠ .processing

/-! ## Rows -/

/-- An update moves no row. -/
@[simp] theorem update_ids (rows : List Notification) (id : Nat) (status : Status) :
    (update rows id status).map Notification.id = rows.map Notification.id := by
  simp only [update, List.map_map]
  refine List.map_congr_left fun row _ => ?_
  simp only [Function.comp]
  split <;> rfl

/-- A row after an update has the new status or is as it was. -/
theorem mem_update {rows : List Notification} {id : Nat} {status : Status} {row : Notification}
    (h : row ∈ update rows id status) :
    row.id = id ∧ row.status = status ∨ row.id ≠ id ∧ row ∈ rows := by
  obtain ⟨old, hold, rfl⟩ := List.mem_map.mp h
  by_cases hid : old.id = id
  · exact Or.inl (by simp [hid])
  · exact Or.inr (by simpa [hid] using hold)

/-- A row of the table that nobody will find any more. -/
def Taken (rows : List Notification) (id : Nat) : Prop :=
  id ∈ rows.map Notification.id ∧ ∀ row ∈ rows, row.id = id → row.status ≠ .pending

/-- Nothing makes a row pending again. -/
theorem Taken.update {rows : List Notification} {id id' : Nat} {status : Status} (h : Taken rows id)
    (hstatus : status ≠ .pending) : Taken (update rows id' status) id := by
  refine ⟨by simpa using h.1, fun row hrow hid => ?_⟩
  obtain ⟨-, heq⟩ | ⟨-, hold⟩ := mem_update hrow
  · exact heq ▸ hstatus
  · exact h.2 row hold hid

/-- A row that is no longer pending is taken. -/
theorem taken_update {rows : List Notification} {id : Nat} {status : Status}
    (h : id ∈ rows.map Notification.id) (hstatus : status ≠ .pending) : Taken (update rows id status) id := by
  refine ⟨by simpa using h, fun row hrow hid => ?_⟩
  obtain ⟨-, heq⟩ | ⟨hne, -⟩ := mem_update hrow
  · exact heq ▸ hstatus
  · exact absurd hid hne

/-- What a processor finds is pending. -/
theorem findMany_mem {rows : List Notification} {processor : Processor} {now batchSize : Nat}
    {row : Notification} (h : row ∈ findMany rows processor now batchSize) :
    row ∈ rows ∧ row.status = .pending := by
  have hmem := (List.mem_insertionSort Before).mp (List.mem_of_mem_take h)
  obtain ⟨hrow, hdue⟩ := List.mem_filter.mp hmem
  exact ⟨hrow, (of_decide_eq_true hdue).1⟩

/-- And found once. -/
theorem findMany_nodup {rows : List Notification} (h : (rows.map Notification.id).Nodup)
    (processor : Processor) (now batchSize : Nat) :
    ((findMany rows processor now batchSize).map Notification.id).Nodup := by
  have hsorted := (List.perm_insertionSort Before (rows.filter fun row => Due processor now row)).map
    Notification.id
  have hfiltered : ((rows.filter fun row => Due processor now row).map Notification.id).Nodup :=
    h.sublist (List.filter_sublist.map _)
  exact (hsorted.nodup_iff.mpr hfiltered).sublist ((List.take_sublist _ _).map _)

/-! ## Runs -/

/-- The rows a run may yet hand to a sender. -/
def Phase.toSend : Phase → List Notification
  | .started => []
  | .claiming row rest => row :: rest
  | .sending row rest => row :: rest
  | .closing _ rest _ _ => rest
  | .ended => []

def Run.held (id : Nat) (run : Run) : Nat := (run.phase.toSend.map Notification.id).count id

/-- Before the next row all of them are still to be sent. -/
@[simp] theorem next_toSend (rows : List Notification) : (Phase.next rows).toSend = rows := by
  cases rows <;> rfl

/-- And none is in hand. -/
@[simp] theorem next_current? (rows : List Notification) : (Phase.next rows).current? = none := by
  cases rows <;> rfl

/-- So none is being sent. -/
theorem next_ne_sending (rows : List Notification) (row : Notification) (rest : List Notification) :
    Phase.next rows ≠ .sending row rest := by
  cases rows <;> nofun

/-- A row to be sent is unclaimed, or the one being sent. -/
theorem toSend_cases {phase : Phase} {row : Notification} (h : row ∈ phase.toSend) :
    row ∈ phase.unclaimed ∨ ∃ rest, phase = .sending row rest := by
  cases phase with
  | sending current rest =>
      obtain rfl | h := List.mem_cons.mp h
      · exact Or.inr ⟨rest, rfl⟩
      · exact Or.inl h
  | started => exact Or.inl h
  | claiming current rest => exact Or.inl h
  | closing current rest ok caught => exact Or.inl h
  | ended => exact Or.inl h

/-- Every row is still held by one run or sent once, what is claimed or sent is
    no longer pending, and what is in `processing` has a run at it. -/
structure Disciplined (s : State) : Prop where
  ids : (s.rows.map Notification.id).Nodup
  once : ∀ id, Pool.total (Run.held id) s.runs + s.sent.count id ≤ 1
  sent : ∀ id ∈ s.sent, Taken s.rows id
  sending : ∀ run ∈ s.runs, ∀ row rest, run.phase = .sending row rest → Taken s.rows row.id
  known : ∀ run ∈ s.runs, ∀ row ∈ run.phase.toSend, row.id ∈ s.rows.map Notification.id
  current : ∀ row ∈ s.rows, row.status = .processing →
    ∃ run ∈ s.runs, ∃ r, run.phase.current? = some r ∧ r.id = row.id

variable {s : State}

/-- Every row was sent once at most. -/
theorem Disciplined.sentOnce (h : Disciplined s) : SentOnce s := by
  refine List.nodup_iff_count_le_one.mpr fun id => ?_
  have honce := h.once id
  omega

/-- None is stuck. -/
theorem Disciplined.noneStuck (h : Disciplined s) : NoneStuck s := by
  intro hended row hrow hstatus
  obtain ⟨run, hrun, r, hcurrent, -⟩ := h.current row hrow hstatus
  simp [hended run hrun, Phase.current?] at hcurrent

/-- **A RUN GOES ON**: what is left to show is about the run and the row it is
    at. -/
theorem Disciplined.goto (h : Disciplined s) {s' : State} {k : Nat} {run q : Run}
    (hk : s.runs[k]? = some run) (hruns : s'.runs = s.runs.set k q)
    (hids : s'.rows.map Notification.id = s.rows.map Notification.id)
    (hkept : ∀ id, Taken s.rows id → Taken s'.rows id)
    (honce : ∀ id, Pool.total (Run.held id) (s.runs.set k q) + s'.sent.count id ≤ 1)
    (hsent : ∀ id ∈ s'.sent, id ∈ s.sent ∨ Taken s'.rows id)
    (hsending : ∀ row rest, q.phase = .sending row rest → Taken s'.rows row.id)
    (hknown : ∀ row ∈ q.phase.toSend, row.id ∈ s.rows.map Notification.id)
    (hcurrent : ∀ row ∈ s'.rows, row.status = .processing →
      (∃ r, q.phase.current? = some r ∧ r.id = row.id) ∨
        (row ∈ s.rows ∧ ∀ r, run.phase.current? = some r → r.id ≠ row.id)) : Disciplined s' where
  ids := hids ▸ h.ids
  once := hruns ▸ honce
  sent id hid := by
    obtain hold | htaken := hsent id hid
    · exact hkept id (h.sent id hold)
    · exact htaken
  sending := by
    rw [hruns]
    intro other hother row rest hphase
    obtain rfl | hold := Pool.mem_set hother
    · exact hsending row rest hphase
    · exact hkept _ (h.sending other hold row rest hphase)
  known := by
    rw [hruns, hids]
    intro other hother row hrow
    obtain rfl | hold := Pool.mem_set hother
    · exact hknown row hrow
    · exact h.known other hold row hrow
  -- the row being processed is in the hands of the run that moves, or of another
  current := by
    rw [hruns]
    intro row hrow hstatus
    have hlt : k < s.runs.length := (List.getElem?_eq_some_iff.mp hk).1
    obtain ⟨r, hq, hid⟩ | ⟨hold, hother⟩ := hcurrent row hrow hstatus
    · exact ⟨q, List.mem_set hlt q, r, hq, hid⟩
    · obtain ⟨other, hmem, r, hr, hid⟩ := h.current row hold hstatus
      have hne : other ≠ run := by
        rintro rfl
        exact hother r hr hid
      exact ⟨other, Pool.mem_set_of_ne hk hmem hne, r, hr, hid⟩

/-- A run that holds no more than before, with the table and the sender left
    alone. -/
theorem Disciplined.move (h : Disciplined s) {k : Nat} {run : Run} {phase : Phase}
    (hk : s.runs[k]? = some run) (htoSend : phase.toSend.Sublist run.phase.toSend)
    (hsending : ∀ row rest, phase ≠ .sending row rest)
    (hcurrent : ∀ r, run.phase.current? = some r →
      phase.current? = some r ∨ ∀ row ∈ s.rows, row.id = r.id → row.status ≠ .processing) :
    Disciplined (s.goto k run phase) := by
  refine h.goto hk rfl rfl (fun _ htaken => htaken) (fun id => ?_) (fun _ hid => Or.inl hid)
    (fun row rest hphase => absurd hphase (hsending row rest)) (fun row hrow => ?_)
    fun row hrow hstatus => ?_
  · have htotal := Pool.total_set (Run.held id) hk { run with phase := phase }
    have hle : Run.held id { run with phase := phase } ≤ Run.held id run :=
      (htoSend.map Notification.id).count_le id
    have honce := h.once id
    show Pool.total (Run.held id) (s.runs.set k { run with phase := phase }) + s.sent.count id ≤ 1
    omega
  · exact h.known run (List.mem_of_getElem? hk) row (htoSend.subset hrow)
  · by_cases hany : ∃ r, phase.current? = some r ∧ r.id = row.id
    · exact Or.inl hany
    · refine Or.inr ⟨hrow, fun r hr hid => ?_⟩
      obtain hsame | hnot := hcurrent r hr
      · exact hany ⟨r, hsame, hid⟩
      · exact hnot row hrow hid.symm hstatus

/-! ## Step by step -/

/-- **QUEUED**: a new row is pending, and nobody holds it. -/
theorem Disciplined.queue (h : Disciplined s) {row : Notification}
    (hnew : row.id ∉ s.rows.map Notification.id) :
    Disciplined { s with rows := s.rows ++ [{ row with status := .pending }] } := by
  have hkept : ∀ id, Taken s.rows id → Taken (s.rows ++ [{ row with status := .pending }]) id := by
    rintro id ⟨hid, hstatus⟩
    refine ⟨by simpa using Or.inl hid, fun r hr hrid => ?_⟩
    obtain hr | rfl := Pool.mem_concat hr
    · exact hstatus r hr hrid
    · exact absurd (hrid ▸ hid) hnew
  refine ⟨?_, h.once, fun id hid => hkept id (h.sent id hid),
    fun run hrun r rest hphase => hkept _ (h.sending run hrun r rest hphase), ?_, ?_⟩
  · rw [List.map_append, List.nodup_append]
    refine ⟨h.ids, by simp, fun a ha b hb => ?_⟩
    obtain rfl : b = row.id := by simpa using hb
    rintro rfl
    exact hnew ha
  · intro run hrun r hr
    rw [List.map_append]
    exact List.mem_append_left _ (h.known run hrun r hr)
  · intro r hr hstatus
    obtain hr | rfl := Pool.mem_concat hr
    · exact h.current r hr hstatus
    · exact absurd hstatus (by simp)

/-- A new run holds nothing. -/
theorem Disciplined.process (h : Disciplined s) (processor : Processor) (batchSize : Nat) :
    Disciplined { s with runs := s.runs ++ [⟨processor, batchSize, .started⟩] } := by
  refine ⟨h.ids, fun id => ?_, h.sent, ?_, ?_, ?_⟩
  · rw [Pool.total_append, Pool.total_cons, Pool.total_nil]
    exact h.once id
  · intro run hrun row rest hphase
    obtain hrun | rfl := Pool.mem_concat hrun
    · exact h.sending run hrun row rest hphase
    · cases hphase
  · intro run hrun row hrow
    obtain hrun | rfl := Pool.mem_concat hrun
    · exact h.known run hrun row hrow
    · exact absurd hrow List.not_mem_nil
  · intro row hrow hstatus
    obtain ⟨run, hrun, hat⟩ := h.current row hrow hstatus
    exact ⟨run, List.mem_append_left _ hrun, hat⟩

/-- **FOUND**: pending rows that no other run has found are nobody's. -/
theorem Disciplined.find (h : Disciplined s) {k batchSize : Nat} {processor : Processor}
    (hk : s.runs[k]? = some ⟨processor, batchSize, .started⟩)
    (hapart : ∀ run ∈ s.runs, ∀ row ∈ run.phase.unclaimed,
      row.id ∉ (findMany s.rows processor s.now batchSize).map Notification.id) :
    Disciplined (s.goto k ⟨processor, batchSize, .started⟩
      (.next (findMany s.rows processor s.now batchSize))) := by
  -- what is found is pending, so nobody has taken it
  have hpending : ∀ id ∈ (findMany s.rows processor s.now batchSize).map Notification.id,
      ¬ Taken s.rows id := by
    rintro id hid ⟨-, hstatus⟩
    obtain ⟨row, hrow, rfl⟩ := List.mem_map.mp hid
    obtain ⟨hmem, hp⟩ := findMany_mem hrow
    exact hstatus row hmem rfl hp
  refine h.goto hk rfl rfl (fun _ htaken => htaken) (fun id => ?_) (fun _ hid => Or.inl hid)
    (fun row rest hphase => absurd hphase (next_ne_sending _ row rest)) (fun row hrow => ?_)
    fun row hrow _ => Or.inr ⟨hrow, fun r hr => by cases hr⟩
  -- no row found is in the hands of another run
  · have htotal := Pool.total_set (Run.held id) hk
      ⟨processor, batchSize, .next (findMany s.rows processor s.now batchSize)⟩
    have hheld : Run.held id ⟨processor, batchSize, .next (findMany s.rows processor s.now batchSize)⟩ =
        ((findMany s.rows processor s.now batchSize).map Notification.id).count id := by
      simp [Run.held]
    have hbefore : Run.held id ⟨processor, batchSize, .started⟩ = 0 := rfl
    have honce := h.once id
    show Pool.total (Run.held id) (s.runs.set k
      ⟨processor, batchSize, .next (findMany s.rows processor s.now batchSize)⟩) + s.sent.count id ≤ 1
    by_cases hid : id ∈ (findMany s.rows processor s.now batchSize).map Notification.id
    · have hcount := List.nodup_iff_count_le_one.mp (findMany_nodup h.ids processor s.now batchSize) id
      have hsent : s.sent.count id = 0 :=
        List.count_eq_zero.mpr fun hmem => hpending id hid (h.sent id hmem)
      have hzero : Pool.total (Run.held id) s.runs = 0 := by
        refine Pool.total_eq_zero fun run hrun => List.count_eq_zero.mpr fun hmem => ?_
        obtain ⟨row, hrow, rfl⟩ := List.mem_map.mp hmem
        obtain hunclaimed | ⟨rest, hphase⟩ := toSend_cases hrow
        · exact hapart run hrun row hunclaimed hid
        · exact hpending row.id hid (h.sending run hrun row rest hphase)
      omega
    · have hcount := List.count_eq_zero.mpr hid
      omega
  · rw [next_toSend] at hrow
    exact List.mem_map_of_mem (findMany_mem hrow).1

/-- **CLAIMED**: the row is in `processing`, and this run is at it. -/
theorem Disciplined.claim (h : Disciplined s) {k batchSize : Nat} {processor : Processor}
    {row : Notification} {rest : List Notification}
    (hk : s.runs[k]? = some ⟨processor, batchSize, .claiming row rest⟩) :
    Disciplined ({ s with rows := update s.rows row.id .processing }.goto k
      ⟨processor, batchSize, .claiming row rest⟩ (.sending row rest)) := by
  have hknown := h.known _ (List.mem_of_getElem? hk)
  refine h.goto hk rfl (update_ids _ _ _) (fun _ htaken => htaken.update (by simp)) (fun id => ?_)
    (fun _ hid => Or.inl hid) (fun r rest' hphase => ?_) hknown fun r hr _ => ?_
  · have htotal := Pool.total_set (Run.held id) hk ⟨processor, batchSize, .sending row rest⟩
    have hsame : Run.held id ⟨processor, batchSize, .sending row rest⟩ =
        Run.held id ⟨processor, batchSize, .claiming row rest⟩ := rfl
    have honce := h.once id
    show Pool.total (Run.held id) (s.runs.set k ⟨processor, batchSize, .sending row rest⟩) +
      s.sent.count id ≤ 1
    omega
  · obtain ⟨rfl, rfl⟩ : row = r ∧ rest = rest' := by simpa using hphase
    exact taken_update (hknown row List.mem_cons_self) (by simp)
  · obtain ⟨hid, -⟩ | ⟨-, hold⟩ := mem_update hr
    · exact Or.inl ⟨row, rfl, hid.symm⟩
    · exact Or.inr ⟨hold, fun r hr => by cases hr⟩

/-- What a run holds after the sender. -/
theorem afterSend_toSend (processor : Processor) (row : Notification) (rest : List Notification)
    (outcome : Outcome) : (Phase.afterSend processor row rest outcome).toSend.Sublist rest := by
  cases outcome with
  | sent => exact List.Sublist.refl rest
  | notSent => exact List.Sublist.refl rest
  | threw =>
      cases processor with
      | queuedNotifications => exact List.Sublist.refl rest
      | dueReminders => exact List.nil_sublist rest

/-- **SENT**: what this run claimed is handed over by this run. -/
theorem Disciplined.send (h : Disciplined s) {k batchSize : Nat} {processor : Processor}
    {row : Notification} {rest : List Notification} (outcome : Outcome)
    (hk : s.runs[k]? = some ⟨processor, batchSize, .sending row rest⟩)
    (hends : processor = .dueReminders → outcome = .threw →
      ∀ r ∈ s.rows, r.id = row.id → r.status ≠ .processing) :
    Disciplined ({ s with sent := if Sends processor row then s.sent ++ [row.id] else s.sent }.goto k
      ⟨processor, batchSize, .sending row rest⟩ (.afterSend processor row rest outcome)) := by
  have hknown := h.known _ (List.mem_of_getElem? hk)
  have hrest := afterSend_toSend processor row rest outcome
  refine h.goto hk rfl rfl (fun _ htaken => htaken) (fun id => ?_) (fun id hid => ?_)
    (fun r rest' hphase => ?_) (fun r hr => ?_) fun r hr hstatus => ?_
  -- the row sent leaves the hands of the run and enters the record
  · have htotal := Pool.total_set (Run.held id) hk
      ⟨processor, batchSize, .afterSend processor row rest outcome⟩
    have hafter : Run.held id ⟨processor, batchSize, .afterSend processor row rest outcome⟩ ≤
        (rest.map Notification.id).count id := (hrest.map Notification.id).count_le id
    have hbefore : Run.held id ⟨processor, batchSize, .sending row rest⟩ =
        ((row :: rest).map Notification.id).count id := rfl
    have hsent : (if Sends processor row then s.sent ++ [row.id] else s.sent).count id ≤
        s.sent.count id + [row.id].count id := by
      split
      · rw [List.count_append]
      · exact Nat.le_add_right _ _
    have hcons : ((row :: rest).map Notification.id).count id =
        [row.id].count id + (rest.map Notification.id).count id := by
      rw [List.map_cons, ← List.singleton_append, List.count_append]
    have honce := h.once id
    show Pool.total (Run.held id) (s.runs.set k
        ⟨processor, batchSize, .afterSend processor row rest outcome⟩) +
      (if Sends processor row then s.sent ++ [row.id] else s.sent).count id ≤ 1
    omega
  · have htaken : Taken s.rows row.id := h.sending _ (List.mem_of_getElem? hk) row rest rfl
    by_cases hsends : Sends processor row
    · simp only [State.goto, if_pos hsends, List.mem_append, List.mem_singleton] at hid
      obtain hid | rfl := hid
      · exact Or.inl hid
      · exact Or.inr htaken
    · simp only [State.goto, if_neg hsends] at hid
      exact Or.inl hid
  · cases outcome <;> cases processor <;> cases hphase
  · exact hknown r (List.mem_cons_of_mem row (hrest.subset hr))
  -- the row that was sent is closed, unless its reminder threw
  · by_cases hid : r.id = row.id
    · by_cases hthrew : processor = .dueReminders ∧ outcome = .threw
      · exact absurd hstatus (hends hthrew.1 hthrew.2 r hr hid)
      · refine Or.inl ⟨row, ?_, hid.symm⟩
        cases outcome <;> cases processor <;> simp_all [Phase.afterSend, Phase.current?]
    · refine Or.inr ⟨hr, fun r' hr' => ?_⟩
      obtain rfl : row = r' := by simpa [Phase.current?] using hr'
      exact fun heq => hid heq.symm

/-- **CLOSED**: the row is out of `processing`. -/
theorem Disciplined.close (h : Disciplined s) {k batchSize : Nat} {processor : Processor}
    {row : Notification} {rest : List Notification} {done caught : Bool}
    (hk : s.runs[k]? = some ⟨processor, batchSize, .closing row rest done caught⟩) :
    Disciplined ({ s with
      rows := update s.rows row.id (if done = true then .completed else .failed) }.goto k
      ⟨processor, batchSize, .closing row rest done caught⟩ (.next rest)) := by
  -- both ends are final
  have hfinal : ∀ status, (if done = true then Status.completed else .failed) = status →
      status ≠ .pending ∧ status ≠ .processing := by
    rintro status rfl
    cases done <;> simp
  refine h.goto hk rfl (update_ids _ _ _) (fun _ htaken => htaken.update (hfinal _ rfl).1) (fun id => ?_)
    (fun _ hid => Or.inl hid) (fun r rest' hphase => absurd hphase (next_ne_sending _ r rest'))
    (fun r hr => ?_) fun r hr hstatus => ?_
  · have htotal := Pool.total_set (Run.held id) hk ⟨processor, batchSize, .next rest⟩
    have hsame : Run.held id ⟨processor, batchSize, .next rest⟩ =
        Run.held id ⟨processor, batchSize, .closing row rest done caught⟩ := by
      rw [Run.held, Run.held, next_toSend]
      rfl
    have honce := h.once id
    show Pool.total (Run.held id) (s.runs.set k ⟨processor, batchSize, .next rest⟩) + s.sent.count id ≤ 1
    omega
  · rw [next_toSend] at hr
    exact h.known _ (List.mem_of_getElem? hk) r hr
  · obtain ⟨-, heq⟩ | ⟨hne, hold⟩ := mem_update hr
    · exact absurd hstatus (hfinal r.status heq.symm).2
    · refine Or.inr ⟨hold, fun r' hr' heq => ?_⟩
      obtain rfl : row = r' := by simpa [Phase.current?] using hr'
      exact hne heq.symm

/-- A run that ends while the row it is at is not in `processing`. -/
theorem Disciplined.stop (h : Disciplined s) {k : Nat} {run : Run} (hk : s.runs[k]? = some run)
    (hends : ∀ row, run.phase.current? = some row → ∀ r ∈ s.rows, r.id = row.id → r.status ≠ .processing) :
    Disciplined (s.goto k run .ended) :=
  h.move hk (List.nil_sublist _) (fun _ _ => nofun) fun row hrow => Or.inr (hends row hrow)

/-- **ONE STEP**: runs that stay apart keep the discipline. -/
theorem step_disciplined (x : Event) (hx : Apart x s) (h : Disciplined s) : Disciplined (step x s) := by
  obtain ⟨hfind, hends⟩ := hx
  cases x with
  | queueNotification row =>
      simp only [step]
      split
      case isTrue => exact h
      case isFalse hnew => exact h.queue hnew
  | process processor batchSize => exact h.process processor batchSize
  | findMany k ok =>
      simp only [step]
      split
      case h_1 processor batchSize hk =>
        cases ok with
        | true => exact h.find hk (hfind k true _ rfl hk)
        | false => exact h.stop hk fun row hrow => by cases hrow
      case h_2 => exact h
  | claim k ok =>
      simp only [step]
      split
      case h_1 processor batchSize row rest hk =>
        cases ok with
        | true => exact h.claim hk
        | false =>
            cases processor with
            | queuedNotifications =>
                exact h.move hk (List.sublist_cons_self row rest) (fun _ _ => nofun) fun r hr => by cases hr
            | dueReminders => exact h.stop hk fun r hr => by cases hr
      case h_2 => exact h
  | send k outcome =>
      simp only [step]
      split
      case h_1 processor batchSize row rest hk =>
        exact h.send outcome hk fun hprocessor hthrew => hends k _ hk ⟨rfl, hprocessor, hthrew⟩ row rfl
      case h_2 => exact h
  | close k ok =>
      simp only [step]
      split
      case h_1 processor batchSize row rest done caught hk =>
        cases ok with
        | true => exact h.close hk
        | false =>
            cases caught with
            | true =>
                exact h.move hk (List.Sublist.refl rest) (fun _ _ => nofun) fun r hr => Or.inl hr
            | false => exact h.stop hk (hends k _ hk ⟨rfl, rfl, fun _ _ _ => nofun⟩)
      case h_2 => exact h
  | crash k =>
      simp only [step]
      split
      case h_1 run hk => exact h.stop hk (hends k run hk rfl)
      case h_2 => exact h
  | pass ms => exact ⟨h.ids, h.once, h.sent, h.sending, h.known, h.current⟩

/-- Without rows there is nothing to send. -/
theorem start_disciplined : Disciplined start where
  ids := List.nodup_nil
  once := fun _ => Nat.zero_le 1
  sent := fun _ hid => absurd hid List.not_mem_nil
  sending := fun _ hrun => absurd hrun List.not_mem_nil
  known := fun _ hrun => absurd hrun List.not_mem_nil
  current := fun _ hrow => absurd hrow List.not_mem_nil

/-! ## Every interleaving -/

/-- **AT MOST ONCE**: where no run finds what another has yet to claim, and none
    ends in the middle of a row, each row is sent at most once and none is left
    in `processing`. -/
theorem notifications_sent_once (xs : List Event) (hrun : Along step Apart xs start) :
    Along step Promised xs start := by
  refine along_of_invariant (I := Disciplined) (fun x s hx h => ?_) start_disciplined hrun
  have hnext := step_disciplined x hx h
  exact ⟨⟨hnext.sentOnce, hnext.noneStuck⟩, hnext⟩

def sample : Notification := ⟨7, "email", "welcome", 0, 0, .pending⟩

/-- A step that finds nothing and ends nothing keeps runs apart. -/
theorem apart_of_quiet {x : Event} (hfind : ∀ k ok, x ≠ .findMany k ok) (hends : ∀ k run, ¬ Ends x k run)
    (s : State) : Apart x s :=
  ⟨fun k ok _ hx => absurd hx (hfind k ok), fun k run _ hx => absurd hx (hends k run)⟩

/-- One worker, from the query to the last write, keeps its promise. -/
theorem notifications_sent_once_worker : Along step Promised [.queueNotification sample,
    .process .queuedNotifications 100, .findMany 0 true, .claim 0 true, .send 0 .sent, .close 0 true]
    start := by
  refine notifications_sent_once _ ⟨apart_of_quiet (by simp) (by simp [Ends]) _,
    apart_of_quiet (by simp) (by simp [Ends]) _, ⟨fun k ok finder hx hfinder run hrun row hrow => ?_, ?_⟩,
    apart_of_quiet (by simp) (by simp [Ends]) _, apart_of_quiet (by simp) (by simp [Ends]) _,
    apart_of_quiet (by simp) (by simp [Ends]) _, trivial⟩
  · obtain rfl := List.mem_singleton.mp hrun
    exact absurd hrow List.not_mem_nil
  · exact fun k run _ hends => hends.elim

/-- Two workers find the row before either claims it, and both send it. -/
theorem sent_twice : ¬ ∀ xs : List Event, Along step Promised xs start := by
  intro h
  have hrun := h (([.queueNotification sample, .process .queuedNotifications 100,
    .process .queuedNotifications 100, .findMany 0 true, .findMany 1 true, .claim 0 true, .claim 1 true,
    .send 0 .sent] : List Event) ++ [Event.send 1 .sent])
  have hlast := ((along_append step Promised _ _ start).mp hrun).2.1.1
  have hnodup : List.Nodup [7, 7] := hlast
  exact absurd hnodup (by decide)

end NotificationQueue
