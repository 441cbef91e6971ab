import StellarSave.NumeralProofs
import StellarSave.TraceProofs

/-! # The pinning queue — a retry that forgets how often it was made

    `PinningService.processQueue` takes a job from the queue, tries it, and after a
    failure sets a timer while `retries` is below `maxRetries`.  The timer calls
    `retryFailed`, which looks a failed job up by its content id and puts it back with
    `retries` at zero.  Every command to the store is awaited, so that runs and timers
    take turns between any two of them. -/

namespace Pinning

open Units Numeral Trace

inductive PinningJobStatus where
  | queued
  | pinning
  | pinned
  | failed
  | unpinning
  | unpinned
  deriving DecidableEq

inductive Action where
  | pin
  | unpin
  deriving DecidableEq

/-- A number is nothing where it is `NaN`. -/
structure PinningJob where
  id : JsString
  cid : JsString
  groupId : JsString
  contractId : JsString
  action : Action
  status : PinningJobStatus
  priority : Option Int
  retries : Option Int
  maxRetries : Option Int
  error : Option JsString
  createdAt : Option Int
  updatedAt : Option Int
  pinnedAt : Option Int

/-- The hash of a job, its numbers in text. -/
structure JobMap where
  id : JsString
  cid : JsString
  groupId : JsString
  contractId : JsString
  action : Action
  status : PinningJobStatus
  priority : JsString
  retries : JsString
  maxRetries : JsString
  error : JsString
  createdAt : JsString
  updatedAt : JsString
  pinnedAt : JsString

/-- `String` of a number. -/
def text (n : Option Int) : JsString := (n.map numeral).getD (lit "NaN")

/-- `n ? String(n) : ''`. -/
def textOrEmpty : Option Int → JsString
  | some n => if n = 0 then [] else numeral n
  | none => []

def jobToMap (job : PinningJob) : JobMap where
  id := job.id
  cid := job.cid
  groupId := job.groupId
  contractId := job.contractId
  action := job.action
  status := job.status
  priority := text job.priority
  retries := text job.retries
  maxRetries := text job.maxRetries
  error := job.error.getD []
  createdAt := text job.createdAt
  updatedAt := text job.updatedAt
  pinnedAt := textOrEmpty job.pinnedAt

def mapToJob (data : JobMap) : PinningJob where
  id := data.id
  cid := data.cid
  groupId := data.groupId
  contractId := data.contractId
  action := data.action
  status := data.status
  priority := parseInt data.priority
  retries := parseInt data.retries
  maxRetries := parseInt data.maxRetries
  error := if data.error = [] then none else some data.error
  createdAt := parseInt data.createdAt
  updatedAt := parseInt data.updatedAt
  pinnedAt := if data.pinnedAt = [] then none else parseInt data.pinnedAt

/-- `a < b`, false where one is `NaN`. -/
def below : Option Int → Option Int → Bool
  | some a, some b => decide (a < b)
  | _, _ => false

/-- What awaits an answer: a run of `processQueue`, a timer that went off, or the
    `retryFailed` it called, with the timer's job before its own data.  Once its job was
    tried, a run carries the error it met, if any. -/
inductive Process where
  | popping
  | fetching (jobId : JsString)
  | marking (jobId : JsString) (job : PinningJob)
  | attempting (job : PinningJob)
  | updating (job : PinningJob) (error : Option JsString)
  | recording (job updated : PinningJob) (error : Option JsString)
  | waking (jobId cid : JsString)
  | listing (jobId cid : JsString)
  | scanning (jobId cid : JsString) (keys : List JsString)
  | requeueing (jobId key : JsString) (job : JobMap)

/-- The sorted set, the hashes with their keys and the set of the store; what runs,
    and the timers with their job and its content id.  The last four are a record:
    the jobs that were attempted, those whose operation succeeded, those whose timer went
    off, and for each re-queueing the timer's job and the one put back. -/
structure State where
  queue : List (Int × JsString)
  hashes : JsString → Option JobMap
  keys : List JsString
  processing : List JsString
  processes : List Process
  timers : List (JsString × JsString)
  attempted : List JsString
  succeeded : List JsString
  fired : List JsString
  requeued : List (JsString × JsString)

def idle : State := ⟨[], fun _ => none, [], [], [], [], [], [], [], []⟩

/-! ## The store -/

/-- The order of the sorted set: by score, then by member. -/
def before (a b : Int × JsString) : Prop := a.1 < b.1 ∨ a.1 = b.1 ∧ ¬ b.2 < a.2

instance : DecidableRel before := fun _ _ => inferInstanceAs (Decidable (_ ∨ _))

/-- `zadd`, which refuses a score that is not a number. -/
def zadd (queue : List (Int × JsString)) (score : Option Int) (id : JsString) : List (Int × JsString) :=
  match score with
  | some score => (queue.filter fun entry => entry.2 ≠ id).orderedInsert before (score, id)
  | none => queue

def State.hset (s : State) (key : JsString) (job : JobMap) : State :=
  { s with
    hashes := Function.update s.hashes key (some job)
    keys := if key ∈ s.keys then s.keys else s.keys ++ [key] }

/-- What was written under a key is read there. -/
theorem State.hset_self (s : State) (key : JsString) (job : JobMap) :
    (s.hset key job).hashes key = some job := by
  simp [State.hset]

/-- And nowhere else. -/
theorem State.hset_of_ne (s : State) {k key : JsString} (h : k ≠ key) (job : JobMap) :
    (s.hset key job).hashes k = s.hashes k := by
  simp [State.hset, h]

/-! ## The queue and the service -/

def newJob (pinRetryCount : Nat) (id cid groupId contractId : JsString) (action : Action)
    (priority now : Int) : PinningJob where
  id := id
  cid := cid
  groupId := groupId
  contractId := contractId
  action := action
  status := .queued
  priority := some priority
  retries := some 0
  maxRetries := some pinRetryCount
  error := none
  createdAt := some now
  updatedAt := some now
  pinnedAt := none

/-- `enqueue`, of an id that no job has. -/
def enqueue (s : State) (job : PinningJob) : State :=
  if (s.hashes job.id).isSome then s
  else
    { s.hset job.id (jobToMap job) with queue := zadd s.queue job.priority job.id }

/-- The fields `updateStatus` sets. -/
def withStatus (job : PinningJob) (status : PinningJobStatus) (error : JsString) (now : Int) :
    PinningJob :=
  { job with
    status := status
    updatedAt := some now
    error := if error = [] then job.error else some error
    pinnedAt := if status = .pinned then some now else job.pinnedAt
    retries := if status = .failed then job.retries.map (· + 1) else job.retries }

/-- The status an operation of a job ends with. -/
def outcome : Action → Option JsString → PinningJobStatus
  | _, some _ => .failed
  | .pin, none => .pinned
  | .unpin, none => .unpinned

/-- The last part of a failed run: a timer, as long as the job it took had retries left. -/
def schedule (s : State) (job : PinningJob) (error : Option JsString) : State :=
  if error.isSome && below job.retries job.maxRetries then
    { s with timers := s.timers ++ [(job.id, job.cid)] }
  else s

/-- What `retryFailed` writes. -/
def again (job : JobMap) (now : Int) : JobMap :=
  { job with status := .queued, retries := lit "0", error := [], updatedAt := numeral now }

/-- What the next answer brings about.  The operation of a job meets `error`, or succeeds
    where there is none; the keys are listed in any order. -/
def advance (now : Int) (order : List JsString) (error : Option JsString) (s : State) :
    Process → State × Option Process
  | .popping =>
      match s.queue with
      | [] => (s, none)
      | (_, jobId) :: rest => ({ s with queue := rest }, some (.fetching jobId))
  | .fetching jobId =>
      match s.hashes jobId with
      | none => (s, none)
      | some data =>
          (s, some (.marking jobId { mapToJob data with status := .pinning, updatedAt := some now }))
  | .marking jobId job =>
      ({ s.hset jobId (jobToMap job) with processing := s.processing.insert jobId },
        some (.attempting job))
  | .attempting job =>
      ({ s with
          attempted := job.id :: s.attempted
          succeeded := if error.isNone then job.id :: s.succeeded else s.succeeded },
        some (.updating job error))
  | .updating job error =>
      -- `updateStatus` writes only over a hash that is there
      match s.hashes job.id with
      | none => (schedule s job error, none)
      | some data =>
          (s, some (.recording job
            (withStatus (mapToJob data) (outcome job.action error) (error.getD []) now) error))
  | .recording job updated error =>
      (schedule
        { s.hset job.id (jobToMap updated) with processing := s.processing.erase job.id } job error,
        none)
  | .waking jobId cid =>
      match s.hashes jobId with
      | none => (s, none)
      | some data =>
          if (mapToJob data).status = .failed then (s, some (.listing jobId cid)) else (s, none)
  | .listing jobId cid =>
      -- `keys` answers in any order, but with all of them
      if order.isPerm s.keys then (s, some (.scanning jobId cid order))
      else (s, some (.listing jobId cid))
  | .scanning _ _ [] => (s, none)
  | .scanning jobId cid (key :: keys) =>
      match s.hashes key with
      | none => (s, some (.scanning jobId cid keys))
      | some job =>
          if job.cid = cid ∧ job.status = .failed then
            (s, some (.requeueing jobId key (again job now)))
          else (s, some (.scanning jobId cid keys))
  | .requeueing jobId key job =>
      ({ s.hset key job with
          queue := zadd s.queue (parseInt job.priority) job.id
          requeued := (jobId, job.id) :: s.requeued }, none)

/-- What can happen, in any order. -/
inductive Event where
  | enqueue (id cid groupId contractId : JsString) (action : Action) (priority now : Int)
  | processQueue (ipfsReady : Bool)
  | timeout (timer : Nat)
  | answer (process : Nat) (now : Int) (order : List JsString) (error : Option JsString)

/-- A list with what came of one of its entries in its place. -/
def replaceAt {α : Type} (xs : List α) (i : Nat) (next : Option α) : List α :=
  xs.take i ++ (next.toList ++ xs.drop (i + 1))

def step (pinRetryCount : Nat) : Event → State → State
  | .enqueue id cid groupId contractId action priority now, s =>
      enqueue s (newJob pinRetryCount id cid groupId contractId action priority now)
  | .processQueue ipfsReady, s =>
      if ipfsReady then { s with processes := s.processes ++ [.popping] } else s
  | .timeout timer, s =>
      match s.timers[timer]? with
      | none => s
      | some (jobId, cid) =>
          { s with
            timers := replaceAt s.timers timer none
            fired := jobId :: s.fired
            processes := s.processes ++ [.waking jobId cid] }
  | .answer process now order error, s =>
      match s.processes[process]? with
      | none => s
      | some p =>
          let (s', next) := advance now order error s p
          { s' with processes := replaceAt s'.processes process next }

/-- A job that is still to be pinned, or unpinned. -/
def unfinished (job : JobMap) : Bool := job.status != .pinned && job.status != .unpinned

/-- What is asked of a step: the content of a new job has no other job that is unfinished,
    and a timer goes off for a job for which fewer than `pinRetryCount` did before. -/
def Allowed (pinRetryCount : Nat) : Event → State → Prop
  | .enqueue _ cid _ _ _ _ _, s =>
      ∀ key ∈ s.keys, ∀ job ∈ s.hashes key, job.cid = cid → unfinished job = false
  | .timeout timer, s => ∀ entry ∈ s.timers[timer]?, s.fired.count entry.1 < pinRetryCount
  | .processQueue _, _ | .answer _ _ _ _, _ => True

instance (pinRetryCount : Nat) : ∀ e s, Decidable (Allowed pinRetryCount e s)
  | .enqueue _ cid _ _ _ _ _, s => inferInstanceAs (Decidable
      (∀ key ∈ s.keys, ∀ job ∈ s.hashes key, job.cid = cid → unfinished job = false))
  | .timeout timer, s => inferInstanceAs (Decidable
      (∀ entry ∈ s.timers[timer]?, s.fired.count entry.1 < pinRetryCount))
  | .processQueue _, _ | .answer _ _ _ _, _ => isTrue trivial

/-- What bounded retries are about, in one state: how often a job was attempted whose
    operations all failed, and which job a timer put back. -/
def Bounded (pinRetryCount : Nat) (s : State) : Prop :=
  (∀ jobId, jobId ∉ s.succeeded → s.attempted.count jobId ≤ pinRetryCount + 1) ∧
    ∀ entry ∈ s.requeued, entry.2 = entry.1

section Turns

/-- The job a process may still bring a turn. -/
def due : Process → Option JsString
  | .fetching jobId => some jobId
  | .marking _ job => some job.id
  | .attempting job => some job.id
  | .waking jobId _ => some jobId
  | .listing jobId _ => some jobId
  | .scanning jobId _ _ => some jobId
  | .requeueing jobId _ _ => some jobId
  | .popping | .updating _ _ | .recording _ _ _ => none

/-- The job a process is about, tried or not. -/
def held : Process → Option JsString
  | .updating job _ => some job.id
  | .recording job _ _ => some job.id
  | p => due p

/-- The store has a job of this id, for this content. -/
def Of (s : State) (id cid : JsString) : Prop := (s.hashes id).map JobMap.cid = some cid

/-- What a process has read is still what it is about, and a timer's `retryFailed` has
    found the timer's own job. -/
def Sound (s : State) : Process → Prop
  | .popping | .fetching _ => True
  | .marking jobId job => job.id = jobId ∧ job.status = .pinning ∧ Of s jobId job.cid
  | .attempting job | .updating job _ => Of s job.id job.cid
  | .recording job updated error =>
      updated.id = job.id ∧ updated.status = outcome job.action error ∧ Of s job.id updated.cid ∧
        Of s job.id job.cid
  | .waking jobId cid | .listing jobId cid | .scanning jobId cid _ => Of s jobId cid
  | .requeueing jobId key job =>
      key = jobId ∧ job.id = jobId ∧ job.status = .queued ∧ Of s jobId job.cid

/-- The key that is looked at next is not that of another failed job of the content. -/
def FindsOwn (s : State) : Process → Prop
  | .scanning jobId cid (key :: _) =>
      ∀ job, s.hashes key = some job → job.cid = cid → job.status = .failed → key = jobId
  | _ => True

/-- Every hash is under its own id. -/
def Keyed (s : State) : Prop := ∀ key job, s.hashes key = some job → job.id = key

/-- The turns a job has had or still waits for in the queue. -/
def turns (s : State) (id : JsString) : Nat :=
  (s.queue.map Prod.snd).count id + s.attempted.count id

/-- The turns it was given: one by `enqueue`, and one by every timer that went off. -/
def given (s : State) (id : JsString) : Nat := (s.hashes id).toList.length + s.fired.count id

/-- The places in the queue and the timers of a job. -/
def places (s : State) (id : JsString) : Nat :=
  (s.queue.map Prod.snd).count id + (s.timers.map Prod.fst).count id

/-- One for a job that is unfinished. -/
def opened (s : State) (id : JsString) : Nat := ((s.hashes id).filter unfinished).toList.length

variable {s s' : State} {id : JsString} {p : Process}

/-- A member of a sorted set is in it once. -/
theorem count_zadd (id : JsString) (queue : List (Int × JsString)) (score : Option Int)
    (jobId : JsString) :
    ((zadd queue score jobId).map Prod.snd).count id ≤
      (queue.map Prod.snd).count id + [jobId].count id := by
  cases score with
  | none => exact Nat.le_add_right _ _
  | some score =>
      rw [zadd, ((List.perm_orderedInsert before _ _).map Prod.snd).count_eq, List.map_cons,
        ← List.singleton_append, List.count_append, Nat.add_comm]
      exact Nat.add_le_add_right ((List.filter_sublist.map Prod.snd).count_le id) _

/-- A job written under its own id keeps the hashes keyed. -/
theorem hset_keyed (h : Keyed s) {key : JsString} {job : JobMap} (hjob : job.id = key) :
    Keyed (s.hset key job) := by
  intro k j hk
  by_cases hkey : k = key
  · subst hkey
    rw [State.hset_self] at hk
    obtain rfl := Option.some.inj hk
    exact hjob
  · rw [State.hset_of_ne s hkey] at hk
    exact h k j hk

/-- A hash is never taken away. -/
theorem hset_length (s : State) (id key : JsString) (job : JobMap) :
    (s.hashes id).toList.length ≤ ((s.hset key job).hashes id).toList.length := by
  by_cases hkey : id = key
  · subst hkey
    rw [State.hset_self]
    exact Option.length_toList_le
  · rw [State.hset_of_ne s hkey]

/-- One hash is one job. -/
theorem opened_le_one (s : State) (id : JsString) : opened s id ≤ 1 := Option.length_toList_le

/-- A job that is written unfinished is one more that is open, if it was not before. -/
theorem hset_opened (s : State) (id key : JsString) {job : JobMap} (hjob : unfinished job = true) :
    opened s id ≤ opened (s.hset key job) id := by
  by_cases hkey : id = key
  · subst hkey
    have hone : opened (s.hset id job) id = 1 := by
      rw [opened, State.hset_self, Option.filter_some_pos hjob]
      rfl
    rw [hone]
    exact opened_le_one s id
  · rw [opened, opened, State.hset_of_ne s hkey]

/-- A write under another key opens and closes nothing here. -/
theorem hset_opened_of_ne (s : State) {id key : JsString} (hkey : id ≠ key) (job : JobMap) :
    opened (s.hset key job) id = opened s id := by
  rw [opened, opened, State.hset_of_ne s hkey]

/-- An open job is a hash whose status is not a last one. -/
theorem opened_pos (h : 0 < opened s id) : ∃ job, s.hashes id = some job ∧ unfinished job = true := by
  cases hfilter : (s.hashes id).filter unfinished with
  | none =>
      rw [opened, hfilter] at h
      exact absurd h (Nat.lt_irrefl 0)
  | some job => exact ⟨job, Option.filter_eq_some_iff.mp hfilter⟩

/-- A write of a job over itself keeps what every other one is for. -/
theorem hset_of {key : JsString} {job : JobMap} (hjob : Of s key job.cid) {cid : JsString}
    (h : Of s id cid) : Of (s.hset key job) id cid := by
  by_cases hkey : id = key
  · subst hkey
    rw [Of] at h hjob ⊢
    rw [State.hset_self]
    exact hjob.symm.trans h
  · rw [Of, State.hset_of_ne s hkey]
    exact h

/-- A schedule asks for a timer, and for nothing else. -/
theorem schedule_same (s : State) (job : PinningJob) (error : Option JsString) :
    (schedule s job error).queue = s.queue ∧ (schedule s job error).hashes = s.hashes ∧
    (schedule s job error).keys = s.keys ∧ (schedule s job error).attempted = s.attempted ∧
    (schedule s job error).fired = s.fired ∧ (schedule s job error).requeued = s.requeued ∧
    (schedule s job error).processes = s.processes := by
  rw [schedule]
  split
  · exact ⟨rfl, rfl, rfl, rfl, rfl, rfl, rfl⟩
  · exact ⟨rfl, rfl, rfl, rfl, rfl, rfl, rfl⟩

/-- A timer is set for the job that was tried, or none is. -/
theorem schedule_timers (s : State) (job : PinningJob) (error : Option JsString) :
    (schedule s job error).timers = s.timers ∨
      error ≠ none ∧ (schedule s job error).timers = s.timers ++ [(job.id, job.cid)] := by
  rw [schedule]
  split
  · next h =>
      refine .inr ⟨?_, rfl⟩
      rintro rfl
      cases h
  · exact .inl rfl

/-- So nobody's turn comes or goes with it. -/
theorem schedule_turns (id : JsString) (s : State) (job : PinningJob) (error : Option JsString) :
    turns (schedule s job error) id = turns s id ∧ given (schedule s job error) id = given s id := by
  obtain ⟨hqueue, hhashes, -, hattempted, hfired, -, -⟩ := schedule_same s job error
  rw [turns, turns, given, given, hqueue, hhashes, hattempted, hfired]
  exact ⟨rfl, rfl⟩

/-- With a timer set the job has one place more. -/
theorem schedule_places (id : JsString) (s : State) (job : PinningJob) (error : Option JsString) :
    places (schedule s job error) id ≤ places s id + [job.id].count id ∧
      (error = none → places (schedule s job error) id = places s id) := by
  obtain ⟨hqueue, -⟩ := schedule_same s job error
  rw [places, places, hqueue]
  rcases schedule_timers s job error with hnone | ⟨herror, hset⟩
  · rw [hnone]
    exact ⟨Nat.le_add_right _ _, fun _ => rfl⟩
  · rw [hset, List.map_append, List.count_append, ← Nat.add_assoc]
    exact ⟨Nat.le_refl _, fun h => absurd h herror⟩

variable (now : Int) (order : List JsString) (error : Option JsString)

/-- **WHAT AN ANSWER WRITES**: nothing, or the hash of the job its process is about, with its
    id and its content as they were. -/
theorem advance_writes (hp : Sound s p) :
    (advance now order error s p).1.hashes = s.hashes ∧
        (advance now order error s p).1.keys = s.keys ∨
      ∃ key job, (advance now order error s p).1.hashes = (s.hset key job).hashes ∧
        (advance now order error s p).1.keys = (s.hset key job).keys ∧
        held p = some key ∧ job.id = key ∧ Of s key job.cid := by
  cases p with
  -- a process writes at most the job it holds, under the key it found it
  | popping =>
      rw [advance]
      split
      · exact .inl ⟨rfl, rfl⟩
      · exact .inl ⟨rfl, rfl⟩
  | fetching jobId =>
      rw [advance]
      split
      · exact .inl ⟨rfl, rfl⟩
      · exact .inl ⟨rfl, rfl⟩
  | marking jobId job =>
      obtain ⟨hid, -, hof⟩ := hp
      exact .inr ⟨jobId, jobToMap job, rfl, rfl, congrArg some hid, hid, hof⟩
  | attempting job => exact .inl ⟨rfl, rfl⟩
  | updating job failure =>
      obtain ⟨-, hhashes, hkeys, -⟩ := schedule_same s job failure
      rw [advance]
      split
      · exact .inl ⟨hhashes, hkeys⟩
      · exact .inl ⟨rfl, rfl⟩
  -- the record of the outcome goes to the same key as the job
  | recording job updated failure =>
      obtain ⟨hid, -, hof, -⟩ := hp
      obtain ⟨-, hhashes, hkeys, -⟩ := schedule_same
        { s.hset job.id (jobToMap updated) with processing := s.processing.erase job.id } job failure
      exact .inr ⟨job.id, jobToMap updated, hhashes, hkeys, rfl, hid, hof⟩
  | waking jobId cid =>
      rw [advance]
      split
      · exact .inl ⟨rfl, rfl⟩
      · split
        · exact .inl ⟨rfl, rfl⟩
        · exact .inl ⟨rfl, rfl⟩
  | listing jobId cid =>
      rw [advance]
      split
      · exact .inl ⟨rfl, rfl⟩
      · exact .inl ⟨rfl, rfl⟩
  | scanning jobId cid keys =>
      cases keys with
      | nil => exact .inl ⟨rfl, rfl⟩
      | cons key keys =>
          rw [advance]
          split
          · exact .inl ⟨rfl, rfl⟩
          · split
            · exact .inl ⟨rfl, rfl⟩
            · exact .inl ⟨rfl, rfl⟩
  -- to put a job back is to write it as pending
  | requeueing jobId key job =>
      obtain ⟨rfl, hid, -, hof⟩ := hp
      exact .inr ⟨key, job, rfl, rfl, rfl, hid, hof⟩

/-- **AN ANSWER KEEPS** every process with what it read. -/
theorem advance_sound (hs : Keyed s) (hp : Sound s p) (hown : FindsOwn s p) :
    ∀ next ∈ (advance now order error s p).2, Sound s next := by
  intro next hnext
  cases p with
  | popping =>
      rw [advance] at hnext
      split at hnext
      · cases hnext
      · obtain rfl := Option.some.inj hnext
        trivial
  | fetching jobId =>
      rw [advance] at hnext
      split at hnext
      · cases hnext
      · next data hdata =>
          obtain rfl := Option.some.inj hnext
          exact ⟨hs jobId data hdata, rfl, congrArg (Option.map JobMap.cid) hdata⟩
  | marking jobId job =>
      obtain rfl := Option.some.inj hnext
      obtain ⟨rfl, -, hof⟩ := hp
      exact hof
  | attempting job =>
      obtain rfl := Option.some.inj hnext
      exact hp
  | updating job failure =>
      rw [advance] at hnext
      split at hnext
      · cases hnext
      · next data hdata =>
          obtain rfl := Option.some.inj hnext
          exact ⟨hs job.id data hdata, rfl, congrArg (Option.map JobMap.cid) hdata, hp⟩
  | recording job updated failure => cases hnext
  | waking jobId cid =>
      rw [advance] at hnext
      split at hnext
      · cases hnext
      · split at hnext
        · obtain rfl := Option.some.inj hnext
          exact hp
        · cases hnext
  | listing jobId cid =>
      rw [advance] at hnext
      split at hnext
      · obtain rfl := Option.some.inj hnext
        exact hp
      · obtain rfl := Option.some.inj hnext
        exact hp
  | scanning jobId cid keys =>
      cases keys with
      | nil => cases hnext
      | cons key keys =>
          rw [advance] at hnext
          split at hnext
          · obtain rfl := Option.some.inj hnext
            exact hp
          · next job hjob =>
              split at hnext
              · next hfound =>
                  -- the job that is found is the timer's own
                  obtain rfl := Option.some.inj hnext
                  obtain rfl := hown job hjob hfound.1 hfound.2
                  exact ⟨rfl, hs key job hjob, rfl, congrArg (Option.map JobMap.cid) hjob⟩
              · obtain rfl := Option.some.inj hnext
                exact hp
  | requeueing jobId key job => cases hnext

/-- What an answer adds to the timers is of the job that was tried. -/
theorem advance_timers (hp : Sound s p) :
    ∀ entry ∈ (advance now order error s p).1.timers, entry ∈ s.timers ∨ Of s entry.1 entry.2 := by
  -- both places that set a timer come to this
  have hset : ∀ (t : State) (job : PinningJob) (failure : Option JsString), t.timers = s.timers →
      Of s job.id job.cid → ∀ entry ∈ (schedule t job failure).timers,
        entry ∈ s.timers ∨ Of s entry.1 entry.2 := by
    intro t job failure ht hof entry hentry
    rcases schedule_timers t job failure with hnone | ⟨-, hone⟩
    · rw [hnone, ht] at hentry
      exact .inl hentry
    · rw [hone, ht, List.mem_append, List.mem_singleton] at hentry
      rcases hentry with hentry | rfl
      · exact .inl hentry
      · exact .inr hof
  intro entry hentry
  cases p with
  | popping =>
      rw [advance] at hentry
      split at hentry
      · exact .inl hentry
      · exact .inl hentry
  | fetching jobId =>
      rw [advance] at hentry
      split at hentry
      · exact .inl hentry
      · exact .inl hentry
  | marking jobId job => exact .inl hentry
  | attempting job => exact .inl hentry
  | updating job failure =>
      rw [advance] at hentry
      split at hentry
      · exact hset s job failure rfl hp entry hentry
      · exact .inl hentry
  | recording job updated failure =>
      exact hset { s.hset job.id (jobToMap updated) with processing := s.processing.erase job.id }
        job failure rfl hp.2.2.2 entry hentry
  | waking jobId cid =>
      rw [advance] at hentry
      split at hentry
      · exact .inl hentry
      · split at hentry
        · exact .inl hentry
        · exact .inl hentry
  | listing jobId cid =>
      rw [advance] at hentry
      split at hentry
      · exact .inl hentry
      · exact .inl hentry
  | scanning jobId cid keys =>
      cases keys with
      | nil => exact .inl hentry
      | cons key keys =>
          rw [advance] at hentry
          split at hentry
          · exact .inl hentry
          · split at hentry
            · exact .inl hentry
            · exact .inl hentry
  | requeueing jobId key job => exact .inl hentry

/-- A process that asks Redis for the job of a timer. -/
def Searching (jobId cid : JsString) (p : Process) : Prop :=
  p = .waking jobId cid ∨ p = .listing jobId cid ∨ ∃ keys, p = .scanning jobId cid keys

/-- Asking changes nothing, and whatever is asked next is still about the timer's job. -/
theorem advance_search {jobId cid : JsString} (hsearch : Searching jobId cid p) :
    (advance now order error s p).1 = s ∧ ∀ next ∈ (advance now order error s p).2,
      due next = some jobId ∧ held next = some jobId := by
  rcases hsearch with rfl | rfl | ⟨keys, rfl⟩
  · rw [advance]
    split
    · exact ⟨rfl, fun next hnext => by cases hnext⟩
    · split
      · exact ⟨rfl, fun next hnext => by cases hnext; exact ⟨rfl, rfl⟩⟩
      · exact ⟨rfl, fun next hnext => by cases hnext⟩
  · rw [advance]
    split
    · exact ⟨rfl, fun next hnext => by cases hnext; exact ⟨rfl, rfl⟩⟩
    · exact ⟨rfl, fun next hnext => by cases hnext; exact ⟨rfl, rfl⟩⟩
  · cases keys with
    | nil => exact ⟨rfl, fun next hnext => by cases hnext⟩
    | cons key keys =>
        rw [advance]
        split
        · exact ⟨rfl, fun next hnext => by cases hnext; exact ⟨rfl, rfl⟩⟩
        · split
          · exact ⟨rfl, fun next hnext => by cases hnext; exact ⟨rfl, rfl⟩⟩
          · exact ⟨rfl, fun next hnext => by cases hnext; exact ⟨rfl, rfl⟩⟩

/-- A process that goes on about a job, if it goes on, counts once at most for it. -/
theorem count_bind_le (id : JsString) {jobId : JsString} {next : Option Process}
    {about : Process → Option JsString} (h : ∀ p ∈ next, about p = some jobId) :
    (next.bind about).toList.count id ≤ [jobId].count id := by
  cases next with
  | none => exact Nat.zero_le _
  | some p =>
      rw [Option.bind_some, h p rfl]
      exact Nat.le_refl _

/-- A pop takes one turn from the queue. -/
theorem count_pop (id : JsString) {score : Int} {jobId : JsString} {rest : List (Int × JsString)}
    (h : s.queue = (score, jobId) :: rest) :
    (s.queue.map Prod.snd).count id = (rest.map Prod.snd).count id + [jobId].count id := by
  rw [h, List.map_cons, ← List.singleton_append, List.count_append, Nat.add_comm]

/-- **NO TURN COMES FROM NOWHERE**: what an answer adds to the turns of a job it adds to
    those it was given. -/
theorem advance_turns (id : JsString) (hs : Keyed s) (hp : Sound s p) :
    turns (advance now order error s p).1 id +
        ((advance now order error s p).2.bind due).toList.count id + given s id ≤
      turns s id + (due p).toList.count id + given (advance now order error s p).1 id := by
  cases p with
  | popping =>
      rw [advance]
      split
      · exact Nat.le_refl _
      · next score jobId rest hqueue =>
          -- the turn leaves the queue and is carried on
          have hpop := count_pop id hqueue
          show (rest.map Prod.snd).count id + s.attempted.count id + [jobId].count id + given s id ≤
            turns s id + 0 + given s id
          rw [turns, hpop]
          omega
  | fetching jobId =>
      rw [advance]
      split
      · exact Nat.add_le_add_right (Nat.add_le_add_left (Nat.zero_le _) _) _
      · next data hdata =>
          -- what was read is carried under the id it was read by
          have hid : data.id = jobId := hs jobId data hdata
          show turns s id + [data.id].count id + given s id ≤
            turns s id + [jobId].count id + given s id
          rw [hid]
  | marking jobId job =>
      have hkeep := hset_length s id jobId (jobToMap job)
      show turns s id + [job.id].count id + given s id ≤
        turns s id + [job.id].count id +
          (((s.hset jobId (jobToMap job)).hashes id).toList.length + s.fired.count id)
      rw [given]
      omega
  | attempting job =>
      show (s.queue.map Prod.snd).count id + (job.id :: s.attempted).count id + 0 + given s id ≤
        turns s id + [job.id].count id + given s id
      rw [turns, ← List.singleton_append, List.count_append]
      omega
  | updating job failure =>
      rw [advance]
      split
      · obtain ⟨hturns, hgiven⟩ := schedule_turns id s job failure
        rw [hturns, hgiven]
        exact Nat.le_refl _
      · exact Nat.le_refl _
  | recording job updated failure =>
      have hkeep := hset_length s id job.id (jobToMap updated)
      obtain ⟨hturns, hgiven⟩ := schedule_turns id
        { s.hset job.id (jobToMap updated) with processing := s.processing.erase job.id } job failure
      rw [advance, hturns, hgiven]
      show turns s id + 0 + given s id ≤ turns s id + 0 +
        (((s.hset job.id (jobToMap updated)).hashes id).toList.length + s.fired.count id)
      rw [given]
      omega
  | waking jobId cid =>
      obtain ⟨hsame, hnext⟩ := advance_search now order error (.inl rfl : Searching jobId cid _)
      rw [hsame]
      exact Nat.add_le_add_right (Nat.add_le_add_left
        (count_bind_le id fun next h => (hnext next h).1) _) _
  | listing jobId cid =>
      obtain ⟨hsame, hnext⟩ := advance_search now order error (.inr (.inl rfl) : Searching jobId cid _)
      rw [hsame]
      exact Nat.add_le_add_right (Nat.add_le_add_left
        (count_bind_le id fun next h => (hnext next h).1) _) _
  | scanning jobId cid keys =>
      obtain ⟨hsame, hnext⟩ := advance_search now order error (.inr (.inr ⟨keys, rfl⟩) : Searching jobId cid _)
      rw [hsame]
      exact Nat.add_le_add_right (Nat.add_le_add_left
        (count_bind_le id fun next h => (hnext next h).1) _) _
  | requeueing jobId key job =>
      -- the turn of the timer goes back to the queue
      obtain ⟨rfl, rfl, -⟩ := hp
      have hkeep := hset_length s id job.id job
      have hadd := count_zadd id s.queue (parseInt job.priority) job.id
      show ((zadd s.queue (parseInt job.priority) job.id).map Prod.snd).count id +
          s.attempted.count id + 0 + given s id ≤
        turns s id + [job.id].count id +
          (((s.hset job.id job).hashes id).toList.length + s.fired.count id)
      rw [turns, given]
      omega

/-- **ONE PLACE A JOB**: what an answer adds to the places of a job it adds to its being
    open, and a job that is finished has lost the place its process held. -/
theorem advance_places (id : JsString) (hs : Keyed s) (hp : Sound s p) :
    places (advance now order error s p).1 id +
        ((advance now order error s p).2.bind held).toList.count id + opened s id ≤
      places s id + (held p).toList.count id + opened (advance now order error s p).1 id := by
  cases p with
  | popping =>
      rw [advance]
      split
      · exact Nat.le_refl _
      · next score jobId rest hqueue =>
          have hpop := count_pop id hqueue
          show (rest.map Prod.snd).count id + (s.timers.map Prod.fst).count id + [jobId].count id +
            opened s id ≤ places s id + 0 + opened s id
          rw [places, hpop]
          omega
  | fetching jobId =>
      rw [advance]
      split
      · exact Nat.add_le_add_right (Nat.add_le_add_left (Nat.zero_le _) _) _
      · next data hdata =>
          have hid : data.id = jobId := hs jobId data hdata
          show places s id + [data.id].count id + opened s id ≤
            places s id + [jobId].count id + opened s id
          rw [hid]
  | marking jobId job =>
      have hstatus : unfinished (jobToMap job) = true := by
        rw [unfinished, jobToMap, hp.2.1]
        rfl
      exact Nat.add_le_add_left (hset_opened s id jobId hstatus) _
  | attempting job => exact Nat.le_refl _
  | updating job failure =>
      rw [advance]
      split
      · obtain ⟨hplaces, -⟩ := schedule_places id s job failure
        have hopened : opened (schedule s job failure) id = opened s id := by
          rw [opened, opened, (schedule_same s job failure).2.1]
        rw [hopened]
        exact Nat.add_le_add_right hplaces _
      · exact Nat.le_refl _
  | recording job updated failure =>
      obtain ⟨hplaces, hsuccess⟩ : places (advance now order error s (.recording job updated failure)).1 id ≤
          places s id + [job.id].count id ∧ (failure = none →
            places (advance now order error s (.recording job updated failure)).1 id = places s id) :=
        schedule_places id _ job failure
      have hopened : opened (advance now order error s (.recording job updated failure)).1 id =
          opened (s.hset job.id (jobToMap updated)) id := by
        rw [opened, opened, advance, (schedule_same _ job failure).2.1]
      rw [hopened]
      show places (advance now order error s (.recording job updated failure)).1 id + 0 + opened s id ≤
        places s id + [job.id].count id + opened (s.hset job.id (jobToMap updated)) id
      cases failure with
      | none =>
          -- no timer is set: the place is given up with the job
          rw [hsuccess rfl]
          by_cases hid : id = job.id
          · subst hid
            rw [List.count_singleton_self]
            have hone := opened_le_one s job.id
            omega
          · rw [hset_opened_of_ne s hid]
            omega
      | some message =>
          have hstatus : unfinished (jobToMap updated) = true := by
            rw [unfinished, jobToMap, hp.2.1]
            cases job.action <;> rfl
          have hkeep := hset_opened s id job.id hstatus
          omega
  | waking jobId cid =>
      obtain ⟨hsame, hnext⟩ := advance_search now order error (.inl rfl : Searching jobId cid _)
      rw [hsame]
      exact Nat.add_le_add_right (Nat.add_le_add_left
        (count_bind_le id fun next h => (hnext next h).2) _) _
  | listing jobId cid =>
      obtain ⟨hsame, hnext⟩ := advance_search now order error (.inr (.inl rfl) : Searching jobId cid _)
      rw [hsame]
      exact Nat.add_le_add_right (Nat.add_le_add_left
        (count_bind_le id fun next h => (hnext next h).2) _) _
  | scanning jobId cid keys =>
      obtain ⟨hsame, hnext⟩ := advance_search now order error (.inr (.inr ⟨keys, rfl⟩) : Searching jobId cid _)
      rw [hsame]
      exact Nat.add_le_add_right (Nat.add_le_add_left
        (count_bind_le id fun next h => (hnext next h).2) _) _
  | requeueing jobId key job =>
      obtain ⟨rfl, rfl, hqueued, -⟩ := hp
      have hstatus : unfinished job = true := by
        rw [unfinished, hqueued]
        rfl
      have hkeep := hset_opened s id job.id hstatus
      have hadd := count_zadd id s.queue (parseInt job.priority) job.id
      show ((zadd s.queue (parseInt job.priority) job.id).map Prod.snd).count id +
          (s.timers.map Prod.fst).count id + 0 + opened s id ≤
        places s id + [job.id].count id + opened (s.hset job.id job) id
      rw [places]
      omega

/-- An answer leaves the other processes and the record of the timers alone, and only a
    timer's last one puts a job back. -/
theorem advance_same : (advance now order error s p).1.processes = s.processes ∧
    (advance now order error s p).1.fired = s.fired ∧
    ((advance now order error s p).1.requeued = s.requeued ∨
      ∃ jobId key job, p = .requeueing jobId key job ∧
        (advance now order error s p).1.requeued = (jobId, job.id) :: s.requeued) := by
  cases p with
  -- the one entry in the record of those put back
  | requeueing jobId key job => exact ⟨rfl, rfl, .inr ⟨jobId, key, job, rfl, rfl⟩⟩
  | popping => rw [advance]; split <;> exact ⟨rfl, rfl, .inl rfl⟩
  | fetching jobId => rw [advance]; split <;> exact ⟨rfl, rfl, .inl rfl⟩
  | marking jobId job => exact ⟨rfl, rfl, .inl rfl⟩
  | attempting job => exact ⟨rfl, rfl, .inl rfl⟩
  -- a failure asks for a timer, which none of these lists sees
  | updating job failure =>
      obtain ⟨-, -, -, -, hfired, hrequeued, hprocesses⟩ := schedule_same s job failure
      rw [advance]
      split
      · exact ⟨hprocesses, hfired, .inl hrequeued⟩
      · exact ⟨rfl, rfl, .inl rfl⟩
  | recording job updated failure =>
      obtain ⟨-, -, -, -, hfired, hrequeued, hprocesses⟩ := schedule_same
        { s.hset job.id (jobToMap updated) with processing := s.processing.erase job.id } job failure
      exact ⟨hprocesses, hfired, .inl hrequeued⟩
  | waking jobId cid =>
      rw [advance]
      split
      · exact ⟨rfl, rfl, .inl rfl⟩
      · split <;> exact ⟨rfl, rfl, .inl rfl⟩
  | listing jobId cid => rw [advance]; split <;> exact ⟨rfl, rfl, .inl rfl⟩
  | scanning jobId cid keys =>
      cases keys with
      | nil => exact ⟨rfl, rfl, .inl rfl⟩
      | cons key keys =>
          rw [advance]
          split
          · exact ⟨rfl, rfl, .inl rfl⟩
          · split <;> exact ⟨rfl, rfl, .inl rfl⟩

end Turns

section Runs

variable {pinRetryCount : Nat} {s : State}

/-- A list around its element at `i`. -/
theorem split_at {α : Type} {xs : List α} {i : Nat} {x : α} (h : xs[i]? = some x) :
    xs = xs.take i ++ ([x] ++ xs.drop (i + 1)) := by
  obtain ⟨hi, rfl⟩ := List.getElem?_eq_some_iff.mp h
  rw [List.singleton_append, List.cons_getElem_drop_succ, List.take_append_drop]

/-- Replacing an entry changes a count by that entry alone. -/
theorem count_replaceAt {α β : Type} [BEq β] {xs : List α} {i : Nat} {x : α} (h : xs[i]? = some x)
    (f : α → Option β) (next : Option α) (b : β) :
    ((replaceAt xs i next).filterMap f).count b + (f x).toList.count b =
      (xs.filterMap f).count b + (next.bind f).toList.count b := by
  have hone : [x].filterMap f = (f x).toList := by cases hf : f x <;> simp [hf]
  have hnext : next.toList.filterMap f = (next.bind f).toList := by
    cases next with
    | none => rfl
    | some y => cases hf : f y <;> simp [hf]
  have hsplit : (xs.filterMap f).count b = ((xs.take i).filterMap f).count b +
      ((f x).toList.count b + ((xs.drop (i + 1)).filterMap f).count b) := by
    conv_lhs => rw [split_at h]
    rw [List.filterMap_append, List.filterMap_append, hone, List.count_append, List.count_append]
  rw [hsplit, replaceAt, List.filterMap_append, List.filterMap_append, hnext, List.count_append,
    List.count_append]
  omega

/-- What is in a list after a replacement was in it, or is the replacement. -/
theorem mem_replaceAt {α : Type} {xs : List α} {i : Nat} {next : Option α} {x : α}
    (h : x ∈ replaceAt xs i next) : x ∈ xs ∨ x ∈ next := by
  rw [replaceAt, List.mem_append, List.mem_append, Option.mem_toList] at h
  rcases h with h | h | h
  · exact .inl (List.mem_of_mem_take h)
  · exact .inr h
  · exact .inl (List.mem_of_mem_drop h)

/-- A timer that goes off is gone. -/
theorem count_timers {timers : List (JsString × JsString)} {timer : Nat} {entry : JsString × JsString}
    (h : timers[timer]? = some entry) (id : JsString) :
    ((replaceAt timers timer none).map Prod.fst).count id + [entry.1].count id =
      (timers.map Prod.fst).count id := by
  have hcount := count_replaceAt h (fun entry => some entry.1) none id
  rw [List.filterMap_eq_map'] at hcount
  exact hcount

/-- One of the processes is about this job. -/
theorem held_pos {processes : List Process} {p : Process} (hp : p ∈ processes) {id : JsString}
    (hheld : held p = some id) : 0 < (processes.filterMap held).count id :=
  List.count_pos_iff.mpr (List.mem_filterMap.mpr ⟨p, hp, hheld⟩)

/-- What a process knows of the jobs stays true while there are only more of them. -/
theorem Sound.mono {s s' : State} (hof : ∀ id cid, Of s id cid → Of s' id cid) {p : Process}
    (h : Sound s p) : Sound s' p := by
  cases p with
  | popping => trivial
  | fetching jobId => trivial
  | marking jobId job => exact ⟨h.1, h.2.1, hof _ _ h.2.2⟩
  | attempting job => exact hof _ _ h
  | updating job error => exact hof _ _ h
  | recording job updated error => exact ⟨h.1, h.2.1, hof _ _ h.2.2.1, hof _ _ h.2.2.2⟩
  | waking jobId cid => exact hof _ _ h
  | listing jobId cid => exact hof _ _ h
  | scanning jobId cid keys => exact hof _ _ h
  | requeueing jobId key job => exact ⟨h.1, h.2.1, h.2.2.1, hof _ _ h.2.2.2⟩

/-- What every state keeps in which the timers found their own jobs: the hashes under their
    ids, every process and timer with the content of its job, no turn but the given ones. -/
structure Kept (s : State) : Prop where
  keyed : Keyed s
  covered : ∀ key job, s.hashes key = some job → key ∈ s.keys
  sound : ∀ p ∈ s.processes, Sound s p
  timed : ∀ entry ∈ s.timers, Of s entry.1 entry.2
  turns : ∀ id, turns s id + (s.processes.filterMap due).count id ≤ given s id
  own : ∀ entry ∈ s.requeued, entry.2 = entry.1

/-- Before anything happens there is nothing to count. -/
theorem idle_kept : Kept idle where
  keyed := fun _ _ h => by cases h
  covered := fun _ _ h => by cases h
  sound := fun _ h => absurd h List.not_mem_nil
  timed := fun _ h => absurd h List.not_mem_nil
  turns := fun _ => Nat.zero_le _
  own := fun _ h => absurd h List.not_mem_nil

/-- A write adds its key to those that are known. -/
theorem hset_covered {s : State} (h : ∀ key job, s.hashes key = some job → key ∈ s.keys)
    (key : JsString) (job : JobMap) :
    ∀ k j, (s.hset key job).hashes k = some j → k ∈ (s.hset key job).keys := by
  intro k j hk
  have hkeys : k ∈ (s.hset key job).keys ↔ k ∈ (if key ∈ s.keys then s.keys else s.keys ++ [key]) :=
    Iff.rfl
  rw [hkeys]
  by_cases hkey : k = key
  · subst hkey
    split
    · assumption
    · exact List.mem_append_right _ (List.mem_singleton_self _)
  · rw [State.hset_of_ne s hkey] at hk
    split
    · exact h k j hk
    · exact List.mem_append_left _ (h k j hk)

/-- A new job waits for the turn it is given. -/
theorem Kept.enqueue (h : Kept s) (job : PinningJob) : Kept (enqueue s job) := by
  rw [Pinning.enqueue]
  split
  · exact h
  · next hnew =>
      have hfresh : s.hashes job.id = none := by simpa using hnew
      -- no process and no timer is about a job that was not there
      have hof : ∀ id cid, Of s id cid → Of (s.hset job.id (jobToMap job)) id cid := by
        intro id cid hid
        by_cases hsame : id = job.id
        · rw [Of, hsame, hfresh] at hid
          cases hid
        · rw [Of, State.hset_of_ne s hsame]
          exact hid
      refine ⟨?_, ?_, ?_, ?_, ?_, h.own⟩
      · have hjob : (jobToMap job).id = job.id := rfl
        exact hset_keyed h.keyed hjob
      · exact hset_covered h.covered job.id (jobToMap job)
      · exact fun p hp => (h.sound p hp).mono hof
      · exact fun entry hentry => hof _ _ (h.timed entry hentry)
      · intro id
        have hturns := h.turns id
        have hadd := count_zadd id s.queue job.priority job.id
        rw [Pinning.turns, given] at hturns
        show ((zadd s.queue job.priority job.id).map Prod.snd).count id + s.attempted.count id +
            (s.processes.filterMap due).count id ≤
          ((s.hset job.id (jobToMap job)).hashes id).toList.length + s.fired.count id
        by_cases hid : id = job.id
        · -- a hash that is new pays for the turn
          subst hid
          rw [hfresh] at hturns
          rw [State.hset_self]
          rw [List.count_singleton_self] at hadd
          show _ ≤ 1 + _
          have hzero : (none : Option JobMap).toList.length = 0 := rfl
          omega
        · rw [State.hset_of_ne s hid]
          have hzero : [job.id].count id = 0 := List.count_eq_zero_of_not_mem (by simpa using hid)
          omega

/-- A run of `processQueue` starts with nothing. -/
theorem Kept.start (h : Kept s) : Kept { s with processes := s.processes ++ [.popping] } where
  keyed := h.keyed
  covered := h.covered
  sound := by
    intro p hp
    rcases List.mem_append.mp hp with hp | hp
    · exact h.sound p hp
    · obtain rfl := List.mem_singleton.mp hp
      trivial
  timed := h.timed
  turns := by
    intro id
    show Pinning.turns s id + ((s.processes ++ [Process.popping]).filterMap due).count id ≤ given s id
    have hnone : [Process.popping].filterMap due = [] := rfl
    rw [List.filterMap_append, hnone, List.append_nil]
    exact h.turns id
  own := h.own

/-- A timer that goes off gives its job a turn. -/
theorem Kept.timeout (h : Kept s) {timer : Nat} {jobId cid : JsString}
    (htimer : s.timers[timer]? = some (jobId, cid)) :
    Kept { s with
      timers := replaceAt s.timers timer none
      fired := jobId :: s.fired
      processes := s.processes ++ [.waking jobId cid] } where
  keyed := h.keyed
  covered := h.covered
  sound := by
    intro p hp
    rcases List.mem_append.mp hp with hp | hp
    · exact h.sound p hp
    · obtain rfl := List.mem_singleton.mp hp
      exact h.timed (jobId, cid) (List.mem_of_getElem? htimer)
  timed := by
    intro entry hentry
    rcases mem_replaceAt hentry with hentry | hentry
    · exact h.timed entry hentry
    · cases hentry
  -- the timer becomes a process: the turn it stood for is the process's now
  turns := by
    intro id
    have hturns := h.turns id
    show Pinning.turns s id + ((s.processes ++ [Process.waking jobId cid]).filterMap due).count id ≤
      (s.hashes id).toList.length + (jobId :: s.fired).count id
    have hone : [Process.waking jobId cid].filterMap due = [jobId] := rfl
    have hfired : (jobId :: s.fired).count id = [jobId].count id + s.fired.count id := by
      rw [← List.singleton_append, List.count_append]
    rw [List.filterMap_append, hone, List.count_append, hfired]
    rw [given] at hturns
    omega
  own := h.own

section Answered

variable {p : Process} (now : Int) (order : List JsString) (error : Option JsString)

/-- **AN ANSWER KEEPS** every job under its own id. -/
theorem advance_keyed (hs : Keyed s) (hp : Sound s p) : Keyed (advance now order error s p).1 := by
  intro key job hjob
  rcases advance_writes now order error hp with ⟨hsame, -⟩ | ⟨written, data, hset, -, -, hid, -⟩
  · rw [hsame] at hjob
    exact hs key job hjob
  · rw [hset] at hjob
    exact hset_keyed hs hid key job hjob

/-- The keys known grow with the hashes. -/
theorem advance_covered (hs : ∀ key job, s.hashes key = some job → key ∈ s.keys) (hp : Sound s p) :
    ∀ key job, (advance now order error s p).1.hashes key = some job →
      key ∈ (advance now order error s p).1.keys := by
  intro key job hjob
  rcases advance_writes now order error hp with ⟨hsame, hkeys⟩ | ⟨written, data, hset, hkeys, -⟩
  · rw [hkeys]
    rw [hsame] at hjob
    exact hs key job hjob
  · rw [hkeys]
    rw [hset] at hjob
    exact hset_covered hs written data key job hjob

/-- A job keeps its id and its content, whoever writes it. -/
theorem advance_of (hp : Sound s p) {id cid : JsString} (h : Of s id cid) :
    Of (advance now order error s p).1 id cid := by
  rcases advance_writes now order error hp with ⟨hsame, -⟩ | ⟨written, data, hset, -, -, -, hdata⟩
  · rw [Of, hsame]
    exact h
  · rw [Of, hset]
    exact hset_of hdata h

end Answered

/-- An answer to a process that has found, or finds, its own job. -/
theorem Kept.answer (h : Kept s) {process : Nat} {p : Process} (hp : s.processes[process]? = some p)
    (hown : FindsOwn s p) (now : Int) (order : List JsString) (error : Option JsString) :
    Kept { (advance now order error s p).1 with
      processes := replaceAt (advance now order error s p).1.processes process
        (advance now order error s p).2 } := by
  have hmem : p ∈ s.processes := List.mem_of_getElem? hp
  have hsound := h.sound p hmem
  obtain ⟨hprocesses, -, hrequeued⟩ := advance_same now order error (s := s) (p := p)
  have hof : ∀ id cid, Of s id cid → Of (advance now order error s p).1 id cid :=
    fun _ _ => advance_of now order error hsound
  refine ⟨advance_keyed now order error h.keyed hsound, advance_covered now order error h.covered hsound,
    ?_, ?_, ?_, ?_⟩
  · -- the processes are those of before, but for the one that was answered
    intro q hq
    replace hq : q ∈ replaceAt (advance now order error s p).1.processes process
      (advance now order error s p).2 := hq
    rw [hprocesses] at hq
    rcases mem_replaceAt hq with hq | hq
    · exact (h.sound q hq).mono hof
    · exact (advance_sound now order error h.keyed hsound hown q hq).mono hof
  -- a new timer is of the job that failed
  · intro entry hentry
    rcases advance_timers now order error hsound entry hentry with hentry | hentry
    · exact hof _ _ (h.timed entry hentry)
    · exact hof _ _ hentry
  -- one process is exchanged for what it became, and its turns with it
  · intro id
    have hturns := h.turns id
    have hone := advance_turns now order error id h.keyed hsound
    have hcount := count_replaceAt hp due (advance now order error s p).2 id
    show Pinning.turns (advance now order error s p).1 id +
      ((replaceAt (advance now order error s p).1.processes process
        (advance now order error s p).2).filterMap due).count id ≤
      given (advance now order error s p).1 id
    rw [hprocesses]
    omega
  -- what was put back is the job the process was made for
  · intro entry hentry
    replace hentry : entry ∈ (advance now order error s p).1.requeued := hentry
    rcases hrequeued with hsame | ⟨jobId, key, job, rfl, hback⟩
    · rw [hsame] at hentry
      exact h.own entry hentry
    · rw [hback] at hentry
      rcases List.mem_cons.mp hentry with rfl | hentry
      · exact hsound.2.1
      · exact h.own entry hentry

/-- The process that is answered finds its own job. -/
def OwnFound : Event → State → Prop
  | .answer process _ _ _, s => ∀ p ∈ s.processes[process]?, FindsOwn s p
  | _, _ => True

/-- **ONE STEP** in which no timer finds another job keeps the account. -/
theorem step_kept (e : Event) (hown : OwnFound e s) (h : Kept s) : Kept (step pinRetryCount e s) := by
  cases e with
  | enqueue id cid groupId contractId action priority now => exact h.enqueue _
  | processQueue ipfsReady =>
      rw [step]
      split
      · exact h.start
      · exact h
  | timeout timer =>
      rw [step]
      split
      · exact h
      · next jobId cid htimer => exact h.timeout htimer
  | answer process now order error =>
      rw [step]
      split
      · exact h
      · next p hp => exact h.answer hp (hown p (Option.mem_def.mpr hp)) now order error

/-- What is kept bounds the attempts, as often as timers go off. -/
theorem Kept.bounded (h : Kept s) (hfew : ∀ id, s.fired.count id ≤ pinRetryCount) :
    Bounded pinRetryCount s := by
  refine ⟨fun jobId _ => ?_, h.own⟩
  have hturns := h.turns jobId
  have hjob := hfew jobId
  have hone : (s.hashes jobId).toList.length ≤ 1 := Option.length_toList_le
  rw [Pinning.turns, given] at hturns
  omega

end Runs

section Contents

variable {pinRetryCount : Nat} {s : State}

/-- What a run keeps whose steps are allowed: a job that is unfinished has one place at most,
    one that is finished has none, and no two that are unfinished are for one content. -/
structure Tended (pinRetryCount : Nat) (s : State) : Prop extends Kept s where
  places : ∀ id, places s id + (s.processes.filterMap held).count id ≤ opened s id
  apart : ∀ key key' job job', s.hashes key = some job → s.hashes key' = some job' →
    job.cid = job'.cid → unfinished job = true → unfinished job' = true → key = key'
  few : ∀ id, s.fired.count id ≤ pinRetryCount

/-- Before anything happens no timer waits. -/
theorem idle_tended : Tended pinRetryCount idle where
  toKept := idle_kept
  places := fun _ => Nat.zero_le _
  apart := fun _ _ _ _ h => by cases h
  few := fun _ => Nat.zero_le _

/-- The job of a process is there and unfinished. -/
theorem Tended.unfinished (h : Tended pinRetryCount s) {p : Process} (hp : p ∈ s.processes)
    {id : JsString} (hheld : held p = some id) :
    ∃ job, s.hashes id = some job ∧ unfinished job = true := by
  have hplaces := h.places id
  have hpos := held_pos hp hheld
  exact opened_pos (by omega)

/-- So a timer finds its own job: another one of the content that failed is unfinished too. -/
theorem Tended.findsOwn (h : Tended pinRetryCount s) {p : Process} (hp : p ∈ s.processes) :
    FindsOwn s p := by
  cases p with
  | scanning jobId cid keys =>
      cases keys with
      | nil => trivial
      | cons key keys =>
          intro job hjob hcid hfailed
          have hheld : held (.scanning jobId cid (key :: keys)) = some jobId := rfl
          obtain ⟨own, hown, hopen⟩ := h.unfinished hp hheld
          have hof : Of s jobId cid := h.sound _ hp
          rw [Of, hown] at hof
          have hsame : job.cid = own.cid := hcid.trans (Option.some.inj hof).symm
          have hjobopen : Pinning.unfinished job = true := by
            rw [Pinning.unfinished, hfailed]
            rfl
          exact h.apart key jobId job own hjob hown hsame hjobopen hopen
  | _ => trivial

/-- A new job is the only one of its content that is unfinished. -/
theorem Tended.enqueue (h : Tended pinRetryCount s) {job : PinningJob} (hstatus : job.status = .queued)
    (hnone : ∀ key ∈ s.keys, ∀ other ∈ s.hashes key, other.cid = job.cid →
      Pinning.unfinished other = false) : Tended pinRetryCount (enqueue s job) := by
  have hkept := h.toKept.enqueue job
  rw [Pinning.enqueue] at hkept ⊢
  split
  · exact h
  · next hnew =>
      rw [if_neg hnew] at hkept
      have hfresh : s.hashes job.id = none := by simpa using hnew
      have hopen : Pinning.unfinished (jobToMap job) = true := by
        rw [Pinning.unfinished, jobToMap, hstatus]
        rfl
      -- what is unfinished now is the new job, or was there
      have hbefore : ∀ key other, (s.hset job.id (jobToMap job)).hashes key = some other →
          key = job.id ∧ other = jobToMap job ∨ s.hashes key = some other := by
        intro key other hkey
        by_cases hid : key = job.id
        · subst hid
          rw [State.hset_self] at hkey
          exact .inl ⟨rfl, (Option.some.inj hkey).symm⟩
        · rw [State.hset_of_ne s hid] at hkey
          exact .inr hkey
      have hother : ∀ key other, s.hashes key = some other → other.cid = job.cid →
          Pinning.unfinished other = false := fun key other hkey =>
        hnone key (h.covered key other hkey) other (Option.mem_def.mpr hkey)
      refine ⟨hkept, ?_, ?_, h.few⟩
      · intro id
        have hplaces := h.places id
        have hadd := count_zadd id s.queue job.priority job.id
        have hkeep := hset_opened s id job.id hopen
        show ((zadd s.queue job.priority job.id).map Prod.snd).count id +
          (s.timers.map Prod.fst).count id + (s.processes.filterMap held).count id ≤
            opened (s.hset job.id (jobToMap job)) id
        rw [Pinning.places] at hplaces
        by_cases hid : id = job.id
        · subst hid
          have hzero : opened s job.id = 0 := by rw [opened, hfresh]; rfl
          have hone : opened (s.hset job.id (jobToMap job)) job.id = 1 := by
            rw [opened, State.hset_self, Option.filter_some_pos hopen]
            rfl
          rw [List.count_singleton_self] at hadd
          omega
        · have hzero : [job.id].count id = 0 := List.count_eq_zero_of_not_mem (by simpa using hid)
          omega
      · intro key key' j j' hkey hkey' hcid hj hj'
        rcases hbefore key j hkey with ⟨rfl, rfl⟩ | hkey
        · rcases hbefore key' j' hkey' with ⟨rfl, rfl⟩ | hkey'
          · rfl
          · rw [hother key' j' hkey' hcid.symm] at hj'
            cases hj'
        · rcases hbefore key' j' hkey' with ⟨rfl, rfl⟩ | hkey'
          · rw [hother key j hkey hcid] at hj
            cases hj
          · exact h.apart key key' j j' hkey hkey' hcid hj hj'

/-- Where an answer leaves a job unfinished, it was unfinished before, for the same content. -/
theorem Tended.before (h : Tended pinRetryCount s) {p : Process} (hp : p ∈ s.processes) (now : Int)
    (order : List JsString) (error : Option JsString) {key : JsString} {job : JobMap}
    (hkey : (advance now order error s p).1.hashes key = some job)
    (hopen : Pinning.unfinished job = true) :
    ∃ old, s.hashes key = some old ∧ old.cid = job.cid ∧ Pinning.unfinished old = true := by
  rcases advance_writes now order error (h.sound p hp) with
    ⟨hsame, -⟩ | ⟨written, data, hset, -, hheld, -, hof⟩
  · rw [hsame] at hkey
    exact ⟨job, hkey, rfl, hopen⟩
  · rw [hset] at hkey
    by_cases hid : key = written
    · subst hid
      rw [State.hset_self] at hkey
      obtain rfl := Option.some.inj hkey
      obtain ⟨old, hold, holdopen⟩ := h.unfinished hp hheld
      rw [Of, hold] at hof
      exact ⟨old, hold, Option.some.inj hof, holdopen⟩
    · rw [State.hset_of_ne s hid] at hkey
      exact ⟨job, hkey, rfl, hopen⟩

/-- **ONE STEP** that is allowed keeps the jobs apart. -/
theorem step_tended (e : Event) (s : State) (hallowed : Allowed pinRetryCount e s)
    (h : Tended pinRetryCount s) : Tended pinRetryCount (step pinRetryCount e s) := by
  cases e with
  | enqueue id cid groupId contractId action priority now => exact h.enqueue rfl hallowed
  -- the worker starts with a process that holds no job
  | processQueue ipfsReady =>
      rw [step]
      split
      · refine ⟨h.start, ?_, h.apart, h.few⟩
        intro id
        have hnone : [Process.popping].filterMap held = [] := rfl
        show Pinning.places s id + ((s.processes ++ [Process.popping]).filterMap held).count id ≤ opened s id
        rw [List.filterMap_append, hnone, List.append_nil]
        exact h.places id
      · exact h
  -- the timer that fires is one of the few that its job has left
  | timeout timer =>
      rw [step]
      split
      · exact h
      · next jobId cid htimer =>
          refine ⟨h.toKept.timeout htimer, ?_, h.apart, ?_⟩
          · -- the place of the timer is the place of the process it starts
            intro id
            have hplaces := h.places id
            have hgone : ((replaceAt s.timers timer none).map Prod.fst).count id + [jobId].count id =
                (s.timers.map Prod.fst).count id := count_timers htimer id
            have hone : [Process.waking jobId cid].filterMap held = [jobId] := rfl
            show (s.queue.map Prod.snd).count id +
                ((replaceAt s.timers timer none).map Prod.fst).count id +
              ((s.processes ++ [Process.waking jobId cid]).filterMap held).count id ≤ opened s id
            rw [List.filterMap_append, hone, List.count_append]
            rw [Pinning.places] at hplaces
            omega
          · intro id
            show (jobId :: s.fired).count id ≤ pinRetryCount
            rw [List.count_cons]
            split
            · next hid =>
                obtain rfl : jobId = id := beq_iff_eq.mp hid
                exact hallowed (jobId, cid) (Option.mem_def.mpr htimer)
            · exact h.few id
  -- an answer asks for a timer only where the job is below its limit
  | answer process now order error =>
      rw [step]
      split
      · exact h
      · next p hp =>
          have hmem : p ∈ s.processes := List.mem_of_getElem? hp
          obtain ⟨hprocesses, hfired, -⟩ := advance_same now order error (s := s) (p := p)
          refine ⟨h.toKept.answer hp (h.findsOwn hmem) now order error, ?_, ?_, ?_⟩
          · intro id
            have hplaces := h.places id
            have hone := advance_places now order error id h.keyed (h.sound p hmem)
            have hcount := count_replaceAt hp held (advance now order error s p).2 id
            show Pinning.places (advance now order error s p).1 id +
              ((replaceAt (advance now order error s p).1.processes process
                (advance now order error s p).2).filterMap held).count id ≤
              opened (advance now order error s p).1 id
            rw [hprocesses]
            omega
          · intro key key' job job' hkey hkey' hcid hopen hopen'
            obtain ⟨old, hold, holdcid, holdopen⟩ := h.before hmem now order error hkey hopen
            obtain ⟨old', hold', holdcid', holdopen'⟩ := h.before hmem now order error hkey' hopen'
            exact h.apart key key' old old' hold hold' ((holdcid.trans hcid).trans holdcid'.symm)
              holdopen holdopen'
          · intro id
            show (advance now order error s p).1.fired.count id ≤ pinRetryCount
            rw [hfired]
            exact h.few id

end Contents

section Untimed

variable {s : State} {job : PinningJob}

/-- A number that is not negative is read back from its text. -/
theorem parseInt_text {n : Option Int} (h : ∀ m ∈ n, 0 ≤ m) : parseInt (text n) = n := by
  cases n with
  | none => decide
  | some m =>
      obtain ⟨k, rfl⟩ := Int.eq_ofNat_of_zero_le (h m rfl)
      have hread : parseInt (decimal k ++ []) = some (k : Int) := parseInt_decimal k (by simp)
      rw [List.append_nil] at hread
      have htext : text (some (k : Int)) = decimal k := by
        show numeral (k : Int) = decimal k
        rw [numeral, if_neg (by omega), Int.natAbs_natCast]
      rw [htext, hread]

/-- No retry is left to this job. -/
def Spent (job : PinningJob) : Prop := job.maxRetries = some 0 ∧ ∀ n ∈ job.retries, 0 ≤ n

/-- A spent job is not below its limit. -/
theorem Spent.below (h : Spent job) : below job.retries job.maxRetries = false := by
  rw [h.1]
  cases hretries : job.retries with
  | none => rfl
  | some n => exact decide_eq_false (Int.not_lt.mpr (h.2 n hretries))

/-- So its failure asks for no timer. -/
theorem Spent.schedule (h : Spent job) (s : State) (error : Option JsString) :
    schedule s job error = s := by
  rw [Pinning.schedule, h.below, Bool.and_false, if_neg Bool.false_ne_true]

/-- The numbers of the job come through the store. -/
theorem Spent.read (h : Spent job) : Spent (mapToJob (jobToMap job)) := by
  have hretries : (mapToJob (jobToMap job)).retries = job.retries := parseInt_text h.2
  have hmax : (mapToJob (jobToMap job)).maxRetries = job.maxRetries := by
    refine parseInt_text ?_
    rw [h.1]
    rintro m ⟨⟩
    exact Int.le_refl 0
  rw [Spent, hretries, hmax]
  exact h

/-- A failure counts one retry more. -/
theorem Spent.withStatus (h : Spent job) (status : PinningJobStatus) (error : JsString) (now : Int) :
    Spent (withStatus job status error now) := by
  refine ⟨h.1, ?_⟩
  intro n hn
  replace hn : n ∈ (if status = .failed then job.retries.map (· + 1) else job.retries) := hn
  split at hn
  · obtain ⟨m, hm, rfl⟩ := Option.map_eq_some_iff.mp (Option.mem_def.mp hn)
    have hnonneg := h.2 m hm
    omega
  · exact h.2 n hn

/-- A process no timer has started, of a job that sets none. -/
def Calm : Process → Prop
  | .popping | .fetching _ => True
  | .marking _ job | .attempting job | .updating job _ => Spent job
  | .recording job updated _ => Spent job ∧ Spent updated
  | .waking _ _ | .listing _ _ | .scanning _ _ _ | .requeueing _ _ _ => False

/-- What a run keeps without retries: there are no timers and never were. -/
structure Untimed (s : State) : Prop extends Kept s where
  timers : s.timers = []
  fired : s.fired = []
  stored : ∀ key data, s.hashes key = some data → Spent (mapToJob data)
  running : ∀ p ∈ s.processes, Calm p

/-- Before anything happens every job is spent, as there is none. -/
theorem idle_untimed : Untimed idle where
  toKept := idle_kept
  timers := rfl
  fired := rfl
  stored := fun _ _ h => by cases h
  running := fun _ h => absurd h List.not_mem_nil

/-- A spent job that is written leaves all stored jobs spent. -/
theorem hset_stored (h : ∀ key data, s.hashes key = some data → Spent (mapToJob data)) (key : JsString)
    (hjob : Spent job) :
    ∀ k data, (s.hset key (jobToMap job)).hashes k = some data → Spent (mapToJob data) := by
  intro k data hk
  by_cases hkey : k = key
  · subst hkey
    rw [State.hset_self] at hk
    obtain rfl := Option.some.inj hk
    exact hjob.read
  · rw [State.hset_of_ne s hkey] at hk
    exact h k data hk

/-- **NO TIMER** comes of an answer to such a process. -/
theorem advance_untimed (hs : ∀ key data, s.hashes key = some data → Spent (mapToJob data))
    {p : Process} (hp : Calm p) (now : Int) (order : List JsString) (error : Option JsString) :
    (advance now order error s p).1.timers = s.timers ∧
    (∀ key data, (advance now order error s p).1.hashes key = some data → Spent (mapToJob data)) ∧
    ∀ next ∈ (advance now order error s p).2, Calm next := by
  cases p with
  -- none of these looks for a job that was put back
  | popping =>
      rw [advance]
      split
      · exact ⟨rfl, hs, fun _ h => by cases h⟩
      · exact ⟨rfl, hs, fun _ h => by cases h; trivial⟩
  | fetching jobId =>
      rw [advance]
      split
      · exact ⟨rfl, hs, fun _ h => by cases h⟩
      · next data hdata =>
          have hjob : Spent { mapToJob data with status := .pinning, updatedAt := some now } :=
            hs jobId data hdata
          exact ⟨rfl, hs, fun _ h => by cases h; exact hjob⟩
  | marking jobId job => exact ⟨rfl, hset_stored hs jobId hp, fun _ h => by cases h; exact hp⟩
  | attempting job => exact ⟨rfl, hs, fun _ h => by cases h; exact hp⟩
  -- the stored job is spent, so its failure asks for no timer
  | updating job failure =>
      replace hp : Spent job := hp
      rw [advance]
      split
      · rw [hp.schedule]
        exact ⟨rfl, hs, fun _ h => by cases h⟩
      · next data hdata =>
          have hupdated := (hs job.id data hdata).withStatus (outcome job.action failure)
            (failure.getD []) now
          exact ⟨rfl, hs, fun _ h => by cases h; exact ⟨hp, hupdated⟩⟩
  | recording job updated failure =>
      rw [advance, hp.1.schedule]
      exact ⟨rfl, hset_stored hs job.id hp.2, fun _ h => by cases h⟩
  -- these four begin with a timer, and there is none
  | waking jobId cid => exact hp.elim
  | listing jobId cid => exact hp.elim
  | scanning jobId cid keys => exact hp.elim
  | requeueing jobId key job => exact hp.elim

/-- A process of a run without timers looks for the job it was made for. -/
theorem Calm.findsOwn {p : Process} (h : Calm p) : FindsOwn s p := by
  cases p with
  | scanning jobId cid keys => exact h.elim
  | _ => trivial

/-- **ONE STEP** without retries, whatever it is. -/
theorem step_untimed (e : Event) (s : State) (h : Untimed s) : Untimed (step 0 e s) := by
  have hkept : Kept (step 0 e s) := by
    refine step_kept e ?_ h.toKept
    cases e with
    | answer process now order error =>
        exact fun p hp => (h.running p (List.mem_of_getElem? hp)).findsOwn
    | _ => trivial
  cases e with
  | enqueue id cid groupId contractId action priority now =>
      rw [step] at hkept ⊢
      rw [enqueue] at hkept ⊢
      split
      · exact h
      · next hnew =>
          rw [if_neg hnew] at hkept
          have hjob : Spent (newJob 0 id cid groupId contractId action priority now) := by
            refine ⟨rfl, ?_⟩
            rintro n ⟨⟩
            exact Int.le_refl 0
          exact ⟨hkept, h.timers, h.fired, hset_stored h.stored _ hjob, h.running⟩
  | processQueue ipfsReady =>
      rw [step] at hkept ⊢
      split
      · next hready =>
          rw [if_pos hready] at hkept
          refine ⟨hkept, h.timers, h.fired, h.stored, ?_⟩
          intro p hp
          rcases List.mem_append.mp hp with hp | hp
          · exact h.running p hp
          · obtain rfl := List.mem_singleton.mp hp
            trivial
      · exact h
  | timeout timer =>
      -- there is none to go off
      have hnone : s.timers[timer]? = none := by rw [h.timers]; rfl
      rw [step, hnone]
      exact h
  | answer process now order error =>
      cases hp : s.processes[process]? with
      | none =>
          rw [step, hp]
          exact h
      | some p =>
          rw [step, hp] at hkept ⊢
          obtain ⟨htimers, hstored, hnext⟩ := advance_untimed h.stored
            (h.running p (List.mem_of_getElem? hp)) now order error
          obtain ⟨hprocesses, hfired, -⟩ := advance_same now order error (s := s) (p := p)
          refine ⟨hkept, htimers.trans h.timers, hfired.trans h.fired, hstored, ?_⟩
          intro q hq
          replace hq : q ∈ replaceAt (advance now order error s p).1.processes process
            (advance now order error s p).2 := hq
          rw [hprocesses] at hq
          rcases mem_replaceAt hq with hq | hq
          · exact h.running q hq
          · exact hnext q hq

/-- Without timers no job is tried again. -/
theorem Untimed.bounded (h : Untimed s) : Bounded 0 s :=
  h.toKept.bounded fun id => by rw [h.fired]; exact Nat.le_refl 0

end Untimed

section Limits

variable {s : State} {pinRetryCount : Nat}

/-! ### The limit is looked at once

    A run of a service with one retry is a run of a service with more, as long as every
    job that fails fails for the first time. -/

def PinningJob.within (pinRetryCount : Nat) (job : PinningJob) : PinningJob :=
  { job with maxRetries := some pinRetryCount }

def JobMap.within (pinRetryCount : Nat) (data : JobMap) : JobMap :=
  { data with maxRetries := text (some pinRetryCount) }

def Process.within (pinRetryCount : Nat) : Process → Process
  | .marking jobId job => .marking jobId (job.within pinRetryCount)
  | .attempting job => .attempting (job.within pinRetryCount)
  | .updating job error => .updating (job.within pinRetryCount) error
  | .recording job updated error =>
      .recording (job.within pinRetryCount) (updated.within pinRetryCount) error
  | .requeueing jobId key job => .requeueing jobId key (job.within pinRetryCount)
  | p => p

def State.within (pinRetryCount : Nat) (s : State) : State :=
  { s with
    hashes := fun key => (s.hashes key).map (JobMap.within pinRetryCount)
    processes := s.processes.map (Process.within pinRetryCount) }

/-- A job that was not tried before, with one retry left. -/
def FirstTry : Process → Prop
  | .updating job _ | .recording job _ _ => job.retries = some 0 ∧ job.maxRetries = some 1
  | _ => True

instance : DecidablePred FirstTry
  | .updating _ _ | .recording _ _ _ => inferInstanceAs (Decidable (_ ∧ _))
  | .popping | .fetching _ | .marking _ _ | .attempting _ | .waking _ _ | .listing _ _
  | .scanning _ _ _ | .requeueing _ _ _ => isTrue trivial

def FirstTries : Event → State → Prop
  | .answer process _ _ _, s => ∀ p ∈ s.processes[process]?, FirstTry p
  | _, _ => True

instance : ∀ e s, Decidable (FirstTries e s)
  | .answer process _ _ _, s =>
      inferInstanceAs (Decidable (∀ p ∈ s.processes[process]?, FirstTry p))
  | .enqueue _ _ _ _ _ _ _, _ | .processQueue _, _ | .timeout _, _ => isTrue trivial

/-- To read a job and to change its limit commute. -/
theorem mapToJob_within (pinRetryCount : Nat) (data : JobMap) :
    mapToJob (data.within pinRetryCount) = (mapToJob data).within pinRetryCount := by
  have hmax : parseInt (text (some (pinRetryCount : Int))) = some (pinRetryCount : Int) := by
    refine parseInt_text ?_
    rintro m ⟨⟩
    exact Int.natCast_nonneg pinRetryCount
  rw [mapToJob, JobMap.within, hmax]
  rfl

/-- To write a job and to change the limits commute. -/
theorem hset_within (pinRetryCount : Nat) (s : State) (key : JsString) (job : JobMap) :
    (s.within pinRetryCount).hset key (job.within pinRetryCount) =
      (s.hset key job).within pinRetryCount := by
  have hhashes : ((s.within pinRetryCount).hset key (job.within pinRetryCount)).hashes =
      ((s.hset key job).within pinRetryCount).hashes := by
    funext k
    show _ = ((s.hset key job).hashes k).map (JobMap.within pinRetryCount)
    by_cases hkey : k = key
    · subst hkey
      rw [State.hset_self, State.hset_self]
      rfl
    · rw [State.hset_of_ne _ hkey, State.hset_of_ne _ hkey]
      rfl
  -- the other fields do not depend on the limit
  exact congrArg (fun hashes => ({ (s.within pinRetryCount).hset key (job.within pinRetryCount) with
    hashes := hashes } : State)) hhashes

/-- With nothing tried before there is a retry left under either limit. -/
theorem schedule_within (hlimit : 1 ≤ pinRetryCount) (s : State) {job : PinningJob}
    (hjob : job.retries = some 0 ∧ job.maxRetries = some 1) (error : Option JsString) :
    schedule (s.within pinRetryCount) (job.within pinRetryCount) error =
      (schedule s job error).within pinRetryCount := by
  have hone : below job.retries job.maxRetries = true := by
    rw [hjob.1, hjob.2]
    rfl
  have hmore : below (job.within pinRetryCount).retries (job.within pinRetryCount).maxRetries = true := by
    show below job.retries (some (pinRetryCount : Int)) = true
    rw [hjob.1]
    exact decide_eq_true (by omega)
  rw [schedule, schedule, hone, hmore]
  split
  · rfl
  · rfl

/-- A process in its first try does the same under another limit, which it never looks
    at. -/
theorem advance_within (hlimit : 1 ≤ pinRetryCount) {p : Process} (hp : FirstTry p) (now : Int)
    (order : List JsString) (error : Option JsString) :
    advance now order error (s.within pinRetryCount) (p.within pinRetryCount) =
      ((advance now order error s p).1.within pinRetryCount,
        (advance now order error s p).2.map (Process.within pinRetryCount)) := by
  -- a read under the other limit reads the same job with it
  have hread : ∀ key, (s.within pinRetryCount).hashes key =
      (s.hashes key).map (JobMap.within pinRetryCount) := fun _ => rfl
  cases p with
  | popping =>
      show advance now order error (s.within pinRetryCount) .popping = _
      have hqueue : (s.within pinRetryCount).queue = s.queue := rfl
      rw [advance, advance, hqueue]
      split
      · rfl
      · rfl
  | fetching jobId =>
      show advance now order error (s.within pinRetryCount) (.fetching jobId) = _
      rw [advance, advance, hread]
      cases s.hashes jobId with
      | none => rfl
      | some data =>
          show (_, some (Process.marking jobId { mapToJob (data.within pinRetryCount) with
            status := .pinning, updatedAt := some now })) = _
          rw [mapToJob_within]
          rfl
  | marking jobId job =>
      exact congrArg (fun t : State => (({ t with processing := s.processing.insert jobId } : State),
        some (Process.attempting (job.within pinRetryCount))))
        (hset_within pinRetryCount s jobId (jobToMap job))
  | attempting job => rfl
  | updating job failure =>
      show advance now order error (s.within pinRetryCount)
        (.updating (job.within pinRetryCount) failure) = _
      have hid : (job.within pinRetryCount).id = job.id := rfl
      rw [advance, advance, hid, hread]
      cases s.hashes job.id with
      | none =>
          show (schedule (s.within pinRetryCount) (job.within pinRetryCount) failure, none) = _
          rw [schedule_within hlimit s hp]
          rfl
      | some data =>
          show (_, some (Process.recording (job.within pinRetryCount)
            (withStatus (mapToJob (data.within pinRetryCount)) _ _ now) failure)) = _
          rw [mapToJob_within]
          rfl
  -- in its first try a job is below either limit
  | recording job updated failure =>
      have hset := hset_within pinRetryCount s job.id (jobToMap updated)
      have hschedule := schedule_within hlimit
        { s.hset job.id (jobToMap updated) with processing := s.processing.erase job.id } hp failure
      show (schedule { (s.within pinRetryCount).hset job.id ((jobToMap updated).within pinRetryCount) with
        processing := s.processing.erase job.id } (job.within pinRetryCount) failure, none) = _
      rw [hset]
      exact congrArg (·, none) hschedule
  | waking jobId cid =>
      show advance now order error (s.within pinRetryCount) (.waking jobId cid) = _
      rw [advance, advance, hread]
      cases s.hashes jobId with
      | none => rfl
      | some data =>
          show (if (mapToJob (data.within pinRetryCount)).status = .failed then _ else _) = _
          rw [mapToJob_within]
          show (if (mapToJob data).status = .failed then _ else _) = _
          split
          · next hfailed => simp only [hfailed, if_true]; rfl
          · next hfailed => simp only [hfailed, if_false]; rfl
  | listing jobId cid =>
      show advance now order error (s.within pinRetryCount) (.listing jobId cid) = _
      have hkeys : (s.within pinRetryCount).keys = s.keys := rfl
      rw [advance, advance, hkeys]
      split
      · rfl
      · rfl
  -- the scan compares content and status, which have no limit in them
  | scanning jobId cid keys =>
      show advance now order error (s.within pinRetryCount) (.scanning jobId cid keys) = _
      cases keys with
      | nil => rfl
      | cons key keys =>
          rw [advance, advance, hread]
          cases s.hashes key with
          | none => rfl
          | some data =>
              show (if data.cid = cid ∧ data.status = .failed then _ else _) = _
              split
              · next hfound => simp only [hfound, and_self, if_true]; rfl
              · next hfound => simp only [hfound, if_false]; rfl
  | requeueing jobId key job =>
      exact congrArg (fun t : State => (({ t with
        queue := zadd s.queue (parseInt job.priority) job.id
        requeued := (jobId, job.id) :: s.requeued } : State), none)) (hset_within pinRetryCount s key job)

/-- To replace and to map commute. -/
theorem replaceAt_map {α β : Type} (f : α → β) (xs : List α) (i : Nat) (next : Option α) :
    replaceAt (xs.map f) i (next.map f) = (replaceAt xs i next).map f := by
  have hnext : (next.map f).toList = next.toList.map f := by cases next <;> rfl
  rw [replaceAt, replaceAt, List.map_append, List.map_append, ← List.map_take, ← List.map_drop, hnext]

/-- **ONE STEP** under the two limits. -/
theorem step_within (hlimit : 1 ≤ pinRetryCount) (e : Event) (hfirst : FirstTries e s) :
    step pinRetryCount e (s.within pinRetryCount) = (step 1 e s).within pinRetryCount := by
  cases e with
  -- the job is made with the limit in force
  | enqueue id cid groupId contractId action priority now =>
      have hread : ((s.within pinRetryCount).hashes id).isSome = (s.hashes id).isSome := Option.isSome_map
      have hset := hset_within pinRetryCount s id
        (jobToMap (newJob 1 id cid groupId contractId action priority now))
      show (if ((s.within pinRetryCount).hashes id).isSome then s.within pinRetryCount else _) =
        (if (s.hashes id).isSome then s else _).within pinRetryCount
      rw [hread]
      split
      · rfl
      · exact congrArg (fun t : State => ({ t with queue := zadd s.queue (some priority) id } : State)) hset
  | processQueue ipfsReady =>
      rw [step, step]
      split
      · show ({ s.within pinRetryCount with
          processes := s.processes.map (Process.within pinRetryCount) ++ [Process.popping] } : State) =
          { s.within pinRetryCount with
            processes := (s.processes ++ [Process.popping]).map (Process.within pinRetryCount) }
        rw [List.map_append]
        rfl
      · rfl
  | timeout timer =>
      have htimers : (s.within pinRetryCount).timers = s.timers := rfl
      rw [step, step, htimers]
      split
      · rfl
      · next jobId cid _ =>
          show ({ s.within pinRetryCount with
            timers := replaceAt s.timers timer none
            fired := jobId :: s.fired
            processes := s.processes.map (Process.within pinRetryCount) ++ [Process.waking jobId cid] } :
              State) =
            { s.within pinRetryCount with
              timers := replaceAt s.timers timer none
              fired := jobId :: s.fired
              processes := (s.processes ++ [Process.waking jobId cid]).map (Process.within pinRetryCount) }
          rw [List.map_append]
          rfl
  | answer process now order error =>
      have hread : (s.within pinRetryCount).processes[process]? =
          s.processes[process]?.map (Process.within pinRetryCount) := List.getElem?_map
      rw [step, step, hread]
      cases hp : s.processes[process]? with
      | none => rfl
      | some p =>
          have hadvance := advance_within (s := s) hlimit (hfirst p (Option.mem_def.mpr hp)) now order error
          have hprocesses := replaceAt_map (Process.within pinRetryCount)
            (advance now order error s p).1.processes process (advance now order error s p).2
          show ({ (advance now order error (s.within pinRetryCount) (p.within pinRetryCount)).1 with
            processes := replaceAt
              (advance now order error (s.within pinRetryCount) (p.within pinRetryCount)).1.processes
              process (advance now order error (s.within pinRetryCount) (p.within pinRetryCount)).2 } :
                State) = _
          rw [hadvance]
          exact congrArg (fun processes => ({ (advance now order error s p).1.within pinRetryCount with
            processes := processes } : State)) hprocesses

/-- **A RUN** under the two limits. -/
theorem exec_within (hlimit : 1 ≤ pinRetryCount) (events : List Event)
    (hfirst : Along (step 1) FirstTries events s) :
    exec (step pinRetryCount) events (s.within pinRetryCount) =
      (exec (step 1) events s).within pinRetryCount := by
  induction events generalizing s with
  | nil => rfl
  | cons e events ih =>
      rw [exec_cons, exec_cons, step_within hlimit e hfirst.1]
      exact ih hfirst.2

/-- A job of a content id. -/
def pinned (id cid : String) : Event := .enqueue (lit id) (lit cid) (lit "g") (lit "c") .pin 0 0

/-- A run of `processQueue` to its end, as the only process. -/
def processRun (error : Option JsString) : List Event :=
  .processQueue true :: List.replicate 6 (.answer 0 0 [] error)

/-- The operation of the job is refused. -/
def refused : Option JsString := some (lit "down")

/-- A timer to its end, with the keys as the store lists them. -/
def timerRun (order : List String) : List Event :=
  .timeout 0 :: List.replicate 4 (.answer 0 0 (order.map lit) none)

/-- Two jobs of one content id fail; the timer of the first finds the second. -/
def crossed : List Event :=
  pinned "j1" "x" :: pinned "j2" "x" ::
    (processRun refused ++ processRun refused ++ timerRun ["j2", "j1"])

/-- So it goes with any number of retries. -/
theorem crossed_requeued (hlimit : 1 ≤ pinRetryCount) :
    (exec (step pinRetryCount) crossed idle).requeued = [(lit "j1", lit "j2")] := by
  have hfirst : Along (step 1) FirstTries crossed idle := by decide +kernel
  have hone : (exec (step 1) crossed idle).requeued = [(lit "j1", lit "j2")] := by decide +kernel
  have hrun := exec_within hlimit crossed hfirst
  have hidle : idle.within pinRetryCount = idle := rfl
  rw [hidle] at hrun
  rw [hrun]
  exact hone

/-- **BOUNDED RETRIES**: they hold of every run of the service if it makes no retries, and of
    no other service; with retries they hold in every state of a run in which a content has
    one unfinished job at a time and the timers of a job go off `pinRetryCount` times at most. -/
theorem retries_bounded (pinRetryCount : Nat) :
    ((∀ events, Bounded pinRetryCount (exec (step pinRetryCount) events idle)) ↔
      pinRetryCount = 0) ∧
    ∀ events, Along (step pinRetryCount) (Allowed pinRetryCount) events idle →
      ∀ past, past <+: events → Bounded pinRetryCount (exec (step pinRetryCount) past idle) := by
  refine ⟨⟨?_, ?_⟩, ?_⟩
  · -- with one retry or more the timers of two jobs of one content cross
    intro hbounded
    by_contra hlimit
    have hother := crossed_requeued (Nat.one_le_iff_ne_zero.mpr hlimit)
    have hsame := (hbounded crossed).2 (lit "j1", lit "j2") (hother ▸ List.mem_singleton_self _)
    exact absurd hsame (by decide)
  · rintro rfl events
    exact (exec_invariant_always step_untimed idle_untimed events).bounded
  · rintro events hrun past ⟨rest, rfl⟩
    have hpast := ((along_append _ (Allowed pinRetryCount) past rest idle).mp hrun).1
    have hkept := exec_invariant step_tended idle_tended hpast
    exact hkept.bounded hkept.few

/-- Both attempts of a job with one retry. -/
def oneRetry : List Event :=
  pinned "j1" "x" :: (processRun refused ++ timerRun ["j1"] ++ processRun refused)

/-- Then another content is pinned, at once, and taken up again. -/
def mended : List Event :=
  oneRetry ++ pinned "j2" "y" :: (processRun none ++ pinned "j3" "y" :: processRun refused)

/-- A run in which a pin fails, is tried again and mends: with a limit of one it meets the
    condition. -/
theorem retries_bounded_once :
    Along (step 1) (Allowed 1) mended idle ∧
      ∀ past, past <+: mended → Bounded 1 (exec (step 1) past idle) :=
  have h : Along (step 1) (Allowed 1) mended idle := by decide +kernel
  ⟨h, (retries_bounded 1).2 mended h⟩

/-- And a retry more: its timer is set, for the count of retries was taken back. -/
def endless : List Event := oneRetry ++ timerRun ["j1"] ++ processRun refused

/-- Three attempts with one retry, and a job put back by the timer of another. -/
theorem retries_forgotten :
    ¬ Bounded 1 (exec (step 1) endless idle) ∧ ¬ Bounded 1 (exec (step 1) crossed idle) := by
  have hthree : (exec (step 1) endless idle).attempted.count (lit "j1") = 3 := by decide +kernel
  have hfailed : (exec (step 1) endless idle).succeeded = [] := by decide +kernel
  have hother := crossed_requeued (Nat.le_refl 1)
  constructor
  · intro h
    have hbound := h.1 (lit "j1") (hfailed ▸ List.not_mem_nil)
    omega
  · intro h
    have hsame := h.2 (lit "j1", lit "j2") (hother ▸ List.mem_singleton_self _)
    exact absurd hsame (by decide)

end Limits

end Pinning
