import Mathlib
import StellarSave.PoolProofs
import StellarSave.TraceProofs

/-! # Offline queue — mark, execute, delete

    `queueAction`, `syncAll` and `replayQueue` (`syncService.ts`) over the
    `syncQueue` store (`db.ts`).  Every item goes through three awaits, each of
    which may reject, and the page may be reloaded at any of them: the store
    survives it, the flag and the pass that was running do not. -/

namespace SyncQueue

open Trace

inductive ActionType where
  | contribution
  | joinGroup
  | createGroup
  | updateGroup
  deriving DecidableEq, Repr

def ActionType.text : ActionType → String
  | .contribution => "contribution"
  | .joinGroup => "join_group"
  | .createGroup => "create_group"
  | .updateGroup => "update_group"

inductive ItemStatus where
  | pending
  | processing
  | failed
  deriving DecidableEq, Repr

/-- What `queueAction` hands to `addToSyncQueue`; it is new and `'pending'`. -/
structure NewItem (π : Type) where
  type : ActionType
  payload : π
  timestamp : Int
  deriving DecidableEq, Repr

/-- A record of the store.  `action` tells which of the queued actions it is; the
    code has no such field. -/
structure SyncQueueItem (π : Type) where
  id : String
  type : ActionType
  payload : π
  timestamp : Int
  retryCount : Nat
  status : ItemStatus
  error : Option String
  action : Nat
  deriving DecidableEq, Repr

/-- What a rejected await throws. -/
inductive Thrown where
  | error (message : String)
  | other
  deriving DecidableEq, Repr

def Thrown.message : Thrown → String
  | .error message => message
  | .other => "Unknown error"

/-- `Partial<SyncQueueItem>`, as far as the service sets it. -/
structure Updates where
  status : ItemStatus
  retryCount : Option Nat
  error : Option String
  deriving DecidableEq, Repr

variable {π : Type}

def Updates.applyTo (updates : Updates) (item : SyncQueueItem π) : SyncQueueItem π :=
  { item with
    status := updates.status
    retryCount := updates.retryCount.getD item.retryCount
    error := updates.error.or item.error }

/-! ## The object store, by its key `id` -/

def get (syncQueue : List (SyncQueueItem π)) (id : String) : Option (SyncQueueItem π) :=
  syncQueue.find? fun item => item.id = id

def delete (syncQueue : List (SyncQueueItem π)) (id : String) : List (SyncQueueItem π) :=
  syncQueue.filter fun item => item.id ≠ id

def put (syncQueue : List (SyncQueueItem π)) (item : SyncQueueItem π) : List (SyncQueueItem π) :=
  item :: delete syncQueue item.id

/-- `add` refuses a key that is taken. -/
def add (syncQueue : List (SyncQueueItem π)) (item : SyncQueueItem π) : Option (List (SyncQueueItem π)) :=
  if (get syncQueue item.id).isSome then none else some (syncQueue ++ [item])

/-- An index read comes in the order of the key; the sort is stable. -/
def getPendingSyncItems (syncQueue : List (SyncQueueItem π)) : List (SyncQueueItem π) :=
  ((syncQueue.filter fun item => item.status = .pending).insertionSort
    fun a b => ¬ b.id < a.id).insertionSort fun a b => a.timestamp ≤ b.timestamp

/-! ## The service -/

/-- The await at which a `syncAll` stands.  An update reads the record and then
    puts it back; `reset` and `resetPut` are the update in the `catch`. -/
inductive Stage (π : Type) where
  | read
  | mark (item : SyncQueueItem π) (rest : List (SyncQueueItem π))
  | markPut (item stored : SyncQueueItem π) (rest : List (SyncQueueItem π))
  | execute (item : SyncQueueItem π) (rest : List (SyncQueueItem π))
  | remove (item : SyncQueueItem π) (rest : List (SyncQueueItem π))
  | reset (item : SyncQueueItem π) (updates : Updates) (rest : List (SyncQueueItem π))
  | resetPut (updates : Updates) (stored : SyncQueueItem π) (rest : List (SyncQueueItem π))
  | refresh

/-- The store, the calls whose `add` is under way, the flag, and the pass that is
    running; how many actions were queued, and the ones executed successfully. -/
structure State (π : Type) where
  syncQueue : List (SyncQueueItem π)
  adding : List (NewItem π)
  isCurrentlySyncing : Bool
  stage : Option (Stage π)
  queued : Nat
  executed : List Nat

def start : State π := ⟨[], [], false, none, 0, []⟩

/-- What can happen, in any order.  `resolve` and `reject` are about the await at
    which the running pass stands. -/
inductive Event (π : Type) where
  | queueAction (type : ActionType) (payload : π) (now : Int)
  | added (k : Nat) (now : Int) (random : String) (ok online : Bool)
  | syncAll (online : Bool)
  | resolve
  | reject (error : Thrown)
  | reload

def syncAll (s : State π) (online : Bool) : State π :=
  if s.isCurrentlySyncing then s
  else if online then { s with isCurrentlySyncing := true, stage := some .read }
  else s

def queueAction (s : State π) (type : ActionType) (payload : π) (now : Int) : State π :=
  { s with adding := s.adding ++ [⟨type, payload, now⟩] }

/-- The record that `addToSyncQueue` writes. -/
def queueItem (s : State π) (item : NewItem π) (now : Int) (random : String) : SyncQueueItem π :=
  { id := item.type.text ++ "_" ++ toString now ++ "_" ++ random
    type := item.type
    payload := item.payload
    timestamp := item.timestamp
    retryCount := 0
    status := .pending
    error := none
    action := s.queued }

/-- The `add` of `addToSyncQueue` comes back, and with it `queueAction` goes on. -/
def added (s : State π) (k : Nat) (now : Int) (random : String) (ok online : Bool) : State π :=
  match s.adding[k]? with
  | none => s
  | some item =>
      let s := { s with adding := s.adding.eraseIdx k }
      match add s.syncQueue (queueItem s item now random) with
      | some syncQueue =>
          if ok then syncAll { s with syncQueue := syncQueue, queued := s.queued + 1 } online else s
      | none => s

/-- The loop of `replayQueue` comes to its next item, or `syncAll` goes on. -/
def next : List (SyncQueueItem π) → Stage π
  | [] => .refresh
  | item :: rest => .mark item rest

/-- The update in the `catch`. -/
def caught (item : SyncQueueItem π) (error : Thrown) : Updates :=
  let retryCount := item.retryCount + 1
  let maxRetries := 3
  if retryCount ≥ maxRetries then ⟨.failed, some retryCount, some error.message⟩
  else ⟨.pending, some retryCount, none⟩

def processing : Updates := ⟨.processing, none, none⟩

/-- The `finally` of `syncAll`. -/
def finish (s : State π) : State π := { s with isCurrentlySyncing := false, stage := none }

def resolve (s : State π) : State π :=
  match s.stage with
  | none => s
  | some .read => { s with stage := some (next (getPendingSyncItems s.syncQueue)) }
  | some (.mark item rest) =>
      match get s.syncQueue item.id with
      | some stored => { s with stage := some (.markPut item stored rest) }
      | none => { s with stage := some (.execute item rest) }
  | some (.markPut item stored rest) =>
      { s with syncQueue := put s.syncQueue (processing.applyTo stored), stage := some (.execute item rest) }
  | some (.execute item rest) =>
      { s with executed := s.executed ++ [item.action], stage := some (.remove item rest) }
  | some (.remove item rest) =>
      { s with syncQueue := delete s.syncQueue item.id, stage := some (next rest) }
  | some (.reset item updates rest) =>
      match get s.syncQueue item.id with
      | some stored => { s with stage := some (.resetPut updates stored rest) }
      | none => { s with stage := some (next rest) }
  | some (.resetPut updates stored rest) =>
      { s with syncQueue := put s.syncQueue (updates.applyTo stored), stage := some (next rest) }
  | some .refresh => finish s

def reject (s : State π) (error : Thrown) : State π :=
  match s.stage with
  | none => s
  | some (.mark item rest) => { s with stage := some (.reset item (caught item error) rest) }
  | some (.markPut item _ rest) => { s with stage := some (.reset item (caught item error) rest) }
  | some (.execute item rest) => { s with stage := some (.reset item (caught item error) rest) }
  | some (.remove item rest) => { s with stage := some (.reset item (caught item error) rest) }
  -- a rejection in the `catch`, as one of the read, is for the `catch` of `syncAll`
  | some .read => finish s
  | some (.reset _ _ _) => finish s
  | some (.resetPut _ _ _) => finish s
  | some .refresh => finish s

def step : Event π → State π → State π
  | .queueAction type payload now, s => queueAction s type payload now
  | .added k now random ok online, s => added s k now random ok online
  | .syncAll online, s => syncAll s online
  | .resolve, s => resolve s
  | .reject error, s => reject s error
  | .reload, s => { s with adding := [], isCurrentlySyncing := false, stage := none }

/-! ## What the queue promises -/

/-- No item has status `'processing'`. -/
def Quiet (syncQueue : List (SyncQueueItem π)) : Prop :=
  ∀ item ∈ syncQueue, item.status ≠ .processing

/-- An action that is executed has none before it that is neither executed nor failed. -/
def InOrder : Event π → State π → Prop
  | .resolve, s =>
      match s.stage with
      | some (.execute item _) => ∀ earlier ∈ s.syncQueue, earlier.timestamp < item.timestamp →
          earlier.action ∈ s.executed ∨ earlier.status = .failed
      | _ => True
  | _, _ => True

/-- No action is executed twice, and no item is left `'processing'` by a sync. -/
structure Kept (s : State π) : Prop where
  once : s.executed.Nodup
  noneStranded : s.isCurrentlySyncing = false → Quiet s.syncQueue

/-- The items that the pass has still to execute. -/
def Stage.toExecute : Stage π → List (SyncQueueItem π)
  | .mark item rest => item :: rest
  | .markPut item _ rest => item :: rest
  | .execute item rest => item :: rest
  | .remove _ rest => rest
  | .reset _ _ rest => rest
  | .resetPut _ _ rest => rest
  | .read => []
  | .refresh => []

/-- Nothing is queued behind the time of what a pass has still to execute. -/
def NotBackdated : Event π → State π → Prop
  | .added k now random ok _, s => ok = true → ∀ item ∈ s.adding[k]?,
      get s.syncQueue (queueItem s item now random).id = none →
        ∀ stage ∈ s.stage, ∀ waiting ∈ stage.toExecute, waiting.timestamp ≤ item.timestamp
  | _, _ => True

/-- An item that the `catch` sets back to `'pending'` was not executed, and the
    pass does not go on to a later one. -/
def NotPutBack : Event π → State π → Prop
  | .resolve, s =>
      match s.stage with
      | some (.resetPut updates stored rest) => updates.status = .pending →
          stored.action ∉ s.executed ∧ ∀ later ∈ rest, later.timestamp ≤ stored.timestamp
      | _ => True
  | _, _ => True

/-- The page is not reloaded, and no update in the `catch` rejects, while an item
    is `'processing'`. -/
def NotLeft : Event π → State π → Prop
  | .reload, s => Quiet s.syncQueue
  | .reject _, s =>
      match s.stage with
      | some (.reset _ _ _) => Quiet s.syncQueue
      | some (.resetPut _ _ _) => Quiet s.syncQueue
      | _ => True
  | _, _ => True

def Smooth (x : Event π) (s : State π) : Prop :=
  NotBackdated x s ∧ NotPutBack x s ∧ NotLeft x s

instance (syncQueue : List (SyncQueueItem π)) : Decidable (Quiet syncQueue) :=
  inferInstanceAs (Decidable (∀ item ∈ syncQueue, item.status ≠ .processing))

instance (x : Event π) (s : State π) : Decidable (InOrder x s) := by
  unfold InOrder
  split
  · split <;> infer_instance
  · exact isTrue trivial

instance (x : Event π) (s : State π) : Decidable (NotBackdated x s) := by
  unfold NotBackdated
  split <;> infer_instance

instance (x : Event π) (s : State π) : Decidable (NotPutBack x s) := by
  unfold NotPutBack
  split
  · split <;> infer_instance
  · exact isTrue trivial

instance (x : Event π) (s : State π) : Decidable (NotLeft x s) := by
  unfold NotLeft
  split
  · infer_instance
  · split <;> infer_instance
  · exact isTrue trivial

instance (x : Event π) (s : State π) : Decidable (Smooth x s) :=
  inferInstanceAs (Decidable (_ ∧ _ ∧ _))

/-! ## The records of the store -/

/-- A deletion takes the item with that id out of the store, and no other. -/
@[simp] theorem mem_delete {syncQueue : List (SyncQueueItem π)} {id : String} {item : SyncQueueItem π} :
    item ∈ delete syncQueue id ↔ item ∈ syncQueue ∧ item.id ≠ id := by
  simp [delete]

/-- A put replaces the item with its id, or adds one. -/
@[simp] theorem mem_put {syncQueue : List (SyncQueueItem π)} {x item : SyncQueueItem π} :
    item ∈ put syncQueue x ↔ item = x ∨ item ∈ syncQueue ∧ item.id ≠ x.id := by
  simp [put]

/-- What was put under an id is gone once the id is deleted. -/
@[simp] theorem delete_put (syncQueue : List (SyncQueueItem π)) (x : SyncQueueItem π) :
    delete (put syncQueue x) x.id = delete syncQueue x.id := by
  simp [put, delete]

/-- A deletion elsewhere leaves the newest item last. -/
theorem delete_concat (syncQueue : List (SyncQueueItem π)) {x : SyncQueueItem π} {id : String}
    (hid : x.id ≠ id) : delete (syncQueue ++ [x]) id = delete syncQueue id ++ [x] := by
  simp [delete, hid]

/-- Nothing is found under an id that no item has. -/
theorem get_eq_none {syncQueue : List (SyncQueueItem π)} {id : String} :
    get syncQueue id = none ↔ ∀ item ∈ syncQueue, item.id ≠ id := by
  simp [get]

/-- An update keeps the id it was found by. -/
@[simp] theorem applyTo_id (updates : Updates) (item : SyncQueueItem π) :
    (updates.applyTo item).id = item.id := rfl

/-- It keeps what the item asks for. -/
@[simp] theorem applyTo_action (updates : Updates) (item : SyncQueueItem π) :
    (updates.applyTo item).action = item.action := rfl

/-- It keeps the time at which it was queued, so the order of the pass as well. -/
@[simp] theorem applyTo_timestamp (updates : Updates) (item : SyncQueueItem π) :
    (updates.applyTo item).timestamp = item.timestamp := rfl

/-- The status is what an update is about. -/
@[simp] theorem applyTo_status (updates : Updates) (item : SyncQueueItem π) :
    (updates.applyTo item).status = updates.status := rfl

/-- One record a key, and one a queued action. -/
structure Keyed (syncQueue : List (SyncQueueItem π)) (queued : Nat) : Prop where
  keys : (syncQueue.map fun item => item.id).Nodup
  actions : ∀ a ∈ syncQueue, ∀ b ∈ syncQueue, a.action = b.action → a.id = b.id
  bound : ∀ item ∈ syncQueue, item.action < queued

variable {syncQueue : List (SyncQueueItem π)} {queued : Nat} {executed : List Nat}
  {item stored x : SyncQueueItem π} {rest todo : List (SyncQueueItem π)}

/-- Two items of the store under one id are one item. -/
theorem Keyed.same (h : Keyed syncQueue queued) (ha : item ∈ syncQueue) (hb : stored ∈ syncQueue)
    (hid : item.id = stored.id) : item = stored :=
  List.inj_on_of_nodup_map h.keys ha hb hid

/-- Every item of the store is found under its id. -/
theorem Keyed.get (h : Keyed syncQueue queued) (hitem : item ∈ syncQueue) :
    get syncQueue item.id = some item := by
  cases hget : SyncQueue.get syncQueue item.id with
  | none => exact absurd rfl (get_eq_none.mp hget item hitem)
  | some found =>
      have hid : found.id = item.id := by simpa using List.find?_some hget
      rw [h.same (List.mem_of_find?_eq_some hget) hitem hid]

/-- The ids stay apart when one of them goes. -/
theorem Keyed.delete (h : Keyed syncQueue queued) (id : String) : Keyed (delete syncQueue id) queued where
  keys := h.keys.sublist (List.filter_sublist.map _)
  actions := fun a ha b hb => h.actions a (mem_delete.mp ha).1 b (mem_delete.mp hb).1
  bound := fun a ha => h.bound a (mem_delete.mp ha).1

/-- A record is rewritten under its key. -/
theorem Keyed.put (h : Keyed syncQueue queued) (hstored : stored ∈ syncQueue) (hid : x.id = stored.id)
    (haction : x.action = stored.action) : Keyed (put syncQueue x) queued where
  keys := by
    show (x.id :: (SyncQueue.delete syncQueue x.id).map fun item => item.id).Nodup
    refine List.nodup_cons.mpr ⟨?_, (h.delete x.id).keys⟩
    intro hmem
    obtain ⟨other, hother, hsame⟩ := List.mem_map.mp hmem
    exact (mem_delete.mp hother).2 hsame
  actions := by
    intro a ha b hb heq
    obtain rfl | ⟨hold, -⟩ := mem_put.mp ha
    · obtain rfl | ⟨hold', -⟩ := mem_put.mp hb
      · rfl
      · exact hid.trans (h.actions stored hstored b hold' (haction.symm.trans heq))
    · obtain rfl | ⟨hold', -⟩ := mem_put.mp hb
      · exact (h.actions a hold stored hstored (heq.trans haction)).trans hid.symm
      · exact h.actions a hold b hold' heq
  bound := by
    intro a ha
    obtain rfl | ⟨ha, -⟩ := mem_put.mp ha
    · exact haction ▸ h.bound stored hstored
    · exact h.bound a ha

/-- A record is added under a new key. -/
theorem Keyed.concat (h : Keyed syncQueue queued) (hfree : SyncQueue.get syncQueue x.id = none)
    (haction : x.action = queued) : Keyed (syncQueue ++ [x]) (queued + 1) where
  keys := by
    rw [List.map_append, List.map_singleton, List.nodup_append]
    refine ⟨h.keys, List.nodup_singleton _, ?_⟩
    intro id hid id' hid'
    obtain ⟨other, hother, rfl⟩ := List.mem_map.mp hid
    obtain rfl := List.mem_singleton.mp hid'
    exact get_eq_none.mp hfree other hother
  actions := by
    intro a ha b hb heq
    obtain hold | rfl := Pool.mem_concat ha
    · obtain hold' | rfl := Pool.mem_concat hb
      · exact h.actions a hold b hold' heq
      · exact absurd (h.bound a hold) (by omega)
    · obtain hold' | rfl := Pool.mem_concat hb
      · exact absurd (h.bound b hold') (by omega)
      · rfl
  bound := by
    intro a ha
    obtain ha | rfl := Pool.mem_concat ha
    · exact Nat.lt_succ_of_lt (h.bound a ha)
    · omega

/-! ## A pass over the store -/

def Waits (executed : List Nat) (item : SyncQueueItem π) : Prop :=
  item.status = .pending ∧ item.action ∉ executed

/-- Every record has failed, or waits for its first execution. -/
def Resting (syncQueue : List (SyncQueueItem π)) (executed : List Nat) : Prop :=
  ∀ item ∈ syncQueue, item.status = .failed ∨ Waits executed item

/-- `todo` are records in the order of their times, and what else waits is not
    earlier than they are. -/
structure Pass (syncQueue todo : List (SyncQueueItem π)) : Prop where
  stored : ∀ item ∈ todo, item ∈ syncQueue
  pending : ∀ item ∈ todo, item.status = .pending
  apart : (todo.map fun item => item.id).Nodup
  sorted : todo.Pairwise fun a b => a.timestamp ≤ b.timestamp
  first : ∀ other ∈ syncQueue, other ∉ todo → other.status = .failed ∨
    ∀ item ∈ todo, item.timestamp ≤ other.timestamp

/-- In a store at rest no item is in the middle of its execution. -/
theorem Resting.quiet (h : Resting syncQueue executed) : Quiet syncQueue := by
  intro item hitem hprocessing
  obtain hfailed | ⟨hpending, -⟩ := h item hitem
  · exact ItemStatus.noConfusion (hfailed.symm.trans hprocessing)
  · exact ItemStatus.noConfusion (hpending.symm.trans hprocessing)

/-- A deletion disturbs nobody else's rest. -/
theorem Resting.delete (h : Resting syncQueue executed) (id : String) :
    Resting (delete syncQueue id) executed :=
  fun item hitem => h item (mem_delete.mp hitem).1

/-- A waiting item may join a store at rest. -/
theorem Resting.concat (h : Resting syncQueue executed) (hx : Waits executed x) :
    Resting (syncQueue ++ [x]) executed := by
  intro item hitem
  obtain hold | rfl := Pool.mem_concat hitem
  · exact h item hold
  · exact Or.inr hx

/-- An item that joins the store late does not come before what the pass has still to do. -/
theorem Pass.concat (h : Pass syncQueue todo) (hx : ∀ item ∈ todo, item.timestamp ≤ x.timestamp) :
    Pass (syncQueue ++ [x]) todo where
  stored := fun item hitem => List.mem_append_left _ (h.stored item hitem)
  pending := h.pending
  apart := h.apart
  sorted := h.sorted
  first := by
    intro other hother hout
    obtain hold | rfl := Pool.mem_concat hother
    · exact h.first other hold hout
    · exact Or.inr hx

/-- The items that are read. -/
theorem mem_getPendingSyncItems :
    item ∈ getPendingSyncItems syncQueue ↔ item ∈ syncQueue ∧ item.status = .pending := by
  simp [getPendingSyncItems]

/-- What a pass reads at its start is in order, in the store, and still pending. -/
theorem Pass.read (hkeys : Keyed syncQueue queued) (hrest : Resting syncQueue executed) :
    Pass syncQueue (getPendingSyncItems syncQueue) where
  stored := fun item hitem => (mem_getPendingSyncItems.mp hitem).1
  pending := fun item hitem => (mem_getPendingSyncItems.mp hitem).2
  apart := by
    have hperm : List.Perm (getPendingSyncItems syncQueue)
        (syncQueue.filter fun item => item.status = .pending) :=
      (List.perm_insertionSort _ _).trans (List.perm_insertionSort _ _)
    rw [(hperm.map fun item => item.id).nodup_iff]
    exact hkeys.keys.sublist (List.filter_sublist.map _)
  sorted := List.pairwise_insertionSort _ _
  first := by
    intro other hother hout
    obtain hfailed | ⟨hpending, -⟩ := hrest other hother
    · exact Or.inl hfailed
    · exact absurd (mem_getPendingSyncItems.mpr ⟨hother, hpending⟩) hout

/-- The first item is taken out. -/
theorem Pass.tail (h : Pass syncQueue (item :: rest)) :
    Pass (delete syncQueue item.id) rest where
  stored := by
    intro later hlater
    refine mem_delete.mpr ⟨h.stored later (List.mem_cons_of_mem _ hlater), ?_⟩
    intro hid
    exact (List.nodup_cons.mp h.apart).1 (List.mem_map.mpr ⟨later, hlater, hid⟩)
  pending := fun later hlater => h.pending later (List.mem_cons_of_mem _ hlater)
  apart := (List.nodup_cons.mp h.apart).2
  sorted := h.sorted.of_cons
  first := by
    intro other hother hout
    obtain ⟨hstored, hid⟩ := mem_delete.mp hother
    have hnot : other ∉ item :: rest := by
      intro hmem
      obtain rfl | hmem := List.mem_cons.mp hmem
      · exact hid rfl
      · exact hout hmem
    obtain hfailed | hlate := h.first other hstored hnot
    · exact Or.inl hfailed
    · exact Or.inr fun later hlater => hlate later (List.mem_cons_of_mem _ hlater)

/-- A record comes back that has failed or is not earlier than the rest. -/
theorem Pass.put (h : Pass (delete syncQueue x.id) rest)
    (hx : x.status = .failed ∨ ∀ later ∈ rest, later.timestamp ≤ x.timestamp) :
    Pass (put syncQueue x) rest where
  stored := fun later hlater => List.mem_cons_of_mem _ (h.stored later hlater)
  pending := h.pending
  apart := h.apart
  sorted := h.sorted
  first := by
    intro other hother hout
    obtain rfl | hold := List.mem_cons.mp hother
    · exact hx
    · exact h.first other hold hout

/-- The current record, and the pass over the others. -/
structure Beside (syncQueue : List (SyncQueueItem π)) (executed : List Nat) (item : SyncQueueItem π)
    (rest : List (SyncQueueItem π)) : Prop where
  stored : item ∈ syncQueue
  others : Resting (delete syncQueue item.id) executed
  pass : Pass (delete syncQueue item.id) rest

/-- The head of the pass beside its rest: the store without that head is at rest. -/
theorem Beside.of_pass (hrest : Resting syncQueue executed) (h : Pass syncQueue (item :: rest)) :
    Beside syncQueue executed item rest :=
  ⟨h.stored item List.mem_cons_self, hrest.delete item.id, h.tail⟩

/-- The item in hand may change as long as it keeps its id. -/
theorem Beside.put (h : Beside syncQueue executed stored rest) (hid : x.id = stored.id) :
    Beside (put syncQueue x) executed x rest where
  stored := List.mem_cons_self
  others := by
    rw [delete_put, hid]
    exact h.others
  pass := by
    rw [delete_put, hid]
    exact h.pass

/-- An item that joins while another is in hand joins the part that is at rest. -/
theorem Beside.concat (h : Beside syncQueue executed item rest) (hfree : get syncQueue x.id = none)
    (hx : Waits executed x) (hlate : ∀ later ∈ rest, later.timestamp ≤ x.timestamp) :
    Beside (syncQueue ++ [x]) executed item rest := by
  have hid : x.id ≠ item.id := fun hsame => get_eq_none.mp hfree item h.stored hsame.symm
  refine ⟨List.mem_append_left _ h.stored, ?_, ?_⟩
  · rw [delete_concat _ hid]
    exact h.others.concat hx
  · rw [delete_concat _ hid]
    exact h.pass.concat hlate

/-- The current record waits itself. -/
theorem Beside.resting (hkeys : Keyed syncQueue queued) (h : Beside syncQueue executed item rest)
    (hitem : item.status = .failed ∨ Waits executed item) : Resting syncQueue executed := by
  intro other hother
  by_cases hid : other.id = item.id
  · rw [hkeys.same hother h.stored hid]
    exact hitem
  · exact h.others other (mem_delete.mpr ⟨hother, hid⟩)

/-- What the state is at each await. -/
def Staged (syncQueue : List (SyncQueueItem π)) (executed : List Nat) : Option (Stage π) → Prop
  | none => Resting syncQueue executed
  | some .read => Resting syncQueue executed
  | some .refresh => Resting syncQueue executed
  | some (.mark item rest) => Resting syncQueue executed ∧ Pass syncQueue (item :: rest)
  | some (.markPut item stored rest) =>
      stored = item ∧ Resting syncQueue executed ∧ Pass syncQueue (item :: rest)
  | some (.execute item rest) =>
      item.action ∉ executed ∧ Beside syncQueue executed (processing.applyTo item) rest ∧
        ∀ other ∈ delete syncQueue item.id, other.status = .failed ∨ item.timestamp ≤ other.timestamp
  | some (.remove item rest) => Beside syncQueue executed (processing.applyTo item) rest
  | some (.reset item updates rest) =>
      updates.status ≠ .processing ∧ ∃ stored, stored.id = item.id ∧
        Beside syncQueue executed stored rest ∧ (stored.status = .processing ∨ Waits executed stored)
  | some (.resetPut updates stored rest) =>
      updates.status ≠ .processing ∧
        Beside syncQueue executed stored rest ∧ (stored.status = .processing ∨ Waits executed stored)

/-- **THE QUEUE**: what every event keeps, as long as the queue is run smoothly. -/
structure Sound (s : State π) : Prop where
  flag : s.isCurrentlySyncing = s.stage.isSome
  once : s.executed.Nodup
  known : ∀ action ∈ s.executed, action < s.queued
  keyed : Keyed s.syncQueue s.queued
  staged : Staged s.syncQueue s.executed s.stage

/-- An empty store with no pass under way is sound. -/
theorem start_sound : Sound (start : State π) where
  flag := rfl
  once := List.nodup_nil
  known := fun _ h => absurd h List.not_mem_nil
  keyed := ⟨List.nodup_nil, fun _ h => absurd h List.not_mem_nil, fun _ h => absurd h List.not_mem_nil⟩
  staged := fun _ h => absurd h List.not_mem_nil

/-- Between two items the pass goes on with the next, or it is over. -/
theorem staged_next (hrest : Resting syncQueue executed) (hpass : Pass syncQueue rest) :
    Staged syncQueue executed (some (next rest)) := by
  cases rest with
  | nil => exact hrest
  | cons item rest => exact ⟨hrest, hpass⟩

/-- The head of a pass was not executed before. -/
theorem Pass.waits (hrest : Resting syncQueue executed) (h : Pass syncQueue (item :: rest)) :
    Waits executed item := by
  have hpending : item.status = .pending := h.pending item List.mem_cons_self
  obtain hfailed | hwaits := hrest item (h.stored item List.mem_cons_self)
  · exact ItemStatus.noConfusion (hpending.symm.trans hfailed)
  · exact hwaits

/-! ## One await of a pass -/

section
variable {s : State π} (h : Sound s)
include h

/-- The item in hand is marked as processing before it is executed. -/
theorem Sound.item_marked (hstage : s.stage = some (.markPut item stored rest)) :
    Staged (put s.syncQueue (processing.applyTo stored)) s.executed (some (.execute item rest)) := by
  have hstaged := h.staged
  rw [hstage] at hstaged
  obtain ⟨rfl, hrest, hpass⟩ := hstaged
  refine ⟨(hpass.waits hrest).2, (Beside.of_pass hrest hpass).put rfl, ?_⟩
  intro other hother
  rw [show delete (put s.syncQueue (processing.applyTo stored)) stored.id = delete s.syncQueue stored.id from
    delete_put s.syncQueue (processing.applyTo stored)] at hother
  by_cases hlater : other ∈ rest
  · exact Or.inr (List.rel_of_pairwise_cons hpass.sorted hlater)
  · obtain ⟨hmem, hid⟩ := mem_delete.mp hother
    have hout : other ∉ stored :: rest := by
      intro hin
      obtain rfl | hin := List.mem_cons.mp hin
      · exact hid rfl
      · exact hlater hin
    obtain hfailed | hlate := hpass.first other hmem hout
    · exact Or.inl hfailed
    · exact Or.inr (hlate stored List.mem_cons_self)

/-- Its execution is new in the record: the item waited until then. -/
theorem Sound.item_executed (hstage : s.stage = some (.execute item rest)) :
    Sound { s with executed := s.executed ++ [item.action], stage := some (.remove item rest) } := by
  have hstaged := h.staged
  rw [hstage] at hstaged
  obtain ⟨hnew, hbeside, -⟩ := hstaged
  refine ⟨?_, ?_, ?_, h.keyed, hbeside.stored, ?_, hbeside.pass⟩
  · rw [h.flag, hstage]
    rfl
  -- the item in hand waited until now, so its action is not in the record
  · show (s.executed ++ [item.action]).Nodup
    rw [List.nodup_append]
    refine ⟨h.once, List.nodup_singleton _, ?_⟩
    intro action haction action' haction' heq
    obtain rfl := List.mem_singleton.mp haction'
    exact hnew (heq ▸ haction)
  -- its action was given out when it was queued
  · intro action haction
    obtain hold | rfl := Pool.mem_concat haction
    · exact h.known action hold
    · exact h.keyed.bound (processing.applyTo item) hbeside.stored
  · intro other hother
    obtain hfailed | ⟨hpending, hnot⟩ := hbeside.others other hother
    · exact Or.inl hfailed
    · refine Or.inr ⟨hpending, ?_⟩
      intro hmem
      obtain hold | hsame := Pool.mem_concat hmem
      · exact hnot hold
      · obtain ⟨hstored, hid⟩ := mem_delete.mp hother
        exact hid (h.keyed.actions other hstored _ hbeside.stored hsame)

/-- The item goes back, as pending if it was not executed and as failed if it was. -/
theorem Sound.item_reset {updates : Updates} (hstage : s.stage = some (.resetPut updates stored rest))
    (hback : updates.status = .pending →
      stored.action ∉ s.executed ∧ ∀ later ∈ rest, later.timestamp ≤ stored.timestamp) :
    Staged (put s.syncQueue (updates.applyTo stored)) s.executed (some (next rest)) := by
  have hstaged := h.staged
  rw [hstage] at hstaged
  obtain ⟨hstatus, hbeside, -⟩ := hstaged
  have hkeyed : Keyed (put s.syncQueue (updates.applyTo stored)) s.queued :=
    h.keyed.put hbeside.stored rfl rfl
  have hput : Beside (put s.syncQueue (updates.applyTo stored)) s.executed (updates.applyTo stored) rest :=
    hbeside.put rfl
  cases hnew : updates.status with
  | processing => exact absurd hnew hstatus
  | failed =>
      have hpass : Pass (put s.syncQueue (updates.applyTo stored)) rest :=
        Pass.put (x := updates.applyTo stored) hbeside.pass (Or.inl hnew)
      exact staged_next (hput.resting hkeyed (Or.inl hnew)) hpass
  | pending =>
      obtain ⟨hnot, hlate⟩ := hback hnew
      have hpass : Pass (put s.syncQueue (updates.applyTo stored)) rest :=
        Pass.put (x := updates.applyTo stored) hbeside.pass (Or.inr hlate)
      exact staged_next (hput.resting hkeyed (Or.inr ⟨hnew, hnot⟩)) hpass

/-- Where nothing is `'processing'`, every record has failed or waits. -/
theorem Sound.resting (hquiet : Quiet s.syncQueue) : Resting s.syncQueue s.executed := by
  have hstaged := h.staged
  -- whatever the stage, a queue without an item in execution is at rest
  cases hstage : s.stage with
  | none =>
      rw [hstage] at hstaged
      exact hstaged
  | some stage =>
      rw [hstage] at hstaged
      cases stage with
      | read => exact hstaged
      | refresh => exact hstaged
      | mark item rest => exact hstaged.1
      | markPut item stored rest => exact hstaged.2.1
      | execute item rest =>
          obtain ⟨-, hbeside, -⟩ := hstaged
          exact absurd rfl (hquiet _ hbeside.stored)
      | remove item rest =>
          have hbeside : Beside s.syncQueue s.executed (processing.applyTo item) rest := hstaged
          exact absurd rfl (hquiet _ hbeside.stored)
      | reset item updates rest =>
          obtain ⟨-, stored, -, hbeside, hcurrent⟩ := hstaged
          exact hbeside.resting h.keyed (Or.inr (hcurrent.resolve_left (hquiet stored hbeside.stored)))
      | resetPut updates stored rest =>
          obtain ⟨-, hbeside, hcurrent⟩ := hstaged
          exact hbeside.resting h.keyed (Or.inr (hcurrent.resolve_left (hquiet stored hbeside.stored)))

/-- An update in the `catch`, or the end of the pass. -/
theorem Sound.finish (hrest : Resting s.syncQueue s.executed) : Sound (finish s) :=
  ⟨rfl, h.once, h.known, h.keyed, hrest⟩

/-- A request of the store that is answered leads from each stage to the next. -/
theorem Sound.resolve (hback : NotPutBack .resolve s) : Sound (resolve s) := by
  have hstaged := h.staged
  have hflag := h.flag
  unfold SyncQueue.resolve
  -- each stage has its own request, and the answer leads to the next
  cases hstage : s.stage with
  | none => exact h
  | some stage =>
      rw [hstage] at hstaged hflag
      cases stage with
      | read => exact ⟨hflag, h.once, h.known, h.keyed, staged_next hstaged (Pass.read h.keyed hstaged)⟩
      | mark item rest =>
          obtain ⟨hrest, hpass⟩ := hstaged
          simp only [h.keyed.get (hpass.stored item List.mem_cons_self)]
          exact ⟨hflag, h.once, h.known, h.keyed, rfl, hrest, hpass⟩
      -- the item is marked in the store before it is executed
      | markPut item stored rest =>
          have hmarked := h.item_marked hstage
          obtain ⟨rfl, -, hpass⟩ := hstaged
          exact ⟨hflag, h.once, h.known, h.keyed.put (hpass.stored _ List.mem_cons_self) rfl rfl, hmarked⟩
      | execute item rest => exact h.item_executed hstage
      | remove item rest =>
          exact ⟨hflag, h.once, h.known, h.keyed.delete item.id, staged_next hstaged.others hstaged.pass⟩
      | reset item updates rest =>
          obtain ⟨hstatus, stored, hid, hbeside, hcurrent⟩ := hstaged
          simp only [← hid, h.keyed.get hbeside.stored]
          exact ⟨hflag, h.once, h.known, h.keyed, hstatus, hbeside, hcurrent⟩
      -- an item that was not executed goes back as pending
      | resetPut updates stored rest =>
          simp only [NotPutBack, hstage] at hback
          have hreset := h.item_reset hstage hback
          exact ⟨hflag, h.once, h.known, h.keyed.put hstaged.2.1.stored rfl rfl, hreset⟩
      | refresh => exact h.finish hstaged

omit h in
/-- After an error an item is never left as processing. -/
theorem caught_status (item : SyncQueueItem π) (error : Thrown) :
    (caught item error).status ≠ .processing := by
  unfold caught
  dsimp only
  split
  · exact ItemStatus.noConfusion
  · exact ItemStatus.noConfusion

/-- A step of an item is rejected. -/
theorem Sound.item_caught {stage : Stage π} (hstage : s.stage = some stage) (error : Thrown)
    (hbeside : Beside s.syncQueue s.executed stored rest) (hid : stored.id = item.id)
    (hcurrent : stored.status = .processing ∨ Waits s.executed stored) :
    Sound { s with stage := some (.reset item (caught item error) rest) } := by
  refine ⟨?_, h.once, h.known, h.keyed, caught_status item error, stored, hid, hbeside, hcurrent⟩
  rw [h.flag, hstage]
  rfl

/-- A request of the store that fails sends the item back or ends the pass. -/
theorem Sound.reject {error : Thrown} (hleft : NotLeft (.reject error) s) : Sound (reject s error) := by
  have hstaged := h.staged
  unfold SyncQueue.reject
  -- each stage has its own way out when its request fails
  cases hstage : s.stage with
  | none => exact h
  | some stage =>
      rw [hstage] at hstaged
      cases stage with
      | read => exact h.finish hstaged
      | mark item rest =>
          obtain ⟨hrest, hpass⟩ := hstaged
          exact h.item_caught hstage error (Beside.of_pass hrest hpass) rfl (Or.inr (hpass.waits hrest))
      | markPut item stored rest =>
          obtain ⟨-, hrest, hpass⟩ := hstaged
          exact h.item_caught hstage error (Beside.of_pass hrest hpass) rfl (Or.inr (hpass.waits hrest))
      -- the action threw: the item is to be reset
      | execute item rest =>
          obtain ⟨-, hbeside, -⟩ := hstaged
          exact h.item_caught hstage error hbeside rfl (Or.inl rfl)
      | remove item rest =>
          have hbeside : Beside s.syncQueue s.executed (processing.applyTo item) rest := hstaged
          exact h.item_caught hstage error hbeside rfl (Or.inl rfl)
      | reset item updates rest =>
          simp only [NotLeft, hstage] at hleft
          exact h.finish (h.resting hleft)
      | resetPut updates stored rest =>
          simp only [NotLeft, hstage] at hleft
          exact h.finish (h.resting hleft)
      | refresh => exact h.finish hstaged

/-- A pass begins only where none is under way. -/
theorem Sound.syncAll (online : Bool) : Sound (syncAll s online) := by
  unfold SyncQueue.syncAll
  split
  · exact h
  · rename_i hidle
    cases online with
    | false => exact h
    | true =>
        have hnone : s.stage = none := by
          rw [h.flag] at hidle
          exact Option.not_isSome_iff_eq_none.mp hidle
        have hrest := h.staged
        rw [hnone] at hrest
        exact ⟨rfl, h.once, h.known, h.keyed, hrest⟩

/-- A record is added: it waits, and is not earlier than what the pass has to execute. -/
theorem Sound.staged_add (hfree : get s.syncQueue x.id = none) (hx : Waits s.executed x)
    (hlate : ∀ stage, s.stage = some stage → ∀ waiting ∈ stage.toExecute, waiting.timestamp ≤ x.timestamp) :
    Staged (s.syncQueue ++ [x]) s.executed s.stage := by
  have hstaged := h.staged
  cases hstage : s.stage with
  | none =>
      rw [hstage] at hstaged
      exact Resting.concat hstaged hx
  | some stage =>
      rw [hstage] at hstaged
      have hlate' := hlate stage hstage
      cases stage with
      -- between passes and at their start the store is at rest
      | read => exact Resting.concat hstaged hx
      | refresh => exact Resting.concat hstaged hx
      | mark item rest => exact ⟨hstaged.1.concat hx, hstaged.2.concat hlate'⟩
      | markPut item stored rest =>
          obtain ⟨hsame, hrest, hpass⟩ := hstaged
          exact ⟨hsame, hrest.concat hx, hpass.concat hlate'⟩
      | execute item rest =>
          obtain ⟨hnew, hbeside, hfirst⟩ := hstaged
          refine ⟨hnew, hbeside.concat hfree hx fun later hlater => hlate' later (List.mem_cons_of_mem _ hlater), ?_⟩
          intro other hother
          obtain ⟨hmem, hid⟩ := mem_delete.mp hother
          obtain hold | rfl := Pool.mem_concat hmem
          · exact hfirst other (mem_delete.mpr ⟨hold, hid⟩)
          · exact Or.inr (hlate' item List.mem_cons_self)
      | remove item rest =>
          have hbeside : Beside s.syncQueue s.executed (processing.applyTo item) rest := hstaged
          exact hbeside.concat hfree hx hlate'
      | reset item updates rest =>
          obtain ⟨hstatus, stored, hid, hbeside, hcurrent⟩ := hstaged
          exact ⟨hstatus, stored, hid, hbeside.concat hfree hx hlate', hcurrent⟩
      | resetPut updates stored rest =>
          obtain ⟨hstatus, hbeside, hcurrent⟩ := hstaged
          exact ⟨hstatus, hbeside.concat hfree hx hlate', hcurrent⟩

/-- A new item joins behind all that were queued before it. -/
theorem Sound.added {k : Nat} {now : Int} {random : String} {ok online : Bool}
    (hlate : NotBackdated (.added k now random ok online) s) : Sound (added s k now random ok online) := by
  unfold SyncQueue.added
  cases hk : s.adding[k]? with
  | none => exact h
  | some item =>
      have hdrop : Sound { s with adding := s.adding.eraseIdx k } :=
        ⟨h.flag, h.once, h.known, h.keyed, h.staged⟩
      dsimp only
      unfold add
      cases hget : get s.syncQueue (queueItem s item now random).id with
      | some taken =>
          rw [if_pos (by simpa [queueItem] using congrArg Option.isSome hget)]
          exact hdrop
      | none =>
          rw [if_neg (by simpa [queueItem] using congrArg Option.isSome hget)]
          cases ok with
          | false => exact hdrop
          | true =>
              have hwaits : Waits s.executed (queueItem s item now random) :=
                ⟨rfl, fun hmem => Nat.lt_irrefl s.queued (h.known s.queued hmem)⟩
              have hadded : Sound { s with
                  syncQueue := s.syncQueue ++ [queueItem s item now random]
                  adding := s.adding.eraseIdx k
                  queued := s.queued + 1 } := by
                refine ⟨h.flag, h.once, ?_, h.keyed.concat hget rfl, h.staged_add hget hwaits ?_⟩
                · intro action haction
                  exact Nat.lt_succ_of_lt (h.known action haction)
                · intro stage hstage
                  exact hlate rfl item hk hget stage hstage
              exact hadded.syncAll online

/-- An executed action has none before it that waits. -/
theorem Sound.inOrder (x : Event π) : InOrder x s := by
  cases x with
  | resolve =>
      unfold InOrder
      dsimp only
      split
      · rename_i item rest hstage
        intro earlier hearlier hbefore
        have hstaged := h.staged
        rw [hstage] at hstaged
        obtain ⟨-, hbeside, hfirst⟩ := hstaged
        by_cases hid : earlier.id = item.id
        · have hsame : earlier = processing.applyTo item := h.keyed.same hearlier hbeside.stored hid
          have htime : earlier.timestamp = item.timestamp := by rw [hsame, applyTo_timestamp]
          omega
        · obtain hfailed | hlate := hfirst earlier (mem_delete.mpr ⟨hearlier, hid⟩)
          · exact Or.inr hfailed
          · omega
      · trivial
  | queueAction type payload now => trivial
  | added k now random ok online => trivial
  | syncAll online => trivial
  | reject error => trivial
  | reload => trivial

/-- Between two passes every record has failed or waits. -/
theorem Sound.kept : Kept s where
  once := h.once
  noneStranded := by
    intro hidle
    have hnone : s.stage = none := by
      rw [h.flag] at hidle
      exact Option.isSome_eq_false_iff.mp hidle |> Option.isNone_iff_eq_none.mp
    have hrest := h.staged
    rw [hnone] at hrest
    exact Resting.quiet hrest

end

/-- One event keeps the queue sound, and what it executes comes in order. -/
theorem step_sound (x : Event π) (s : State π) (hx : Smooth x s) (h : Sound s) :
    InOrder x s ∧ Sound (step x s) := by
  obtain ⟨hlate, hback, hleft⟩ := hx
  refine ⟨h.inOrder x, ?_⟩
  cases x with
  | queueAction type payload now => exact ⟨h.flag, h.once, h.known, h.keyed, h.staged⟩
  | added k now random ok online => exact h.added hlate
  | syncAll online => exact h.syncAll online
  | resolve => exact h.resolve hback
  | reject error => exact h.reject hleft
  | reload =>
      -- nothing is left of the pass; what the store holds waits for the next one
      exact ⟨rfl, h.once, h.known, h.keyed, h.resting hleft⟩

/-- A step that leaves an item half done breaks the promise at once. -/
theorem left_stranded {x : Event π} {s : State π} (h : ¬ NotLeft x s) : ¬ Kept (step x s) := by
  intro hkept
  apply h
  cases x with
  | reload => exact hkept.noneStranded rfl
  | reject error =>
      unfold NotLeft
      dsimp only
      split
      · rename_i item updates rest hstage
        have hfinish : step (.reject error) s = finish s := by
          simp only [step, SyncQueue.reject, hstage]
        rw [hfinish] at hkept
        exact hkept.noneStranded rfl
      · rename_i updates stored rest hstage
        have hfinish : step (.reject error) s = finish s := by
          simp only [step, SyncQueue.reject, hstage]
        rw [hfinish] at hkept
        exact hkept.noneStranded rfl
      · trivial
  | queueAction type payload now => trivial
  | added k now random ok online => trivial
  | syncAll online => trivial
  | resolve => trivial

/-- **OFFLINE QUEUE, ONCE AND IN ORDER**: over every run whose failures and
    reloads leave no item half done, no action is executed twice, none is
    executed before an earlier one, and none is stranded. -/
theorem queue_replayed_once (run : List (Event π)) (h : Along step Smooth run start) :
    Along step InOrder run start ∧ Kept (exec step run start) := by
  have hsound : ∀ x (s : State π), Smooth x s → Sound s → Sound (step x s) :=
    fun x s hx hs => (step_sound x s hx hs).2
  exact ⟨along_of_invariant step_sound start_sound h, (exec_invariant hsound start_sound h).kept⟩

/-- A refused execution that is tried again after a reload. -/
def retried : List (Event Unit) :=
  [.queueAction .contribution () 5, .added 0 5 "a" true true, .resolve, .resolve, .resolve,
    .reject .other, .resolve, .resolve, .resolve, .reload, .syncAll true,
    .resolve, .resolve, .resolve, .resolve, .resolve, .resolve]

/-- A run with a retry in it, which meets the conditions, and what it leaves. -/
theorem queue_replayed_once_retried :
    Along step InOrder retried start ∧ Kept (exec step retried start) :=
  queue_replayed_once retried (by decide)

/-- The delete of an executed action rejects. -/
def undeleted : List (Event Unit) :=
  [.queueAction .contribution () 5, .added 0 5 "a" true true, .resolve, .resolve, .resolve, .resolve,
    .reject .other, .resolve, .resolve, .resolve, .syncAll true, .resolve, .resolve, .resolve, .resolve]

/-- The first of two actions cannot be marked. -/
def unmarked : List (Event Unit) :=
  [.queueAction .joinGroup () 5, .added 0 5 "a" true false, .queueAction .contribution () 6,
    .added 0 6 "b" true true, .resolve, .reject .other, .resolve, .resolve, .resolve, .resolve, .resolve]

/-- The page is reloaded while an action is executed. -/
def reloaded : List (Event Unit) :=
  [.queueAction .contribution () 5, .added 0 5 "a" true true, .resolve, .resolve, .resolve, .reload]

/-- An action is executed twice; another is executed before one that waits; and a
    third is left `'processing'` for good. -/
theorem actions_repeated_reordered_stranded :
    (exec step undeleted start).executed = [0, 0] ∧ ¬ Along step InOrder unmarked start ∧
      (exec step reloaded start).isCurrentlySyncing = false ∧
      ¬ Quiet (exec step reloaded start).syncQueue := by
  refine ⟨?_, ?_, ?_, ?_⟩
  · decide
  · decide
  · decide
  · decide

end SyncQueue
