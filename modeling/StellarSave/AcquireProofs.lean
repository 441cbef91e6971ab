import StellarSave.ClientPoolProofs

/-! # Acquiring — where each client of the pool is

    `SorobanClientPool.acquire` and `release` (`lib/soroban.ts`), with the timers of the
    callers that wait.  A release hands its client to the first of them and leaves the
    count alone; a timer takes its caller out of the queue, wherever it stands.  However
    these come, each client is in the pool or with one caller. -/

namespace SorobanAcquire

open Trace

/-- What has become of the promise of an `acquire`, and of the client it gave. -/
inductive Phase where
  | pending
  | holding (client : Nat)
  | released
  | timedOut
  deriving DecidableEq, Repr

/-- One call of `acquire`; its timer runs only while it waits. -/
structure Call where
  phase : Phase
  timer : Bool
  deriving DecidableEq, Repr

/-- The pool (its end first), the queue of the callers, the metrics, and the calls. -/
structure State where
  pool : List Nat
  waiters : List Nat
  inUse : Int
  acquireTimeouts : Nat
  calls : List Call
  deriving DecidableEq, Repr

/-- `acquire` is called, the `k`th caller gives its client back, its timer fires. -/
inductive Event where
  | acquire
  | release (k : Nat)
  | timeout (k : Nat)
  deriving DecidableEq, Repr

/-- The promise of a call is settled, if it was not before; its timer is gone. -/
def Call.settle (phase : Phase) (call : Call) : Call :=
  ⟨if call.phase = .pending then phase else call.phase, false⟩

/-- `waiter.resolve(client)`, after `clearTimeout`. -/
def resolve (waiter client : Nat) (calls : List Call) : List Call :=
  match calls[waiter]? with
  | some call => calls.set waiter (call.settle (.holding client))
  | none => calls

/-- `release`. -/
def State.release (client : Nat) (s : State) : State :=
  match s.waiters with
  | waiter :: waiters => { s with waiters := waiters, calls := resolve waiter client s.calls }
  | [] => { s with inUse := s.inUse - 1, pool := client :: s.pool }

/-- The constructor: `total` clients, told apart by their number. -/
def start (total : Nat) : State := ⟨(List.range total).reverse, [], 0, 0, []⟩

def step : Event → State → State
  | .acquire, s =>
      match s.pool with
      | client :: pool =>
          { s with
            pool := pool
            inUse := s.inUse + 1
            calls := s.calls ++ [⟨.holding client, false⟩] }
      | [] =>
          { s with
            waiters := s.waiters ++ [s.calls.length]
            calls := s.calls ++ [⟨.pending, true⟩] }
  | .release k, s =>
      match s.calls[k]? with
      | some ⟨.holding client, timer⟩ =>
          { s with calls := s.calls.set k ⟨.released, timer⟩ }.release client
      | _ => s
  | .timeout k, s =>
      match s.calls[k]? with
      | some call =>
          if call.timer = true then
            { s with
              waiters := s.waiters.erase k
              acquireTimeouts := s.acquireTimeouts + 1
              calls := s.calls.set k (call.settle .timedOut) }
          else s
      | none => s

/-! ## Where the clients are -/

def Phase.client? : Phase → Option Nat
  | .holding client => some client
  | _ => none

/-- The clients that callers have taken and not given back. -/
def State.held (s : State) : List Nat := s.calls.filterMap fun call => call.phase.client?

/-- The `k`th call has timed out. -/
def TimedOut (s : State) (k : Nat) : Prop := ∃ call, s.calls[k]? = some call ∧ call.phase = .timedOut

def Call.holds (client : Nat) (call : Call) : Nat := if call.phase.client? = some client then 1 else 0

def Call.holding (call : Call) : Nat := if call.phase.client?.isSome = true then 1 else 0

/-- The queue is of the callers that wait, whose timers run; there is none while there
    is a client in the pool. -/
structure Queued (s : State) : Prop where
  queued : ∀ k, k ∈ s.waiters ↔ ∃ call, s.calls[k]? = some call ∧ call.phase = .pending
  armed : ∀ call ∈ s.calls, (call.timer = true ↔ call.phase = .pending)
  distinct : s.waiters.Nodup
  empty : s.waiters ≠ [] → s.pool = []

/-- Each of `total` clients is in one place, and the count is that of the callers that
    have one. -/
structure Accounted (total : Nat) (s : State) : Prop extends Queued s where
  once : ∀ client, s.pool.count client + Pool.total (Call.holds client) s.calls =
    if client < total then 1 else 0
  counted : s.inUse = (Pool.total Call.holding s.calls : Int)

/-- One client is on its way from a caller to the next place. -/
structure Loose (total client : Nat) (s : State) : Prop extends Queued s where
  once : ∀ c, s.pool.count c + Pool.total (Call.holds c) s.calls + (if c = client then 1 else 0) =
    if c < total then 1 else 0
  counted : s.inUse = (Pool.total Call.holding s.calls : Int) + 1

section Calls

variable {calls : List Call} {k : Nat} {p q : Call}

/-- A call counts for the client of its phase, whatever its timer does. -/
theorem holds_eq (client : Nat) (phase : Phase) (timer : Bool) :
    Call.holds client ⟨phase, timer⟩ = if phase.client? = some client then 1 else 0 := rfl

/-- And for any client, if its phase has one. -/
theorem holding_eq (phase : Phase) (timer : Bool) :
    Call.holding ⟨phase, timer⟩ = if phase.client?.isSome = true then 1 else 0 := rfl

/-- A call that was served counts for its own client only. -/
@[simp] theorem holds_holding (c client : Nat) (timer : Bool) :
    Call.holds c ⟨.holding client, timer⟩ = if c = client then 1 else 0 := by
  rw [holds_eq]
  by_cases hc : c = client
  · rw [if_pos hc, hc]
    exact if_pos rfl
  · rw [if_neg hc]
    exact if_neg fun h => hc (Option.some.inj h).symm

/-- A call in any other phase counts for none. -/
@[simp] theorem holds_pending (c : Nat) (timer : Bool) : Call.holds c ⟨.pending, timer⟩ = 0 := rfl
@[simp] theorem holds_released (c : Nat) (timer : Bool) : Call.holds c ⟨.released, timer⟩ = 0 := rfl
@[simp] theorem holds_timedOut (c : Nat) (timer : Bool) : Call.holds c ⟨.timedOut, timer⟩ = 0 := rfl
@[simp] theorem holding_holding (c : Nat) (timer : Bool) : Call.holding ⟨.holding c, timer⟩ = 1 := rfl
@[simp] theorem holding_pending (timer : Bool) : Call.holding ⟨.pending, timer⟩ = 0 := rfl
@[simp] theorem holding_released (timer : Bool) : Call.holding ⟨.released, timer⟩ = 0 := rfl
@[simp] theorem holding_timedOut (timer : Bool) : Call.holding ⟨.timedOut, timer⟩ = 0 := rfl

/-- A client is held as often as calls hold it. -/
theorem count_held (s : State) (client : Nat) :
    s.held.count client = Pool.total (Call.holds client) s.calls := by
  obtain ⟨-, -, -, -, calls⟩ := s
  show (calls.filterMap fun call => call.phase.client?).count client = _
  induction calls with
  | nil => rfl
  | cons call calls ih =>
      obtain ⟨phase, timer⟩ := call
      rw [Pool.total_cons, ← ih, holds_eq, List.filterMap_cons]
      cases hphase : phase.client? with
      | none =>
          rw [if_neg (by simp), Nat.zero_add]
      | some held =>
          show (held :: _).count client = _
          rw [List.count_cons, Nat.add_comm]
          simp

/-- As many clients are out as there are calls that hold one. -/
theorem length_held (s : State) : s.held.length = Pool.total Call.holding s.calls := by
  obtain ⟨-, -, -, -, calls⟩ := s
  show (calls.filterMap fun call => call.phase.client?).length = _
  induction calls with
  | nil => rfl
  | cons call calls ih =>
      obtain ⟨phase, timer⟩ := call
      rw [Pool.total_cons, ← ih, holding_eq, List.filterMap_cons]
      cases hphase : phase.client? with
      | none =>
          rw [if_neg (by simp), Nat.zero_add]
      | some held =>
          show (held :: _).length = _
          rw [List.length_cons, Nat.add_comm]
          simp

/-- Where a call ends its wait, the others that wait are left. -/
theorem pending_set (hk : calls[k]? = some p) (hq : q.phase ≠ .pending) (j : Nat) :
    (∃ call, (calls.set k q)[j]? = some call ∧ call.phase = .pending) ↔
      j ≠ k ∧ ∃ call, calls[j]? = some call ∧ call.phase = .pending := by
  obtain ⟨hlt, -⟩ := List.getElem?_eq_some_iff.mp hk
  by_cases hj : j = k
  · subst hj
    rw [List.getElem?_set_self hlt]
    constructor
    · rintro ⟨call, hcall, hpending⟩
      obtain rfl := Option.some.inj hcall
      exact absurd hpending hq
    · rintro ⟨hne, -⟩
      exact absurd rfl hne
  · rw [List.getElem?_set_ne (Ne.symm hj)]
    exact ⟨fun h => ⟨hj, h⟩, fun h => h.2⟩

/-- A timer runs exactly while its call waits, also after one call changed. -/
theorem armed_set (harmed : ∀ call ∈ calls, (call.timer = true ↔ call.phase = .pending))
    (hq : q.timer = true ↔ q.phase = .pending) :
    ∀ call ∈ calls.set k q, (call.timer = true ↔ call.phase = .pending) := by
  intro call hcall
  obtain rfl | hold := Pool.mem_set hcall
  · exact hq
  · exact harmed call hold

/-- A waiting call that is settled loses its timer with it. -/
theorem settle_pending {phase : Phase} {call : Call} (h : call.phase = .pending) :
    call.settle phase = ⟨phase, false⟩ := by
  rw [Call.settle, if_pos h]

end Calls

/-! ## What each step leaves -/

section Steps

variable {total client k : Nat} {s s' : State} {p q : Call}

/-- A call that ends its wait leaves the queue; one that does not wait is not in it. -/
theorem Queued.set (h : Queued s) (hk : s.calls[k]? = some p) (hphase : q.phase ≠ .pending)
    (htimer : q.timer = false) (hpool : s'.pool = s.pool) (hwaiters : s'.waiters = s.waiters.erase k)
    (hcalls : s'.calls = s.calls.set k q) : Queued s' where
  queued := by
    intro j
    rw [hwaiters, hcalls, h.distinct.mem_erase_iff, pending_set hk hphase, h.queued]
  armed := by
    rw [hcalls]
    exact armed_set h.armed (by rw [htimer]; exact iff_of_false Bool.false_ne_true hphase)
  distinct := by
    rw [hwaiters]
    exact h.distinct.erase k
  empty := by
    intro hne
    rw [hpool]
    refine h.empty ?_
    rintro hnil
    rw [hwaiters, hnil] at hne
    exact hne rfl

/-- **THE HAND-OVER**: a client on its way comes to the first caller that waits, or back to
    the pool. -/
theorem Loose.release (h : Loose total client s) : Accounted total (s.release client) := by
  obtain ⟨pool, waiters, inUse, timeouts, calls⟩ := s
  cases waiters with
  | nil =>
      refine ⟨⟨h.queued, h.armed, h.distinct, fun hne => absurd rfl hne⟩, fun c => ?_, ?_⟩
      · have honce := h.once c
        show (client :: pool).count c + Pool.total (Call.holds c) calls = _
        rw [← honce, List.count_cons]
        by_cases hc : c = client
        · subst hc
          simp
          omega
        · rw [if_neg hc, if_neg (by simpa using Ne.symm hc)]
          rfl
      · show inUse - 1 = (Pool.total Call.holding calls : Int)
        have hcounted : inUse = (Pool.total Call.holding calls : Int) + 1 := h.counted
        omega
  | cons waiter waiters =>
      -- the queue names a call that waits, so that its promise is still open
      obtain ⟨⟨phase, timer⟩, hcall, hpending⟩ := (h.queued waiter).mp List.mem_cons_self
      obtain rfl : phase = .pending := hpending
      have hcalls : resolve waiter client calls = calls.set waiter ⟨.holding client, false⟩ := by
        rw [resolve, show calls[waiter]? = _ from hcall]
        show calls.set waiter (Call.settle _ _) = _
        rw [settle_pending rfl]
      have hqueue : Queued (State.release client ⟨pool, waiter :: waiters, inUse, timeouts, calls⟩) :=
        h.toQueued.set hcall (q := ⟨.holding client, false⟩) (by simp) rfl rfl
          (by simp [State.release]) hcalls
      refine ⟨hqueue, fun c => ?_, ?_⟩
      · have honce := h.once c
        have hset := Pool.total_set (Call.holds c) hcall ⟨.holding client, false⟩
        rw [holds_pending, holds_holding] at hset
        show pool.count c + Pool.total (Call.holds c) (resolve waiter client calls) = _
        rw [hcalls, ← honce]
        show pool.count c + _ = pool.count c + Pool.total (Call.holds c) calls + _
        exact (congrArg (pool.count c + ·) hset).trans (Nat.add_assoc _ _ _).symm
      · have hset := Pool.total_set Call.holding hcall ⟨.holding client, false⟩
        rw [holding_pending, holding_holding] at hset
        have hcounted : inUse = (Pool.total Call.holding calls : Int) + 1 := h.counted
        show inUse = (Pool.total Call.holding (resolve waiter client calls) : Int)
        rw [hcalls, hcounted]
        exact_mod_cast hset.symm

variable {pool waiters : List Nat} {timeouts : Nat} {inUse : Int} {calls : List Call}

/-- A caller that finds no client joins the queue. -/
theorem Accounted.wait (h : Accounted total ⟨[], waiters, inUse, timeouts, calls⟩) :
    Accounted total ⟨[], waiters ++ [calls.length], inUse, timeouts, calls ++ [⟨.pending, true⟩]⟩ := by
  -- the call that joins is nobody's yet, so it does not wait
  have hfresh : calls.length ∉ waiters := by
    intro hmem
    obtain ⟨call, hcall, -⟩ := (h.queued calls.length).mp hmem
    rw [show calls[calls.length]? = none from List.getElem?_eq_none (le_refl _)] at hcall
    exact nomatch hcall
  refine ⟨⟨fun k => ?_, ?_, ?_, fun _ => rfl⟩, fun c => ?_, ?_⟩
  · show k ∈ waiters ++ [calls.length] ↔
      ∃ call, (calls ++ [(⟨.pending, true⟩ : Call)])[k]? = some call ∧ call.phase = .pending
    -- the waiters are the calls that are pending
    by_cases hk : k = calls.length
    · subst hk
      rw [List.getElem?_concat_length]
      exact iff_of_true (by simp) ⟨_, rfl, rfl⟩
    · have hold : k ∈ waiters ↔ ∃ call, calls[k]? = some call ∧ call.phase = .pending := h.queued k
      rw [List.mem_append, List.mem_singleton, hold, List.getElem?_append]
      split
      · simp [hk]
      · next hge =>
          rw [List.getElem?_eq_none (Nat.le_of_not_lt hge),
            List.getElem?_eq_none (by simp only [List.length_singleton]; omega)]
          simp [hk]
  · intro call hcall
    obtain hold | rfl := Pool.mem_concat hcall
    · exact h.armed call hold
    · exact iff_of_true rfl rfl
  · show (waiters ++ [calls.length]).Nodup
    exact List.nodup_append.mpr ⟨h.distinct, List.nodup_singleton _, fun a ha b hb hab =>
      hfresh (by rwa [← List.mem_singleton.mp hb, ← hab])⟩
  -- a pending call holds no client
  · have honce := h.once c
    show ([] : List Nat).count c + Pool.total (Call.holds c) (calls ++ [⟨.pending, true⟩]) = _
    rw [Pool.total_append, ← honce]
    rfl
  · have hcounted : inUse = (Pool.total Call.holding calls : Int) := h.counted
    show inUse = (Pool.total Call.holding (calls ++ [⟨.pending, true⟩]) : Int)
    rw [Pool.total_append, hcounted]
    rfl

/-- A caller that finds one takes it. -/
theorem Accounted.take (h : Accounted total ⟨client :: pool, [], inUse, timeouts, calls⟩) :
    Accounted total ⟨pool, [], inUse + 1, timeouts, calls ++ [⟨.holding client, false⟩]⟩ := by
  refine ⟨⟨fun k => ?_, ?_, h.distinct, fun hne => absurd rfl hne⟩, fun c => ?_, ?_⟩
  · show k ∈ [] ↔
      ∃ call, (calls ++ [(⟨.holding client, false⟩ : Call)])[k]? = some call ∧ call.phase = .pending
    -- a call that is served at once never waits
    refine iff_of_false (by simp) ?_
    rintro ⟨call, hcall, hpending⟩
    obtain hold | rfl := Pool.mem_concat (List.mem_of_getElem? hcall)
    · obtain ⟨j, hj⟩ := List.mem_iff_getElem?.mp hold
      exact absurd ((h.queued j).mpr ⟨call, hj, hpending⟩) (by simp)
    · exact nomatch hpending
  · intro call hcall
    obtain hold | rfl := Pool.mem_concat hcall
    · exact h.armed call hold
    · exact iff_of_false (by simp) (by simp)
  -- the client moves from the pool to the call
  · have honce := h.once c
    show pool.count c + Pool.total (Call.holds c) (calls ++ [⟨.holding client, false⟩]) = _
    rw [Pool.total_append, Pool.total_cons, holds_holding, ← honce]
    show pool.count c + _ = (client :: pool).count c + _
    rw [List.count_cons]
    by_cases hc : c = client
    · subst hc
      simp
      omega
    · rw [if_neg hc, if_neg (by simpa using Ne.symm hc)]
      rfl
  -- one more call holds a client, and `inUse` says so
  · have hcounted : inUse = (Pool.total Call.holding calls : Int) := h.counted
    show inUse + 1 = (Pool.total Call.holding (calls ++ [⟨.holding client, false⟩]) : Int)
    rw [Pool.total_append, hcounted]
    rfl

/-- `acquire`. -/
theorem Accounted.acquire (h : Accounted total s) : Accounted total (step .acquire s) := by
  obtain ⟨pool, waiters, inUse, timeouts, calls⟩ := s
  cases pool with
  | nil => exact h.wait
  | cons client pool =>
      obtain rfl : waiters = [] := by
        by_contra hne
        exact nomatch (h.empty hne : client :: pool = [])
      exact h.take

/-- `release`: the caller has the client no more, and the next place is as `Loose.release`
    says. -/
theorem Accounted.release (h : Accounted total s) (k : Nat) : Accounted total (step (.release k) s) := by
  rw [step]
  split
  -- only a call that holds a client releases one
  · next client timer hcall =>
      have hmem := List.mem_of_getElem? hcall
      have htimer : timer = false := by
        have harmed := h.armed _ hmem
        cases timer with
        | false => rfl
        | true => exact nomatch harmed.mp rfl
      have hqueue : k ∉ s.waiters := by
        intro hwaits
        obtain ⟨call, hwaiting, hpending⟩ := (h.queued k).mp hwaits
        obtain rfl := Option.some.inj (hcall.symm.trans hwaiting)
        exact nomatch hpending
      refine Loose.release ⟨h.toQueued.set hcall (q := ⟨.released, timer⟩) (by simp) htimer rfl
        (List.erase_of_not_mem hqueue).symm rfl, fun c => ?_, ?_⟩
      · have honce := h.once c
        have hset := Pool.total_set (Call.holds c) hcall ⟨.released, timer⟩
        rw [holds_released, holds_holding] at hset
        show s.pool.count c + Pool.total (Call.holds c) (s.calls.set k ⟨.released, timer⟩) + _ = _
        rw [Nat.add_assoc, hset]
        exact honce
      · have hset := Pool.total_set Call.holding hcall ⟨.released, timer⟩
        rw [holding_released, holding_holding] at hset
        show s.inUse = (Pool.total Call.holding (s.calls.set k ⟨.released, timer⟩) : Int) + 1
        rw [h.counted]
        exact_mod_cast hset.symm
  · exact h

/-- The timer of a call: its caller leaves the queue without a client. -/
theorem Accounted.timeout (h : Accounted total s) (k : Nat) : Accounted total (step (.timeout k) s) := by
  rw [step]
  split
  · next call hcall =>
      split
      · next htimer =>
          obtain ⟨phase, timer⟩ := call
          obtain rfl : phase = .pending := (h.armed _ (List.mem_of_getElem? hcall)).mp htimer
          rw [settle_pending rfl]
          refine ⟨h.toQueued.set hcall (q := ⟨.timedOut, false⟩) (by simp) rfl rfl rfl rfl, fun c => ?_, ?_⟩
          · have hset := Pool.total_set (Call.holds c) hcall ⟨.timedOut, false⟩
            rw [holds_timedOut, holds_pending] at hset
            show s.pool.count c + Pool.total (Call.holds c) (s.calls.set k ⟨.timedOut, false⟩) = _
            rw [show Pool.total (Call.holds c) (s.calls.set k ⟨.timedOut, false⟩) = _ from hset]
            exact h.once c
          · have hset := Pool.total_set Call.holding hcall ⟨.timedOut, false⟩
            rw [holding_timedOut, holding_pending] at hset
            show s.inUse = (Pool.total Call.holding (s.calls.set k ⟨.timedOut, false⟩) : Int)
            rw [show Pool.total Call.holding (s.calls.set k ⟨.timedOut, false⟩) = _ from hset]
            exact h.counted
      · exact h
  · exact h

/-- One event keeps the account: idle clients and those that are out make up the pool. -/
theorem Accounted.step (e : Event) (h : Accounted total s) : Accounted total (step e s) := by
  cases e with
  | acquire => exact h.acquire
  | release k => exact h.release k
  | timeout k => exact h.timeout k

end Steps

/-- At first all of them are idle. -/
theorem start_accounted (total : Nat) : Accounted total (start total) where
  queued := fun k => by simp [start]
  armed := fun call hcall => absurd hcall (by simp [start])
  distinct := List.nodup_nil
  empty := fun hne => absurd rfl hne
  once := fun client => by
    show (List.range total).reverse.count client + 0 = _
    rw [List.count_reverse, Nat.add_zero, List.count_range]
  counted := rfl

/-- Every run keeps account of all clients. -/
theorem exec_accounted (total : Nat) (es : List Event) : Accounted total (exec step es (start total)) :=
  exec_invariant (C := fun _ _ => True) (fun e _ _ h => h.step e) (start_accounted total)
    (along_true step es _)

section TimedOut

variable {s : State} {k : Nat}

/-- A client handed to a waiter wakes no call that gave up. -/
theorem resolve_timedOut {calls : List Call} {call : Call} (hk : calls[k]? = some call)
    (hphase : call.phase = .timedOut) (waiter client : Nat) :
    ∃ call', (resolve waiter client calls)[k]? = some call' ∧ call'.phase = .timedOut := by
  rw [resolve]
  split
  · next other hother =>
      by_cases hw : waiter = k
      · subst hw
        obtain rfl := Option.some.inj (hother.symm.trans hk)
        obtain ⟨hlt, -⟩ := List.getElem?_eq_some_iff.mp hk
        refine ⟨_, List.getElem?_set_self hlt, ?_⟩
        rw [Call.settle, if_neg (by rw [hphase]; exact nofun)]
        exact hphase
      · exact ⟨call, by rw [List.getElem?_set_ne hw]; exact hk, hphase⟩
  · exact ⟨call, hk, hphase⟩

/-- Nor does a release. -/
theorem release_timedOut (h : TimedOut s k) (client : Nat) : TimedOut (s.release client) k := by
  obtain ⟨call, hk, hphase⟩ := h
  rw [State.release]
  split
  · exact resolve_timedOut hk hphase _ client
  · exact ⟨call, hk, hphase⟩

/-- Another call's entry is not touched. -/
theorem set_timedOut {calls : List Call} {call p q : Call} {j : Nat} (hk : calls[k]? = some call)
    (hphase : call.phase = .timedOut) (hj : calls[j]? = some p) (hq : p.phase = .timedOut → q.phase = .timedOut) :
    ∃ call', (calls.set j q)[k]? = some call' ∧ call'.phase = .timedOut := by
  by_cases hjk : j = k
  · subst hjk
    obtain rfl := Option.some.inj (hj.symm.trans hk)
    obtain ⟨hlt, -⟩ := List.getElem?_eq_some_iff.mp hk
    exact ⟨q, List.getElem?_set_self hlt, hq hphase⟩
  · exact ⟨call, by rw [List.getElem?_set_ne hjk]; exact hk, hphase⟩

/-- A call that has timed out stays so, whatever comes. -/
theorem step_timedOut (e : Event) (h : TimedOut s k) : TimedOut (step e s) k := by
  -- a call that timed out is pending no longer, so nothing settles it
  cases e with
  | acquire =>
      obtain ⟨call, hk, hphase⟩ := h
      obtain ⟨hlt, -⟩ := List.getElem?_eq_some_iff.mp hk
      rw [step]
      split
      · exact ⟨call, by rw [List.getElem?_append_left hlt]; exact hk, hphase⟩
      · exact ⟨call, by rw [List.getElem?_append_left hlt]; exact hk, hphase⟩
  | release j =>
      rw [step]
      split
      · next client timer hj =>
          obtain ⟨call, hk, hphase⟩ := h
          have hset : TimedOut { s with calls := s.calls.set j ⟨.released, timer⟩ } k :=
            set_timedOut hk hphase hj nofun
          exact release_timedOut hset client
      · exact h
  | timeout j =>
      rw [step]
      split
      · next p hj =>
          split
          · obtain ⟨call, hk, hphase⟩ := h
            refine set_timedOut hk hphase hj fun hp => ?_
            rw [Call.settle, if_neg (by rw [hp]; exact nofun)]
            exact hp
          · exact h
      · exact h

/-- A call that timed out stays so along the whole run. -/
theorem exec_timedOut (es : List Event) (h : TimedOut s k) : TimedOut (exec step es s) k :=
  exec_invariant (C := fun _ _ => True) (I := fun s => TimedOut s k) (fun e _ _ h => step_timedOut e h) h
    (along_true step es _)

/-- It is no longer in the queue, so that no release hands it a client. -/
theorem Queued.not_waiting (hqueue : Queued s) (h : TimedOut s k) : k ∉ s.waiters := by
  obtain ⟨call, hk, hphase⟩ := h
  intro hmem
  obtain ⟨call', hk', hpending⟩ := (hqueue.queued k).mp hmem
  obtain rfl := Option.some.inj (hk.symm.trans hk')
  exact nomatch hphase.symm.trans hpending

end TimedOut

/-- In the pool or held, each client once. -/
theorem Accounted.clients {total : Nat} {s : State} (h : Accounted total s) :
    (s.pool ++ s.held).Perm (List.range total) := by
  refine List.perm_iff_count.mpr fun client => ?_
  rw [List.count_append, count_held, h.once, List.count_range]

/-- **THE CLIENTS ARE ACCOUNTED FOR** in every state of every run: in the pool or held, each
    once; the count is that of the held; a caller waits only while the pool is empty; and
    one that has timed out is not handed a client, then or later. -/
theorem clients_accounted (total : Nat) (es : List Event) :
    ((exec step es (start total)).pool ++ (exec step es (start total)).held).Perm (List.range total) ∧
      (exec step es (start total)).inUse = (exec step es (start total)).held.length ∧
      (exec step es (start total)).inUse ≤ total ∧
      ((exec step es (start total)).waiters ≠ [] → (exec step es (start total)).pool = []) ∧
      ∀ k, TimedOut (exec step es (start total)) k →
        k ∉ (exec step es (start total)).waiters ∧
          ∀ later, TimedOut (exec step (es ++ later) (start total)) k := by
  have haccounted := exec_accounted total es
  generalize hs : exec step es (start total) = s at haccounted ⊢
  have hperm := haccounted.clients
  have hcount : s.inUse = s.held.length := by rw [haccounted.counted, length_held]
  refine ⟨hperm, hcount, ?_, haccounted.empty, fun k hk => ⟨haccounted.not_waiting hk, fun later => ?_⟩⟩
  · have hlength := hperm.length_eq
    rw [List.length_append, List.length_range] at hlength
    omega
  · rw [exec_append, hs]
    exact exec_timedOut later hk

/-! ## `withClient` over the pool -/

/-- Where `withClient` stands, and what has become of its `acquire`. -/
def Stands : SorobanPool.Own → Call → Prop
  | .waiting _, call => call = ⟨.pending, true⟩
  | .acquired client, call => call.phase = .holding client
  | .racing client _, call => call.phase = .holding client
  | .raced client _, call => call.phase = .holding client
  | .settled, call => call.phase = .released ∨ call.phase = .timedOut

/-- The calls of `withClient` and their calls of `acquire`. -/
structure Stand (calls : List SorobanPool.Call) (acquires : List Call) : Prop where
  length : calls.length = acquires.length
  stands : ∀ (k : Nat) c call, calls[k]? = some c → acquires[k]? = some call → Stands c.own call

/-- The pool as the calls of `withClient` share it, and on its own. -/
structure Shared (s : SorobanPool.State) (t : State) : Prop where
  pool : s.pool = t.pool
  waiters : s.waiters = t.waiters
  inUse : s.inUse = t.inUse
  acquireTimeouts : s.acquireTimeouts = t.acquireTimeouts
  calls : Stand s.calls t.calls

section Sharing

variable {calls : List SorobanPool.Call} {acquires : List Call} {k : Nat}
  {s s' : SorobanPool.State} {t t' : State}

/-- Every call of `withClient` has its acquire. -/
theorem Stand.get (h : Stand calls acquires) {c : SorobanPool.Call} (hc : calls[k]? = some c) :
    ∃ call, acquires[k]? = some call ∧ Stands c.own call := by
  obtain ⟨hlt, -⟩ := List.getElem?_eq_some_iff.mp hc
  have hcall := List.getElem?_eq_getElem (show k < acquires.length by rwa [← h.length])
  exact ⟨_, hcall, h.stands k c _ hc hcall⟩

/-- Both may move on together. -/
theorem Stand.set (h : Stand calls acquires) (c : SorobanPool.Call) (call : Call)
    (hstands : Stands c.own call) : Stand (calls.set k c) (acquires.set k call) where
  length := by rw [List.length_set, List.length_set, h.length]
  stands := by
    intro j c' call' hc' hcall'
    rw [List.getElem?_set] at hc' hcall'
    split at hc'
    · next hj =>
        rw [if_pos hj] at hcall'
        split at hc'
        · next hlt =>
            rw [if_pos (by rwa [← h.length])] at hcall'
            obtain rfl := Option.some.inj hc'
            obtain rfl := Option.some.inj hcall'
            exact hstands
        · exact nomatch hc'
    · next hj =>
        rw [if_neg hj] at hcall'
        exact h.stands j c' call' hc' hcall'

/-- Only `withClient` has gone on. -/
theorem Stand.advance (h : Stand calls acquires) {c c' : SorobanPool.Call} (hc : calls[k]? = some c)
    (hstands : ∀ call, Stands c.own call → Stands c'.own call) : Stand (calls.set k c') acquires := by
  obtain ⟨call, hcall, hold⟩ := h.get hc
  obtain ⟨hlt, rfl⟩ := List.getElem?_eq_some_iff.mp hcall
  have hset := h.set (k := k) c' acquires[k] (hstands _ hold)
  rwa [List.set_getElem_self] at hset

/-- Or a new pair may join. -/
theorem Stand.concat (h : Stand calls acquires) {c : SorobanPool.Call} {call : Call}
    (hstands : Stands c.own call) : Stand (calls ++ [c]) (acquires ++ [call]) where
  length := by rw [List.length_append, List.length_append, h.length]; rfl
  stands := by
    intro j c' call' hc' hcall'
    rw [List.getElem?_append] at hc' hcall'
    split at hc'
    · next hlt =>
        rw [if_pos (by rwa [← h.length])] at hcall'
        exact h.stands j c' call' hc' hcall'
    · next hge =>
        rw [if_neg (by rwa [← h.length]), ← h.length] at hcall'
        cases hj : j - calls.length with
        | zero =>
            rw [hj] at hc' hcall'
            obtain rfl := Option.some.inj hc'
            obtain rfl := Option.some.inj hcall'
            exact hstands
        | succ n =>
            rw [hj] at hc'
            exact nomatch hc'

/-- Both resolve the same promise, and neither one that has settled. -/
theorem Stand.resolve (h : Stand calls acquires) (waiter client : Nat) :
    Stand (SorobanPool.resolve waiter client calls) (resolve waiter client acquires) := by
  cases hc : calls[waiter]? with
  | none =>
      have hnone : acquires[waiter]? = none := by
        rw [List.getElem?_eq_none_iff] at hc ⊢
        rwa [← h.length]
      rw [SorobanPool.resolve, hc, SorobanAcquire.resolve, hnone]
      exact h
  -- the waiter that is woken is served in both pools
  | some c =>
      obtain ⟨call, hcall, hstands⟩ := h.get hc
      obtain ⟨own, work, started⟩ := c
      rw [SorobanPool.resolve, hc, SorobanAcquire.resolve, hcall]
      have hsettled : call.phase ≠ .pending → Stands own ⟨call.phase, false⟩ →
          Stand calls (acquires.set waiter (call.settle (.holding client))) := by
        intro hphase hown
        have hset := h.set (k := waiter) ⟨own, work, started⟩ ⟨call.phase, false⟩ hown
        obtain ⟨hlt, hget⟩ := List.getElem?_eq_some_iff.mp hc
        rw [← hget, List.set_getElem_self] at hset
        rw [Call.settle, if_neg hphase]
        exact hset
      have hheld : ∀ c, call.phase = .holding c → call.phase ≠ .pending := by
        intro c hphase
        rw [hphase]
        exact nofun
      cases own with
      | waiting deadline =>
          obtain rfl : call = ⟨.pending, true⟩ := hstands
          exact h.set ⟨.acquired client, work, started⟩ ⟨.holding client, false⟩ rfl
      | acquired c => exact hsettled (hheld c hstands) hstands
      | racing c deadline => exact hsettled (hheld c hstands) hstands
      | raced c ok => exact hsettled (hheld c hstands) hstands
      | settled =>
          refine hsettled ?_ hstands
          obtain hphase | hphase := hstands
          · rw [hphase]
            exact nofun
          · rw [hphase]
            exact nofun

/-- A release does the same to both pools. -/
theorem Shared.release (h : Shared s t) (client : Nat) : Shared (s.release client) (t.release client) := by
  obtain ⟨pool, waiters, inUse, timeouts, breaker, now, calls⟩ := s
  obtain ⟨pool', waiters', inUse', timeouts', calls'⟩ := t
  obtain ⟨rfl, rfl, rfl, rfl, hcalls⟩ := h
  cases waiters with
  | nil => exact ⟨rfl, rfl, rfl, rfl, hcalls⟩
  | cons waiter waiters => exact ⟨rfl, rfl, rfl, rfl, hcalls.resolve waiter client⟩

/-- A call that holds a client settles and gives it back. -/
theorem Shared.giveBack (h : Shared s t) {c c' : SorobanPool.Call} {client : Nat} (hc : s.calls[k]? = some c)
    (hholds : ∀ call, Stands c.own call → call.phase = .holding client) (hsettled : c'.own = .settled)
    (hpool : s'.pool = s.pool) (hwaiters : s'.waiters = s.waiters) (hinUse : s'.inUse = s.inUse)
    (htimeouts : s'.acquireTimeouts = s.acquireTimeouts) (hcalls : s'.calls = s.calls.set k c') :
    Shared (s'.release client) (step (.release k) t) := by
  obtain ⟨⟨phase, timer⟩, hcall, hstands⟩ := h.calls.get hc
  obtain rfl : phase = .holding client := hholds _ hstands
  have hfree : Shared s' { t with calls := t.calls.set k ⟨.released, timer⟩ } := by
    refine ⟨hpool.trans h.pool, hwaiters.trans h.waiters, hinUse.trans h.inUse,
      htimeouts.trans h.acquireTimeouts, ?_⟩
    rw [hcalls]
    exact h.calls.set c' ⟨.released, timer⟩ (by rw [hsettled]; exact Or.inl rfl)
  rw [step, hcall]
  exact hfree.release client

/-- A call that is over stands over its acquire, as it did before. -/
theorem Stands.finished {own : SorobanPool.Own} {a : Call} (b : Bool) (h : Stands own a) : Stands (own.finished b) a := by
  cases own with
  | racing client deadline => exact h
  | _ => exact h

/-- Work that ends leaves the client where it is. -/
theorem Stands.workEnds {c : SorobanPool.SorobanPoolConfig} {a : Call} {ok : Bool} (call : SorobanPool.Call)
    (next : Nat) (h : Stands call.own a) : Stands (call.workEnds c next ok).own a := by
  rw [SorobanPool.Call.workEnds]
  split
  · exact h.finished true
  · split
    · exact h
    · exact h.finished false

/-- **WHAT `withClient` DOES TO THE POOL** is what `acquire`, `release` and the timers do. -/
theorem Shared.step (h : Shared s t) (c : SorobanPool.SorobanPoolConfig) (x : SorobanPool.Event) :
    ∃ es, Shared (SorobanPool.step c x s) (exec step es t) := by
  -- each event of `withClient` is one of the acquires under it, or none
  cases x with
  | withClient =>
      refine ⟨[.acquire], ?_⟩
      rw [exec_cons, exec_nil, SorobanPool.step, SorobanAcquire.step, ← h.pool]
      cases hpool : s.pool with
      | nil =>
          refine ⟨rfl, ?_, h.inUse, h.acquireTimeouts, h.calls.concat rfl⟩
          show s.waiters ++ [s.calls.length] = t.waiters ++ [t.calls.length]
          rw [h.waiters, h.calls.length]
      | cons client pool =>
          refine ⟨rfl, h.waiters, ?_, h.acquireTimeouts, h.calls.concat rfl⟩
          show s.inUse + 1 = t.inUse + 1
          rw [h.inUse]
  -- the timeout of a waiting call is that of its acquire
  | acquireTimeout k =>
      rw [SorobanPool.step]
      split
      · next deadline work started hc =>
          split
          · obtain ⟨call, hcall, hstands⟩ := h.calls.get hc
            obtain rfl : call = ⟨.pending, true⟩ := hstands
            refine ⟨[.timeout k], ?_⟩
            rw [exec_cons, exec_nil, SorobanAcquire.step, hcall]
            refine ⟨h.pool, ?_, h.inUse, ?_, h.calls.set _ _ (Or.inr rfl)⟩
            · show s.waiters.erase k = t.waiters.erase k
              rw [h.waiters]
            · show s.acquireTimeouts + 1 = t.acquireTimeouts + 1
              rw [h.acquireTimeouts]
          · exact ⟨[], h⟩
      · exact ⟨[], h⟩
  | enter k =>
      rw [SorobanPool.step]
      split
      · next client work started hc =>
          by_cases hopen : (s.breaker.getState s.now).state = .open
          · refine ⟨[.release k], ?_⟩
            rw [if_pos hopen]
            exact h.giveBack hc (fun _ hstands => hstands) rfl rfl rfl rfl rfl rfl
          · rw [if_neg hopen]
            exact ⟨[], h.pool, h.waiters, h.inUse, h.acquireTimeouts,
              h.calls.advance hc fun _ hstands => hstands⟩
      · exact ⟨[], h⟩
  | workEnds k ok =>
      rw [SorobanPool.step]
      have hends : ∀ (call : SorobanPool.Call) next, s.calls[k]? = some call →
          Shared { s with calls := s.calls.set k (call.workEnds c next ok) } t := by
        intro call next hc
        exact ⟨h.pool, h.waiters, h.inUse, h.acquireTimeouts, h.calls.advance hc fun _ => Stands.workEnds call next⟩
      split
      · next call hc =>
          split
          · exact ⟨[], hends call 0 hc⟩
          · next i _ => exact ⟨[], hends call (i + 1) hc⟩
          · exact ⟨[], h⟩
          · exact ⟨[], h⟩
      · exact ⟨[], h⟩
  -- a race that is lost does not release: the call still holds its client
  | raceTimeout k =>
      rw [SorobanPool.step]
      split
      · next client deadline work started hc =>
          split
          · exact ⟨[], h.pool, h.waiters, h.inUse, h.acquireTimeouts,
              h.calls.advance hc fun _ hstands => hstands⟩
          · exact ⟨[], h⟩
      · exact ⟨[], h⟩
  | settle k =>
      rw [SorobanPool.step]
      split
      · next client ok work started hc =>
          refine ⟨[.release k], ?_⟩
          exact h.giveBack hc (fun _ hstands => hstands) rfl rfl rfl rfl rfl rfl
      · exact ⟨[], h⟩
  | pass ms => exact ⟨[], h.pool, h.waiters, h.inUse, h.acquireTimeouts, h.calls⟩

/-- Every run of `withClient` is one of the pool. -/
theorem exec_shared (c : SorobanPool.SorobanPoolConfig) (xs : List SorobanPool.Event) :
    ∃ es, Shared (exec (SorobanPool.step c) xs (SorobanPool.start c))
      (exec SorobanAcquire.step es (start c.poolSize)) := by
  refine exec_invariant (C := fun _ _ => True)
    (I := fun s => ∃ es, Shared s (exec SorobanAcquire.step es (start c.poolSize))) ?_ ?_
    (along_true _ xs _)
  · rintro x s - ⟨es, hs⟩
    obtain ⟨es', hs'⟩ := hs.step c x
    exact ⟨es ++ es', by rwa [exec_append]⟩
  · exact ⟨[], rfl, rfl, rfl, rfl, rfl, fun k c call hc => nomatch hc⟩

/-- So the metrics of the pool are right under `withClient`, and nobody waits for a client
    that is there. -/
theorem withClient_metrics (c : SorobanPool.SorobanPoolConfig) (xs : List SorobanPool.Event) :
    (exec (SorobanPool.step c) xs (SorobanPool.start c)).inUse +
        (exec (SorobanPool.step c) xs (SorobanPool.start c)).pool.length = c.poolSize ∧
      ((exec (SorobanPool.step c) xs (SorobanPool.start c)).waiters ≠ [] →
        (exec (SorobanPool.step c) xs (SorobanPool.start c)).pool = []) := by
  obtain ⟨es, hshared⟩ := exec_shared c xs
  have haccounted := exec_accounted c.poolSize es
  rw [hshared.pool, hshared.waiters, hshared.inUse, haccounted.counted, ← length_held]
  refine ⟨?_, haccounted.empty⟩
  have hperm : ((exec SorobanAcquire.step es (start c.poolSize)).pool ++
      (exec SorobanAcquire.step es (start c.poolSize)).held).Perm (List.range c.poolSize) :=
    haccounted.clients
  have hlength := hperm.length_eq
  rw [List.length_append, List.length_range] at hlength
  omega

end Sharing

end SorobanAcquire
