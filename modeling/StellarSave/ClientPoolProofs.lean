import StellarSave.BreakerProofs
import StellarSave.PoolProofs

/-! # The Soroban client pool — whose client it is when the breaker gives up

    `SorobanClientPool.withClient` (`lib/soroban.ts`) takes a client, races the
    caller's function against the breaker's timeout, and gives the client back
    when the RACE is over.  The function is not stopped: after a timeout it goes
    on with the client, and the loop over the fallback endpoints goes on calling
    it.

    Two programs run for one call: `withClient` itself (`Own`) and the work
    handed to the breaker (`Work`). -/

namespace SorobanPool

open Trace CircuitBreaker

/-- The pool's configuration, how many fallback endpoints it has, and the shared
    breaker's options. -/
structure SorobanPoolConfig where
  poolSize : Nat
  acquireTimeoutMs : Nat
  fallbackClients : Nat
  timeoutMs : Nat
  breaker : CircuitBreakerOptions

/-- Where `withClient` stands. -/
inductive Own where
  | waiting (deadline : Nat)
  | acquired (client : Nat)
  | racing (client deadline : Nat)
  | raced (client : Nat) (ok : Bool)
  | settled
  deriving DecidableEq, Repr

/-- Where the work stands: which invocation of the caller's function is
    unfinished. -/
inductive Work where
  | idle
  | primary (client : Nat)
  | fallback (i : Nat)
  | done
  deriving DecidableEq, Repr

/-- One call of `withClient`; `started` counts the invocations of its function. -/
structure Call where
  own : Own
  work : Work
  started : Nat
  deriving DecidableEq, Repr

/-- The client a call has taken and not given back. -/
def Own.client? : Own → Option Nat
  | .acquired client => some client
  | .racing client _ => some client
  | .raced client _ => some client
  | .waiting _ => none
  | .settled => none

def Call.Unfinished (call : Call) : Prop :=
  match call.work with
  | .primary _ => True
  | .fallback _ => True
  | .idle => False
  | .done => False

instance (call : Call) : Decidable call.Unfinished := by
  cases h : call.work <;> simp only [Call.Unfinished, h] <;> infer_instance

def Call.holds (client : Nat) (call : Call) : Nat := if call.own.client? = some client then 1 else 0

def Call.uses (client : Nat) (call : Call) : Nat := if call.work = .primary client then 1 else 0

/-- The pool (its end first), the callers that wait, the metrics, the shared
    breaker, the clock, and the calls. -/
structure State where
  pool : List Nat
  waiters : List Nat
  inUse : Int
  acquireTimeouts : Nat
  breaker : Breaker
  now : Nat
  calls : List Call
  deriving DecidableEq, Repr

/-- What can happen: a call is made, its wait times out, it enters the breaker,
    an invocation of its function ends, the breaker's timer fires, the call
    settles, time passes. -/
inductive Event where
  | withClient
  | acquireTimeout (k : Nat)
  | enter (k : Nat)
  | workEnds (k : Nat) (ok : Bool)
  | raceTimeout (k : Nat)
  | settle (k : Nat)
  | pass (ms : Nat)
  deriving DecidableEq, Repr

/-- `waiter.resolve(client)`: nothing, where the promise has settled. -/
def resolve (k client : Nat) (calls : List Call) : List Call :=
  match calls[k]? with
  | some ⟨.waiting _, work, started⟩ => calls.set k ⟨.acquired client, work, started⟩
  | _ => calls

/-- `release`. -/
def State.release (client : Nat) (s : State) : State :=
  match s.waiters with
  | waiter :: waiters => { s with waiters := waiters, calls := resolve waiter client s.calls }
  | [] => { s with inUse := s.inUse - 1, pool := client :: s.pool }

/-- The race has the work's outcome, unless it was over before. -/
def Own.finished (ok : Bool) : Own → Own
  | .racing client _ => .raced client ok
  | own => own

section
variable (c : SorobanPoolConfig)

def start : State := ⟨(List.range c.poolSize).reverse, [], 0, 0, .new, 0, []⟩

/-- An invocation ended: on success the work is done, on failure the next
    endpoint has its turn. -/
def Call.workEnds (call : Call) (next : Nat) (ok : Bool) : Call :=
  if ok = true then { call with own := call.own.finished true, work := .done }
  else if next < c.fallbackClients then { call with work := .fallback next, started := call.started + 1 }
  else { call with own := call.own.finished false, work := .done }

def step : Event → State → State
  | .withClient, s =>
      match s.pool with
      | client :: pool =>
          { s with
            pool := pool
            inUse := s.inUse + 1
            calls := s.calls ++ [⟨.acquired client, .idle, 0⟩] }
      | [] =>
          { s with
            waiters := s.waiters ++ [s.calls.length]
            calls := s.calls ++ [⟨.waiting (s.now + c.acquireTimeoutMs), .idle, 0⟩] }
  | .acquireTimeout k, s =>
      match s.calls[k]? with
      | some ⟨.waiting deadline, work, started⟩ =>
          if deadline ≤ s.now then
            { s with
              waiters := s.waiters.erase k
              acquireTimeouts := s.acquireTimeouts + 1
              calls := s.calls.set k ⟨.settled, work, started⟩ }
          else s
      | _ => s
  | .enter k, s =>
      match s.calls[k]? with
      | some ⟨.acquired client, work, started⟩ =>
          let s := { s with breaker := s.breaker.getState s.now }
          if s.breaker.state = .open then
            { s with calls := s.calls.set k ⟨.settled, work, started⟩ }.release client
          else
            { s with
              calls := s.calls.set k
                ⟨.racing client (s.now + c.timeoutMs), .primary client, started + 1⟩ }
      | _ => s
  | .workEnds k ok, s =>
      match s.calls[k]? with
      | some call =>
          match call.work with
          | .primary _ => { s with calls := s.calls.set k (call.workEnds c 0 ok) }
          | .fallback i => { s with calls := s.calls.set k (call.workEnds c (i + 1) ok) }
          | .idle => s
          | .done => s
      | none => s
  | .raceTimeout k, s =>
      match s.calls[k]? with
      | some ⟨.racing client deadline, work, started⟩ =>
          if deadline ≤ s.now then
            { s with calls := s.calls.set k ⟨.raced client false, work, started⟩ }
          else s
      | _ => s
  | .settle k, s =>
      match s.calls[k]? with
      | some ⟨.raced client ok, work, started⟩ =>
          { s with
            breaker := if ok = true then s.breaker.onSuccess else s.breaker.onFailure c.breaker s.now
            calls := s.calls.set k ⟨.settled, work, started⟩ }.release client
      | _ => s
  | .pass ms, s => { s with now := s.now + ms }

/-! ## What the pool promises -/

/-- No two unfinished invocations use one pooled client. -/
def Exclusive (s : State) : Prop := ∀ client, Pool.total (Call.uses client) s.calls ≤ 1

/-- No call that has settled invokes its function again. -/
def NoLateStart (x : Event) (s : State) : Prop :=
  ∀ (k : Nat) (call : Call), s.calls[k]? = some call → call.own = .settled →
    ∃ call' : Call, (step c x s).calls[k]? = some call' ∧ call'.started = call.started

def Promised (x : Event) (s : State) : Prop := Exclusive (step c x s) ∧ NoLateStart c x s

/-- No call settles while its work is unfinished. -/
def Timely (x : Event) (s : State) : Prop :=
  match x with
  | .settle k => ∀ call client ok, s.calls[k]? = some call → call.own = .raced client ok →
      ¬ call.Unfinished
  | _ => True

/-! ## One call -/

/-- The race for the call's work is on, or over and not yet noticed. -/
def Own.Running : Own → Prop
  | .racing _ _ => True
  | .raced _ _ => True
  | _ => False

/-- Unfinished work belongs to a call in its race, and uses the client it holds. -/
structure Call.Sound (call : Call) : Prop where
  running : call.Unfinished → call.own.Running
  holds : ∀ client, call.work = .primary client → call.own.client? = some client

theorem Call.Sound.of_finished {call : Call} (h : ¬ call.Unfinished) : call.Sound where
  running := fun hu => absurd hu h
  holds := fun client hwork => absurd (by simp [Call.Unfinished, hwork]) h

theorem Call.Sound.uses_le_holds {call : Call} (h : call.Sound) (client : Nat) :
    call.uses client ≤ call.holds client := by
  by_cases hwork : call.work = .primary client
  · simp [Call.uses, Call.holds, hwork, h.holds client hwork]
  · simp [Call.uses, hwork]

@[simp] theorem finished_client? (ok : Bool) (own : Own) : (own.finished ok).client? = own.client? := by
  cases own <;> rfl

variable {c}

@[simp] theorem workEnds_client? (call : Call) (next : Nat) (ok : Bool) :
    (call.workEnds c next ok).own.client? = call.own.client? := by
  unfold Call.workEnds
  split
  · exact finished_client? true call.own
  · split
    · rfl
    · exact finished_client? false call.own

theorem workEnds_sound {call : Call} (h : call.own.Running) (next : Nat) (ok : Bool) :
    (call.workEnds c next ok).Sound := by
  unfold Call.workEnds
  split
  · exact .of_finished fun hu => hu
  · split
    · exact ⟨fun _ => h, fun client hwork => by cases hwork⟩
    · exact .of_finished fun hu => hu

/-! ## All calls -/

/-- Every call is sound, and every client is in the pool or held by one call. -/
structure Owned (s : State) : Prop where
  sound : ∀ call ∈ s.calls, call.Sound
  once : ∀ client, s.pool.count client + Pool.total (Call.holds client) s.calls ≤ 1

theorem Owned.exclusive {s : State} (h : Owned s) : Exclusive s := by
  intro client
  have hle := Pool.total_le_total fun call hmem => (h.sound call hmem).uses_le_holds client
  have honce := h.once client
  omega

theorem set_sound {calls : List Call} {k : Nat} {q : Call} (h : ∀ call ∈ calls, call.Sound)
    (hq : q.Sound) : ∀ call ∈ calls.set k q, call.Sound := by
  intro call hmem
  obtain rfl | hmem := Pool.mem_set hmem
  · exact hq
  · exact h call hmem

/-- A call rewritten to another that holds the same client. -/
theorem holds_set {calls : List Call} {k : Nat} {p q : Call} (hk : calls[k]? = some p)
    (hsame : q.own.client? = p.own.client?) (client : Nat) :
    Pool.total (Call.holds client) (calls.set k q) = Pool.total (Call.holds client) calls := by
  have htotal := Pool.total_set (Call.holds client) hk q
  have heq : q.holds client = p.holds client := by simp [Call.holds, hsame]
  omega

/-- One call goes on with the client it has. -/
theorem Owned.rewrite {s s' : State} {k : Nat} {p q : Call} (h : Owned s)
    (hk : s.calls[k]? = some p) (hq : q.Sound) (hsame : q.own.client? = p.own.client?)
    (hpool : s'.pool = s.pool) (hcalls : s'.calls = s.calls.set k q) : Owned s' where
  sound := hcalls ▸ set_sound h.sound hq
  once client := by
    rw [hpool, hcalls, holds_set hk hsame]
    exact h.once client

/-- A waiting caller that is served gets the one client. -/
theorem resolve_owned {calls : List Call} (k client : Nat) (h : ∀ call ∈ calls, call.Sound) :
    (∀ call ∈ resolve k client calls, call.Sound) ∧
      ∀ client', Pool.total (Call.holds client') (resolve k client calls) ≤
        Pool.total (Call.holds client') calls + if client = client' then 1 else 0 := by
  unfold resolve
  split
  case h_1 deadline work started hk =>
    have hidle := (h _ (List.mem_of_getElem? hk)).running
    refine ⟨set_sound h (.of_finished hidle), fun client' => ?_⟩
    have htotal := Pool.total_set (Call.holds client') hk ⟨.acquired client, work, started⟩
    simp only [Call.holds, Own.client?, Option.some.injEq] at htotal ⊢
    simp only [reduceCtorEq, if_false] at htotal
    omega
  case h_2 => exact ⟨h, fun client' => Nat.le_add_right _ _⟩

/-- **RELEASE**: a client that nobody has any more goes to the next caller or
    back to the pool. -/
theorem release_owned {s : State} {client : Nat} (hsound : ∀ call ∈ s.calls, call.Sound)
    (honce : ∀ client', s.pool.count client' + Pool.total (Call.holds client') s.calls +
      (if client = client' then 1 else 0) ≤ 1) : Owned (s.release client) := by
  unfold State.release
  split
  case h_1 waiter waiters hwaiters =>
    obtain ⟨hafter, hle⟩ := resolve_owned waiter client hsound
    refine ⟨hafter, fun client' => ?_⟩
    have h := hle client'
    have hbound := honce client'
    dsimp only
    omega
  case h_2 =>
    refine ⟨hsound, fun client' => ?_⟩
    have hbound := honce client'
    simp only [List.count_cons, beq_iff_eq]
    omega

/-- A call that ends with its work finished gives back the client it held. -/
theorem settle_owned {s s' : State} {k client : Nat} {own : Own} {work : Work} {started : Nat}
    (h : Owned s) (hk : s.calls[k]? = some ⟨own, work, started⟩) (hown : own.client? = some client)
    (hdone : ¬ (⟨own, work, started⟩ : Call).Unfinished) (hpool : s'.pool = s.pool)
    (hcalls : s'.calls = s.calls.set k ⟨.settled, work, started⟩) : Owned (s'.release client) := by
  refine release_owned (hcalls ▸ set_sound h.sound (.of_finished hdone)) fun client' => ?_
  have htotal := Pool.total_set (Call.holds client') hk ⟨.settled, work, started⟩
  have hheld : (⟨own, work, started⟩ : Call).holds client' = if client = client' then 1 else 0 := by
    simp [Call.holds, hown]
  have hfree : (⟨.settled, work, started⟩ : Call).holds client' = 0 := rfl
  have hbound := h.once client'
  rw [hpool, hcalls]
  omega

/-- A new call holds what it took from the pool. -/
theorem join_owned {s s' : State} {own : Own} (h : Owned s) (hcalls : s'.calls = s.calls ++ [⟨own, .idle, 0⟩])
    (htaken : ∀ client, s'.pool.count client + (⟨own, .idle, 0⟩ : Call).holds client = s.pool.count client) :
    Owned s' where
  sound call hmem := by
    rw [hcalls] at hmem
    obtain hmem | rfl := Pool.mem_concat hmem
    · exact h.sound call hmem
    · exact .of_finished fun hu => hu
  once client := by
    have hbound := h.once client
    have hclient := htaken client
    simp only [hcalls, Pool.total_append, Pool.total_cons, Pool.total_nil]
    omega

/-- **ONE STEP**: timely steps keep every client with one owner. -/
theorem step_owned (x : Event) (s : State) (hx : Timely x s) (h : Owned s) : Owned (step c x s) := by
  cases x with
  | withClient =>
      simp only [step]
      split
      case h_1 client pool hpool =>
        refine join_owned h rfl fun client' => ?_
        have hnew : (⟨.acquired client, .idle, 0⟩ : Call).holds client' = if client = client' then 1 else 0 := by
          simp [Call.holds, Own.client?]
        simp only [hpool, List.count_cons, beq_iff_eq, hnew]
      case h_2 hpool => exact join_owned h rfl fun client' => rfl
  -- a call that gives up was waiting, so it holds nothing
  | acquireTimeout k =>
      simp only [step]
      split
      case h_1 deadline work started hk =>
        have hidle := (h.sound _ (List.mem_of_getElem? hk)).running
        split
        · exact h.rewrite (q := ⟨.settled, work, started⟩) hk (.of_finished hidle) rfl rfl rfl
        · exact h
      case h_2 => exact h
  | enter k =>
      simp only [step]
      split
      case h_1 client work started hk =>
        have hidle := (h.sound _ (List.mem_of_getElem? hk)).running
        split
        · exact settle_owned h hk rfl hidle rfl rfl
        · refine h.rewrite (q := ⟨.racing client (s.now + c.timeoutMs), .primary client, started + 1⟩)
            hk ⟨fun _ => trivial, fun client' hwork => ?_⟩ rfl rfl rfl
          obtain rfl : client = client' := by simpa using hwork
          rfl
      case h_2 => exact h
  | workEnds k ok =>
      simp only [step]
      split
      case h_1 call hk =>
        have hrunning := (h.sound _ (List.mem_of_getElem? hk)).running
        split
        case h_1 client hwork =>
          have hrun := hrunning (by simp [Call.Unfinished, hwork])
          exact h.rewrite hk (workEnds_sound hrun 0 ok) (workEnds_client? call 0 ok) rfl rfl
        case h_2 i hwork =>
          have hrun := hrunning (by simp [Call.Unfinished, hwork])
          exact h.rewrite hk (workEnds_sound hrun (i + 1) ok) (workEnds_client? call (i + 1) ok) rfl rfl
        case h_3 => exact h
        case h_4 => exact h
      case h_2 => exact h
  -- the race is lost while the work still runs with the client
  | raceTimeout k =>
      simp only [step]
      split
      case h_1 client deadline work started hk =>
        have hsound := h.sound _ (List.mem_of_getElem? hk)
        split
        · exact h.rewrite (q := ⟨.raced client false, work, started⟩) hk
            ⟨fun _ => trivial, hsound.holds⟩ rfl rfl rfl
        · exact h
      case h_2 => exact h
  | settle k =>
      simp only [step]
      split
      case h_1 client ok work started hk =>
        exact settle_owned h hk rfl (hx _ client ok hk rfl) rfl rfl
      case h_2 => exact h
  | pass ms => exact ⟨h.sound, h.once⟩

/-! ## Calls that have settled -/

theorem set_settled {calls : List Call} {j k : Nat} {p q call : Call}
    (hk : calls[k]? = some call) (hsettled : call.own = .settled) (hj : calls[j]? = some p)
    (hp : p.own ≠ .settled) : (calls.set j q)[k]? = some call := by
  have hne : j ≠ k := by
    rintro rfl
    obtain rfl : p = call := Option.some.inj (hj.symm.trans hk)
    exact hp hsettled
  rwa [List.getElem?_set_ne hne]

theorem release_settled {s : State} {k : Nat} {call : Call} (hk : s.calls[k]? = some call)
    (hsettled : call.own = .settled) (client : Nat) : (s.release client).calls[k]? = some call := by
  unfold State.release
  split
  · unfold resolve
    split
    case h_1 hj => exact set_settled hk hsettled hj (by simp)
    case h_2 => exact hk
  · exact hk

/-- **SETTLED**: nothing touches a call that has settled with its work finished. -/
theorem step_settled (x : Event) {s : State} (h : Owned s) {k : Nat} {call : Call}
    (hk : s.calls[k]? = some call) (hsettled : call.own = .settled) :
    (step c x s).calls[k]? = some call := by
  -- no event of another call touches one that is over
  cases x with
  | withClient =>
      have hlt : k < s.calls.length := (List.getElem?_eq_some_iff.mp hk).1
      simp only [step]
      split
      · rwa [List.getElem?_append_left hlt]
      · rwa [List.getElem?_append_left hlt]
  | acquireTimeout j =>
      simp only [step]
      split
      case h_1 hj =>
        split
        · exact set_settled hk hsettled hj (by simp)
        · exact hk
      case h_2 => exact hk
  | enter j =>
      simp only [step]
      split
      case h_1 hj =>
        split
        · exact release_settled (set_settled hk hsettled hj (by simp)) hsettled _
        · exact set_settled hk hsettled hj (by simp)
      case h_2 => exact hk
  -- a call that is over has no work to end
  | workEnds j ok =>
      simp only [step]
      split
      case h_1 other hj =>
        have hrunning := (h.sound _ (List.mem_of_getElem? hj)).running
        split
        case h_1 client hwork =>
          have hrun := hrunning (by simp [Call.Unfinished, hwork])
          exact set_settled hk hsettled hj fun hother => by simp [hother, Own.Running] at hrun
        case h_2 i hwork =>
          have hrun := hrunning (by simp [Call.Unfinished, hwork])
          exact set_settled hk hsettled hj fun hother => by simp [hother, Own.Running] at hrun
        case h_3 => exact hk
        case h_4 => exact hk
      case h_2 => exact hk
  | raceTimeout j =>
      simp only [step]
      split
      case h_1 hj =>
        split
        · exact set_settled hk hsettled hj (by simp)
        · exact hk
      case h_2 => exact hk
  | settle j =>
      simp only [step]
      split
      case h_1 hj => exact release_settled (set_settled hk hsettled hj (by simp)) hsettled _
      case h_2 => exact hk
  | pass ms => exact hk

theorem start_owned : Owned (start c) where
  sound := fun call hmem => absurd hmem (by simp [start])
  once := by
    intro client
    have hnodup : (start c).pool.Nodup := List.nodup_reverse.mpr List.nodup_range
    have hcount := List.nodup_iff_count_le_one.mp hnodup client
    simpa [start] using hcount

end

/-! ## Every interleaving -/

/-- **ONE CALLER AT A TIME**: in a run where no call settles with its work
    unfinished, no two invocations ever share a client and no settled call
    starts another. -/
theorem withClient_exclusive (c : SorobanPoolConfig) (xs : List Event)
    (hrun : Along (step c) Timely xs (start c)) : Along (step c) (Promised c) xs (start c) := by
  refine along_of_invariant (I := Owned) (fun x s hx h => ?_) start_owned hrun
  have hnext : Owned (step c x s) := step_owned x s hx h
  exact ⟨⟨hnext.exclusive, fun k call hk hsettled => ⟨call, step_settled x h hk hsettled, rfl⟩⟩, hnext⟩

/-- One client, one fallback endpoint, and the breaker's defaults. -/
def single : SorobanPoolConfig := ⟨1, 5000, 1, 5000, CircuitBreaker.defaults⟩

theorem withClient_exclusive_pair :
    Along (step single) (Promised single)
      [.withClient, .withClient, .enter 0, .workEnds 0 false, .workEnds 0 true, .settle 0, .enter 1]
      (start single) := by
  refine withClient_exclusive single _ ⟨trivial, trivial, trivial, trivial, trivial, ?_, trivial, trivial⟩
  intro call client ok hk _
  have hcall : call = ⟨.raced 0 true, .done, 2⟩ := Option.some.inj (hk.symm.trans rfl)
  exact hcall ▸ id

/-- The breaker's timeout ends the race, the client goes to the next caller, and
    both functions use it. -/
theorem client_shared : ¬ ∀ (c : SorobanPoolConfig) (xs : List Event),
    Along (step c) (Promised c) xs (start c) := by
  intro h
  have hrun := h single (([.withClient, .enter 0, .pass 5000, .raceTimeout 0, .settle 0,
    .withClient] : List Event) ++ [Event.enter 1])
  have hlast := ((along_append (step single) (Promised single) _ _ (start single)).mp hrun).2
  exact absurd (hlast.1.1 0) (by decide)

end SorobanPool
