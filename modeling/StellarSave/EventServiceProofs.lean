import Mathlib
import StellarSave.PoolProofs
import StellarSave.TraceProofs

/-! # Event service — two channels, one cursor

    `EventService` (`EventService.ts`).  An event stream and polling rounds read
    one history; both end in the debounce buffer, which is dispatched to the
    listeners.  Only a round moves the cursor, so what the stream brought is
    read again after it drops; and a start that was stopped and started again
    while it waited for its seed connects twice. -/

namespace EventService

open Trace

inductive Channel where
  | stream
  | poll
  deriving DecidableEq, Repr

/-- An event that came in: its place in the history and the channel. -/
structure Arrival (ε : Type) where
  position : Nat
  channel : Channel
  event : ε
  deriving DecidableEq, Repr

/-- An entry of `listeners`; without a type it is for `'all'`. -/
structure Listener (τ : Type) where
  id : Nat
  type : Option τ
  deriving DecidableEq, Repr

/-- A callback that was called. -/
structure Delivery where
  listener : Nat
  position : Nat
  channel : Channel
  deriving DecidableEq, Repr

/-- An `EventSource`.  The server writes to it once it is registered; `inbox` are
    the messages on their way. -/
structure Source where
  isOpen : Bool
  registered : Bool
  inbox : List Nat
  deriving DecidableEq, Repr

/-- A call of `fetchEvents`. -/
inductive Fetch (ρ : Type) where
  | asked
  | answered (page : List (ρ × Nat))
  | handled

/-- A call of `poll`, with the cursor it was made with. -/
structure Round (ρ : Type) where
  cursor : Option Nat
  fetch : Fetch ρ

/-- The history and how much of it was broadcast, the browser's sources, the
    fields of the service, the calls of `startWatching` and `poll`, and what the
    listeners were given. -/
structure State (ρ ε τ : Type) where
  history : List ρ
  broadcast : Nat
  sources : List Source
  listeners : List (Listener τ)
  registered : Nat
  sseSource : Option Nat
  sseReconnectMs : Nat
  sseReconnectTimer : Bool
  sseConnected : Bool
  pollTimer : Bool
  latestCursor : Option Nat
  debounceBuffer : List (Arrival ε)
  debounceTimer : Bool
  isWatching : Bool
  starts : List (Fetch ρ)
  rounds : List (Round ρ)
  dispatched : List (Arrival ε)
  delivered : List Delivery

def start {ρ ε τ : Type} : State ρ ε τ :=
  ⟨[], 0, [], [], 0, none, 2000, false, false, false, none, [], false, false, [], [], [], []⟩

/-- What can happen, in any order: on the ledger and the server, in the calls of
    the application, on the network, and when a timer fires. -/
inductive Event (ρ τ : Type) where
  | emit (raw : ρ)
  | broadcast
  | on (type : Option τ)
  | off (id : Nat)
  | startWatching
  | stopWatching
  | seedAnswer (k : Nat) (ok : Bool)
  | seedResume (k : Nat)
  | connected (k : Nat)
  | message (k : Nat)
  | error (k : Nat) (fatal : Bool)
  | reconnect
  | pollTick
  | pollAnswer (k : Nat) (ok : Bool)
  | pollResume (k : Nat)
  | flush

section
variable {ρ ε τ : Type} [DecidableEq τ]

/-- What has come in so far. -/
def State.arrived (s : State ρ ε τ) : List (Arrival ε) := s.dispatched ++ s.debounceBuffer

/-! ## Listeners -/

def on (s : State ρ ε τ) (type : Option τ) : State ρ ε τ :=
  { s with listeners := s.listeners ++ [⟨s.registered, type⟩], registered := s.registered + 1 }

def off (s : State ρ ε τ) (id : Nat) : State ρ ε τ :=
  { s with listeners := s.listeners.filter fun listener => listener.id ≠ id }

def scheduleFlush (s : State ρ ε τ) (a : Arrival ε) : State ρ ε τ :=
  { s with debounceBuffer := s.debounceBuffer ++ [a], debounceTimer := true }

variable (typeOf : ε → τ)

/-- The callbacks an event is for. -/
def hears (listeners : List (Listener τ)) (a : Arrival ε) : List Delivery :=
  (listeners.filter fun listener => listener.type = none ∨ listener.type = some (typeOf a.event)).map
    fun listener => ⟨listener.id, a.position, a.channel⟩

def dispatchImmediate (s : State ρ ε τ) (a : Arrival ε) : State ρ ε τ :=
  { s with dispatched := s.dispatched ++ [a], delivered := s.delivered ++ hears typeOf s.listeners a }

def flushDebounce (s : State ρ ε τ) : State ρ ε τ :=
  { s.debounceBuffer.foldl (dispatchImmediate typeOf) { s with debounceBuffer := [] } with
    debounceTimer := false }

/-! ## Fetching -/

/-- What the server reads for `fetchEvents`: `limit` events after the cursor, or
    from the first one, each with its place. -/
def page (history : List ρ) (cursor : Option Nat) (limit : Nat) : List (ρ × Nat) :=
  (history.zipIdx.drop (cursor.elim 0 (· + 1))).take limit

/-- `nextCursor`. -/
def nextCursor (page : List (ρ × Nat)) : Option Nat := page.getLast?.map (·.2)

/-- A fetch that fails is an empty page. -/
def Fetch.answer (history : List ρ) (cursor : Option Nat) (limit : Nat) (ok : Bool) : Fetch ρ → Fetch ρ
  | .asked => .answered (if ok then page history cursor limit else [])
  | fetch => fetch

/-! ## The stream -/

def startPolling (s : State ρ ε τ) : State ρ ε τ := { s with pollTimer := true }

def stopPolling (s : State ρ ε τ) : State ρ ε τ := { s with pollTimer := false }

variable (available : Bool)

/-- `connectSSE`; `available` tells whether an `EventSource` can be made. -/
def connectSSE (s : State ρ ε τ) : State ρ ε τ :=
  if s.isWatching then
    if available then
      { s with sources := s.sources ++ [⟨true, false, []⟩], sseSource := some s.sources.length }
    else startPolling s
  else s

def Source.close (source : Source) : Source := { source with isOpen := false }

def disconnectSSE (s : State ρ ε τ) : State ρ ε τ :=
  { s with
    sources := s.sseSource.elim s.sources fun k => s.sources.modify k Source.close
    sseSource := none
    sseReconnectTimer := false
    sseConnected := false }

def scheduleSSEReconnect (s : State ρ ε τ) : State ρ ε τ :=
  if s.isWatching then { s with sseReconnectTimer := true } else s

/-- The `connected` message. -/
def onConnected (s : State ρ ε τ) (k : Nat) : State ρ ε τ :=
  stopPolling { s with
    sources := s.sources.modify k fun source => { source with registered := true }
    sseConnected := true
    sseReconnectMs := 2000 }

/-- `onerror`.  The browser gives the source up, or will connect it again. -/
def onError (s : State ρ ε τ) (k : Nat) (fatal : Bool) : State ρ ε τ :=
  let s := { s with sources := s.sources.modify k fun source => ⟨source.isOpen && !fatal, false, []⟩ }
  -- what is closed is the service's source, whichever one failed
  scheduleSSEReconnect (startPolling (disconnectSSE s))

variable (parseMessage : ρ → Option ε)

/-- `onmessage`: a message that is malformed or has no type is passed over. -/
def onMessage (s : State ρ ε τ) (k n : Nat) : State ρ ε τ :=
  let s := { s with sources := s.sources.modify k fun source => { source with inbox := source.inbox.tail } }
  match s.history[n]?.bind parseMessage with
  | none => s
  | some event => scheduleFlush s ⟨n, .stream, event⟩

/-- The server writes the next event to everyone registered. -/
def broadcastEvent (s : State ρ ε τ) : State ρ ε τ :=
  if s.broadcast < s.history.length then
    { s with
      sources := s.sources.map fun source =>
        if source.isOpen && source.registered then { source with inbox := source.inbox ++ [s.broadcast] }
        else source
      broadcast := s.broadcast + 1 }
  else s

/-! ## Watching and polling -/

def startWatching (s : State ρ ε τ) : State ρ ε τ :=
  if s.isWatching then s else { s with isWatching := true, starts := s.starts ++ [.asked] }

/-- `startWatching` after its seed. -/
def seeded (s : State ρ ε τ) (k : Nat) (page : List (ρ × Nat)) : State ρ ε τ :=
  -- whether this start is still the one that watches is not asked
  connectSSE available { s with starts := s.starts.set k .handled, latestCursor := nextCursor page }

def stopWatching (s : State ρ ε τ) : State ρ ε τ :=
  let s := stopPolling (disconnectSSE { s with isWatching := false })
  if s.debounceTimer then flushDebounce typeOf s else s

/-- The timer of `scheduleSSEReconnect`. -/
def reconnect (s : State ρ ε τ) : State ρ ε τ :=
  connectSSE available { s with sseReconnectTimer := false, sseReconnectMs := min (s.sseReconnectMs * 2) 60000 }

/-- `poll` up to its fetch. -/
def poll (s : State ρ ε τ) : State ρ ε τ :=
  if s.sseConnected then stopPolling s else { s with rounds := s.rounds ++ [⟨s.latestCursor, .asked⟩] }

variable (parseRawEvent : ρ → Option ε)

/-- The events of a page. -/
def parsed (page : List (ρ × Nat)) : List (Arrival ε) :=
  page.filterMap fun raw => (parseRawEvent raw.1).map fun event => ⟨raw.2, .poll, event⟩

/-- `poll` after its fetch. -/
def polled (s : State ρ ε τ) (k : Nat) (round : Round ρ) (page : List (ρ × Nat)) : State ρ ε τ :=
  let s := { s with rounds := s.rounds.set k { round with fetch := .handled } }
  let s := (parsed parseRawEvent page).foldl scheduleFlush s
  { s with latestCursor := (nextCursor page).or s.latestCursor }

def step : Event ρ τ → State ρ ε τ → State ρ ε τ
  | .emit raw, s => { s with history := s.history ++ [raw] }
  | .broadcast, s => broadcastEvent s
  | .on type, s => on s type
  | .off id, s => off s id
  | .startWatching, s => startWatching s
  | .stopWatching, s => stopWatching typeOf s
  | .seedAnswer k ok, s => { s with starts := s.starts.modify k (Fetch.answer s.history none 1 ok) }
  | .seedResume k, s =>
      match s.starts[k]? with
      | some (.answered page) => seeded available s k page
      | _ => s
  | .connected k, s =>
      match s.sources[k]? with
      | some ⟨true, _, _⟩ => onConnected s k
      | _ => s
  | .message k, s =>
      match s.sources[k]? with
      | some ⟨true, _, n :: _⟩ => onMessage parseMessage s k n
      | _ => s
  | .error k fatal, s =>
      match s.sources[k]? with
      | some ⟨true, _, _⟩ => onError s k fatal
      | _ => s
  | .reconnect, s => if s.sseReconnectTimer then reconnect available s else s
  | .pollTick, s => if s.pollTimer then poll s else s
  | .pollAnswer k ok, s =>
      { s with rounds := s.rounds.modify k fun round =>
          { round with fetch := round.fetch.answer s.history round.cursor 50 ok } }
  | .pollResume k, s =>
      match s.rounds[k]? with
      | some ⟨cursor, .answered page⟩ => polled parseRawEvent s k ⟨cursor, .answered page⟩ page
      | _ => s
  | .flush, s => if s.debounceTimer then flushDebounce typeOf s else s

/-! ## What the service promises -/

/-- No listener is given an event twice, by either channel; what came in is
    dispatched or about to be; and at most one source is open. -/
structure Once (s : State ρ ε τ) : Prop where
  delivered : (s.delivered.map fun d => (d.listener, d.position)).Nodup
  pending : s.debounceBuffer ≠ [] → s.debounceTimer = true
  oneSource : ∀ (k k' : Nat) (source source' : Source), s.sources[k]? = some source →
    s.sources[k']? = some source' → source.isOpen = true → source'.isOpen = true → k = k'

/-- A start that is superseded does not resume while watching is on. -/
def NotSuperseded (x : Event ρ τ) (s : State ρ ε τ) : Prop :=
  ∀ k page, x = .seedResume k → s.starts[k]? = some (.answered page) → s.isWatching = true →
    k + 1 = s.starts.length

/-- A round that returns has read past nothing that came in before, or not as far. -/
def NotBehind (x : Event ρ τ) (s : State ρ ε τ) : Prop :=
  ∀ k cursor page, x = .pollResume k → s.rounds[k]? = some ⟨cursor, .answered page⟩ →
    ∀ raw ∈ page, ∀ a ∈ s.arrived, a.position ≠ raw.2

/-- The stream brings nothing that a round has read. -/
def NotAhead (x : Event ρ τ) (s : State ρ ε τ) : Prop :=
  ∀ k n inbox source, x = .message k → s.sources[k]? = some source → source.inbox = n :: inbox →
    ∀ a ∈ s.arrived, a.channel = .poll → a.position ≠ n

def HandedOver (x : Event ρ τ) (s : State ρ ε τ) : Prop :=
  NotSuperseded x s ∧ NotBehind x s ∧ NotAhead x s

end

/-! ## One source -/

section
variable {ρ : Type}

/-- An open source is the service's own; it reconnects and awaits its seed
    without one, and watches with one. -/
structure Attached (sources : List Source) (sseSource : Option Nat) (timer isWatching : Bool)
    (starts : List (Fetch ρ)) : Prop where
  owned : ∀ (k : Nat) (source : Source), sources[k]? = some source → source.isOpen = true → sseSource = some k
  idle : timer = true → sseSource = none ∧ isWatching = true
  waiting : isWatching = true → ∀ (k : Nat) (fetch : Fetch ρ), k + 1 = starts.length →
    starts[k]? = some fetch → fetch ≠ .handled → sseSource = none ∧ timer = false
  stopped : isWatching = false → sseSource = none ∧ timer = false

variable {sources : List Source} {sseSource : Option Nat} {timer isWatching : Bool} {starts : List (Fetch ρ)}

/-- At most one source is open at any time. -/
theorem Attached.oneSource (h : Attached sources sseSource timer isWatching starts) (k k' : Nat)
    (source source' : Source) (hk : sources[k]? = some source) (hk' : sources[k']? = some source')
    (hopen : source.isOpen = true) (hopen' : source'.isOpen = true) : k = k' :=
  Option.some.inj ((h.owned k source hk hopen).symm.trans (h.owned k' source' hk' hopen'))

/-- What the browser does to a source that it does not open. -/
theorem Attached.modify {f : Source → Source} (h : Attached sources sseSource timer isWatching starts) (k : Nat)
    (hf : ∀ source, (f source).isOpen = true → source.isOpen = true) :
    Attached (sources.modify k f) sseSource timer isWatching starts := by
  refine { h with owned := fun j source' hj hopen => ?_ }
  rw [List.getElem?_modify] at hj
  obtain ⟨source, hsource, rfl⟩ := Option.map_eq_some_iff.mp hj
  refine h.owned j source hsource ?_
  split at hopen
  · exact hf source hopen
  · exact hopen

/-- After `disconnectSSE` no source is open. -/
theorem Attached.closed (h : Attached sources sseSource timer isWatching starts) (k : Nat) (source' : Source)
    (hk : (sseSource.elim sources fun j => sources.modify j Source.close)[k]? = some source') :
    source'.isOpen = false := by
  by_contra hopen
  rw [Bool.not_eq_false] at hopen
  cases hsse : sseSource with
  | none =>
      rw [hsse] at hk
      have howned := h.owned k source' hk hopen
      rw [hsse] at howned
      cases howned
  | some j =>
      rw [hsse, Option.elim_some, List.getElem?_modify] at hk
      obtain ⟨source, hsource, rfl⟩ := Option.map_eq_some_iff.mp hk
      by_cases hj : j = k
      · rw [if_pos hj] at hopen
        cases hopen
      · rw [if_neg hj] at hopen
        have howned := h.owned k source hsource hopen
        rw [hsse] at howned
        exact hj (Option.some.inj howned)

/-- Without an open source, and none on its way. -/
theorem attached_idle (hclosed : ∀ (k : Nat) (source : Source), sources[k]? = some source → source.isOpen = false)
    (hstarts : timer = true → isWatching = true ∧ ∀ (k : Nat) (fetch : Fetch ρ), k + 1 = starts.length →
      starts[k]? = some fetch → fetch = .handled) :
    Attached sources none timer isWatching starts where
  owned k source hk hopen := by
    rw [hclosed k source hk] at hopen
    cases hopen
  idle ht := ⟨rfl, (hstarts ht).1⟩
  waiting _ k fetch hk hfetch hne := by
    refine ⟨rfl, Bool.eq_false_iff.mpr fun ht => hne ?_⟩
    exact (hstarts ht).2 k fetch hk hfetch
  stopped hw := by
    refine ⟨rfl, Bool.eq_false_iff.mpr fun ht => ?_⟩
    rw [(hstarts ht).1] at hw
    cases hw

/-- `connectSSE`, when no source is there and no start is waiting. -/
theorem Attached.connect (h : Attached sources none timer true starts)
    (hstarts : ∀ (k : Nat) (fetch : Fetch ρ), k + 1 = starts.length → starts[k]? = some fetch → fetch = .handled) :
    Attached (sources ++ [⟨true, false, []⟩]) (some sources.length) false true starts where
  owned k source hk hopen := by
    rw [List.getElem?_append] at hk
    split at hk
    · cases h.owned k source hk hopen
    · rw [List.getElem?_singleton] at hk
      split at hk
      · have hlen : k = sources.length := by omega
        rw [hlen]
      · cases hk
  idle ht := by cases ht
  waiting _ k fetch hk hfetch hne := absurd (hstarts k fetch hk hfetch) hne
  stopped hw := by cases hw

end

/-! ## What the stream brings -/

section
variable {ε : Type}

/-- What an open source is to bring is in order, was broadcast, and comes after
    everything the stream brought. -/
structure Streamed (sources : List Source) (broadcast : Nat) (arrived : List (Arrival ε)) : Prop where
  ordered : ∀ (k : Nat) (source : Source), sources[k]? = some source → source.isOpen = true →
    source.inbox.Pairwise (· < ·)
  sent : ∀ (k : Nat) (source : Source), sources[k]? = some source → source.isOpen = true →
    ∀ n ∈ source.inbox, n < broadcast
  after : ∀ (k : Nat) (source : Source), sources[k]? = some source → source.isOpen = true →
    ∀ n ∈ source.inbox, ∀ a ∈ arrived, a.channel = .stream → a.position < n
  brought : ∀ a ∈ arrived, a.channel = .stream → a.position < broadcast

variable {sources sources' : List Source} {broadcast : Nat} {arrived : List (Arrival ε)}

/-- Other sources, with some of the messages on their way or none. -/
theorem Streamed.of_sources (h : Streamed sources broadcast arrived)
    (hsources : ∀ (k : Nat) (source' : Source), sources'[k]? = some source' → source'.isOpen = true →
      source'.inbox = [] ∨ ∃ source, sources[k]? = some source ∧ source.isOpen = true ∧
        source'.inbox.Sublist source.inbox) : Streamed sources' broadcast arrived where
  ordered k source' hk hopen := by
    obtain hnil | ⟨source, hsource, hwas, hsub⟩ := hsources k source' hk hopen
    · rw [hnil]
      exact List.Pairwise.nil
    · exact (h.ordered k source hsource hwas).sublist hsub
  sent k source' hk hopen n hn := by
    obtain hnil | ⟨source, hsource, hwas, hsub⟩ := hsources k source' hk hopen
    · rw [hnil] at hn
      cases hn
    · exact h.sent k source hsource hwas n (hsub.mem hn)
  after k source' hk hopen n hn := by
    obtain hnil | ⟨source, hsource, hwas, hsub⟩ := hsources k source' hk hopen
    · rw [hnil] at hn
      cases hn
    · exact h.after k source hsource hwas n (hsub.mem hn)
  brought := h.brought

/-- An update that opens no source and gives it no message. -/
theorem Streamed.modify {f : Source → Source} (h : Streamed sources broadcast arrived) (k : Nat)
    (hf : ∀ source, (f source).isOpen = true → source.isOpen = true ∧ (f source).inbox.Sublist source.inbox) :
    Streamed (sources.modify k f) broadcast arrived := by
  refine h.of_sources fun j source' hj hopen => ?_
  rw [List.getElem?_modify] at hj
  obtain ⟨source, hsource, rfl⟩ := Option.map_eq_some_iff.mp hj
  split at hopen
  · obtain ⟨hwas, hsub⟩ := hf source hopen
    exact Or.inr ⟨source, hsource, hwas, by rwa [if_pos ‹_›]⟩
  · exact Or.inr ⟨source, hsource, hopen, by rw [if_neg ‹_›]⟩

/-- A new source has nothing on its way. -/
theorem Streamed.connect (h : Streamed sources broadcast arrived) :
    Streamed (sources ++ [⟨true, false, []⟩]) broadcast arrived := by
  refine h.of_sources fun k source hk hopen => ?_
  rw [List.getElem?_append] at hk
  split at hk
  · exact Or.inr ⟨source, hk, hopen, List.Sublist.refl _⟩
  · rw [List.getElem?_singleton] at hk
    split at hk
    · cases hk
      exact Or.inl rfl
    · cases hk

/-- What polling brings is none of the stream's. -/
theorem Streamed.poll {more : List (Arrival ε)} (h : Streamed sources broadcast arrived)
    (hmore : ∀ a ∈ more, a.channel = .poll) : Streamed sources broadcast (arrived ++ more) := by
  have hstream : ∀ a ∈ arrived ++ more, a.channel = .stream → a ∈ arrived := by
    intro a ha hchannel
    rcases List.mem_append.mp ha with ha | ha
    · exact ha
    · rw [hmore a ha] at hchannel
      cases hchannel
  refine { h with after := fun k source hk hopen n hn a ha hchannel => ?_, brought := fun a ha hchannel => ?_ }
  · exact h.after k source hk hopen n hn a (hstream a ha hchannel) hchannel
  · exact h.brought a (hstream a ha hchannel) hchannel

/-- The next event is written behind what is on its way. -/
theorem Streamed.write (h : Streamed sources broadcast arrived) :
    Streamed (sources.map fun source =>
        if source.isOpen && source.registered then { source with inbox := source.inbox ++ [broadcast] } else source)
      (broadcast + 1) arrived := by
  -- every open stream gets the event, and was open before
  have hold : ∀ (k : Nat) (source' : Source), (sources.map fun source =>
      if source.isOpen && source.registered then { source with inbox := source.inbox ++ [broadcast] } else source)[k]? =
        some source' → source'.isOpen = true → ∃ source, sources[k]? = some source ∧ source.isOpen = true ∧
          (source'.inbox = source.inbox ∨ source'.inbox = source.inbox ++ [broadcast]) := by
    intro k source' hk hopen
    rw [List.getElem?_map] at hk
    obtain ⟨source, hsource, rfl⟩ := Option.map_eq_some_iff.mp hk
    split at hopen
    · exact ⟨source, hsource, hopen, Or.inr (by rw [if_pos ‹_›])⟩
    · exact ⟨source, hsource, hopen, Or.inl (by rw [if_neg ‹_›])⟩
  -- the new event is the newest of all
  refine ⟨fun k source' hk hopen => ?_, fun k source' hk hopen n hn => ?_, fun k source' hk hopen n hn a ha hchannel => ?_,
    fun a ha hchannel => Nat.lt_succ_of_lt (h.brought a ha hchannel)⟩
  · obtain ⟨source, hsource, hwas, heq | heq⟩ := hold k source' hk hopen
    · rw [heq]
      exact h.ordered k source hsource hwas
    · rw [heq, List.pairwise_append]
      refine ⟨h.ordered k source hsource hwas, List.pairwise_singleton _ _, fun n hn m hm => ?_⟩
      rw [List.mem_singleton.mp hm]
      exact h.sent k source hsource hwas n hn
  · obtain ⟨source, hsource, hwas, heq | heq⟩ := hold k source' hk hopen
    · exact Nat.lt_succ_of_lt (h.sent k source hsource hwas n (heq ▸ hn))
    · rw [heq] at hn
      obtain hn | rfl := Pool.mem_concat hn
      · exact Nat.lt_succ_of_lt (h.sent k source hsource hwas n hn)
      · exact Nat.lt_succ_self _
  · obtain ⟨source, hsource, hwas, heq | heq⟩ := hold k source' hk hopen
    · exact h.after k source hsource hwas n (heq ▸ hn) a ha hchannel
    · rw [heq] at hn
      obtain hn | rfl := Pool.mem_concat hn
      · exact h.after k source hsource hwas n hn a ha hchannel
      · exact h.brought a ha hchannel

/-- **A MESSAGE**: where one source is open, the next of its messages is later
    than all the stream brought, and the others later still. -/
theorem Streamed.message {k n : Nat} {inbox : List Nat} {source : Source} (h : Streamed sources broadcast arrived)
    (hk : sources[k]? = some source) (hopen : source.isOpen = true) (hinbox : source.inbox = n :: inbox)
    (hone : ∀ (j : Nat) (other : Source), sources[j]? = some other → other.isOpen = true → j = k) (event : ε) :
    Streamed (sources.modify k fun source => { source with inbox := source.inbox.tail }) broadcast
      (arrived ++ [⟨n, .stream, event⟩]) := by
  have hall : ∀ (j : Nat) (source' : Source),
      (sources.modify k fun source => { source with inbox := source.inbox.tail })[j]? = some source' →
        source'.isOpen = true → source'.inbox = inbox := by
    intro j source' hj hopen'
    rw [List.getElem?_modify] at hj
    obtain ⟨other, hother, rfl⟩ := Option.map_eq_some_iff.mp hj
    -- any other source would be a second open one
    have hjk : j = k := by
      refine hone j other hother ?_
      split at hopen' <;> exact hopen'
    subst hjk
    rw [hk] at hother
    cases hother
    rw [if_pos rfl]
    show source.inbox.tail = inbox
    rw [hinbox, List.tail_cons]
  have hordered := h.ordered k source hk hopen
  have hsent := h.sent k source hk hopen
  have hafter := h.after k source hk hopen
  rw [hinbox] at hordered hsent hafter
  obtain ⟨hlater, hrest⟩ := List.pairwise_cons.mp hordered
  have hnew : ∀ a ∈ arrived ++ [⟨n, .stream, event⟩], a.channel = .stream → a.position ≤ n := by
    intro a ha hchannel
    obtain ha | rfl := Pool.mem_concat ha
    · exact (hafter n List.mem_cons_self a ha hchannel).le
    · exact Nat.le_refl _
  refine ⟨fun j source' hj hopen' => ?_, fun j source' hj hopen' m hm => ?_, fun j source' hj hopen' m hm a ha hchannel => ?_,
    fun a ha hchannel => ?_⟩
  · rw [hall j source' hj hopen']
    exact hrest
  · rw [hall j source' hj hopen'] at hm
    exact hsent m (List.mem_cons_of_mem n hm)
  · rw [hall j source' hj hopen'] at hm
    exact lt_of_le_of_lt (hnew a ha hchannel) (hlater m hm)
  · exact lt_of_le_of_lt (hnew a ha hchannel) (hsent n List.mem_cons_self)

end

/-! ## What the listeners are given -/

section
variable {ρ ε τ : Type}

/-- Listeners are told apart by their numbers, and were given events that were
    dispatched, each once. -/
structure Heard (listeners : List (Listener τ)) (registered : Nat) (dispatched : List (Arrival ε))
    (delivered : List Delivery) : Prop where
  ids : (listeners.map Listener.id).Nodup
  fresh : ∀ listener ∈ listeners, listener.id < registered
  known : ∀ d ∈ delivered, ∃ a ∈ dispatched, a.position = d.position
  nodup : (delivered.map fun d => (d.listener, d.position)).Nodup

variable {listeners : List (Listener τ)} {registered : Nat} {dispatched : List (Arrival ε)} {delivered : List Delivery}

/-- A new listener has heard nothing yet. -/
theorem Heard.on (h : Heard listeners registered dispatched delivered) (type : Option τ) :
    Heard (listeners ++ [⟨registered, type⟩]) (registered + 1) dispatched delivered := by
  refine { h with ids := ?_, fresh := fun listener hlistener => ?_ }
  · rw [List.map_append, List.nodup_append]
    refine ⟨h.ids, List.nodup_singleton _, fun id hid id' hid' => ?_⟩
    obtain ⟨listener, hlistener, rfl⟩ := List.mem_map.mp hid
    rw [List.mem_singleton.mp hid']
    exact (h.fresh listener hlistener).ne
  · obtain hold | rfl := Pool.mem_concat hlistener
    · exact Nat.lt_succ_of_lt (h.fresh listener hold)
    · exact Nat.lt_succ_self _

/-- A listener that leaves hears nothing more, and what it heard it heard once. -/
theorem Heard.off (h : Heard listeners registered dispatched delivered) (id : Nat) :
    Heard (listeners.filter fun listener => listener.id ≠ id) registered dispatched delivered :=
  { h with
    ids := h.ids.sublist (List.filter_sublist.map Listener.id)
    fresh := fun listener hlistener => h.fresh listener (List.mem_of_mem_filter hlistener) }

/-- The loop of `poll`. -/
theorem foldl_schedule (batch : List (Arrival ε)) (s : State ρ ε τ) :
    batch.foldl scheduleFlush s =
      { s with
        debounceBuffer := s.debounceBuffer ++ batch
        debounceTimer := s.debounceTimer || !batch.isEmpty } := by
  induction batch generalizing s with
  | nil => simp
  | cons a batch ih => simp [ih, scheduleFlush]

/-- No page has a position twice. -/
theorem page_nodup (history : List ρ) (cursor : Option Nat) (limit : Nat) :
    ((page history cursor limit).map Prod.snd).Nodup := by
  have hall : (history.zipIdx.map Prod.snd).Nodup := by
    rw [List.zipIdx_map_snd]
    exact List.nodup_range' 1
  exact hall.sublist (((List.take_sublist _ _).trans (List.drop_sublist _ _)).map Prod.snd)

variable [DecidableEq τ] {typeOf : ε → τ}

/-- A delivery is of the position of its arrival. -/
theorem mem_hears {a : Arrival ε} {d : Delivery} (h : d ∈ hears typeOf listeners a) : d.position = a.position := by
  obtain ⟨listener, -, rfl⟩ := List.mem_map.mp h
  rfl

/-- No listener is called twice for one dispatch. -/
theorem hears_nodup (hids : (listeners.map Listener.id).Nodup) (a : Arrival ε) :
    ((hears typeOf listeners a).map fun d => (d.listener, d.position)).Nodup := by
  rw [hears, List.map_map]
  refine List.Nodup.map_on ?_ (hids.of_map.filter _)
  intro listener hlistener listener' hlistener' heq
  have hid : listener.id = listener'.id := (Prod.mk.inj heq).1
  exact List.inj_on_of_nodup_map hids (List.mem_of_mem_filter hlistener) (List.mem_of_mem_filter hlistener') hid

/-- An event not dispatched before. -/
theorem Heard.dispatch (h : Heard listeners registered dispatched delivered) {a : Arrival ε}
    (hnew : ∀ b ∈ dispatched, b.position ≠ a.position) :
    Heard listeners registered (dispatched ++ [a]) (delivered ++ hears typeOf listeners a) := by
  refine { h with known := fun d hd => ?_, nodup := ?_ }
  · rcases List.mem_append.mp hd with hd | hd
    · obtain ⟨b, hb, hposition⟩ := h.known d hd
      exact ⟨b, List.mem_append_left [a] hb, hposition⟩
    · exact ⟨a, List.mem_append_right dispatched List.mem_cons_self, (mem_hears hd).symm⟩
  · rw [List.map_append, List.nodup_append]
    refine ⟨h.nodup, hears_nodup h.ids a, fun x hx y hy hxy => ?_⟩
    obtain ⟨d, hd, rfl⟩ := List.mem_map.mp hx
    obtain ⟨d', hd', rfl⟩ := List.mem_map.mp hy
    obtain ⟨b, hb, hposition⟩ := h.known d hd
    refine hnew b hb ?_
    rw [hposition, (Prod.mk.inj hxy).2, mem_hears hd']

/-- A batch with no position in it that was dispatched before is heard once by everybody. -/
theorem Heard.dispatchAll (h : Heard listeners registered dispatched delivered) (batch : List (Arrival ε))
    (hbatch : ((dispatched ++ batch).map Arrival.position).Nodup) :
    Heard listeners registered (dispatched ++ batch) (delivered ++ batch.flatMap (hears typeOf listeners)) := by
  induction batch generalizing dispatched delivered with
  | nil => simpa using h
  | cons a batch ih =>
      have hone : Heard listeners registered (dispatched ++ [a]) (delivered ++ hears typeOf listeners a) := by
        refine h.dispatch fun b hb heq => ?_
        rw [List.map_append, List.nodup_append] at hbatch
        exact hbatch.2.2 b.position (List.mem_map_of_mem hb) a.position List.mem_cons_self heq
      rw [List.append_cons] at hbatch
      have hall := ih hone hbatch
      rwa [List.append_assoc, List.append_assoc] at hall

/-- The loop of `flushDebounce`. -/
theorem foldl_dispatch (batch : List (Arrival ε)) (s : State ρ ε τ) :
    batch.foldl (dispatchImmediate typeOf) s =
      { s with
        dispatched := s.dispatched ++ batch
        delivered := s.delivered ++ batch.flatMap (hears typeOf s.listeners) } := by
  induction batch generalizing s with
  | nil => simp
  | cons a batch ih => simp [ih, dispatchImmediate]

/-- A flush dispatches the whole buffer, in its order. -/
theorem flushDebounce_eq (s : State ρ ε τ) :
    flushDebounce typeOf s =
      { s with
        debounceBuffer := []
        debounceTimer := false
        dispatched := s.dispatched ++ s.debounceBuffer
        delivered := s.delivered ++ s.debounceBuffer.flatMap (hears typeOf s.listeners) } := by
  rw [flushDebounce, foldl_dispatch]

/-- A flush calls every listener that hears an event of the buffer. -/
theorem flush_delivers {s : State ρ ε τ} {a : Arrival ε} {listener : Listener τ} (ha : a ∈ s.debounceBuffer)
    (hlistener : listener ∈ s.listeners) (hears : listener.type = none ∨ listener.type = some (typeOf a.event)) :
    ⟨listener.id, a.position, a.channel⟩ ∈ (flushDebounce typeOf s).delivered := by
  rw [flushDebounce_eq]
  refine List.mem_append_right s.delivered (List.mem_flatMap.mpr ⟨a, ha, List.mem_map.mpr ⟨listener, ?_, rfl⟩⟩)
  exact List.mem_filter.mpr ⟨hlistener, decide_eq_true hears⟩

end

/-! ## What every step keeps -/

section
variable {ρ ε τ : Type}

structure Sound (s : State ρ ε τ) : Prop where
  attached : Attached s.sources s.sseSource s.sseReconnectTimer s.isWatching s.starts
  streamed : Streamed s.sources s.broadcast s.arrived
  distinct : (s.arrived.map Arrival.position).Nodup
  heard : Heard s.listeners s.registered s.dispatched s.delivered
  pages : ∀ round ∈ s.rounds, ∀ page, round.fetch = .answered page → (page.map Prod.snd).Nodup
  pending : s.debounceBuffer ≠ [] → s.debounceTimer = true

variable {s : State ρ ε τ} {available : Bool}

/-- In a sound state nobody has heard an event twice. -/
theorem Sound.once (h : Sound s) : Once s := ⟨h.heard.nodup, h.pending, h.attached.oneSource⟩

/-- Before anything arrives there is nothing to hear. -/
theorem start_sound : Sound (start : State ρ ε τ) where
  attached := attached_idle (fun _ _ hk => (by cases hk)) nofun
  streamed := ⟨fun _ _ hk => (by cases hk), fun _ _ hk => (by cases hk), fun _ _ hk => (by cases hk), nofun⟩
  distinct := List.nodup_nil
  heard := ⟨List.nodup_nil, nofun, nofun, List.nodup_nil⟩
  pages := nofun
  pending := fun h => absurd rfl h

/-! ### The stream -/

/-- The server's next event is under way and not here yet. -/
theorem Sound.broadcastEvent (h : Sound s) : Sound (broadcastEvent s) := by
  unfold EventService.broadcastEvent
  split
  · refine { h with attached := { h.attached with owned := fun k source' hk hopen => ?_ }, streamed := h.streamed.write }
    rw [List.getElem?_map] at hk
    obtain ⟨source, hsource, rfl⟩ := Option.map_eq_some_iff.mp hk
    refine h.attached.owned k source hsource ?_
    split at hopen <;> exact hopen
  · exact h

/-- A stream that opens takes the place of the poll. -/
theorem Sound.onConnected (h : Sound s) (k : Nat) : Sound (onConnected s k) :=
  { h with
    attached := h.attached.modify k fun _ hopen => hopen
    streamed := h.streamed.modify k fun _ hopen => ⟨hopen, List.Sublist.refl _⟩ }

/-- Without an open source nothing is on its way. -/
theorem Streamed.of_closed {sources sources' : List Source} {broadcast : Nat} {arrived : List (Arrival ε)}
    (h : Streamed sources broadcast arrived)
    (hclosed : ∀ (k : Nat) (source : Source), sources'[k]? = some source → source.isOpen = false) :
    Streamed sources' broadcast arrived :=
  h.of_sources fun k source hk hopen => by
    rw [hclosed k source hk] at hopen
    cases hopen

/-- An open source means that the last start is over. -/
theorem Attached.started {sources : List Source} {sseSource : Option Nat} {timer : Bool} {starts : List (Fetch ρ)}
    (h : Attached sources sseSource timer true starts) (hopen : sseSource ≠ none ∨ timer = true) (k : Nat)
    (fetch : Fetch ρ) (hk : k + 1 = starts.length) (hfetch : starts[k]? = some fetch) : fetch = .handled := by
  by_contra hne
  obtain ⟨hnone, hidle⟩ := h.waiting rfl k fetch hk hfetch hne
  rcases hopen with hopen | hopen
  · exact hopen hnone
  · rw [hidle] at hopen
    cases hopen

/-- A stream that fails leaves its place to the poll, and to a later reconnect. -/
theorem Sound.onError (h : Sound s) {k : Nat} {source : Source} (hk : s.sources[k]? = some source)
    (hopen : source.isOpen = true) (fatal : Bool) : Sound (onError s k fatal) := by
  have howned := h.attached.owned k source hk hopen
  have hattached := h.attached.modify (f := fun source => ⟨source.isOpen && !fatal, false, []⟩) k
    fun source hopen => (Bool.and_eq_true_iff.mp hopen).1
  have hclosed := hattached.closed
  have hstreamed := h.streamed.of_closed hclosed
  simp only [EventService.onError, scheduleSSEReconnect]
  split
  · rename_i hw
    have hwatching : s.isWatching = true := hw
    refine { h with attached := attached_idle hclosed fun _ => ⟨hw, ?_⟩, streamed := hstreamed }
    have hstarted := h.attached
    rw [hwatching] at hstarted
    exact hstarted.started (Or.inl (by simp [howned]))
  · exact { h with attached := attached_idle hclosed nofun, streamed := hstreamed }

/-- `connectSSE` with no source, no timer and no start in the way. -/
theorem Sound.connectSSE (h : Sound s) (hnone : s.isWatching = true → s.sseSource = none ∧ s.sseReconnectTimer = false)
    (hstarts : s.isWatching = true → ∀ (k : Nat) (fetch : Fetch ρ), k + 1 = s.starts.length →
      s.starts[k]? = some fetch → fetch = .handled) : Sound (connectSSE available s) := by
  unfold EventService.connectSSE
  split
  · rename_i hw
    obtain ⟨hsse, htimer⟩ := hnone hw
    split
    · have hattached := h.attached
      rw [hsse, hw] at hattached
      have hconnected := hattached.connect (hstarts hw)
      refine { h with attached := ?_, streamed := h.streamed.connect }
      show Attached _ _ s.sseReconnectTimer s.isWatching s.starts
      rw [htimer, hw]
      exact hconnected
    · exact { h with }
  · exact h

/-- A reconnect opens a source where none is open. -/
theorem Sound.reconnect (h : Sound s) (htimer : s.sseReconnectTimer = true) : Sound (reconnect available s) := by
  obtain ⟨hsse, hw⟩ := h.attached.idle htimer
  have hattached := h.attached
  rw [hw] at hattached
  have hstarted := hattached.started (Or.inr htimer)
  -- the timer that fires is spent before it connects
  have hidle : Sound { s with sseReconnectTimer := false, sseReconnectMs := min (s.sseReconnectMs * 2) 60000 } := by
    refine { h with attached := ⟨h.attached.owned, nofun, ?_, ?_⟩ }
    · exact fun _ _ _ _ _ _ => ⟨hsse, rfl⟩
    · exact fun _ => ⟨hsse, rfl⟩
  exact hidle.connectSSE (fun _ => ⟨hsse, rfl⟩) fun _ => hstarted

/-! ### Starts -/

/-- To watch begins with a fetch of what there is. -/
theorem Sound.startWatching (h : Sound s) : Sound (startWatching s) := by
  unfold EventService.startWatching
  split
  · exact h
  · rename_i hw
    obtain ⟨hsse, htimer⟩ := h.attached.stopped (Bool.eq_false_iff.mpr hw)
    refine { h with attached := ⟨h.attached.owned, ?_, ?_, nofun⟩ }
    · exact fun _ => ⟨hsse, rfl⟩
    · exact fun _ _ _ _ _ _ => ⟨hsse, htimer⟩

/-- The answer of that fetch is of positions the server had then. -/
theorem Sound.seedAnswer (h : Sound s) (k : Nat) (ok : Bool) :
    Sound { s with starts := s.starts.modify k (Fetch.answer s.history none 1 ok) } := by
  refine { h with attached := { h.attached with waiting := fun hw j fetch' hj hfetch' hne => ?_ } }
  rw [List.length_modify] at hj
  rw [List.getElem?_modify] at hfetch'
  obtain ⟨fetch, hfetch, rfl⟩ := Option.map_eq_some_iff.mp hfetch'
  refine h.attached.waiting hw j fetch hj hfetch fun heq => hne ?_
  subst heq
  split <;> rfl

/-- **A SEED**: the last start resumes, or watching has stopped. -/
theorem Sound.seeded (h : Sound s) {k : Nat} {page : List (ρ × Nat)} (hk : s.starts[k]? = some (.answered page))
    (hlast : s.isWatching = true → k + 1 = s.starts.length) : Sound (seeded available s k page) := by
  have hset : ∀ (j : Nat) (fetch : Fetch ρ), j + 1 = (s.starts.set k .handled).length →
      (s.starts.set k .handled)[j]? = some fetch → s.isWatching = true → fetch = .handled := by
    intro j fetch hj hfetch hw
    have hjk : k = j := by
      have hlen := hlast hw
      rw [List.length_set] at hj
      omega
    rw [hjk, List.getElem?_set, if_pos rfl] at hfetch
    split at hfetch
    · exact (Option.some.inj hfetch).symm
    · cases hfetch
  have hhandled : Sound { s with starts := s.starts.set k .handled, latestCursor := nextCursor page } := by
    refine { h with attached := { h.attached with waiting := fun hw j fetch hj hfetch hne => ?_ } }
    exact absurd (hset j fetch hj hfetch hw) hne
  refine hhandled.connectSSE (fun hw => ?_) fun hw j fetch hj hfetch => hset j fetch hj hfetch hw
  exact h.attached.waiting hw k (.answered page) (hlast hw) hk nofun

/-! ### The buffer -/

/-- More events in the buffer, none of which came in before. -/
theorem Sound.schedule (h : Sound s) {batch : List (Arrival ε)} {sources : List Source} {rounds : List (Round ρ)}
    {latestCursor : Option Nat} {timer : Bool}
    (hattached : Attached sources s.sseSource s.sseReconnectTimer s.isWatching s.starts)
    (hstreamed : Streamed sources s.broadcast (s.arrived ++ batch))
    (hbatch : (batch.map Arrival.position).Nodup)
    (hnew : ∀ a ∈ s.arrived, ∀ b ∈ batch, a.position ≠ b.position)
    (hpages : ∀ round ∈ rounds, ∀ page, round.fetch = .answered page → (page.map Prod.snd).Nodup)
    (htimer : s.debounceBuffer ++ batch ≠ [] → timer = true) :
    Sound { s with
      sources := sources
      rounds := rounds
      latestCursor := latestCursor
      debounceBuffer := s.debounceBuffer ++ batch
      debounceTimer := timer } := by
  have harrived : s.dispatched ++ (s.debounceBuffer ++ batch) = s.arrived ++ batch :=
    (List.append_assoc _ _ _).symm
  -- the batch goes to the end of the buffer
  refine ⟨hattached, ?_, ?_, h.heard, hpages, htimer⟩
  · show Streamed sources s.broadcast (s.dispatched ++ (s.debounceBuffer ++ batch))
    rw [harrived]
    exact hstreamed
  -- no position of the batch has arrived before
  · show ((s.dispatched ++ (s.debounceBuffer ++ batch)).map Arrival.position).Nodup
    rw [harrived, List.map_append, List.nodup_append]
    refine ⟨h.distinct, hbatch, fun x hx y hy hxy => ?_⟩
    obtain ⟨a, ha, rfl⟩ := List.mem_map.mp hx
    obtain ⟨b, hb, rfl⟩ := List.mem_map.mp hy
    exact hnew a ha b hb hxy

/-- **A MESSAGE** of the open source that no round has read. -/
theorem Sound.onMessage {parseMessage : ρ → Option ε} (h : Sound s) {k n : Nat} {inbox : List Nat} {source : Source}
    (hk : s.sources[k]? = some source) (hopen : source.isOpen = true) (hinbox : source.inbox = n :: inbox)
    (hread : ∀ a ∈ s.arrived, a.channel = .poll → a.position ≠ n) : Sound (onMessage parseMessage s k n) := by
  have hone : ∀ (j : Nat) (other : Source), s.sources[j]? = some other → other.isOpen = true → j = k :=
    fun j other hj hother => h.attached.oneSource j k other source hj hk hother hopen
  have hattached := h.attached.modify (f := fun source => { source with inbox := source.inbox.tail }) k
    fun _ hopen => hopen
  simp only [EventService.onMessage]
  split
  · have hpassed := h.streamed.modify (f := fun source => { source with inbox := source.inbox.tail }) k
      fun source hopen => ⟨hopen, List.tail_sublist source.inbox⟩
    exact { h with attached := hattached, streamed := hpassed }
  · rename_i event _
    have hbatch : (([⟨n, .stream, event⟩] : List (Arrival ε)).map Arrival.position).Nodup := List.nodup_singleton n
    have hstreamed := h.streamed.message hk hopen hinbox hone event
    refine h.schedule hattached hstreamed hbatch (fun a ha b hb => ?_) h.pages fun _ => rfl
    rw [List.mem_singleton.mp hb]
    -- the stream's own are earlier; a round's are other by assumption
    cases hchannel : a.channel with
    | stream =>
        have hlater := h.streamed.after k source hk hopen n (hinbox ▸ List.mem_cons_self) a ha hchannel
        exact hlater.ne
    | poll => exact hread a ha hchannel

/-- The events of a page are in other places than one another. -/
theorem parsed_nodup {parseRawEvent : ρ → Option ε} {page : List (ρ × Nat)} (h : (page.map Prod.snd).Nodup) :
    ((parsed parseRawEvent page).map Arrival.position).Nodup := by
  refine h.sublist ?_
  unfold parsed
  induction page with
  | nil => exact List.Sublist.slnil
  | cons raw page ih =>
      have hrest := ih (List.nodup_cons.mp h).2
      cases hparse : parseRawEvent raw.1 with
      | none => simpa [hparse] using hrest.cons raw.2
      | some event => simpa [hparse] using hrest.cons_cons raw.2

/-- What a page yields was polled, at a position of the page. -/
theorem mem_parsed {parseRawEvent : ρ → Option ε} {page : List (ρ × Nat)} {a : Arrival ε}
    (h : a ∈ parsed parseRawEvent page) : a.channel = .poll ∧ ∃ raw ∈ page, a.position = raw.2 := by
  obtain ⟨raw, hraw, heq⟩ := List.mem_filterMap.mp h
  obtain ⟨event, -, rfl⟩ := Option.map_eq_some_iff.mp heq
  exact ⟨rfl, raw, hraw, rfl⟩

/-- A round of the poll asks from the cursor on. -/
theorem Sound.poll (h : Sound s) : Sound (poll s) := by
  unfold EventService.poll
  split
  · exact { h with }
  · refine { h with pages := fun round hround page hpage => ?_ }
    obtain hold | rfl := Pool.mem_concat hround
    · exact h.pages round hold page hpage
    · cases hpage

/-- What the server reads for a round is read in order. -/
theorem answer_pages {history : List ρ} {cursor : Option Nat} {limit : Nat} {ok : Bool} {fetch : Fetch ρ}
    {page : List (ρ × Nat)} (h : fetch.answer history cursor limit ok = .answered page)
    (hold : fetch = .answered page → (page.map Prod.snd).Nodup) : (page.map Prod.snd).Nodup := by
  cases fetch with
  | asked =>
      cases h
      cases ok with
      | false => exact List.nodup_nil
      | true => exact page_nodup history cursor limit
  | answered read => exact hold h
  | handled => cases h

/-- Its answer is what the server has by then. -/
theorem Sound.pollAnswer (h : Sound s) (k : Nat) (ok : Bool) :
    Sound { s with rounds := s.rounds.modify k fun round =>
      { round with fetch := round.fetch.answer s.history round.cursor 50 ok } } := by
  refine { h with pages := fun round' hround' page hpage => ?_ }
  obtain ⟨j, hj⟩ := List.mem_iff_getElem?.mp hround'
  rw [List.getElem?_modify] at hj
  obtain ⟨round, hround, rfl⟩ := Option.map_eq_some_iff.mp hj
  have hold := h.pages round (List.mem_of_getElem? hround) page
  split at hpage
  · exact answer_pages hpage hold
  · exact hold hpage

/-- **A ROUND** that read nothing that came in before. -/
theorem Sound.polled {parseRawEvent : ρ → Option ε} (h : Sound s) {k : Nat} {round : Round ρ}
    {page : List (ρ × Nat)} (hk : s.rounds[k]? = some round) (hpage : round.fetch = .answered page)
    (hread : ∀ raw ∈ page, ∀ a ∈ s.arrived, a.position ≠ raw.2) : Sound (polled parseRawEvent s k round page) := by
  have hstreamed : Streamed s.sources s.broadcast (s.arrived ++ parsed parseRawEvent page) :=
    h.streamed.poll fun a ha => (mem_parsed ha).1
  have hbatch : ((parsed parseRawEvent page).map Arrival.position).Nodup :=
    parsed_nodup (h.pages round (List.mem_of_getElem? hk) page hpage)
  simp only [EventService.polled, foldl_schedule]
  refine h.schedule h.attached hstreamed hbatch ?_ ?_ ?_
  · intro a ha b hb
    obtain ⟨-, raw, hraw, hposition⟩ := mem_parsed hb
    rw [hposition]
    exact hread raw hraw a ha
  · intro round' hround' page' hpage'
    rcases List.mem_or_eq_of_mem_set hround' with hold | rfl
    · exact h.pages round' hold page' hpage'
    · cases hpage'
  · intro hne
    show (s.debounceTimer || !(parsed parseRawEvent page).isEmpty) = true
    cases hempty : parsed parseRawEvent page with
    | nil =>
        rw [hempty, List.append_nil] at hne
        simp [h.pending hne]
    | cons a batch => simp

variable [DecidableEq τ] {typeOf : ε → τ}

/-- A flush moves what arrived, and adds nothing to it. -/
theorem arrived_flush (s : State ρ ε τ) : (flushDebounce typeOf s).arrived = s.arrived := by
  rw [flushDebounce_eq]
  exact List.append_nil _

/-- So it delivers each event in the buffer once. -/
theorem Sound.flush (h : Sound s) : Sound (flushDebounce typeOf s) := by
  refine ⟨?_, ?_, ?_, ?_, ?_, ?_⟩
  · rw [flushDebounce_eq]
    exact h.attached
  · rw [arrived_flush, flushDebounce_eq]
    exact h.streamed
  · rw [arrived_flush]
    exact h.distinct
  · rw [flushDebounce_eq]
    exact h.heard.dispatchAll s.debounceBuffer h.distinct
  · rw [flushDebounce_eq]
    exact h.pages
  · rw [flushDebounce_eq]
    exact fun hne => absurd rfl hne

/-- To stop is to flush and to close. -/
theorem Sound.stopWatching (h : Sound s) : Sound (stopWatching typeOf s) := by
  have hstopped : Sound (stopPolling (disconnectSSE { s with isWatching := false })) :=
    { h with
      attached := attached_idle h.attached.closed nofun
      streamed := h.streamed.of_closed h.attached.closed }
  simp only [EventService.stopWatching]
  split
  · exact hstopped.flush
  · exact hstopped

/-! ## Every run -/

variable {parseMessage parseRawEvent : ρ → Option ε}

/-- One event keeps the service sound, if source and poll hand over in order. -/
theorem step_sound (x : Event ρ τ) (s : State ρ ε τ) (hx : HandedOver x s) (h : Sound s) :
    Sound (step typeOf available parseMessage parseRawEvent x s) := by
  obtain ⟨hseed, hround, hmessage⟩ := hx
  cases x with
  | emit raw => exact { h with }
  | broadcast => exact h.broadcastEvent
  | on type => exact { h with heard := h.heard.on type }
  | off id => exact { h with heard := h.heard.off id }
  | startWatching => exact h.startWatching
  | stopWatching => exact h.stopWatching
  | seedAnswer k ok => exact h.seedAnswer k ok
  | seedResume k =>
      simp only [step]
      split
      · rename_i page hk
        exact h.seeded hk (hseed k page rfl hk)
      · exact h
  | connected k =>
      simp only [step]
      split
      · exact h.onConnected k
      · exact h
  | message k =>
      simp only [step]
      split
      · rename_i n inbox hk
        exact h.onMessage hk rfl rfl (hmessage k n inbox _ rfl hk rfl)
      · exact h
  | error k fatal =>
      simp only [step]
      split
      · rename_i hk
        exact h.onError hk rfl fatal
      · exact h
  | reconnect =>
      simp only [step]
      split
      · exact h.reconnect ‹_›
      · exact h
  | pollTick =>
      simp only [step]
      split
      · exact h.poll
      · exact h
  | pollAnswer k ok => exact h.pollAnswer k ok
  | pollResume k =>
      simp only [step]
      split
      · rename_i cursor page hk
        exact h.polled hk rfl (hround k cursor page rfl hk)
      · exact h
  | flush =>
      simp only [step]
      split
      · exact h.flush
      · exact h

end

end EventService
