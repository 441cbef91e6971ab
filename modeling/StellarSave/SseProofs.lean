import StellarSave.RegistryProofs
import StellarSave.TraceProofs
import StellarSave.UnitsProofs

/-! # The event stream — who is written to

    A request to `/stream` is registered under its group, or under `*`, and has a timer of
    its own; broadcasts look both sets up.  A write may throw, and is then swallowed. -/

namespace Sse

open Units Trace OrderedMap Registry

variable {E : Type}

/-- What a response is written. -/
inductive Frame (E : Type) where
  | connected
  | keepalive
  | data (payload : E)
  deriving DecidableEq, Repr

/-- The key of the clients of every group. -/
def everyGroup : JsString := lit "*"

/-- `groupId ?? '*'`. -/
def keyOf (groupId : Option JsString) : JsString := groupId.getD everyGroup

/-- What happens: requests, broadcasts, the ticks of the timers, connections that close.
    The predicates say which responses throw on that write. -/
inductive Event (E : Type) where
  | stream (groupId : Option JsString) (throws : Bool)
  | broadcast (groupId : Option JsString) (event : E) (throws throwsGlobal : Nat → Bool)
  | tick (res : Nat) (throws : Bool)
  | close (res : Nat)

structure State (E : Type) where
  clients : List (JsString × List Nat)
  /-- the `keepAlive` intervals that run -/
  timers : List Nat
  /-- the `close` listeners, with the key each cleanup keeps -/
  listeners : List (Nat × JsString)
  /-- the next response -/
  next : Nat
  written : List (Nat × Frame E)

def start : State E := ⟨[], [], [], 0, []⟩

/-- `forEach` over a set, each write in its `try`. -/
def writeAll (set : Option (List Nat)) (event : E) (throws : Nat → Bool) : List (Nat × Frame E) :=
  ((set.getD []).filter fun res => !throws res).map fun res => (res, .data event)

/-- A `groupId` that is not empty. -/
def truthy (groupId : Option JsString) : Option JsString := groupId.filter fun id => decide (id ≠ [])

/-- `broadcastEvent`. -/
def broadcastEvent (clients : List (JsString × List Nat)) (groupId : Option JsString) (event : E)
    (throws throwsGlobal : Nat → Bool) : List (Nat × Frame E) :=
  (match truthy groupId with
    | some id => writeAll (get clients id) event throws
    | none => []) ++ writeAll (get clients everyGroup) event throwsGlobal

/-- The key a cleanup keeps. -/
def keyOfListener (listeners : List (Nat × JsString)) (res : Nat) : Option JsString :=
  (listeners.find? fun l => decide (l.1 = res)).map Prod.snd

def step : Event E → State E → State E
  | .stream groupId throws, s =>
      -- a first write that throws leaves the handler: no timer, no client
      if throws then { s with next := s.next + 1 }
      else { clients := add s.clients (keyOf groupId) s.next, timers := s.timers ++ [s.next],
             listeners := s.listeners ++ [(s.next, keyOf groupId)], next := s.next + 1,
             written := s.written ++ [(s.next, .connected)] }
  | .broadcast groupId event throws throwsGlobal, s =>
      { s with written := s.written ++ broadcastEvent s.clients groupId event throws throwsGlobal }
  | .tick res throws, s =>
      if res ∈ s.timers ∧ throws = false then { s with written := s.written ++ [(res, .keepalive)] } else s
  | .close res, s =>
      match keyOfListener s.listeners res with
      | none => s
      | some key => { s with timers := s.timers.filter fun t => decide (t ≠ res), clients := drop s.clients key res }

/-- What one response is written, of some writes. -/
def addressed (written : List (Nat × Frame E)) (res : Nat) : List (Frame E) :=
  (written.filter fun w => decide (w.1 = res)).map Prod.snd

/-- What a response was written. -/
def received (s : State E) (res : Nat) : List (Frame E) := addressed s.written res

/-! ## What it is for -/

/-- What an open connection is to see of an event: a broadcast of its group, and any
    broadcast when it listens to every group, each once. -/
def frames (res : Nat) (key : JsString) : Event E → List (Frame E)
  | .stream _ _ => []
  | .broadcast groupId event throws throwsGlobal =>
      (if truthy groupId = some key ∧ throws res = false then [.data event] else []) ++
        if key = everyGroup ∧ throwsGlobal res = false then [.data event] else []
  | .tick t throws => if t = res ∧ throws = false then [.keepalive] else []
  | .close _ => []

/-- The connections open, in their order. -/
structure Room where
  next : Nat
  opened : List (Nat × JsString)

def Room.after : Event E → Room → Room
  | .stream groupId throws, room =>
      ⟨room.next + 1, if throws then room.opened else room.opened ++ [(room.next, keyOf groupId)]⟩
  | .broadcast _ _ _ _, room => room
  | .tick _ _, room => room
  | .close res, room => ⟨room.next, room.opened.filter fun o => decide (o.1 ≠ res)⟩

/-- Those under a key. -/
def Room.under (room : Room) (key : JsString) : List Nat :=
  (room.opened.filter fun o => decide (o.2 = key)).map Prod.fst

/-! ## The registry keeps the room -/

/-- The server's registry, timers and listeners hold the room. -/
structure Hosts (s : State E) (room : Room) : Prop where
  next : s.next = room.next
  timers : s.timers = room.opened.map Prod.fst
  sets : ∀ key, get s.clients key = entry (room.under key)
  listening : ∀ o ∈ room.opened, keyOfListener s.listeners o.1 = some o.2
  old : ∀ l ∈ s.listeners, l.1 < s.next
  known : ∀ o ∈ room.opened, o.1 < room.next
  nodup : (room.opened.map Prod.fst).Nodup

section Rooms

variable {s : State E} {room : Room} {res : Nat} {key : JsString} {listeners : List (Nat × JsString)}

/-- Under a key are the responses that were opened with it. -/
theorem mem_under : res ∈ room.under key ↔ (res, key) ∈ room.opened := by
  rw [Room.under, List.mem_map]
  constructor
  · rintro ⟨⟨r, k⟩, hmem, rfl⟩
    obtain ⟨hopened, hkey⟩ := List.mem_filter.mp hmem
    have hk : k = key := of_decide_eq_true hkey
    exact hk ▸ hopened
  · intro hmem
    exact ⟨(res, key), List.mem_filter.mpr ⟨hmem, decide_eq_true rfl⟩, rfl⟩

/-- None of them twice. -/
theorem nodup_under (h : (room.opened.map Prod.fst).Nodup) (key : JsString) : (room.under key).Nodup :=
  h.sublist (List.filter_sublist.map Prod.fst)

/-- The key of a response is that of its own listener. -/
theorem keyOfListener_cons (l : Nat × JsString) :
    keyOfListener (l :: listeners) res = if l.1 = res then some l.2 else keyOfListener listeners res := by
  rw [keyOfListener, List.find?_cons]
  by_cases h : l.1 = res
  · rw [if_pos h, decide_eq_true h]
    rfl
  · rw [if_neg h, decide_eq_false h]
    rfl

/-- A listener that is there keeps its key. -/
theorem keyOfListener_append_of_some {more : List (Nat × JsString)}
    (h : keyOfListener listeners res = some key) : keyOfListener (listeners ++ more) res = some key := by
  induction listeners with
  | nil => exact absurd h.symm (Option.some_ne_none key)
  | cons l listeners ih =>
      rw [List.cons_append, keyOfListener_cons]
      rw [keyOfListener_cons] at h
      by_cases hl : l.1 = res
      · rwa [if_pos hl] at h ⊢
      · rw [if_neg hl] at h ⊢
        exact ih h

/-- A new one has the key it came with. -/
theorem keyOfListener_append_new (hold : ∀ l ∈ listeners, l.1 ≠ res) :
    keyOfListener (listeners ++ [(res, key)]) res = some key := by
  induction listeners with
  | nil => rw [List.nil_append, keyOfListener_cons, if_pos rfl]
  | cons l listeners ih =>
      rw [List.cons_append, keyOfListener_cons, if_neg (hold l List.mem_cons_self)]
      exact ih fun m hm => hold m (List.mem_cons_of_mem l hm)

/-- A request: one more at the end of the sets of its key. -/
theorem under_append (k : JsString) :
    (⟨room.next + 1, room.opened ++ [(room.next, key)]⟩ : Room).under k =
      if k = key then room.under key ++ [room.next] else room.under k := by
  show ((room.opened ++ [(room.next, key)]).filter fun o => decide (o.2 = k)).map Prod.fst = _
  rw [List.filter_append, List.map_append]
  by_cases hk : k = key
  · have hlast : [(room.next, key)].filter (fun o => decide (o.2 = k)) = [(room.next, key)] :=
      List.filter_eq_self.mpr fun o ho => decide_eq_true (by rw [List.mem_singleton.mp ho, hk])
    rw [if_pos hk, hlast, hk]
    rfl
  · have hlast : [(room.next, key)].filter (fun o => decide (o.2 = k)) = [] :=
      List.filter_cons_of_neg fun h => hk (of_decide_eq_true h).symm
    rw [if_neg hk, hlast, List.map_nil, List.append_nil]
    rfl

/-- A connection that closes leaves the set it is in. -/
theorem under_filter (k : JsString) :
    (⟨room.next, room.opened.filter fun o => decide (o.1 ≠ res)⟩ : Room).under k =
      (room.under k).filter fun x => decide (x ≠ res) := by
  show ((room.opened.filter fun o => decide (o.1 ≠ res)).filter fun o => decide (o.2 = k)).map Prod.fst = _
  rw [List.filter_comm, Room.under, List.filter_map]
  rfl

/-- To take out what is not there changes nothing. -/
theorem filter_of_not_mem {xs : List Nat} (h : res ∉ xs) : xs.filter (fun x => decide (x ≠ res)) = xs := by
  rw [List.filter_eq_self]
  intro x hx
  exact decide_eq_true fun heq => h (heq ▸ hx)

/-- The step of a request that is registered. -/
theorem Hosts.stream (h : Hosts s room) (groupId : Option JsString) (throws : Bool) :
    Hosts (step (.stream groupId throws) s) (Room.after (.stream (E := E) groupId throws) room) := by
  -- the greeting may throw, and then nothing is registered
  cases throws with
  | true =>
      exact ⟨congrArg (· + 1) h.next, h.timers, h.sets, h.listening,
        fun l hl => Nat.lt_succ_of_lt (h.old l hl), fun o ho => Nat.lt_succ_of_lt (h.known o ho), h.nodup⟩
  | false =>
      have hnew : room.next ∉ room.opened.map Prod.fst := by
        intro hmem
        obtain ⟨o, ho, heq⟩ := List.mem_map.mp hmem
        exact Nat.lt_irrefl _ (heq ▸ h.known o ho)
      refine ⟨congrArg (· + 1) h.next, ?_, ?_, ?_, ?_, ?_, ?_⟩
      · show s.timers ++ [s.next] = (room.opened ++ [(room.next, keyOf groupId)]).map Prod.fst
        rw [h.timers, h.next, List.map_append]
        rfl
      · intro key
        have hfresh : s.next ∉ room.under (keyOf groupId) := by
          intro hmem
          exact hnew (h.next ▸ List.mem_map.mpr ⟨_, mem_under.mp hmem, rfl⟩)
        show get (add s.clients (keyOf groupId) s.next) key =
          entry ((⟨room.next + 1, room.opened ++ [(room.next, keyOf groupId)]⟩ : Room).under key)
        rw [get_add (h.sets _) hfresh, under_append, h.next]
        by_cases hk : key = keyOf groupId
        · rw [if_pos hk, if_pos hk]
        · rw [if_neg hk, if_neg hk, h.sets]
      · intro o ho
        rcases List.mem_append.mp ho with hbefore | hlast
        · exact keyOfListener_append_of_some (h.listening o hbefore)
        · obtain rfl := List.mem_singleton.mp hlast
          rw [← h.next]
          exact keyOfListener_append_new fun l hl => Nat.ne_of_lt (h.old l hl)
      · intro l hl
        rcases List.mem_append.mp hl with hbefore | hlast
        · exact Nat.lt_succ_of_lt (h.old l hbefore)
        · obtain rfl := List.mem_singleton.mp hlast
          exact Nat.lt_succ_self _
      · intro o ho
        rcases List.mem_append.mp ho with hbefore | hlast
        · exact Nat.lt_succ_of_lt (h.known o hbefore)
        · obtain rfl := List.mem_singleton.mp hlast
          exact Nat.lt_succ_self _
      · show ((room.opened ++ [(room.next, keyOf groupId)]).map Prod.fst).Nodup
        rw [List.map_append]
        exact h.nodup.append (List.nodup_singleton _) (List.disjoint_singleton.mpr hnew)

/-- A closed response leaves the registry and the listeners together. -/
theorem Hosts.close (h : Hosts s room) (res : Nat) :
    Hosts (step (.close res) s) (Room.after (.close (E := E) res) room) := by
  have hopened : ∀ key, (res, key) ∈ room.opened → keyOfListener s.listeners res = some key :=
    fun key hmem => h.listening (res, key) hmem
  rw [step]
  cases hlisten : keyOfListener s.listeners res with
  | none =>
      -- it was never registered: nothing in the room bears its number
      have hsame : room.opened.filter (fun o => decide (o.1 ≠ res)) = room.opened := by
        rw [List.filter_eq_self]
        intro o ho
        refine decide_eq_true fun heq => Option.some_ne_none o.2 ?_
        rw [← h.listening o ho, heq, hlisten]
      rw [Room.after, hsame]
      exact h
  | some key =>
      refine ⟨h.next, ?_, ?_, ?_, h.old, ?_, ?_⟩
      · show s.timers.filter (fun t => decide (t ≠ res)) = (room.opened.filter _).map Prod.fst
        rw [h.timers, List.filter_map]
        rfl
      · intro k
        show get (drop s.clients key res) k =
          entry ((⟨room.next, room.opened.filter fun o => decide (o.1 ≠ res)⟩ : Room).under k)
        rw [get_drop (h.sets key), under_filter]
        by_cases hk : k = key
        · rw [if_pos hk, hk]
        · rw [if_neg hk, h.sets]
          -- the key of the listener is the only one it can be under
          have hnot : res ∉ room.under k := by
            intro hmem
            have heq := hopened k (mem_under.mp hmem)
            exact hk (Option.some.inj (heq.symm.trans hlisten))
          rw [filter_of_not_mem hnot]
      · exact fun o ho => h.listening o (List.mem_filter.mp ho).1
      · exact fun o ho => h.known o (List.mem_filter.mp ho).1
      · exact h.nodup.sublist (List.filter_sublist.map Prod.fst)

/-- One event does the same to the server and to the room. -/
theorem Hosts.step (h : Hosts s room) (x : Event E) : Hosts (step x s) (room.after x) := by
  cases x with
  | stream groupId throws => exact h.stream groupId throws
  | broadcast groupId event throws throwsGlobal =>
      exact ⟨h.next, h.timers, h.sets, h.listening, h.old, h.known, h.nodup⟩
  | tick res throws =>
      rw [Sse.step]
      by_cases hon : res ∈ s.timers ∧ throws = false
      · rw [if_pos hon]
        exact ⟨h.next, h.timers, h.sets, h.listening, h.old, h.known, h.nodup⟩
      · rw [if_neg hon]
        exact h
  | close res => exact h.close res

end Rooms

/-! ## Each connection gets its frames -/

section Writes

variable {s : State E} {room : Room} {res : Nat} {key : JsString} {set : List Nat} {event : E} {throws : Nat → Bool}

/-- The frames of a response, in the order they were written. -/
theorem addressed_append (ws more : List (Nat × Frame E)) :
    addressed (ws ++ more) res = addressed ws res ++ addressed more res := by
  rw [addressed, List.filter_append, List.map_append]
  rfl

/-- A frame is addressed to one response. -/
theorem addressed_singleton (t : Nat) (frame : Frame E) :
    addressed [(t, frame)] res = if t = res then [frame] else [] := by
  rw [addressed, List.filter_cons]
  by_cases h : t = res
  · rw [if_pos (decide_eq_true h), if_pos h]
    rfl
  · rw [if_neg (fun hd => h (of_decide_eq_true hd)), if_neg h]
    rfl

/-- Of a set each member is written once. -/
theorem addressed_writeAll (hnodup : set.Nodup) :
    addressed (writeAll (some set) event throws) res =
      if res ∈ set ∧ throws res = false then [.data event] else [] := by
  induction set with
  | nil => rw [if_neg (fun h => absurd h.1 List.not_mem_nil)]; rfl
  -- one write after the other, each to its own response
  | cons t set ih =>
      obtain ⟨hnew, hrest⟩ := List.nodup_cons.mp hnodup
      have hcons : addressed (writeAll (some (t :: set)) event throws) res =
          (if t = res ∧ throws t = false then [.data event] else []) ++
            addressed (writeAll (some set) event throws) res := by
        cases hthrows : throws t with
        | true =>
            have hskip : writeAll (some (t :: set)) event throws = writeAll (some set) event throws := by
              show List.map _ (List.filter _ (t :: set)) = List.map _ (List.filter _ set)
              rw [List.filter_cons_of_neg (by rw [hthrows]; exact Bool.false_ne_true)]
            rw [if_neg (fun h => Bool.true_eq_false_eq_False h.2), hskip, List.nil_append]
        | false =>
            have hwrite : writeAll (some (t :: set)) event throws =
                [(t, .data event)] ++ writeAll (some set) event throws := by
              show List.map _ (List.filter _ (t :: set)) = _ ++ List.map _ (List.filter _ set)
              rw [List.filter_cons_of_pos (by rw [hthrows]; rfl)]
              rfl
            rw [hwrite, addressed_append, addressed_singleton]
            by_cases ht : t = res
            · rw [if_pos ht, if_pos ⟨ht, rfl⟩]
            · rw [if_neg ht, if_neg (fun h => ht h.1)]
      rw [hcons, ih hrest]
      by_cases ht : t = res
      · subst ht
        rw [if_neg (fun h : t ∈ set ∧ _ => hnew h.1), List.append_nil]
        by_cases hthrows : throws t = false
        · rw [if_pos ⟨rfl, hthrows⟩, if_pos ⟨List.mem_cons_self, hthrows⟩]
        · rw [if_neg (fun h => hthrows h.2), if_neg (fun h => hthrows h.2)]
      · rw [if_neg (fun h => ht h.1), List.nil_append]
        by_cases hin : res ∈ set ∧ throws res = false
        · rw [if_pos hin, if_pos ⟨List.mem_cons_of_mem t hin.1, hin.2⟩]
        · rw [if_neg hin, if_neg]
          intro h
          exact hin ⟨(List.mem_cons.mp h.1).resolve_left (Ne.symm ht), h.2⟩

/-- The writes to the clients of a key. -/
theorem Hosts.addressed_set (h : Hosts s room) (key : JsString) :
    addressed (writeAll (get s.clients key) event throws) res =
      if (res, key) ∈ room.opened ∧ throws res = false then [.data event] else [] := by
  have hset : writeAll (get s.clients key) event throws = writeAll (some (room.under key)) event throws := by
    rw [h.sets, writeAll, getD_entry]
    rfl
  rw [hset, addressed_writeAll (nodup_under h.nodup key)]
  simp only [mem_under]

/-- A broadcast, to one response. -/
theorem Hosts.addressed_broadcast (h : Hosts s room) (groupId : Option JsString) (throwsGlobal : Nat → Bool) :
    addressed (broadcastEvent s.clients groupId event throws throwsGlobal) res =
      (if (∃ id, truthy groupId = some id ∧ (res, id) ∈ room.opened) ∧ throws res = false then [.data event]
        else []) ++
        if (res, everyGroup) ∈ room.opened ∧ throwsGlobal res = false then [.data event] else [] := by
  rw [broadcastEvent, addressed_append, h.addressed_set]
  congr 1
  cases htruthy : truthy groupId with
  | none => rw [if_neg (fun hex => by obtain ⟨⟨id, hid, _⟩, _⟩ := hex; exact Option.some_ne_none id hid.symm)]; rfl
  | some id =>
      show addressed (writeAll (get s.clients id) event throws) res = _
      rw [h.addressed_set]
      simp only [Option.some.injEq, exists_eq_left']

/-- A connection is open under one key. -/
theorem Hosts.one_key (h : Hosts s room) {j : JsString} (hk : (res, key) ∈ room.opened)
    (hj : (res, j) ∈ room.opened) : j = key := by
  have hkey := h.listening _ hk
  exact Option.some.inj ((h.listening _ hj).symm.trans hkey)

/-- **ONE EVENT, ONE CONNECTION**: an open connection is written exactly its frames. -/
theorem Hosts.received_step (h : Hosts s room) (hopen : (res, key) ∈ room.opened) (x : Event E) :
    received (Sse.step x s) res = received s res ++ frames res key x := by
  cases x with
  | stream groupId throws =>
      rw [frames, List.append_nil, Sse.step]
      have hne : ¬ s.next = res := by
        rw [h.next]
        exact Nat.ne_of_gt (h.known _ hopen)
      cases throws with
      | true => rfl
      | false =>
          show addressed (s.written ++ [(s.next, .connected)]) res = _
          rw [addressed_append, addressed_singleton, if_neg hne, List.append_nil]
          rfl
  -- a broadcast is written to the sets of its key and of everybody
  | broadcast groupId event throws throwsGlobal =>
      show addressed (s.written ++ _) res = _
      rw [addressed_append, h.addressed_broadcast, frames]
      have hgroup : (∃ id, truthy groupId = some id ∧ (res, id) ∈ room.opened) ↔ truthy groupId = some key := by
        constructor
        · rintro ⟨id, hid, hin⟩
          rw [hid, h.one_key hopen hin]
        · intro hid
          exact ⟨key, hid, hopen⟩
      have hall : (res, everyGroup) ∈ room.opened ↔ key = everyGroup := by
        constructor
        · exact fun hin => (h.one_key hopen hin).symm
        · intro heq
          exact heq ▸ hopen
      simp only [hgroup, hall]
      rfl
  -- a tick is written if the response is still open
  | tick t throws =>
      have hon : res ∈ s.timers := h.timers ▸ List.mem_map.mpr ⟨_, hopen, rfl⟩
      rw [Sse.step, frames]
      by_cases ht : t = res
      · subst ht
        cases throws with
        | true => rw [if_neg (fun h => absurd h.2 Bool.true_eq_false_eq_False), if_neg (fun h => absurd h.2 Bool.true_eq_false_eq_False), List.append_nil]
        | false =>
            rw [if_pos ⟨hon, rfl⟩, if_pos ⟨rfl, rfl⟩]
            show addressed (s.written ++ [(t, .keepalive)]) t = _
            rw [addressed_append, addressed_singleton, if_pos rfl]
            rfl
      · rw [if_neg (fun h : t = res ∧ _ => ht h.1), List.append_nil]
        by_cases hin : t ∈ s.timers ∧ throws = false
        · rw [if_pos hin]
          show addressed (s.written ++ [(t, .keepalive)]) res = _
          rw [addressed_append, addressed_singleton, if_neg ht, List.append_nil]
          rfl
        · rw [if_neg hin]
  | close t =>
      rw [frames, List.append_nil, Sse.step]
      cases keyOfListener s.listeners t <;> rfl

/-- One that is not open is written nothing, but the greeting of its own request. -/
theorem Hosts.received_step_of_not_open (h : Hosts s room) (hshut : ∀ key, (res, key) ∉ room.opened)
    (x : Event E) (hnot : res < s.next ∨ (Sse.step x s).next ≤ res) :
    received (Sse.step x s) res = received s res := by
  cases x with
  | stream groupId throws =>
      cases throws with
      | true => rfl
      | false =>
          have hne : ¬ s.next = res := by
            rcases hnot with hlt | hle
            · exact Nat.ne_of_gt hlt
            · exact Nat.ne_of_lt hle
          show addressed (s.written ++ [(s.next, .connected)]) res = _
          rw [addressed_append, addressed_singleton, if_neg hne, List.append_nil]
          rfl
  -- whom the broadcast reaches is open under some key
  | broadcast groupId event throws throwsGlobal =>
      show addressed (s.written ++ _) res = _
      rw [addressed_append, h.addressed_broadcast, if_neg, if_neg, List.append_nil, List.append_nil]
      · rfl
      · exact fun hin => hshut everyGroup hin.1
      · rintro ⟨⟨id, _, hin⟩, _⟩
        exact hshut id hin
  | tick t throws =>
      rw [Sse.step]
      by_cases hin : t ∈ s.timers ∧ throws = false
      · rw [if_pos hin]
        have ht : ¬ t = res := by
          rintro rfl
          obtain ⟨o, ho, heq⟩ := List.mem_map.mp (h.timers ▸ hin.1)
          exact hshut o.2 (heq ▸ ho)
        show addressed (s.written ++ [(t, .keepalive)]) res = _
        rw [addressed_append, addressed_singleton, if_neg ht, List.append_nil]
        rfl
      · rw [if_neg hin]
  | close t =>
      rw [Sse.step]
      cases keyOfListener s.listeners t <;> rfl

end Writes

/-! ## Runs -/

/-- No connections. -/
def noRoom : Room := ⟨0, []⟩

/-- A request in the run is open, as `res` under `key`. -/
def OpenAs (xs : List (Event E)) (res : Nat) (key : JsString) : Prop :=
  ∃ pre groupId mid, xs = pre ++ .stream groupId false :: mid ∧ (exec step pre start).next = res ∧
    keyOf groupId = key ∧ Event.close res ∉ mid

section Run

variable {s : State E} {room : Room} {res : Nat} {key : JsString} {xs mid post : List (Event E)}

/-- Who is open after an event. -/
theorem Room.opened_after_iff {x : Event E} : (res, key) ∈ (room.after x).opened ↔
    ((res, key) ∈ room.opened ∧ x ≠ .close res) ∨
      ∃ groupId, x = .stream groupId false ∧ room.next = res ∧ keyOf groupId = key := by
  cases x with
  -- only a stream opens, only a close closes
  | stream groupId throws =>
      cases throws with
      | true => simp [Room.after]
      | false =>
          show (res, key) ∈ room.opened ++ [(room.next, keyOf groupId)] ↔ _
          rw [List.mem_append, List.mem_singleton, Prod.mk.injEq]
          constructor
          · rintro (hbefore | ⟨hres, hkey⟩)
            · exact Or.inl ⟨hbefore, by simp⟩
            · exact Or.inr ⟨groupId, rfl, hres.symm, hkey.symm⟩
          · rintro (⟨hbefore, _⟩ | ⟨g, hg, hres, hkey⟩)
            · exact Or.inl hbefore
            · obtain ⟨rfl, _⟩ := Event.stream.inj hg
              exact Or.inr ⟨hres.symm, hkey.symm⟩
  | broadcast groupId event throws throwsGlobal => simp [Room.after]
  | tick t throws => simp [Room.after]
  | close t =>
      show (res, key) ∈ room.opened.filter (fun o => decide (o.1 ≠ t)) ↔ _
      rw [List.mem_filter, decide_eq_true_iff]
      constructor
      · rintro ⟨hin, hne⟩
        exact Or.inl ⟨hin, fun h => hne (Event.close.inj h).symm⟩
      · rintro (⟨hin, hne⟩ | ⟨g, hg, _⟩)
        · exact ⟨hin, fun h => hne (congrArg Event.close h.symm)⟩
        · simp at hg

/-- A response is open until it is closed. -/
theorem Room.opened_after (room : Room) {x : Event E} (hopen : (res, key) ∈ room.opened) (hx : x ≠ .close res) :
    (res, key) ∈ (room.after x).opened := room.opened_after_iff.mpr (Or.inl ⟨hopen, hx⟩)

/-- At first nobody listens. -/
theorem hosts_start : Hosts (start (E := E)) noRoom :=
  ⟨rfl, rfl, fun _ => rfl, fun _ h => absurd h List.not_mem_nil, fun _ h => absurd h List.not_mem_nil,
    fun _ h => absurd h List.not_mem_nil, List.nodup_nil⟩

/-- The server hosts the room along every run. -/
theorem Hosts.exec (h : Hosts s room) (xs : List (Event E)) :
    Hosts (Trace.exec Sse.step xs s) (Trace.exec Room.after xs room) := by
  induction xs generalizing s room with
  | nil => exact h
  | cons x xs ih => exact ih (h.step x)

/-- Responses are numbered upwards. -/
theorem next_le_step (x : Event E) (s : State E) : s.next ≤ (step x s).next := by
  cases x with
  | stream groupId throws => cases throws <;> exact Nat.le_succ s.next
  | broadcast groupId event throws throwsGlobal => exact Nat.le_refl _
  | tick t throws =>
      rw [step]
      split_ifs <;> exact Nat.le_refl _
  | close t =>
      rw [step]
      cases keyOfListener s.listeners t <;> exact Nat.le_refl _

/-- A number not given yet is open nowhere. -/
theorem Hosts.not_open_of_le (h : Hosts s room) (hle : s.next ≤ res) : (res, key) ∉ room.opened := by
  intro hmem
  have hlt := h.known _ hmem
  rw [← h.next] at hlt
  exact Nat.not_le_of_lt hlt hle

/-- Nothing is written to a response before its request. -/
theorem received_of_le (h : Hosts s room) (hquiet : ∀ r, s.next ≤ r → received s r = [])
    (hle : (Trace.exec step xs s).next ≤ res) : received (Trace.exec step xs s) res = [] := by
  induction xs generalizing s room with
  | nil => exact hquiet res hle
  | cons x xs ih =>
      refine ih (h.step x) ?_ hle
      intro r hr
      have hold : s.next ≤ r := Nat.le_trans (next_le_step x s) hr
      rw [h.received_step_of_not_open (fun key => h.not_open_of_le hold) x (Or.inr hr)]
      exact hquiet r hold

/-- **WHILE IT IS OPEN** it is written its frames of every event, in order. -/
theorem Hosts.received_exec (h : Hosts s room) (hopen : (res, key) ∈ room.opened) (hmid : Event.close res ∉ mid) :
    (res, key) ∈ (Trace.exec Room.after mid room).opened ∧
      received (Trace.exec Sse.step mid s) res = received s res ++ mid.flatMap (frames res key) := by
  induction mid generalizing s room with
  | nil => exact ⟨hopen, (List.append_nil _).symm⟩
  | cons x mid ih =>
      have hx : x ≠ .close res := fun heq => hmid (heq ▸ List.mem_cons_self)
      obtain ⟨hstill, hrest⟩ := ih (h.step x) (room.opened_after hopen hx) (fun hin => hmid (List.mem_cons_of_mem x hin))
      refine ⟨hstill, ?_⟩
      rw [Trace.exec_cons, hrest, h.received_step hopen, List.append_assoc, List.flatMap_cons]

/-- **ONCE IT HAS CLOSED** it is written nothing. -/
theorem Hosts.received_exec_of_shut (h : Hosts s room) (hshut : ∀ key, (res, key) ∉ room.opened)
    (hlt : res < s.next) : received (Trace.exec Sse.step post s) res = received s res := by
  induction post generalizing s room with
  | nil => rfl
  | cons x post ih =>
      rw [Trace.exec_cons, ih (h.step x) ?_ (Nat.lt_of_lt_of_le hlt (next_le_step x s)),
        h.received_step_of_not_open hshut x (Or.inl hlt)]
      intro key hin
      rcases room.opened_after_iff.mp hin with ⟨hbefore, _⟩ | ⟨groupId, _, hnext, _⟩
      · exact hshut key hbefore
      · rw [h.next, hnext] at hlt
        exact Nat.lt_irrefl _ hlt

end Run

/-- **EXACTLY ITS OWN EVENTS**: whatever else connects, closes or is broadcast, a response is
    written the greeting and then, as long as it is open, its frames of every event: those of
    its group and, under `*`, all; and nothing after it has closed. -/
theorem delivered_exactly (pre mid post : List (Event E)) (groupId : Option JsString) (res : Nat)
    (hres : res = (exec step pre start).next) (hopen : Event.close res ∉ mid) :
    received (exec step (pre ++ .stream groupId false :: mid) start) res =
        .connected :: mid.flatMap (frames res (keyOf groupId)) ∧
      received (exec step (pre ++ .stream groupId false :: (mid ++ .close res :: post)) start) res =
        .connected :: mid.flatMap (frames res (keyOf groupId)) := by
  have hpre := hosts_start.exec pre
  -- the first frame is the greeting
  have hgreeted : received (step (.stream groupId false) (exec step pre start)) res = [.connected] := by
    show addressed ((exec step pre start).written ++ [((exec step pre start).next, .connected)]) res = _
    rw [addressed_append, addressed_singleton, if_pos hres.symm, ← received,
      received_of_le hosts_start (fun _ _ => rfl) (Nat.le_of_eq hres.symm), List.nil_append]
  have hin : (res, keyOf groupId) ∈ ((exec Room.after pre noRoom).after (.stream (E := E) groupId false)).opened :=
    Room.opened_after_iff.mpr (Or.inr ⟨groupId, rfl, hpre.next.symm.trans hres.symm, rfl⟩)
  have hconnected := hpre.step (.stream groupId false)
  obtain ⟨hstill, hmid⟩ := hconnected.received_exec hin hopen
  rw [hgreeted] at hmid
  refine ⟨?_, ?_⟩
  · rw [exec_append, exec_cons]
    exact hmid
  -- after the close nothing more is written to the response
  · have hend := hconnected.exec mid
    rw [exec_append, exec_cons, exec_append, exec_cons, (hend.step (.close res)).received_exec_of_shut]
    · rw [hend.received_step hstill, hmid, frames, List.append_nil]
      rfl
    · intro key hkey
      rcases Room.opened_after_iff.mp hkey with ⟨_, hne⟩ | ⟨g, hg, _⟩
      · exact hne rfl
      · simp at hg
    · rw [(hend.step _).next]
      refine Nat.lt_of_lt_of_le (hend.known _ hstill) ?_
      rw [← hend.next, ← (hend.step (.close res)).next]
      exact next_le_step _ _

/-- A client of the group `g` among broadcasts to `g`, to another group and to none. -/
theorem delivered_exactly_one :
    received (exec step ([] ++ .stream (some (lit "g")) false :: [.broadcast (some (lit "g")) 1 (fun _ => false)
      (fun _ => false), .broadcast (some (lit "h")) 2 (fun _ => false) (fun _ => false), .tick 0 false,
      .broadcast none 3 (fun _ => false) (fun _ => false)]) start) 0 =
      [Frame.connected, .data 1, .keepalive] :=
  (delivered_exactly [] [.broadcast (some (lit "g")) 1 (fun _ => false) (fun _ => false),
    .broadcast (some (lit "h")) 2 (fun _ => false) (fun _ => false), .tick 0 false,
    .broadcast none 3 (fun _ => false) (fun _ => false)] [] (some (lit "g")) 0 rfl (by simp)).1.trans (by decide)

section Registered

variable {res : Nat} {key : JsString} {xs : List (Event E)} {x : Event E}

/-- A response is open with a key if it was and is not closed now, or opens now. -/
theorem openAs_snoc : OpenAs (xs ++ [x]) res key ↔ (OpenAs xs res key ∧ x ≠ .close res) ∨
    ∃ groupId, x = .stream groupId false ∧ (exec step xs start).next = res ∧ keyOf groupId = key := by
  constructor
  · rintro ⟨pre, groupId, mid, hrun, hres, hkey, hopen⟩
    rcases List.eq_nil_or_concat mid with rfl | ⟨init, y, rfl⟩
    · obtain ⟨rfl, hx⟩ := List.append_inj' hrun rfl
      exact Or.inr ⟨groupId, List.singleton_inj.mp hx, hres, hkey⟩
    · rw [List.concat_eq_append] at hrun hopen
      have hsplit : xs ++ [x] = (pre ++ .stream groupId false :: init) ++ [y] := by
        rw [hrun, List.append_assoc, List.cons_append]
      obtain ⟨rfl, hx⟩ := List.append_inj' hsplit rfl
      obtain rfl := List.singleton_inj.mp hx
      rw [List.mem_append, List.mem_singleton, not_or] at hopen
      exact Or.inl ⟨⟨pre, groupId, init, rfl, hres, hkey, hopen.1⟩, Ne.symm hopen.2⟩
  · rintro (⟨⟨pre, groupId, mid, rfl, hres, hkey, hopen⟩, hx⟩ | ⟨groupId, rfl, hres, hkey⟩)
    · refine ⟨pre, groupId, mid ++ [x], ?_, hres, hkey, ?_⟩
      · rw [List.append_assoc, List.cons_append]
      · rw [List.mem_append, List.mem_singleton, not_or]
        exact ⟨hopen, Ne.symm hx⟩
    · exact ⟨xs, groupId, [], rfl, hres, hkey, List.not_mem_nil⟩

/-- The room holds the connections of the run that are open. -/
theorem mem_room_iff : (res, key) ∈ (exec Room.after xs noRoom).opened ↔ OpenAs xs res key := by
  induction xs using List.reverseRecOn generalizing res key with
  | nil =>
      constructor
      · exact fun h => absurd h List.not_mem_nil
      · rintro ⟨pre, groupId, mid, hrun, _⟩
        exact absurd hrun.symm (List.append_ne_nil_of_right_ne_nil _ (List.cons_ne_nil _ _))
  | append_singleton xs x ih =>
      rw [exec_append, exec_cons, exec_nil, Room.opened_after_iff, ih, openAs_snoc,
        (hosts_start.exec xs).next]

end Registered

/-- **NOTHING LEFT OVER**: after any run the sets hold exactly the open connections, each under
    its own key, the timers are exactly theirs, and no set is kept empty; with every connection
    closed there is no entry and no timer. -/
theorem registry_exact (xs : List (Event E)) :
    (∀ res key, (∃ set, get (exec step xs start).clients key = some set ∧ res ∈ set) ↔ OpenAs xs res key) ∧
      (∀ res, res ∈ (exec step xs start).timers ↔ ∃ key, OpenAs xs res key) ∧
      (∀ key set, get (exec step xs start).clients key = some set → set ≠ [] ∧ set.Nodup) ∧
      ((∀ res key, ¬ OpenAs xs res key) →
        (exec step xs start).clients = [] ∧ (exec step xs start).timers = []) := by
  have hxs := hosts_start.exec xs
  -- the sets of the registry are those of the room, key by key
  have hmem : ∀ res key, (∃ set, get (exec step xs start).clients key = some set ∧ res ∈ set) ↔
      OpenAs xs res key := by
    intro res key
    rw [← mem_room_iff, ← mem_under, hxs.sets, entry]
    constructor
    · rintro ⟨set, hset, hin⟩
      split_ifs at hset
      exact Option.some.inj hset ▸ hin
    · intro hin
      exact ⟨_, if_neg (List.ne_nil_of_mem hin), hin⟩
  have htimer : ∀ res, res ∈ (exec step xs start).timers ↔ ∃ key, OpenAs xs res key := by
    intro res
    rw [hxs.timers, List.mem_map]
    constructor
    · rintro ⟨⟨r, key⟩, hin, rfl⟩
      exact ⟨key, mem_room_iff.mp hin⟩
    · rintro ⟨key, hopen⟩
      exact ⟨(res, key), mem_room_iff.mpr hopen, rfl⟩
  have hsome : ∀ key set, get (exec step xs start).clients key = some set → set ≠ [] ∧ set.Nodup := by
    intro key set hset
    rw [hxs.sets, entry] at hset
    split_ifs at hset with hne
    obtain rfl := Option.some.inj hset
    exact ⟨hne, nodup_under hxs.nodup key⟩
  refine ⟨hmem, htimer, hsome, ?_⟩
  intro hclosed
  refine ⟨eq_nil_of_get fun key => ?_, List.eq_nil_iff_forall_not_mem.mpr fun res hres => ?_⟩
  · cases hset : get (exec step xs start).clients key with
    | none => rfl
    | some set =>
        obtain ⟨res, hres⟩ := List.exists_mem_of_ne_nil set (hsome key set hset).1
        exact absurd ((hmem res key).mp ⟨set, hset, hres⟩) (hclosed res key)
  · obtain ⟨key, hopen⟩ := (htimer res).mp hres
    exact hclosed res key hopen

end Sse
