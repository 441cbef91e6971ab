import Mathlib
import StellarSave.JsonProofs
import StellarSave.TraceProofs

/-! # WebSocket gateway — a frame that is no message

    `WebSocketGateway` (`ws_gateway.ts`).  A text frame is parsed inside a `try`
    and taken apart outside it, so `null` ends the process, and so do a topic
    that is no string and a type that cannot be printed.  Of the two indexes,
    the close handler clears one; a frame after it fills the cleared one again.
    What a wallet topic says reaches its owner alone in every run. -/

namespace WebSocketGateway

open Trace

/-- What a topic is filed under: a value by itself, an array or an object by
    identity, here the frame it came in and its place in it. -/
inductive Key where
  | null
  | bool (b : Bool)
  | num (n : Numeral)
  | str (s : String)
  | ref (frame index : Nat)
  deriving DecidableEq

def keyOf (frame index : Nat) : Json → Key
  | .null => .null
  | .bool b => .bool b
  | .num n => .num n
  | .str s => .str s
  | .arr _ => .ref frame index
  | .obj _ => .ref frame index

/-- A frame the server sends; `π` is the payload of an event. -/
inductive Frame (π : Type) where
  | connected (walletAddress : String)
  | event (topic : String) (payload : π)
  | heartbeat (ts : Nat)
  | pong (ts : Nat)
  | notice (message : String)
  | error (message : String)
  | subscribed (accepted rejected : List Json)
  | unsubscribed (topics : List Json)

/-- `ClientState`, with its socket: whether it is `OPEN` and what it was sent. -/
structure ClientState (π : Type) where
  walletAddress : String
  isAdmin : Bool
  topics : List Key
  isAlive : Bool
  pendingQueue : List (Frame π)
  isOpen : Bool
  sent : List (Frame π)

/-- The gateway.  Clients are numbered as they connect; `connected` lists the
    keys of the `clients` map, a topic without a set has the empty one. -/
structure Gateway (π : Type) where
  client : Nat → ClientState π
  made : Nat
  connected : List Nat
  subscriptions : Key → List Nat
  frames : Nat

def start {π : Type} : Gateway π := ⟨fun _ => ⟨"", false, [], false, [], false, []⟩, 0, [], fun _ => [], 0⟩

/-- The headers and the query of a connection. -/
structure Upgrade where
  token : Option String
  authorization : Option String
  adminSecret : Option String

inductive Event (π : Type) where
  | connection (req : Upgrade)
  | message (c : Nat) (raw : String) (now : Nat)
  | close (c : Nat)
  | error (c : Nat)
  | pong (c : Nat)
  | readyState (c : Nat) (isOpen : Bool)
  | heartbeat (now : Nat)
  | publish (topic : String) (payload : π)

/-! ## Sets and fields -/

def add {α : Type} [DecidableEq α] (xs : List α) (x : α) : List α := if x ∈ xs then xs else xs ++ [x]

def delete {α : Type} [DecidableEq α] (xs : List α) (x : α) : List α := xs.filter (· ≠ x)

@[simp] theorem mem_add {α : Type} [DecidableEq α] {xs : List α} {x y : α} :
    y ∈ add xs x ↔ y = x ∨ y ∈ xs := by
  unfold add
  split <;> grind

@[simp] theorem mem_delete {α : Type} [DecidableEq α] {xs : List α} {x y : α} :
    y ∈ delete xs x ↔ y ∈ xs ∧ y ≠ x := by
  simp [delete]

/-- A property of a parsed value; the last of its name counts, and a value that
    is no object has none. -/
def property (name : String) : Json → Option Json
  | .obj fields => (fields.reverse.find? fun f => f.1 = name).map (·.2)
  | _ => none

/-! ## Topics -/

inductive TopicType where
  | group
  | wallet
  | global
  deriving DecidableEq, Repr

/-- `parseTopic`. -/
def parseTopic (topic : String) : Option (TopicType × String) :=
  let parts := topic.toList.splitOn ':'
  let type := String.ofList (parts.headD [])
  let id := String.ofList ([':'].intercalate parts.tail)
  if type = "group" ∧ id ≠ "" then some (.group, id)
  else if type = "wallet" ∧ id ≠ "" then some (.wallet, id)
  else if type = "global" then some (.global, "")
  else none

section
variable {π : Type}

/-- `isAuthorized`; `none` where `topic.split` is no function. -/
def isAuthorized (client : ClientState π) (topic : Json) : Option Bool :=
  if client.isAdmin then some true
  else match topic with
  | .str topic =>
      match parseTopic topic with
      | none => some false
      | some (.wallet, id) => some (id = client.walletAddress)
      | some (.group, _) => some true
      | some (.global, _) => some false
  | _ => none

/-! ## Sending -/

def ClientState.send (client : ClientState π) (frame : Frame π) : ClientState π :=
  if client.isOpen then { client with sent := client.sent ++ [frame] } else client

/-- `flush`, with what is left of the queue. -/
def flushFrom : List (Frame π) → ClientState π → ClientState π
  | [], client => { client with pendingQueue := [] }
  | frame :: queue, client =>
      if client.isOpen then flushFrom queue ({ client with pendingQueue := queue }.send frame)
      else { client with pendingQueue := frame :: queue }

def flush (client : ClientState π) : ClientState π := flushFrom client.pendingQueue client

/-- `MAX_QUEUE_PER_CLIENT`. -/
def maxQueuePerClient : Nat := 100

/-- The body of the loop in `publish`. -/
def push (frame : Frame π) (client : ClientState π) : ClientState π :=
  if client.isOpen then
    let client := if maxQueuePerClient ≤ client.pendingQueue.length then
        { client with pendingQueue := client.pendingQueue.tail }.send (.notice "event_dropped_backpressure")
      else client
    flush { client with pendingQueue := client.pendingQueue ++ [frame] }
  else client

/-- The body of the loop in `startHeartbeat`. -/
def beat (now : Nat) (client : ClientState π) : ClientState π :=
  if client.isAlive then { client with isAlive := false }.send (.heartbeat now)
  else { client with isOpen := false }

def Gateway.modify (g : Gateway π) (c : Nat) (f : ClientState π → ClientState π) : Gateway π :=
  { g with client := fun d => if d = c then f (g.client d) else g.client d }

def Gateway.send (g : Gateway π) (c : Nat) (frame : Frame π) : Gateway π :=
  g.modify c fun client => client.send frame

def publish (g : Gateway π) (topic : String) (payload : π) : Gateway π :=
  (g.subscriptions (.str topic)).foldl (fun g c => g.modify c (push (.event topic payload))) g

def heartbeat (g : Gateway π) (now : Nat) : Gateway π :=
  g.connected.foldl (fun g c => g.modify c (beat now)) g

/-! ## Connections -/

variable (secret : String) (verifyJwt : String → Option String)

/-- Who connects, and whether as an admin. -/
def authenticate (req : Upgrade) : Option (String × Bool) :=
  if req.adminSecret.getD "" ≠ "" ∧ req.adminSecret = some secret then some ("admin", true)
  else
    let token := req.token.or (req.authorization.bind fun authHeader =>
      if "Bearer ".toList <+: authHeader.toList then some (String.ofList (authHeader.toList.drop 7))
      else none)
    match token with
    | none => none
    | some token => if token = "" then none else (verifyJwt token).map fun sub => (sub, false)

def onConnection (g : Gateway π) (req : Upgrade) : Gateway π :=
  match authenticate secret verifyJwt req with
  | none => g
  | some (walletAddress, isAdmin) =>
      let client : ClientState π := ⟨walletAddress, isAdmin, [], true, [], true, []⟩
      { g with
        client := fun d => if d = g.made then client.send (.connected walletAddress) else g.client d
        made := g.made + 1
        connected := add g.connected g.made }

/-- One topic of a client taken from the one index. -/
def Gateway.forget (g : Gateway π) (c : Nat) (key : Key) : Gateway π :=
  { g with subscriptions := fun k => if k = key then delete (g.subscriptions k) c else g.subscriptions k }

def onClose (g : Gateway π) (c : Nat) : Gateway π :=
  -- the client keeps its own topics
  let g := (g.client c).topics.foldl (fun g key => g.forget c key) g
  { g with connected := delete g.connected c }

/-! ## Messages -/

def Gateway.subscribe (g : Gateway π) (c : Nat) (key : Key) : Gateway π :=
  let g := { g with subscriptions := fun k => if k = key then add (g.subscriptions k) c else g.subscriptions k }
  g.modify c fun client => { client with topics := add client.topics key }

def Gateway.unsubscribe (g : Gateway π) (c : Nat) (key : Key) : Gateway π :=
  (g.forget c key).modify c fun client => { client with topics := delete client.topics key }

/-- The loop of `handleSubscribe`, with the accepted and the rejected topics, or
    `none` where it throws. -/
def subscribeEach (c frame : Nat) : Nat → List Json → Gateway π → Gateway π × Option (List Json × List Json)
  | _, [], g => (g, some ([], []))
  | i, topic :: topics, g =>
      match isAuthorized (g.client c) topic with
      | none => (g, none)
      | some false =>
          let rest := subscribeEach c frame (i + 1) topics g
          (rest.1, rest.2.map fun r => (r.1, topic :: r.2))
      | some true =>
          let rest := subscribeEach c frame (i + 1) topics (g.subscribe c (keyOf frame i topic))
          (rest.1, rest.2.map fun r => (topic :: r.1, r.2))

/-- Whether it throws goes with what a handler leaves. -/
def handleSubscribe (g : Gateway π) (c frame : Nat) (topics : List Json) : Gateway π × Bool :=
  match subscribeEach c frame 0 topics g with
  | (g, none) => (g, true)
  | (g, some (accepted, rejected)) => (g.send c (.subscribed accepted rejected), false)

/-- The loop of `handleUnsubscribe`. -/
def unsubscribeEach (c frame : Nat) : Nat → List Json → Gateway π → Gateway π
  | _, [], g => g
  | i, topic :: topics, g => unsubscribeEach c frame (i + 1) topics (g.unsubscribe c (keyOf frame i topic))

def handleUnsubscribe (g : Gateway π) (c frame : Nat) (topics : List Json) : Gateway π :=
  (unsubscribeEach c frame 0 topics g).send c (.unsubscribed topics)

end

mutual

/-- A value in a template; `none` where an object's own `toString` is in the way. -/
def template : Json → Option (List Char)
  | .null => some "null".toList
  | .bool b => some (if b then "true".toList else "false".toList)
  | .num n => some n.text
  | .str s => some s.toList
  | .arr items => (pieces items).map fun pieces => [','].intercalate pieces
  | .obj fields => if ∃ f ∈ fields, f.1 = "toString" then none else some "[object Object]".toList

/-- The items of an array, which are joined with commas; `null` is nothing. -/
def pieces : List Json → Option (List (List Char))
  | [] => some []
  | item :: items => do
      let head ← match item with
        | .null => some []
        | item => template item
      let tail ← pieces items
      return head :: tail

end

/-- The branches of `onMessage`. -/
inductive Request where
  | subscribe (topics : List Json)
  | unsubscribe (topics : List Json)
  | ping
  | unknown (type : Option Json)

/-- `none` where there is nothing to take apart. -/
def request (msg : Json) : Option Request :=
  match msg with
  | .null => none
  | msg =>
      match property "type" msg, property "topics" msg with
      | some (.str "subscribe"), some (.arr topics) => some (.subscribe topics)
      | some (.str "unsubscribe"), some (.arr topics) => some (.unsubscribe topics)
      | some (.str "ping"), _ => some .ping
      | type, _ => some (.unknown type)

section
variable {π : Type} (parse : String → Option Json)

def handle (g : Gateway π) (c frame now : Nat) : Request → Gateway π × Bool
  | .subscribe topics => handleSubscribe g c frame topics
  | .unsubscribe topics => (handleUnsubscribe g c frame topics, false)
  | .ping => (g.send c (.pong now), false)
  | .unknown type =>
      match type.elim (some "undefined".toList) template with
      | none => (g, true)
      | some text => (g.send c (.error ("Unknown message type: " ++ String.ofList text)), false)

/-- `onMessage`, and whether it throws; `parse` is `JSON.parse`. -/
def onMessage (g : Gateway π) (c : Nat) (raw : String) (now : Nat) : Gateway π × Bool :=
  match parse raw with
  | none => (g.send c (.error "Invalid JSON"), false)
  | some msg =>
      match request msg with
      | none => (g, true)
      | some req => handle { g with frames := g.frames + 1 } c g.frames now req

variable (secret : String) (verifyJwt : String → Option String)

/-- One event; of a client that never connected there is none. -/
def step : Event π → Gateway π → Gateway π
  | .connection req, g => onConnection secret verifyJwt g req
  | .message c raw now, g => if c < g.made then (onMessage parse g c raw now).1 else g
  | .close c, g => if c < g.made then onClose g c else g
  | .error c, g => if c < g.made then onClose g c else g
  | .pong c, g => g.modify c fun client => { client with isAlive := true }
  | .readyState c isOpen, g => g.modify c fun client => { client with isOpen := isOpen }
  | .heartbeat now, g => heartbeat g now
  | .publish topic payload, g => publish g topic payload

/-! ## What the gateway promises -/

/-- The two indexes are equal. -/
def InSync (g : Gateway π) : Prop :=
  ∀ c k, c ∈ g.subscriptions k ↔ k ∈ (g.client c).topics ∧ c ∈ g.connected

/-- A wallet topic is an admin's, or its owner's. -/
def Entitled (client : ClientState π) (topic : String) : Prop :=
  client.isAdmin = true ∨ ∀ wallet, topic = "wallet:" ++ wallet → wallet = client.walletAddress

/-- No client was sent what another's wallet topic says. -/
def Private (g : Gateway π) : Prop :=
  ∀ c topic payload, Frame.event topic payload ∈ (g.client c).sent → Entitled (g.client c) topic

/-- A frame is survived, and the indexes agree after every event. -/
def Survived (x : Event π) (g : Gateway π) : Prop :=
  (∀ c raw now, x = .message c raw now → c < g.made → (onMessage parse g c raw now).2 = false) ∧
    InSync (step parse secret verifyJwt x g) ∧ Private (step parse secret verifyJwt x g)

mutual

/-- No object with a `toString` of its own shows. -/
def Printable : Json → Prop
  | .arr items => PrintableItems items
  | .obj fields => ∀ f ∈ fields, f.1 ≠ "toString"
  | _ => True

def PrintableItems : List Json → Prop
  | [] => True
  | item :: items => Printable item ∧ PrintableItems items

end

/-- Topics are strings unless an admin sends them, and a client that is gone is
    not given any; what is reported as unknown can be printed. -/
def Sound (g : Gateway π) (c : Nat) : Request → Prop
  | .subscribe topics =>
      (∀ topic ∈ topics, (g.client c).isAdmin = true ∨ ∃ s, topic = .str s) ∧
        (c ∈ g.connected ∨ ∀ topic ∈ topics, isAuthorized (g.client c) topic ≠ some true)
  | .unknown (some type) => Printable type
  | _ => True

/-- A frame that parses is not `null` and is sound. -/
def WellFormed (x : Event π) (g : Gateway π) : Prop :=
  ∀ c raw now msg, x = .message c raw now → c < g.made → parse raw = some msg →
    ∃ req, request msg = some req ∧ Sound g c req

/-! ## Wallet topics -/

/-- A wallet topic is read as its wallet, and the empty one as nothing. -/
theorem parseTopic_wallet (wallet : String) :
    parseTopic ("wallet:" ++ wallet) = if wallet ≠ "" then some (.wallet, wallet) else none := by
  -- the wallet may have colons of its own: they are split and joined again
  have hparts : ("wallet:" ++ wallet).toList.splitOn ':' = "wallet".toList :: wallet.toList.splitOn ':' := by
    rw [String.toList_append]
    have hword : ':' ∉ "wallet".toList := by decide
    exact List.splitOn_append_cons_self_of_not_mem hword wallet.toList
  simp only [parseTopic, hparts, List.headD_cons, List.tail_cons, List.intercalate_splitOn, String.ofList_toList]
  by_cases hw : wallet = "" <;> simp [hw]

variable {g : Gateway π} {c : Nat}

/-- Being entitled depends on who a client is, not on what it was sent. -/
theorem Entitled.of_eq {client client' : ClientState π} {topic : String} (h : Entitled client topic)
    (hadmin : client'.isAdmin = client.isAdmin) (hwallet : client'.walletAddress = client.walletAddress) :
    Entitled client' topic := by
  rw [Entitled, hadmin, hwallet]
  exact h

/-- Who may subscribe to a topic is entitled to what it says. -/
theorem entitled_of_isAuthorized {client : ClientState π} {topic : String}
    (h : isAuthorized client (.str topic) = some true) : Entitled client topic := by
  by_cases hadmin : client.isAdmin = true
  · exact Or.inl hadmin
  · right
    rintro wallet rfl
    have hparse := parseTopic_wallet wallet
    by_cases hw : wallet = ""
    · rw [if_neg (not_not.mpr hw)] at hparse
      simp [isAuthorized, hadmin, hparse] at h
    · rw [if_pos hw] at hparse
      simpa [isAuthorized, hadmin, hparse] using h

/-- Only a client that is no admin, and a topic that is no string, make it throw. -/
theorem isAuthorized_eq_none {client : ClientState π} {topic : Json} :
    isAuthorized client topic = none ↔ ¬ (client.isAdmin = true ∨ ∃ s, topic = .str s) := by
  unfold isAuthorized
  split
  · simp [*]
  · split
    · split <;> simp
    · rename_i hstr
      simpa [*] using hstr

/-- Only a string is filed under a string. -/
theorem str_of_keyOf {frame i : Nat} {topic : Json} {s : String} (h : keyOf frame i topic = .str s) :
    topic = .str s := by
  cases topic <;> simp_all [keyOf]

/-! ## What a client is told -/

/-- Sending changes no subscription. -/
theorem send_topics (client : ClientState π) (frame : Frame π) : (client.send frame).topics = client.topics := by
  unfold ClientState.send
  split <;> rfl

theorem flushFrom_topics (queue : List (Frame π)) (client : ClientState π) :
    (flushFrom queue client).topics = client.topics := by
  induction queue generalizing client with
  | nil => rfl
  | cons head queue ih =>
      unfold flushFrom
      split
      · rw [ih, send_topics]
      · rfl

/-- Neither does a publication. -/
theorem push_topics (frame : Frame π) (client : ClientState π) : (push frame client).topics = client.topics := by
  unfold push
  split
  · simp only [flush, flushFrom_topics]
    split
    · exact send_topics _ _
    · rfl
  · rfl

/-- Nor a heartbeat. -/
theorem beat_topics (now : Nat) (client : ClientState π) : (beat now client).topics = client.topics := by
  unfold beat
  split
  · exact send_topics _ _
  · rfl

/-- What was sent to a client or waits to be is of the kind `P`. -/
def ClientState.All (P : Frame π → Prop) (client : ClientState π) : Prop :=
  ∀ frame, frame ∈ client.sent ∨ frame ∈ client.pendingQueue → P frame

/-- An update that leaves a client's identity, and its frames of the kind `P`. -/
structure Told (P : Frame π → Prop) (client client' : ClientState π) : Prop where
  isAdmin : client'.isAdmin = client.isAdmin
  walletAddress : client'.walletAddress = client.walletAddress
  all : client'.All P

variable {P : Frame π → Prop} {frame : Frame π} {client : ClientState π}

theorem Told.trans {client' client'' : ClientState π} (h : Told P client client')
    (h' : Told P client' client'') : Told P client client'' where
  isAdmin := h'.isAdmin.trans h.isAdmin
  walletAddress := h'.walletAddress.trans h.walletAddress
  all := h'.all

/-- A client that is sent a frame of the kind has only such frames. -/
theorem told_send (hclient : client.All P) (hframe : P frame) : Told P client (client.send frame) := by
  unfold ClientState.send
  split
  · refine ⟨rfl, rfl, fun x hx => ?_⟩
    rcases hx with hx | hx
    · rcases List.mem_append.mp hx with hx | hx
      · exact hclient x (Or.inl hx)
      · exact List.mem_singleton.mp hx ▸ hframe
    · exact hclient x (Or.inr hx)
  · exact ⟨rfl, rfl, hclient⟩

/-- So has one whose queue is replaced by such frames. -/
theorem told_queue {queue : List (Frame π)} (hclient : client.All P) (hqueue : ∀ frame ∈ queue, P frame) :
    Told P client { client with pendingQueue := queue } := by
  refine ⟨rfl, rfl, fun frame hframe => ?_⟩
  rcases hframe with hframe | hframe
  · exact hclient frame (Or.inl hframe)
  · exact hqueue frame hframe

/-- A queue that is flushed is sent, or stays. -/
theorem told_flushFrom {queue : List (Frame π)} (hclient : client.All P) (hqueue : ∀ frame ∈ queue, P frame) :
    Told P client (flushFrom queue client) := by
  induction queue generalizing client with
  | nil => exact told_queue hclient hqueue
  | cons head queue ih =>
      unfold flushFrom
      split
      · obtain ⟨hhead, hrest⟩ := List.forall_mem_cons.mp hqueue
        have hleft := told_queue hclient hrest
        have hsent := told_send hleft.all hhead
        exact (hleft.trans hsent).trans (ih hsent.all hrest)
      · exact told_queue hclient hqueue

/-- A publication tells a client the event, and perhaps that an earlier one was dropped. -/
theorem told_push (hclient : client.All P) (hnotice : ∀ message, P (.notice message)) (hframe : P frame) :
    Told P client (push frame client) := by
  have hrest : ∀ x ∈ client.pendingQueue.tail, P x := fun x hx => hclient x (Or.inr (List.mem_of_mem_tail hx))
  have hadd : ∀ client' : ClientState π, Told P client client' →
      Told P client (flush { client' with pendingQueue := client'.pendingQueue ++ [frame] }) := by
    intro client' h
    have hqueue : ∀ x ∈ client'.pendingQueue ++ [frame], P x := by
      intro x hx
      rcases List.mem_append.mp hx with hx | hx
      · exact h.all x (Or.inr hx)
      · exact List.mem_singleton.mp hx ▸ hframe
    have hmore := told_queue h.all hqueue
    exact (h.trans hmore).trans (told_flushFrom hmore.all hqueue)
  unfold push
  split
  · split
    · have hleft := told_queue hclient hrest
      exact hadd _ (hleft.trans (told_send hleft.all (hnotice _)))
    · exact hadd client ⟨rfl, rfl, hclient⟩
  · exact ⟨rfl, rfl, hclient⟩

theorem told_beat (hclient : client.All P) (now : Nat) (hframe : P (.heartbeat now)) :
    Told P client (beat now client) := by
  unfold beat
  split
  · have hquiet : Told P client { client with isAlive := false } := ⟨rfl, rfl, hclient⟩
    exact hquiet.trans (told_send hquiet.all hframe)
  · exact ⟨rfl, rfl, hclient⟩

/-! ## What every step keeps -/

/-- A frame a client may be sent. -/
def Proper (client : ClientState π) (frame : Frame π) : Prop :=
  ∀ topic payload, frame = .event topic payload → Entitled client topic

/-- Clients are numbered below `made`, and who is in a topic's set may hear it. -/
structure Valid (g : Gateway π) : Prop where
  connected : ∀ c ∈ g.connected, c < g.made
  made : ∀ key, ∀ c ∈ g.subscriptions key, c < g.made
  entitled : ∀ topic, ∀ c ∈ g.subscriptions (.str topic), Entitled (g.client c) topic
  proper : ∀ c, (g.client c).All (Proper (g.client c))

/-- What a client was sent was for it: this is what the invariant is for. -/
theorem Valid.private (h : Valid g) : Private g := fun c topic payload hsent =>
  h.proper c _ (Or.inl hsent) topic payload rfl

theorem Proper.of_eq {client' : ClientState π} (h : Proper client frame)
    (hadmin : client'.isAdmin = client.isAdmin) (hwallet : client'.walletAddress = client.walletAddress) :
    Proper client' frame := fun topic payload hframe => (h topic payload hframe).of_eq hadmin hwallet

/-- An update of one client that tells it what it may hear. -/
theorem Valid.modify {f : ClientState π → ClientState π} (h : Valid g)
    (hf : Told (Proper (g.client c)) (g.client c) (f (g.client c))) : Valid (g.modify c f) := by
  have hadmin : ∀ d, ((g.modify c f).client d).isAdmin = (g.client d).isAdmin := by
    intro d
    by_cases hd : d = c
    · subst hd
      simpa [Gateway.modify] using hf.isAdmin
    · simp [Gateway.modify, hd]
  have hwallet : ∀ d, ((g.modify c f).client d).walletAddress = (g.client d).walletAddress := by
    intro d
    by_cases hd : d = c
    · subst hd
      simpa [Gateway.modify] using hf.walletAddress
    · simp [Gateway.modify, hd]
  refine ⟨h.connected, h.made, fun topic d hd => (h.entitled topic d hd).of_eq (hadmin d) (hwallet d), ?_⟩
  intro d frame hframe
  refine Proper.of_eq ?_ (hadmin d) (hwallet d)
  by_cases hd : d = c
  · subst hd
    exact hf.all frame (by simpa [Gateway.modify] using hframe)
  · exact h.proper d frame (by simpa [Gateway.modify, hd] using hframe)

/-- An update of a client that keeps its topics keeps the indexes equal. -/
theorem InSync.modify {f : ClientState π → ClientState π} (h : InSync g)
    (hf : (f (g.client c)).topics = (g.client c).topics) : InSync (g.modify c f) := by
  intro d k
  by_cases hd : d = c
  · subst hd
    simpa [Gateway.modify, hf] using h d k
  · simpa [Gateway.modify, hd] using h d k

/-- A frame that is no event may be sent to anyone. -/
theorem Valid.send (h : Valid g) (hframe : ∀ topic payload, frame ≠ .event topic payload) :
    Valid (g.send c frame) :=
  h.modify (told_send (h.proper c) fun topic payload heq => absurd heq (hframe topic payload))

theorem InSync.send (h : InSync g) (frame : Frame π) : InSync (g.send c frame) :=
  h.modify (send_topics _ _)

/-- A publication reaches the clients of the topic's set, who may hear it. -/
theorem Valid.publish (h : Valid g) (topic : String) (payload : π) : Valid (publish g topic payload) := by
  refine (List.foldlRecOn (motive := fun g' : Gateway π => Valid g' ∧ g'.subscriptions = g.subscriptions) _ _
    ⟨h, rfl⟩ ?_).1
  rintro g' ⟨hvalid, hsubs⟩ d hd
  refine ⟨hvalid.modify (told_push (hvalid.proper d) ?_ ?_), hsubs⟩
  · exact fun message t p heq => nomatch heq
  · intro topic' payload' heq
    cases heq
    exact hvalid.entitled topic d (hsubs ▸ hd)

theorem InSync.publish (h : InSync g) (topic : String) (payload : π) : InSync (publish g topic payload) :=
  List.foldlRecOn (motive := InSync) _ _ h fun _ hsync _ _ =>
    hsync.modify (push_topics _ _)

theorem Valid.heartbeat (h : Valid g) (now : Nat) : Valid (heartbeat g now) :=
  List.foldlRecOn (motive := Valid) _ _ h fun _ hvalid d _ =>
    hvalid.modify (told_beat (hvalid.proper d) now nofun)

theorem InSync.heartbeat (h : InSync g) (now : Nat) : InSync (heartbeat g now) :=
  List.foldlRecOn (motive := InSync) _ _ h fun _ hsync _ _ =>
    hsync.modify (beat_topics now _)

/-! ## The two indexes -/

/-- A subscription adds one client to one set. -/
theorem mem_subscribe {key k : Key} {d : Nat} :
    d ∈ (g.subscribe c key).subscriptions k ↔ d ∈ g.subscriptions k ∨ (d = c ∧ k = key) := by
  show d ∈ (if k = key then add (g.subscriptions k) c else g.subscriptions k) ↔ _
  split <;> simp [*, or_comm]

/-- Forgetting takes one client from one set. -/
theorem mem_forget {key k : Key} {d : Nat} :
    d ∈ (g.forget c key).subscriptions k ↔ d ∈ g.subscriptions k ∧ ¬ (d = c ∧ k = key) := by
  show d ∈ (if k = key then delete (g.subscriptions k) c else g.subscriptions k) ↔ _
  split <;> simp [*]

/-- The sets changed. -/
theorem Valid.withSubscriptions {subscriptions : Key → List Nat} (h : Valid g)
    (hmem : ∀ key, ∀ d ∈ subscriptions key, d ∈ g.subscriptions key ∨
      (d < g.made ∧ ∀ topic, key = .str topic → Entitled (g.client d) topic)) :
    Valid { g with subscriptions := subscriptions } := by
  refine ⟨h.connected, fun key d hd => ?_, fun topic d hd => ?_, h.proper⟩
  · rcases hmem key d hd with hold | ⟨hmade, -⟩
    · exact h.made key d hold
    · exact hmade
  · rcases hmem (.str topic) d hd with hold | ⟨-, hentitled⟩
    · exact h.entitled topic d hold
    · exact hentitled topic rfl

/-- A client may be added to the set of a string topic it is entitled to. -/
theorem Valid.subscribe {key : Key} (h : Valid g) (hc : c < g.made)
    (hkey : ∀ topic, key = .str topic → Entitled (g.client c) topic) : Valid (g.subscribe c key) := by
  have hmore : Valid { g with subscriptions := (g.subscribe c key).subscriptions } := by
    refine h.withSubscriptions fun k d hd => ?_
    rcases mem_subscribe.mp hd with hold | ⟨rfl, rfl⟩
    · exact Or.inl hold
    · exact Or.inr ⟨hc, hkey⟩
  have htold : Told (Proper (g.client c)) (g.client c)
      { g.client c with topics := add (g.client c).topics key } := ⟨rfl, rfl, h.proper c⟩
  exact hmore.modify (f := fun client => { client with topics := add client.topics key }) htold

theorem Valid.forget (h : Valid g) (c : Nat) (key : Key) : Valid (g.forget c key) :=
  h.withSubscriptions fun _ _ hd => Or.inl (mem_forget.mp hd).1

theorem Valid.unsubscribe (h : Valid g) (c : Nat) (key : Key) : Valid (g.unsubscribe c key) :=
  (h.forget c key).modify (f := fun client => { client with topics := delete client.topics key })
    ⟨rfl, rfl, h.proper c⟩

/-- Both indexes take the topic, of a client that is still connected. -/
theorem InSync.subscribe {key : Key} (h : InSync g) (hc : c ∈ g.connected) : InSync (g.subscribe c key) := by
  intro d k
  rw [mem_subscribe, h d k]
  by_cases hd : d = c
  · subst hd
    simp [Gateway.subscribe, Gateway.modify, hc, or_comm]
  · simp [Gateway.subscribe, Gateway.modify, hd]

/-- Both indexes drop the topic. -/
theorem InSync.unsubscribe (h : InSync g) (c : Nat) (key : Key) : InSync (g.unsubscribe c key) := by
  intro d k
  show d ∈ (g.forget c key).subscriptions k ↔ _
  rw [mem_forget, h d k]
  by_cases hd : d = c
  · subst hd
    simp [Gateway.unsubscribe, Gateway.forget, Gateway.modify]
    tauto
  · simp [Gateway.unsubscribe, Gateway.forget, Gateway.modify, hd]

/-- The loop of `onClose` takes the client from the sets of its topics only. -/
theorem forgetEach_spec (topics : List Key) (c : Nat) (g : Gateway π) :
    (topics.foldl (fun g key => g.forget c key) g).client = g.client ∧
      (topics.foldl (fun g key => g.forget c key) g).connected = g.connected ∧
      ∀ d k, d ∈ (topics.foldl (fun g key => g.forget c key) g).subscriptions k ↔
        d ∈ g.subscriptions k ∧ ¬ (d = c ∧ k ∈ topics) := by
  induction topics generalizing g with
  | nil => simp
  | cons key topics ih =>
      obtain ⟨hclient, hconnected, hmem⟩ := ih (g.forget c key)
      refine ⟨hclient, hconnected, fun d k => ?_⟩
      rw [List.foldl_cons, hmem, mem_forget, List.mem_cons]
      tauto

/-- A close only takes clients away. -/
theorem Valid.onClose (h : Valid g) (c : Nat) : Valid (onClose g c) := by
  have hclosed : Valid ((g.client c).topics.foldl (fun g key => g.forget c key) g) :=
    List.foldlRecOn (motive := Valid) _ _ h fun _ hvalid key _ => hvalid.forget c key
  exact ⟨fun d hd => hclosed.connected d (mem_delete.mp hd).1, hclosed.made, hclosed.entitled, hclosed.proper⟩

/-- The client keeps its topics, but it is connected no longer. -/
theorem InSync.onClose (h : InSync g) (c : Nat) : InSync (onClose g c) := by
  obtain ⟨hclient, hconnected, hmem⟩ := forgetEach_spec (g.client c).topics c g
  intro d k
  simp only [WebSocketGateway.onClose, hclient, hconnected, hmem, mem_delete, h d k]
  by_cases hd : d = c
  · subst hd
    simpa using fun hk _ => hk
  · simp [hd]

/-- A new client has a number no set holds. -/
theorem Valid.onConnection {secret : String} {verifyJwt : String → Option String} (h : Valid g)
    (req : Upgrade) : Valid (onConnection secret verifyJwt g req) := by
  unfold WebSocketGateway.onConnection
  split
  · exact h
  · rename_i walletAddress isAdmin _
    refine ⟨fun d hd => ?_, fun key d hd => Nat.lt_succ_of_lt (h.made key d hd), fun topic d hd => ?_, fun d => ?_⟩
    · rcases mem_add.mp hd with rfl | hd
      · exact Nat.lt_succ_self _
      · exact Nat.lt_succ_of_lt (h.connected d hd)
    · -- whoever is in a set connected before
      have hne : d ≠ g.made := (h.made _ d hd).ne
      simpa [hne] using h.entitled topic d hd
    · by_cases hd : d = g.made
      · simp only [hd, if_true]
        exact (told_send (fun _ hframe => by simp at hframe) nofun).all
      · simpa [hd] using h.proper d

/-- It starts without topics, and no set holds its number. -/
theorem InSync.onConnection {secret : String} {verifyJwt : String → Option String} (h : InSync g)
    (hvalid : Valid g) (req : Upgrade) : InSync (onConnection secret verifyJwt g req) := by
  unfold WebSocketGateway.onConnection
  split
  · exact h
  · intro d k
    by_cases hd : d = g.made
    · have hnew : d ∉ g.subscriptions k := fun hmem => (hvalid.made k d hmem).ne hd
      simp [hd, send_topics, hd ▸ hnew]
    · simpa [hd] using h d k

/-! ## The loops over topics -/

/-- What a client may subscribe to does not change as it subscribes. -/
theorem isAuthorized_subscribe (key : Key) (topic : Json) :
    isAuthorized ((g.subscribe c key).client c) topic = isAuthorized (g.client c) topic := by
  simp [isAuthorized, Gateway.subscribe, Gateway.modify]

/-- **THE SUBSCRIBE LOOP**: what one accepted topic keeps, the loop keeps. -/
theorem subscribeEach_invariant {I : Gateway π → Prop} {frame : Nat}
    (hstep : ∀ g key, I g → (∀ topic, key = .str topic → Entitled (g.client c) topic) → I (g.subscribe c key))
    (i : Nat) (topics : List Json) (hg : I g) : I (subscribeEach c frame i topics g).1 := by
  induction topics generalizing i g with
  | nil => exact hg
  | cons topic topics ih =>
      unfold subscribeEach
      split
      · exact hg
      · exact ih (i + 1) hg
      · rename_i hauthorized
        refine ih (i + 1) (hstep g _ hg fun t ht => ?_)
        rw [str_of_keyOf ht] at hauthorized
        exact entitled_of_isAuthorized hauthorized

/-- It throws at a topic that is no string. -/
theorem subscribeEach_throws (frame i : Nat) (topics : List Json) :
    (subscribeEach c frame i topics g).2 = none ↔ ∃ topic ∈ topics, isAuthorized (g.client c) topic = none := by
  induction topics generalizing i g with
  | nil => simp [subscribeEach]
  | cons topic topics ih =>
      unfold subscribeEach
      split <;> simp [*, isAuthorized_subscribe]

/-- Without a topic that is accepted it changes nothing. -/
theorem subscribeEach_rejected (frame i : Nat) (topics : List Json)
    (h : ∀ topic ∈ topics, isAuthorized (g.client c) topic ≠ some true) :
    (subscribeEach c frame i topics g).1 = g := by
  induction topics generalizing i with
  | nil => rfl
  | cons topic topics ih =>
      obtain ⟨hhead, hrest⟩ := List.forall_mem_cons.mp h
      unfold subscribeEach
      split
      · rfl
      · exact ih (i + 1) hrest
      · contradiction

/-- A topic that is accepted puts the client in a set. -/
theorem subscribeEach_accepted (frame i : Nat) (topics : List Json)
    (hreturns : (subscribeEach c frame i topics g).2 ≠ none)
    (h : ∃ topic ∈ topics, isAuthorized (g.client c) topic = some true) :
    ∃ key, c ∈ (subscribeEach c frame i topics g).1.subscriptions key := by
  induction topics generalizing i g with
  | nil => simp at h
  | cons topic topics ih =>
      unfold subscribeEach at hreturns ⊢
      split at hreturns
      · exact absurd rfl hreturns
      · rename_i hauthorized
        refine ih (i + 1) (by simpa using hreturns) ?_
        simpa [hauthorized] using h
      · refine ⟨keyOf frame i topic, ?_⟩
        refine subscribeEach_invariant (I := fun g' => c ∈ g'.subscriptions (keyOf frame i topic)) ?_ (i + 1) topics ?_
        · exact fun g' key hg' _ => mem_subscribe.mpr (Or.inl hg')
        · exact mem_subscribe.mpr (Or.inr ⟨rfl, rfl⟩)

/-- What dropping one topic keeps, the loop keeps. -/
theorem unsubscribeEach_invariant {I : Gateway π → Prop} {frame : Nat}
    (hstep : ∀ g key, I g → I (g.unsubscribe c key)) (i : Nat) (topics : List Json) (hg : I g) :
    I (unsubscribeEach c frame i topics g) := by
  induction topics generalizing i g with
  | nil => exact hg
  | cons topic topics ih => exact ih (i + 1) (hstep g _ hg)

/-! ## Templates -/

/-- Two pieces are there if each is. -/
theorem both_isSome (head : Option (List Char)) (tail : Option (List (List Char))) :
    (do let x ← head; let xs ← tail; return x :: xs).isSome = true ↔ head.isSome = true ∧ tail.isSome = true := by
  cases head <;> cases tail <;> simp

mutual

/-- A value is printed unless an object's own `toString` is in the way. -/
theorem template_isSome (v : Json) : (template v).isSome = true ↔ Printable v := by
  cases v with
  | null => simp only [template, Printable, Option.isSome_some]
  | bool b => simp only [template, Printable, Option.isSome_some]
  | num n => simp only [template, Printable, Option.isSome_some]
  | str s => simp only [template, Printable, Option.isSome_some]
  | arr items =>
      rw [template, Printable, Option.isSome_map]
      exact pieces_isSome items
  | obj fields =>
      rw [template, Printable]
      split
      · rename_i hown
        obtain ⟨f, hf, hname⟩ := hown
        exact iff_of_false nofun fun h => h f hf hname
      · rename_i hown
        exact iff_of_true rfl fun f hf hname => hown ⟨f, hf, hname⟩

/-- An array is printed when all its items are. -/
theorem pieces_isSome (items : List Json) : (pieces items).isSome = true ↔ PrintableItems items := by
  match items with
  | [] => simp only [pieces, PrintableItems, Option.isSome_some]
  | item :: items =>
      rw [PrintableItems, ← template_isSome item, ← pieces_isSome items]
      by_cases hnull : item = .null
      · subst hnull
        rw [pieces, template]
        exact both_isSome (some []) (pieces items)
      · rw [pieces]
        · exact both_isSome (template item) (pieces items)
        · exact hnull

end

/-! ## A message -/

variable {frame now : Nat}

/-- What comes of a subscription: the loop throws, or its answer is sent. -/
theorem handleSubscribe_cases (g : Gateway π) (c frame : Nat) (topics : List Json) :
    ((subscribeEach c frame 0 topics g).2 = none ∧
      handleSubscribe g c frame topics = ((subscribeEach c frame 0 topics g).1, true)) ∨
    ((subscribeEach c frame 0 topics g).2 ≠ none ∧ ∃ accepted rejected,
      handleSubscribe g c frame topics =
        ((subscribeEach c frame 0 topics g).1.send c (.subscribed accepted rejected), false)) := by
  unfold handleSubscribe
  rcases subscribeEach c frame 0 topics g with ⟨g', _ | ⟨accepted, rejected⟩⟩
  · exact Or.inl ⟨rfl, rfl⟩
  · exact Or.inr ⟨nofun, accepted, rejected, rfl⟩

/-- Whatever is asked for, who is in a set may hear it. -/
theorem handle_valid (h : Valid g) (hc : c < g.made) (req : Request) : Valid (handle g c frame now req).1 := by
  cases req with
  | subscribe topics =>
      have hloop : Valid (subscribeEach c frame 0 topics g).1 ∧ c < (subscribeEach c frame 0 topics g).1.made :=
        subscribeEach_invariant (I := fun g => Valid g ∧ c < g.made)
          (fun g key hg hkey => ⟨hg.1.subscribe hg.2 hkey, hg.2⟩) 0 topics ⟨h, hc⟩
      show Valid (handleSubscribe g c frame topics).1
      rcases handleSubscribe_cases g c frame topics with ⟨-, heq⟩ | ⟨-, accepted, rejected, heq⟩
      · rw [heq]
        exact hloop.1
      · rw [heq]
        exact hloop.1.send fun _ _ => nofun
  | unsubscribe topics =>
      have hloop : Valid (unsubscribeEach c frame 0 topics g) :=
        unsubscribeEach_invariant (fun g key hg => hg.unsubscribe c key) 0 topics h
      exact hloop.send fun _ _ => nofun
  | ping => exact h.send fun _ _ => nofun
  | unknown type =>
      simp only [handle]
      split
      · exact h
      · exact h.send fun _ _ => nofun

/-- A client that is gone is in no set. -/
theorem InSync.not_mem (h : InSync g) (hc : c ∉ g.connected) (key : Key) : c ∉ g.subscriptions key :=
  fun hmem => hc ((h c key).mp hmem).2

/-- **A MESSAGE**: it is handled without throwing and leaves the indexes equal if
    and only if it is sound. -/
theorem handle_iff (h : InSync g) (c frame now : Nat) (req : Request) :
    (handle g c frame now req).2 = false ∧ InSync (handle g c frame now req).1 ↔ Sound g c req := by
  cases req with
  | subscribe topics =>
      have hthrows := subscribeEach_throws (g := g) (c := c) frame 0 topics
      simp only [isAuthorized_eq_none] at hthrows
      show (handleSubscribe g c frame topics).2 = false ∧ InSync (handleSubscribe g c frame topics).1 ↔ _
      rcases handleSubscribe_cases g c frame topics with ⟨hnone, heq⟩ | ⟨hsome, accepted, rejected, heq⟩
      · -- it threw, at a topic that is no string
        obtain ⟨topic, htopic, hbad⟩ := hthrows.mp hnone
        rw [heq]
        exact iff_of_false nofun fun hsound => hbad (hsound.1 topic htopic)
      · have hstrings : ∀ topic ∈ topics, (g.client c).isAdmin = true ∨ ∃ s, topic = .str s := by
          intro topic htopic
          by_contra hbad
          exact hsome (hthrows.mpr ⟨topic, htopic, hbad⟩)
        rw [heq]
        constructor
        · rintro ⟨-, hsync⟩
          refine ⟨hstrings, ?_⟩
          -- a client that is gone would be in the set of the topic accepted
          by_contra hlate
          push Not at hlate
          obtain ⟨hgone, haccepted⟩ := hlate
          obtain ⟨key, hmem⟩ := subscribeEach_accepted frame 0 topics hsome haccepted
          have hconnected : (subscribeEach c frame 0 topics g).1.connected = g.connected :=
            subscribeEach_invariant (I := fun g' => g'.connected = g.connected) (fun _ _ hg' _ => hg') 0 topics rfl
          exact hsync.not_mem (fun hin => hgone (hconnected ▸ hin)) key hmem
        · rintro ⟨-, hconnected | hrejected⟩
          · have hloop : InSync (subscribeEach c frame 0 topics g).1 ∧
                c ∈ (subscribeEach c frame 0 topics g).1.connected :=
              subscribeEach_invariant (I := fun g => InSync g ∧ c ∈ g.connected)
                (fun g key hg _ => ⟨hg.1.subscribe hg.2, hg.2⟩) 0 topics ⟨h, hconnected⟩
            exact ⟨rfl, hloop.1.send _⟩
          · rw [subscribeEach_rejected frame 0 topics hrejected]
            exact ⟨rfl, h.send _⟩
  | unsubscribe topics =>
      have hloop : InSync (unsubscribeEach c frame 0 topics g) :=
        unsubscribeEach_invariant (fun g key hg => hg.unsubscribe c key) 0 topics h
      exact iff_of_true ⟨rfl, hloop.send _⟩ trivial
  | ping => exact iff_of_true ⟨rfl, h.send _⟩ trivial
  | unknown type =>
      cases type with
      | none => exact iff_of_true ⟨rfl, h.send _⟩ trivial
      | some type =>
          show _ ↔ Printable type
          rw [← template_isSome]
          simp only [handle, Option.elim_some]
          cases template type with
          | none => simp
          | some text => exact iff_of_true ⟨rfl, h.send _⟩ rfl

/-! ## Every run -/

variable (parse : String → Option Json) (secret : String) (verifyJwt : String → Option String)

/-- So it is for every frame, parsed or not. -/
theorem onMessage_valid (h : Valid g) (hc : c < g.made) (raw : String) (now : Nat) :
    Valid (onMessage parse g c raw now).1 := by
  unfold onMessage
  split
  · exact h.send fun _ _ => nofun
  · split
    · exact h
    · have hcounted : Valid { g with frames := g.frames + 1 } := ⟨h.connected, h.made, h.entitled, h.proper⟩
      exact handle_valid hcounted hc _

/-- **A FRAME**: it is survived if and only if, parsed, it is a sound request. -/
theorem onMessage_iff (h : InSync g) (c : Nat) (raw : String) (now : Nat) :
    (onMessage parse g c raw now).2 = false ∧ InSync (onMessage parse g c raw now).1 ↔
      ∀ msg, parse raw = some msg → ∃ req, request msg = some req ∧ Sound g c req := by
  unfold onMessage
  cases hparse : parse raw with
  | none => exact iff_of_true ⟨rfl, h.send _⟩ nofun
  | some msg =>
      cases hreq : request msg with
      | none => simp [hreq]
      | some req =>
          have hcounted : InSync { g with frames := g.frames + 1 } := h
          have hsame : Sound { g with frames := g.frames + 1 } c req ↔ Sound g c req := by
            cases req with
            | unknown type => cases type <;> rfl
            | _ => rfl
          simpa [hreq, hsame] using handle_iff hcounted c g.frames now req

/-- **PRIVACY IS KEPT** by every event, with no condition on it. -/
theorem step_valid (x : Event π) (g : Gateway π) (h : Valid g) : Valid (step parse secret verifyJwt x g) := by
  cases x with
  | connection req => exact h.onConnection req
  | message c raw now =>
      simp only [step]
      split
      · exact onMessage_valid parse h ‹_› raw now
      · exact h
  | close c | error c =>
      simp only [step]
      split
      · exact h.onClose c
      · exact h
  | pong c => exact h.modify (f := fun client => { client with isAlive := true }) ⟨rfl, rfl, h.proper c⟩
  | readyState c isOpen =>
      exact h.modify (f := fun client => { client with isOpen := isOpen }) ⟨rfl, rfl, h.proper c⟩
  | heartbeat now => exact h.heartbeat now
  | publish topic payload => exact h.publish topic payload

theorem start_valid : Valid (start : Gateway π) :=
  ⟨nofun, nofun, nofun, fun _ _ h => by simp [start] at h⟩

theorem start_inSync : InSync (start : Gateway π) := by
  intro c k
  simp [start]

/-- **A STEP**: from equal indexes a step is survived if and only if the frame it
    brings is well formed. -/
theorem survived_iff (x : Event π) (g : Gateway π) (hvalid : Valid g) (h : InSync g) :
    Survived parse secret verifyJwt x g ↔ WellFormed parse x g := by
  have hprivate := (step_valid parse secret verifyJwt x g hvalid).private
  have hother : (∀ c raw now, x ≠ .message c raw now) → InSync (step parse secret verifyJwt x g) →
      (Survived parse secret verifyJwt x g ↔ WellFormed parse x g) := fun hx hsync =>
    iff_of_true ⟨fun c raw now heq => absurd heq (hx c raw now), hsync, hprivate⟩
      fun c raw now msg heq => absurd heq (hx c raw now)
  -- only a message can break a connection: the others end well
  cases x with
  | connection req => exact hother (fun _ _ _ => nofun) (h.onConnection hvalid req)
  | message c raw now =>
      have hframe := onMessage_iff parse h c raw now
      constructor
      · rintro ⟨hreturns, hsync, -⟩ d raw' now' msg heq hd hparse
        cases heq
        simp only [step, hd, if_true] at hsync
        exact hframe.mp ⟨hreturns c raw now rfl hd, hsync⟩ msg hparse
      · intro hwell
        refine ⟨fun d raw' now' heq hd => ?_, ?_, hprivate⟩
        · cases heq
          exact (hframe.mpr fun msg hparse => hwell c raw now msg rfl hd hparse).1
        · simp only [step]
          split
          · exact (hframe.mpr fun msg hparse => hwell c raw now msg rfl ‹_› hparse).2
          · exact h
  | close c | error c =>
      refine hother (fun _ _ _ => nofun) ?_
      simp only [step]
      split
      · exact h.onClose c
      · exact h
  | pong c =>
      exact hother (fun _ _ _ => nofun) (h.modify (f := fun client => { client with isAlive := true }) rfl)
  | readyState c isOpen =>
      exact hother (fun _ _ _ => nofun) (h.modify (f := fun client => { client with isOpen := isOpen }) rfl)
  | heartbeat now => exact hother (fun _ _ _ => nofun) (h.heartbeat now)
  | publish topic payload => exact hother (fun _ _ _ => nofun) (h.publish topic payload)

/-- **THE GATEWAY IN EVERY RUN**: another's wallet topic is never sent, and the
    gateway survives with equal indexes exactly the runs whose frames are well
    formed. -/
theorem gateway_survives_iff (parse : String → Option Json) (secret : String)
    (verifyJwt : String → Option String) (xs : List (Event π)) :
    Private (exec (step parse secret verifyJwt) xs start) ∧
      (Along (step parse secret verifyJwt) (Survived parse secret verifyJwt) xs start ↔
        Along (step parse secret verifyJwt) (WellFormed parse) xs start) := by
  constructor
  · exact (exec_invariant_always (I := Valid) (step_valid parse secret verifyJwt) start_valid xs).private
  · refine along_congr (I := fun g => Valid g ∧ InSync g) ?_ ?_ ⟨start_valid, start_inSync⟩ xs
    · exact fun x g hg => survived_iff parse secret verifyJwt x g hg.1 hg.2
    · exact fun x g hwell hg => ⟨step_valid parse secret verifyJwt x g hg.1, ((survived_iff parse secret verifyJwt x g hg.1 hg.2).mpr hwell).2.1⟩

/-- The frame `null` of a client with a valid token. -/
theorem null_frame_throws : ¬ Along (step (fun raw => if raw = "null" then some Json.null else none) "" some)
    (Survived (fun raw => if raw = "null" then some Json.null else none) "" some)
    [Event.connection ⟨some "alice", none, none⟩, .message 0 "null" 0] (start : Gateway Unit) := by
  rintro ⟨-, ⟨hreturns, -⟩, -⟩
  exact Bool.noConfusion (hreturns 0 "null" 0 rfl (by decide))

end

end WebSocketGateway
