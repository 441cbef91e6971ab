import StellarSave.ChainProofs
import StellarSave.JsonProofs
import StellarSave.TextProofs

/-! # Trail — the regulatory audit trail

    `recordFinancialEvent` appends to an in-memory log and hashes six values of
    the event joined by `|`: the last hash, the id, the actor, the event type,
    the group and the timestamp.  `verifyAuditChain` computes the same from the
    genesis hash.  The amount, the recipient, the transaction hash and the
    metadata are in no hash, and no change of theirs is ever found. -/

namespace RegulatoryTrail

open HashChain Text

-- ── Events ────────────────────────────────────────────────────────────────────

inductive FinancialEventType where
  | groupCreated
  | memberJoined
  | contributionReceived
  | payoutExecuted
  | groupPaused
  | groupUnpaused
  | groupCompleted
  deriving DecidableEq, Repr

/-- The string of an event type. -/
def FinancialEventType.text : FinancialEventType → String
  | .groupCreated => "group.created"
  | .memberJoined => "member.joined"
  | .contributionReceived => "contribution.received"
  | .payoutExecuted => "payout.executed"
  | .groupPaused => "group.paused"
  | .groupUnpaused => "group.unpaused"
  | .groupCompleted => "group.completed"

theorem FinancialEventType.text_inj {s t : FinancialEventType} (h : s.text = t.text) : s = t := by
  cases s <;> cases t <;> first | rfl | exact absurd h (by decide)

/-- A number as the language prints it. -/
inductive JsNumber where
  | finite (n : Numeral)
  | infinity (negative : Bool)
  | nan
  deriving DecidableEq

def JsNumber.chars : JsNumber → List Char
  | .finite n => n.text
  | .infinity false => ['I', 'n', 'f', 'i', 'n', 'i', 't', 'y']
  | .infinity true => ['-', 'I', 'n', 'f', 'i', 'n', 'i', 't', 'y']
  | .nan => ['N', 'a', 'N']

/-- `String(number)`. -/
def JsNumber.text (n : JsNumber) : String := String.ofList n.chars

/-- A finite number is written without the letter `n`. -/
theorem finite_ne {n : Numeral} {cs : List Char} (hc : ∃ c ∈ cs, numeralChar c = false) :
    n.text ≠ cs := by
  intro h
  obtain ⟨c, hmem, hno⟩ := hc
  have hyes := n.chars c (h ▸ hmem)
  rw [hno] at hyes
  exact absurd hyes (by decide)

theorem JsNumber.text_inj {m n : JsNumber} (h : m.text = n.text) : m = n := by
  have hchars : m.chars = n.chars := String.ofList_inj.mp h
  -- every number that is not finite has a letter in it
  have hother : ∀ k : JsNumber, (∀ q, k ≠ .finite q) → ∃ c ∈ k.chars, numeralChar c = false := by
    intro k hk
    cases k with
    | finite q => exact absurd rfl (hk q)
    | infinity negative => cases negative <;> exact ⟨'n', by simp [JsNumber.chars], rfl⟩
    | nan => exact ⟨'N', by simp [JsNumber.chars], rfl⟩
  -- finite numbers differ in their decimals
  cases m with
  | finite a =>
      cases n with
      | finite b =>
          cases a
          cases b
          simp_all [JsNumber.chars]
      | _ => exact absurd hchars (finite_ne (hother _ (by simp)))
  | infinity a =>
      cases n with
      | finite b => exact absurd hchars.symm (finite_ne (hother _ (by simp)))
      | infinity b =>
          cases a <;> cases b <;> first | rfl | exact absurd hchars (by decide)
      | nan => cases a <;> exact absurd hchars (by decide)
  | nan =>
      cases n with
      | finite b => exact absurd hchars.symm (finite_ne (hother _ (by simp)))
      | infinity b => cases b <;> exact absurd hchars (by decide)
      | nan => rfl

structure FinancialAuditEvent where
  id : String
  timestamp : String
  eventType : FinancialEventType
  actorAddress : String
  groupId : JsNumber
  amount : Option String
  recipient : Option String
  txHash : Option String
  metadata : Json
  hash : String
  prevHash : String

/-- What a caller passes: an event less `id`, `timestamp` and the hashes. -/
structure EventParams where
  eventType : FinancialEventType
  actorAddress : String
  groupId : JsNumber
  amount : Option String
  recipient : Option String
  txHash : Option String
  metadata : Json

/-- The in-memory store. -/
structure Store where
  auditLog : List FinancialAuditEvent
  lastHash : String

def genesis : String := "0000000000000000000000000000000000000000000000000000000000000000"

def initial : Store := { auditLog := [], lastHash := genesis }

/-- The text that is hashed. -/
def payload (prev id actorAddress : String) (eventType : FinancialEventType) (groupId : JsNumber)
    (timestamp : String) : String :=
  "|".intercalate [prev, id, actorAddress, eventType.text, groupId.text, timestamp]

section
variable (sha : String → String)

/-- `recordFinancialEvent`, with the id and the timestamp it draws. -/
def recordFinancialEvent (s : Store) (params : EventParams) (id timestamp : String) : Store :=
  let hash := sha (payload s.lastHash id params.actorAddress params.eventType params.groupId timestamp)
  { auditLog := s.auditLog ++
      [{ id, timestamp, eventType := params.eventType, actorAddress := params.actorAddress,
         groupId := params.groupId, amount := params.amount, recipient := params.recipient,
         txHash := params.txHash, metadata := params.metadata, hash, prevHash := s.lastHash }]
    lastHash := hash }

structure ChainResult where
  valid : Bool
  firstInvalidIndex : Option Nat
  deriving DecidableEq, Repr

/-- The loop of `verifyAuditChain`, from the hash of the event before. -/
def verifyFrom : String → Nat → List FinancialAuditEvent → ChainResult
  | _, _, [] => { valid := true, firstInvalidIndex := none }
  | prev, i, e :: es =>
      let expected := sha (payload prev e.id e.actorAddress e.eventType e.groupId e.timestamp)
      if e.hash ≠ expected ∨ e.prevHash ≠ prev then { valid := false, firstInvalidIndex := some i }
      else verifyFrom e.hash (i + 1) es

def verifyAuditChain (auditLog : List FinancialAuditEvent) : ChainResult :=
  verifyFrom sha genesis 0 auditLog

/-- The store after a sequence of calls, each with its id and timestamp. -/
def recordAll (calls : List (EventParams × String × String)) : Store :=
  calls.foldl (fun s c => recordFinancialEvent sha s c.1 c.2.1 c.2.2) initial

end

/-- The text an event was hashed to. -/
def FinancialAuditEvent.text (e : FinancialAuditEvent) : String :=
  payload e.prevHash e.id e.actorAddress e.eventType e.groupId e.timestamp

section
variable {sha : String → String}

/-- **WHAT `verifyAuditChain` CHECKS**: the log is a chain from the genesis hash. -/
theorem verifyFrom_valid_iff (prev : String) (i : Nat) (es : List FinancialAuditEvent) :
    (verifyFrom sha prev i es).valid = true
      ↔ Linked FinancialAuditEvent.prevHash FinancialAuditEvent.hash (fun e => sha e.text) prev es := by
  induction es generalizing prev i with
  | nil => simp [verifyFrom]
  | cons e es ih =>
      simp only [verifyFrom, linked_cons]
      split
      · next h =>
          refine iff_of_false Bool.false_ne_true ?_
          rintro ⟨rfl, hhash, -⟩
          exact absurd h (not_or.mpr ⟨not_not.mpr hhash, not_not.mpr rfl⟩)
      · next h =>
          rw [not_or, not_not, not_not] at h
          obtain ⟨hhash, rfl⟩ := h
          rw [ih]
          exact ⟨fun hrest => ⟨rfl, hhash, hrest⟩, fun hall => hall.2.2⟩

/-- The store keeps the hash of the last event, and the log is a chain. -/
def Chained (sha : String → String) (s : Store) : Prop :=
  Linked FinancialAuditEvent.prevHash FinancialAuditEvent.hash (fun e => sha e.text) genesis s.auditLog
    ∧ s.lastHash = HashChain.lastHash FinancialAuditEvent.hash genesis s.auditLog

theorem recordFinancialEvent_chained {s : Store} (h : Chained sha s) (params : EventParams)
    (id timestamp : String) : Chained sha (recordFinancialEvent sha s params id timestamp) := by
  obtain ⟨hlinked, hlast⟩ := h
  refine ⟨linked_concat hlinked hlast rfl, ?_⟩
  simp only [recordFinancialEvent, lastHash_concat]

theorem recordAll_chained (sha : String → String) (calls : List (EventParams × String × String)) :
    Chained sha (recordAll sha calls) := by
  have hrun : ∀ s, Chained sha s →
      Chained sha (calls.foldl (fun s c => recordFinancialEvent sha s c.1 c.2.1 c.2.2) s) := by
    induction calls with
    | nil => exact fun s hs => hs
    | cons c calls ih =>
        exact fun s hs => ih _ (recordFinancialEvent_chained hs c.1 c.2.1 c.2.2)
  exact hrun initial ⟨trivial, rfl⟩

-- ── A changed event ───────────────────────────────────────────────────────────

/-- The fields of an event that carry what was done. -/
inductive Field where
  | actorAddress
  | eventType
  | groupId
  | amount
  | recipient
  | txHash
  | metadata
  | timestamp
  deriving DecidableEq, Repr

/-- The fields in the hashed text. -/
def Field.hashed : Field → Bool
  | .actorAddress | .eventType | .groupId | .timestamp => true
  | .amount | .recipient | .txHash | .metadata => false

/-- An event with one field changed to a different value. -/
inductive Changed (e : FinancialAuditEvent) : Field → FinancialAuditEvent → Prop where
  | actorAddress (v : String) : v ≠ e.actorAddress →
      Changed e .actorAddress { e with actorAddress := v }
  | eventType (v : FinancialEventType) : v ≠ e.eventType →
      Changed e .eventType { e with eventType := v }
  | groupId (v : JsNumber) : v ≠ e.groupId → Changed e .groupId { e with groupId := v }
  | amount (v : Option String) : v ≠ e.amount → Changed e .amount { e with amount := v }
  | recipient (v : Option String) : v ≠ e.recipient → Changed e .recipient { e with recipient := v }
  | txHash (v : Option String) : v ≠ e.txHash → Changed e .txHash { e with txHash := v }
  | metadata (v : Json) : v ≠ e.metadata → Changed e .metadata { e with metadata := v }
  | timestamp (v : String) : v ≠ e.timestamp → Changed e .timestamp { e with timestamp := v }

/-- A change shows in the hashed text exactly when the field is in it. -/
theorem text_changed_iff {e e' : FinancialAuditEvent} {f : Field} (h : Changed e f e') :
    e'.text = e.text ↔ f.hashed = false := by
  simp only [FinancialAuditEvent.text, payload]
  cases h with
  | actorAddress v hv =>
      refine ⟨fun htext => ?_, fun hf => absurd hf (by decide)⟩
      exact absurd (intercalate_field_inj [_, _] [_, _] rfl rfl htext).2.1 hv
  | eventType v hv =>
      refine ⟨fun htext => ?_, fun hf => absurd hf (by decide)⟩
      have hfield := (intercalate_field_inj [_, _, _] [_, _, _] rfl rfl htext).2.1
      exact absurd (FinancialEventType.text_inj hfield) hv
  | groupId v hv =>
      refine ⟨fun htext => ?_, fun hf => absurd hf (by decide)⟩
      have hfield :=
        (intercalate_field_inj [_, _, _, _] [_, _, _, _] rfl rfl htext).2.1
      exact absurd (JsNumber.text_inj hfield) hv
  | timestamp v hv =>
      refine ⟨fun htext => ?_, fun hf => absurd hf (by decide)⟩
      exact absurd
        (intercalate_field_inj [_, _, _, _, _] [_, _, _, _, _] rfl rfl htext).2.1 hv
  | amount => exact ⟨fun _ => rfl, fun _ => rfl⟩
  | recipient => exact ⟨fun _ => rfl, fun _ => rfl⟩
  | txHash => exact ⟨fun _ => rfl, fun _ => rfl⟩
  | metadata => exact ⟨fun _ => rfl, fun _ => rfl⟩

theorem Changed.hash_eq {e e' : FinancialAuditEvent} {f : Field} (h : Changed e f e') :
    e'.hash = e.hash := by
  cases h <;> rfl

theorem Changed.prevHash_eq {e e' : FinancialAuditEvent} {f : Field} (h : Changed e f e') :
    e'.prevHash = e.prevHash := by
  cases h <;> rfl

/-- **WHAT THE TRAIL PROTECTS**: the log as recorded is valid, and a change of
    one field of one event makes it invalid exactly when the field is hashed. -/
theorem change_invalidates_iff {calls : List (EventParams × String × String)} {i : Nat}
    {e e' : FinancialAuditEvent} {f : Field} (he : (recordAll sha calls).auditLog[i]? = some e)
    (hchange : Changed e f e')
    (hcoll : NoCollisions sha
      ((recordAll sha calls).auditLog.map FinancialAuditEvent.text ++ [e'.text])) :
    ((verifyAuditChain sha (recordAll sha calls).auditLog).valid = true
        ∧ (verifyAuditChain sha ((recordAll sha calls).auditLog.set i e')).valid = false)
      ↔ f.hashed = true := by
  obtain ⟨hlinked, -⟩ := recordAll_chained sha calls
  generalize (recordAll sha calls).auditLog = log at *
  obtain ⟨hi, rfl⟩ := List.getElem?_eq_some_iff.mp he
  have hsplit : log = log.take i ++ log[i] :: log.drop (i + 1) := by
    rw [← List.drop_eq_getElem_cons hi, List.take_append_drop]
  have hset : log.set i e' = log.take i ++ e' :: log.drop (i + 1) :=
    List.set_eq_take_append_cons_drop.trans (if_pos hi)
  have hreplace := linked_replace (hsplit ▸ hlinked) hchange.prevHash_eq hchange.hash_eq
  have hsame : sha e'.text = sha log[i].text ↔ f.hashed = false := by
    rw [← text_changed_iff hchange]
    refine ⟨fun hsha => ?_, congrArg sha⟩
    exact hcoll _ (by simp) _ (List.mem_append_left _ (List.mem_map_of_mem (List.getElem_mem hi))) hsha
  rw [verifyAuditChain, verifyAuditChain, ← Bool.not_eq_true, verifyFrom_valid_iff,
    verifyFrom_valid_iff, hset, hreplace, hsame, Bool.not_eq_false]
  exact ⟨fun h => h.2, fun h => ⟨hlinked, h⟩⟩

end

/-- A contribution of 100 stroops as the trail's only event. -/
def contribution : EventParams × String × String :=
  ({ eventType := .contributionReceived, actorAddress := "GALICE",
     groupId := .finite ⟨['7'], by simp, List.forall_mem_singleton.mpr rfl⟩, amount := some "100", recipient := none,
     txHash := some "tx", metadata := .null }, "1700000000000-abc", "2023-11-14T22:13:20.000Z")

def contributed : FinancialAuditEvent :=
  { id := "1700000000000-abc", timestamp := "2023-11-14T22:13:20.000Z",
    eventType := .contributionReceived, actorAddress := "GALICE",
    groupId := .finite ⟨['7'], by simp, List.forall_mem_singleton.mpr rfl⟩, amount := some "100", recipient := none,
    txHash := some "tx", metadata := .null,
    hash := payload genesis "1700000000000-abc" "GALICE" .contributionReceived
      (.finite ⟨['7'], by simp, List.forall_mem_singleton.mpr rfl⟩) "2023-11-14T22:13:20.000Z", prevHash := genesis }

/-- The actor of a recorded contribution changed. -/
theorem change_invalidates_actor :
    (verifyAuditChain (fun s => s) (recordAll (fun s => s) [contribution]).auditLog).valid = true
      ∧ (verifyAuditChain (fun s => s) ((recordAll (fun s => s) [contribution]).auditLog.set 0
          { contributed with actorAddress := "GEVE" })).valid = false :=
  (@change_invalidates_iff (fun s => s) [contribution] 0 contributed _ _
    rfl (.actorAddress "GEVE" (by decide)) (fun _ _ _ _ h => h)).mpr rfl

/-- **THE AMOUNT UNPROTECTED**: a contribution of 100 stroops rewritten as one
    of a billion leaves the chain valid. -/
theorem amount_unprotected :
    ∃ e e', (recordAll (fun s => s) [contribution]).auditLog[0]? = some e ∧ Changed e .amount e'
      ∧ (verifyAuditChain (fun s => s)
          ((recordAll (fun s => s) [contribution]).auditLog.set 0 e')).valid = true :=
  ⟨contributed, { contributed with amount := some "1000000000" }, rfl,
    .amount (some "1000000000") (by decide), by decide⟩

end RegulatoryTrail
