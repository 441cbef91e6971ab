import StellarSave.ChainProofs
import StellarSave.IsoProofs
import StellarSave.JsonProofs

/-! # Audit — the audit event log and its hash chain

    `AuditEventLog.record` links each entry to the latest one by `createdAt`
    and hashes nine fields joined by `|`; `AuditEventLog.verify` walks the
    first `limit` entries by ascending `createdAt` and computes both again.
    SHA-256 is a parameter, and so is what the JSON columns of the database
    give back.  One changed field always shows in the joined text, free text
    or not, so a change of a row that `verify` reads is found; the database is
    free to order rows with equal `createdAt`, so an untampered log verifies in
    every order only when the timestamps increase strictly. -/

namespace AuditEventLog

open HashChain Text IsoDate

-- ── The log ───────────────────────────────────────────────────────────────────

/-- What is recorded; an absent `before`, `after` or `metadata` is `null`. -/
structure AuditRecordInput where
  actor : String
  action : String
  resourceType : String
  resourceId : Option String
  before : Json
  after : Json
  metadata : Json

/-- A row of the table; an absent JSON value is SQL's NULL. -/
structure AuditEntry where
  id : String
  actor : String
  action : String
  resourceType : String
  resourceId : Option String
  before : Option Json
  after : Option Json
  metadata : Option Json
  prevHash : String
  hash : String
  createdAt : JsDate

/-- What a JSON column gives back for a value stored in it: the value, with the
    keys of its objects in an order of the column's own. -/
structure JsonColumn where
  read : Json → Json
  reorders : ∀ v, Json.Reordered v (read v)
  again : ∀ v, read (read v) = read v

/-- A column that keeps the order it was given. -/
def JsonColumn.keeping : JsonColumn := ⟨id, .same, fun _ => rfl⟩

/-- A column read as `e.before ?? null`. -/
def JsonColumn.get (col : JsonColumn) : Option Json → Json
  | none => .null
  | some v => col.read v

/-- `input.before ?? undefined`: an absent value leaves the column NULL. -/
def toColumn : Json → Option Json
  | .null => none
  | v => some v

def GENESIS_HASH : String :=
  "0000000000000000000000000000000000000000000000000000000000000000"

/-- The text that is hashed: nine fields joined by `|`. -/
def payload (id prevHash actor action resourceType resourceId before after createdAt : String) :
    String :=
  "|".intercalate
    [id, prevHash, actor, action, resourceType, resourceId, before, after, createdAt]

section
variable (sha : String → String) (col : JsonColumn)

def computeHash (id prevHash actor action resourceType resourceId before after createdAt : String) :
    String :=
  sha (payload id prevHash actor action resourceType resourceId before after createdAt)

/-- One call of `record`: its input, the UUID drawn and the clock. -/
structure Call where
  input : AuditRecordInput
  id : String
  now : JsDate

/-- The text a call hashes, linked to a hash. -/
def Call.text (c : Call) (prevHash : String) : String :=
  payload c.id prevHash c.input.actor c.input.action c.input.resourceType
    (c.input.resourceId.getD "") c.input.before.stringify c.input.after.stringify
    (toISOString c.now)

/-- The row `AuditEventLog.record` creates after the latest entry found. -/
def record (latest : Option AuditEntry) (c : Call) : AuditEntry :=
  let prevHash := (latest.map (·.hash)).getD GENESIS_HASH
  let resourceId := c.input.resourceId.getD ""
  { id := c.id
    actor := c.input.actor
    action := c.input.action
    resourceType := c.input.resourceType
    resourceId := if resourceId = "" then none else some resourceId
    before := toColumn c.input.before
    after := toColumn c.input.after
    metadata := toColumn c.input.metadata
    prevHash
    hash := computeHash sha c.id prevHash c.input.actor c.input.action c.input.resourceType
      resourceId c.input.before.stringify c.input.after.stringify (toISOString c.now)
    createdAt := c.now }

/-- `findFirst({ orderBy: { createdAt: 'desc' } })`: any row with the last
    `createdAt`, none of an empty table. -/
inductive Latest (table : List AuditEntry) : Option AuditEntry → Prop where
  | empty : table = [] → Latest table none
  | last {e : AuditEntry} : e ∈ table → (∀ f ∈ table, f.createdAt.time ≤ e.createdAt.time) →
      Latest table (some e)

/-- The tables a sequence of calls can leave, one transaction after the other.
    The columns `id` and `hash` are unique: a row that repeats one is refused. -/
inductive Recorded : List Call → List AuditEntry → Prop where
  | nil : Recorded [] []
  | snoc {calls : List Call} {table : List AuditEntry} {latest : Option AuditEntry} {c : Call} :
      Recorded calls table → Latest table latest →
      (∀ e ∈ table, e.id ≠ c.id) → (∀ e ∈ table, e.hash ≠ (record sha latest c).hash) →
      Recorded (calls ++ [c]) (table ++ [record sha latest c])

-- ── Verification ──────────────────────────────────────────────────────────────

/-- The text `verify` hashes for a row. -/
def AuditEntry.text (e : AuditEntry) : String :=
  payload e.id e.prevHash e.actor e.action e.resourceType (e.resourceId.getD "")
    (col.get e.before).stringify (col.get e.after).stringify (toISOString e.createdAt)

def recomputed (e : AuditEntry) : String :=
  computeHash sha e.id e.prevHash e.actor e.action e.resourceType (e.resourceId.getD "")
    (col.get e.before).stringify (col.get e.after).stringify (toISOString e.createdAt)

structure Violation where
  id : String
  expected : String
  actual : String
  position : Nat
  deriving DecidableEq, Repr

structure VerificationResult where
  ok : Bool
  totalChecked : Nat
  violations : List Violation
  checkedAt : JsDate

/-- The loop over the entries read, from the hash expected next. -/
def violationsFrom : String → Nat → List AuditEntry → List Violation
  | _, _, [] => []
  | expectedPrev, i, e :: es =>
      (if e.prevHash ≠ expectedPrev then [⟨e.id, expectedPrev, e.prevHash, i⟩] else [])
        ++ (if recomputed sha col e ≠ e.hash then [⟨e.id, recomputed sha col e, e.hash, i⟩] else [])
        ++ violationsFrom e.hash (i + 1) es

/-- `AuditEventLog.verify` over the table in the order the database returns. -/
def verify (limit : Nat) (rows : List AuditEntry) (now : JsDate) : VerificationResult :=
  let entries := rows.take limit
  let violations := violationsFrom sha col GENESIS_HASH 0 entries
  { ok := violations.length == 0, totalChecked := entries.length, violations, checkedAt := now }

end

/-- `findMany({ orderBy: { createdAt: 'asc' } })`: any order of the rows by
    ascending `createdAt`. -/
def Ordered (table rows : List AuditEntry) : Prop :=
  rows.Perm table ∧ rows.Pairwise fun e f => e.createdAt.time ≤ f.createdAt.time

section
variable {sha : String → String} {col : JsonColumn}

theorem violationsFrom_eq_nil (p : String) (i : Nat) (es : List AuditEntry) :
    violationsFrom sha col p i es = []
      ↔ Linked AuditEntry.prevHash AuditEntry.hash (recomputed sha col) p es := by
  induction es generalizing p i with
  | nil => simp [violationsFrom]
  | cons e es ih =>
      simp only [violationsFrom, List.append_eq_nil_iff, ih, linked_cons, ite_eq_right_iff,
        List.cons_ne_nil, imp_false, Classical.not_not, and_assoc]
      rw [eq_comm (a := recomputed sha col e)]

/-- **WHAT `verify` CHECKS**: it reports nothing exactly when the entries it
    reads are a chain from the genesis hash. -/
theorem verify_ok_iff {limit : Nat} {rows : List AuditEntry} {now : JsDate} :
    (verify sha col limit rows now).ok = true
      ↔ Linked AuditEntry.prevHash AuditEntry.hash (recomputed sha col) GENESIS_HASH
          (rows.take limit) := by
  rw [← violationsFrom_eq_nil GENESIS_HASH 0]
  simp [verify]

-- ── What a recorded row is ────────────────────────────────────────────────────

theorem Recorded.length_eq {calls : List Call} {table : List AuditEntry}
    (h : Recorded sha calls table) : calls.length = table.length := by
  induction h with
  | nil => rfl
  | snoc _ _ _ _ ih => simp [ih]

/-- A row at a position was made by the call at that position, after the rows
    before it. -/
theorem Recorded.row {calls : List Call} {table : List AuditEntry} (h : Recorded sha calls table)
    {i : Nat} {e : AuditEntry} (he : table[i]? = some e) :
    ∃ c latest, calls[i]? = some c ∧ Latest (table.take i) latest ∧ e = record sha latest c := by
  -- the newest entry is the last, the others were recorded before it
  induction h with
  | nil => exact absurd he (by simp)
  | snoc hrec hlatest hid hhash ih =>
      rename_i calls table latest c
      have hlen := hrec.length_eq
      by_cases hi : i < table.length
      · rw [List.getElem?_append_left hi] at he
        obtain ⟨c', latest', hc, hl, rfl⟩ := ih he
        refine ⟨c', latest', ?_, ?_, rfl⟩
        · rw [List.getElem?_append_left (hlen ▸ hi)]
          exact hc
        · rwa [List.take_append_of_le_length (Nat.le_of_lt hi)]
      · have hlt : i < (table ++ [record sha latest c]).length := by
          obtain ⟨hlt, _⟩ := List.getElem?_eq_some_iff.mp he
          exact hlt
        have hi' : i = table.length := by
          rw [List.length_append, List.length_singleton] at hlt
          omega
        subst hi'
        rw [List.getElem?_append_right (Nat.le_refl _), Nat.sub_self] at he
        refine ⟨c, latest, ?_, ?_, by simpa using he.symm⟩
        · rw [← hlen, List.getElem?_append_right (Nat.le_refl _), Nat.sub_self]
          rfl
        · rwa [List.take_left']
          rfl

-- ── A replaced field ──────────────────────────────────────────────────────────

/-- An entry with one field replaced by a different value, as a reader sees it. -/
inductive Replaced (col : JsonColumn) (e : AuditEntry) : AuditEntry → Prop where
  | id (v : String) : v ≠ e.id → Replaced col e { e with id := v }
  | actor (v : String) : v ≠ e.actor → Replaced col e { e with actor := v }
  | action (v : String) : v ≠ e.action → Replaced col e { e with action := v }
  | resourceType (v : String) : v ≠ e.resourceType → Replaced col e { e with resourceType := v }
  | resourceId (v : Option String) : v ≠ e.resourceId → Replaced col e { e with resourceId := v }
  | before (v : Option Json) : col.get v ≠ col.get e.before → Replaced col e { e with before := v }
  | after (v : Option Json) : col.get v ≠ col.get e.after → Replaced col e { e with after := v }
  | createdAt (v : JsDate) : v ≠ e.createdAt → Replaced col e { e with createdAt := v }

/-- An absent `resourceId` and an empty one, which `record` and `verify` take
    for each other. -/
def Alike (e e' : AuditEntry) : Prop :=
  e.resourceId ≠ e'.resourceId ∧ e.resourceId.getD "" = e'.resourceId.getD ""

/-- What `record` stores reads as the value recorded, up to the order of keys. -/
theorem get_toColumn_reordered (col : JsonColumn) (v : Json) : Json.Reordered v (col.get (toColumn v)) := by
  cases v <;> first | exact .same _ | exact col.reorders _

theorem stringify_length {v w : Json} (h : Json.Reordered v w) :
    v.stringify.length = w.stringify.length := by
  simp [Json.stringify, h.length_eq]

/-- A value that the column gives back unchanged is what it gives back for it. -/
theorem get_toColumn_of_get {v : Json} {w : Option Json} (h : col.get w = v) :
    col.get (toColumn v) = v := by
  cases w with
  | none =>
      subst h
      rfl
  | some w =>
      subst h
      have hread : col.read (col.read w) = col.read w := col.again w
      simp only [JsonColumn.get]
      cases hw : col.read w <;> simp only [toColumn] <;> rw [← hw, hread]

theorem getD_emptied (r : Option String) :
    (if r.getD "" = "" then (none : Option String) else some (r.getD "")).getD "" = r.getD "" := by
  split
  · next h => exact h.symm
  · rfl

/-- **ONE REPLACED FIELD SHOWS**: the text of a changed row is never the text
    that was hashed when the row was recorded. -/
theorem text_replaced {latest : Option AuditEntry} {c : Call} {e' : AuditEntry}
    (hrep : Replaced col (record sha latest c) e') (hseen : ¬ Alike (record sha latest c) e') :
    e'.text col ≠ c.text (record sha latest c).prevHash := by
  have hbefore := stringify_length (get_toColumn_reordered col c.input.before)
  have hafter := stringify_length (get_toColumn_reordered col c.input.after)
  have hrid := getD_emptied c.input.resourceId
  intro htext
  -- two entries with one text would agree in the column that differs
  simp only [AuditEntry.text, Call.text, payload] at htext
  cases hrep with
  | id v hv =>
      have h := intercalate_field_inj [] [] rfl
        (by simp [record, hbefore, hafter, hrid]) htext
      exact hv h.2.1
  | actor v hv =>
      have h := intercalate_field_inj [_, _] [_, _] rfl
        (by simp [record, hbefore, hafter, hrid]) htext
      exact hv h.2.1
  | action v hv =>
      have h := intercalate_field_inj [_, _, _] [_, _, _] rfl
        (by simp [record, hbefore, hafter, hrid]) htext
      exact hv h.2.1
  | resourceType v hv =>
      have h := intercalate_field_inj [_, _, _, _] [_, _, _, _] rfl
        (by simp [record, hbefore, hafter, hrid]) htext
      exact hv h.2.1
  | resourceId v hv =>
      have h := intercalate_field_inj [_, _, _, _, _] [_, _, _, _, _] rfl
        (by simp [record, hbefore, hafter]) htext
      exact hseen ⟨Ne.symm hv, hrid.trans h.2.1.symm⟩
  | before v hv =>
      have h := intercalate_field_inj [_, _, _, _, _, _] [_, _, _, _, _, _]
        (by simp [record, hrid]) (by simp [record, hafter]) htext
      have hvalue := Json.stringify_inj h.2.1
      exact hv (hvalue.trans (get_toColumn_of_get hvalue).symm)
  | after v hv =>
      have h := intercalate_field_inj [_, _, _, _, _, _, _] [_, _, _, _, _, _, _]
        (by simp [record, hrid, hbefore]) rfl htext
      have hvalue := Json.stringify_inj h.2.1
      exact hv (hvalue.trans (get_toColumn_of_get hvalue).symm)
  | createdAt v hv =>
      have h := intercalate_field_inj [_, _, _, _, _, _, _, _] [_, _, _, _, _, _, _, _] (by simp [record, hrid, hbefore, hafter]) rfl htext
      exact hv (toISOString_inj h.2.1)

/-- The texts hashed when a log was recorded. -/
def recordedTexts (calls : List Call) (table : List AuditEntry) : List String :=
  (calls.zip table).map fun ce => ce.1.text ce.2.prevHash

theorem mem_recordedTexts {calls : List Call} {table : List AuditEntry} {i : Nat} {c : Call}
    {e : AuditEntry} (hc : calls[i]? = some c) (he : table[i]? = some e) :
    c.text e.prevHash ∈ recordedTexts calls table :=
  List.mem_map.mpr ⟨(c, e), List.mem_of_getElem? (List.getElem?_zip_eq_some.mpr ⟨hc, he⟩), rfl⟩

/-- The fields a replacement leaves. -/
theorem Replaced.hash_eq {e e' : AuditEntry} (h : Replaced col e e') : e'.hash = e.hash := by
  cases h <;> rfl

/-- **A CHANGED ENTRY IS REPORTED**: in a recorded log with one field of one
    entry replaced, `verify` reports a violation whenever the entry is among
    those it reads, unless an absent `resourceId` and an empty one were
    exchanged. -/
theorem change_reported {calls : List Call} {table rows : List AuditEntry} {i limit : Nat}
    {e e' : AuditEntry} {now : JsDate} (hrec : Recorded sha calls table)
    (he : table[i]? = some e) (hrep : Replaced col e e') (hseen : ¬ Alike e e')
    (_hrows : Ordered (table.set i e') rows) (hread : e' ∈ rows.take limit)
    (hcoll : NoCollisions sha
      (recordedTexts calls table ++ (rows.take limit).map (AuditEntry.text col))) :
    (verify sha col limit rows now).ok = false := by
  obtain ⟨c, latest, hc, -, rfl⟩ := hrec.row he
  by_contra hok
  rw [Bool.not_eq_false, verify_ok_iff] at hok
  have hsealed : e'.hash = sha (e'.text col) := hok.digest_of_mem hread
  have hmade : e'.hash = sha (c.text (record sha latest c).prevHash) := hrep.hash_eq
  have htext := hcoll _ (List.mem_append_left _ (mem_recordedTexts hc he)) _
    (List.mem_append_right _ (List.mem_map_of_mem hread)) (hmade.symm.trans hsealed)
  exact text_replaced hrep hseen htext.symm

end

/-- A call that records a new group, at a given clock. -/
def creation (id : String) (now : JsDate) : Call :=
  { input := { actor := "GADMIN", action := "group.create", resourceType := "Group",
               resourceId := none, before := .null, after := .obj [("name", .str "Tontine")],
               metadata := .null }
    id, now }

def noon : JsDate := ⟨1700000000000, by decide⟩

theorem recorded_creation (id : String) (now : JsDate) :
    Recorded (fun s => s) [creation id now] [record (fun s => s) none (creation id now)] :=
  .snoc .nil (.empty rfl) (by simp) (by simp)

/-- An actor rewritten in a log of one entry. -/
theorem change_reported_forged :
    (verify (fun s => s) .keeping 100000
      [{ record (fun s => s) none (creation "a" noon) with actor := "GEVE" }] noon).ok = false :=
  change_reported (i := 0) (e := record (fun s => s) none (creation "a" noon))
    (recorded_creation "a" noon) rfl (.actor "GEVE" (by decide)) (fun h => h.1 rfl)
    ⟨.refl _, List.pairwise_singleton _ _⟩ (List.mem_singleton.mpr rfl) (fun _ _ _ _ h => h)

section
variable {sha : String → String} {col : JsonColumn}

-- ── An untampered log ─────────────────────────────────────────────────────────

/-- The JSON values of a call come back with their keys in the order written. -/
def Kept (col : JsonColumn) (c : Call) : Prop :=
  col.get (toColumn c.input.before) = c.input.before
    ∧ col.get (toColumn c.input.after) = c.input.after

/-- The first `limit` calls keep their JSON values, and each was made at an
    earlier millisecond than the next. -/
structure Steady (col : JsonColumn) (limit : Nat) (calls : List Call) : Prop where
  kept : ∀ i < limit, ∀ c, calls[i]? = some c → Kept col c
  apart : ∀ i < limit, ∀ c d, calls[i]? = some c → calls[i + 1]? = some d →
    c.now.time < d.now.time

/-- A row hashes to the text recorded exactly when its JSON values are kept. -/
theorem text_record_iff {latest : Option AuditEntry} {c : Call} :
    (record sha latest c).text col = c.text (record sha latest c).prevHash ↔ Kept col c := by
  have hrid := getD_emptied c.input.resourceId
  constructor
  · intro htext
    simp only [AuditEntry.text, Call.text, payload] at htext
    have hbefore := stringify_length (get_toColumn_reordered col c.input.before)
    have hafter := stringify_length (get_toColumn_reordered col c.input.after)
    have hfields := intercalate_inj_of_lengths
      (by simp [record, hrid, hbefore, hafter]) htext
    simp only [List.cons.injEq] at hfields
    obtain ⟨-, -, -, -, -, -, hb, ha, -⟩ := hfields
    exact ⟨Json.stringify_inj hb, Json.stringify_inj ha⟩
  · rintro ⟨hb, ha⟩
    simp only [AuditEntry.text, Call.text, record, hb, ha, hrid]

theorem Recorded.times {calls : List Call} {table : List AuditEntry} (h : Recorded sha calls table) :
    table.map (·.createdAt) = calls.map (·.now) := by
  induction h with
  | nil => rfl
  | snoc _ _ _ _ ih =>
      rw [List.map_append, List.map_append, ih]
      rfl

theorem Recorded.time_at {calls : List Call} {table : List AuditEntry} (h : Recorded sha calls table)
    {i : Nat} {c : Call} {e : AuditEntry} (hc : calls[i]? = some c) (he : table[i]? = some e) :
    e.createdAt = c.now := by
  have htimes := congrArg (fun l => l[i]?) h.times
  simpa [List.getElem?_map, hc, he] using htimes

/-- A table recorded by a clock that never goes back is in order. -/
theorem Recorded.sorted {calls : List Call} {table : List AuditEntry} (h : Recorded sha calls table)
    (hclock : calls.Pairwise fun c d => c.now.time ≤ d.now.time) :
    table.Pairwise fun e f => e.createdAt.time ≤ f.createdAt.time := by
  have hcalls : (calls.map (·.now)).Pairwise fun s t => s.time ≤ t.time := by
    rw [List.pairwise_map]
    exact hclock
  rw [← h.times, List.pairwise_map] at hcalls
  exact hcalls

/-- No two rows share a hash. -/
theorem Recorded.unique {calls : List Call} {table : List AuditEntry} (h : Recorded sha calls table) :
    table.Pairwise fun e f => e.hash ≠ f.hash := by
  induction h with
  | nil => exact List.Pairwise.nil
  | snoc _ _ _ hhash ih =>
      refine List.pairwise_append.mpr ⟨ih, List.pairwise_singleton _ _, ?_⟩
      intro e he f hf
      rw [List.mem_singleton.mp hf]
      exact hhash e he

theorem Recorded.hash_ne {calls : List Call} {table : List AuditEntry} (h : Recorded sha calls table)
    {i j : Nat} {e f : AuditEntry} (hij : i < j) (he : table[i]? = some e)
    (hf : table[j]? = some f) : e.hash ≠ f.hash := by
  obtain ⟨hi, rfl⟩ := List.getElem?_eq_some_iff.mp he
  obtain ⟨hj, rfl⟩ := List.getElem?_eq_some_iff.mp hf
  exact List.pairwise_iff_getElem.mp h.unique i j hi hj hij

/-- With the row before its last one strictly earlier, the latest row of a table
    in order is its last. -/
theorem latest_eq {table : List AuditEntry} {m : Nat} {f : AuditEntry} {latest : Option AuditEntry}
    (hsorted : table.Pairwise fun e f => e.createdAt.time ≤ f.createdAt.time)
    (hf : table[m]? = some f)
    (hstep : ∀ k e, k + 1 = m → table[k]? = some e → e.createdAt.time < f.createdAt.time)
    (hlatest : Latest (table.take (m + 1)) latest) : latest = some f := by
  have htake : table.take (m + 1) = table.take m ++ [f] := by
    rw [List.take_add_one, hf, Option.toList_some]
  rw [htake] at hlatest
  cases hlatest with
  | empty h => exact absurd h (by simp)
  -- the latest of a table that grew is its newest entry, unless the clock stood still
  | last hmem hmax =>
      rename_i g
      obtain hold | hlast := List.mem_append.mp hmem
      · have hle := hmax f (List.mem_append_right _ (List.mem_singleton.mpr rfl))
        cases m with
        | zero => exact absurd hold (by simp)
        | succ k =>
            obtain ⟨j, hj, hgj⟩ := List.getElem_of_mem hold
            rw [List.getElem_take] at hgj
            have hjk : j < min (k + 1) table.length := by simpa using hj
            have hk : k < table.length := by
              obtain ⟨hlt, _⟩ := List.getElem?_eq_some_iff.mp hf
              omega
            have hlt := hstep k table[k] rfl (List.getElem?_eq_getElem hk)
            have hgk : g.createdAt.time ≤ (table[k]).createdAt.time := by
              by_cases heq : j = k
              · subst heq
                exact hgj ▸ Int.le_refl _
              · rw [← hgj]
                exact List.pairwise_iff_getElem.mp hsorted j k (by omega) hk (by omega)
            omega
      · rw [List.mem_singleton.mp hlast]

/-- The times of two rows whose calls are apart. -/
theorem Recorded.apart {calls : List Call} {table : List AuditEntry} (h : Recorded sha calls table)
    {i : Nat} {e f : AuditEntry} (he : table[i]? = some e) (hf : table[i + 1]? = some f)
    (hapart : ∀ c d, calls[i]? = some c → calls[i + 1]? = some d → c.now.time < d.now.time) :
    e.createdAt.time < f.createdAt.time := by
  obtain ⟨c, -, hc, -⟩ := h.row he
  obtain ⟨d, -, hd, -⟩ := h.row hf
  rw [h.time_at hc he, h.time_at hd hf]
  exact hapart c d hc hd

/-- The row at a position whose earlier calls are apart links to the row before it. -/
theorem Recorded.links {calls : List Call} {table : List AuditEntry} (h : Recorded sha calls table)
    (hclock : calls.Pairwise fun c d => c.now.time ≤ d.now.time) {n : Nat}
    (hapart : ∀ i, i + 1 < n → ∀ c d, calls[i]? = some c → calls[i + 1]? = some d →
      c.now.time < d.now.time) {e : AuditEntry} (he : table[n]? = some e) :
    e.prevHash = lastHash AuditEntry.hash GENESIS_HASH (table.take n) := by
  obtain ⟨c, latest, hc, hlatest, rfl⟩ := h.row he
  cases n with
  | zero =>
      cases hlatest with
      | empty _ => rfl
      | last hmem _ => exact absurd hmem (by simp)
  | succ m =>
      have hm : m < table.length := by
        obtain ⟨hlt, _⟩ := List.getElem?_eq_some_iff.mp he
        omega
      have hf := List.getElem?_eq_getElem hm
      have hlast := latest_eq (h.sorted hclock) hf (by
        intro k g hk hg
        subst hk
        exact h.apart hg hf (hapart k (by omega))) hlatest
      subst hlast
      rw [List.take_add_one, hf, Option.toList_some, lastHash_concat]
      rfl

/-- The rows read of a steady log are a chain. -/
theorem Recorded.linked {calls : List Call} {table : List AuditEntry} (h : Recorded sha calls table)
    (hclock : calls.Pairwise fun c d => c.now.time ≤ d.now.time) {limit : Nat}
    (hsteady : Steady col limit calls) {n : Nat} (hn : n ≤ limit) :
    Linked AuditEntry.prevHash AuditEntry.hash (recomputed sha col) GENESIS_HASH (table.take n) := by
  induction n with
  | zero => trivial
  | succ n ih =>
      cases he : table[n]? with
      | none =>
          rw [List.take_add_one, he, Option.toList_none, List.append_nil]
          exact ih (by omega)
      | some e =>
          rw [List.take_add_one, he, Option.toList_some]
          refine linked_concat (ih (by omega))
            (h.links hclock (fun i hi => hsteady.apart i (by omega)) he) ?_
          obtain ⟨c, latest, hc, -, rfl⟩ := h.row he
          have htext : (record sha latest c).text col = c.text (record sha latest c).prevHash :=
            text_record_iff.mpr (hsteady.kept n (by omega) c hc)
          exact (congrArg sha htext).symm

/-- Two neighbours with equal timestamps may be read the other way round. -/
theorem ordered_swap {xs ys : List AuditEntry} {e f : AuditEntry}
    (hsorted : (xs ++ e :: f :: ys).Pairwise fun e f => e.createdAt.time ≤ f.createdAt.time)
    (htie : f.createdAt.time ≤ e.createdAt.time) :
    Ordered (xs ++ e :: f :: ys) (xs ++ f :: e :: ys) := by
  refine ⟨List.Perm.append_left xs (List.Perm.swap e f ys), ?_⟩
  obtain ⟨hxs, hrest, hcross⟩ := List.pairwise_append.mp hsorted
  obtain ⟨he, hrest⟩ := List.pairwise_cons.mp hrest
  obtain ⟨hf, hys⟩ := List.pairwise_cons.mp hrest
  refine List.pairwise_append.mpr ⟨hxs, ?_, ?_⟩
  · refine List.pairwise_cons.mpr ⟨?_, List.pairwise_cons.mpr ⟨?_, hys⟩⟩
    · intro y hy
      obtain rfl | hy := List.mem_cons.mp hy
      · exact htie
      · exact hf y hy
    · exact fun y hy => he y (List.mem_cons_of_mem f hy)
  · intro x hx y hy
    refine hcross x hx y ?_
    simp only [List.mem_cons] at hy ⊢
    tauto

/-- A table split at two neighbours. -/
theorem split_at {table : List AuditEntry} {i : Nat} {e f : AuditEntry} (he : table[i]? = some e)
    (hf : table[i + 1]? = some f) : table = table.take i ++ e :: f :: table.drop (i + 2) := by
  obtain ⟨hi, rfl⟩ := List.getElem?_eq_some_iff.mp he
  obtain ⟨hi', rfl⟩ := List.getElem?_eq_some_iff.mp hf
  rw [← List.drop_eq_getElem_cons hi', ← List.drop_eq_getElem_cons hi, List.take_append_drop]

/-- A tie among the rows read, the first one, is reported in one of the orders. -/
theorem Recorded.tie_reported {calls : List Call} {table : List AuditEntry}
    (h : Recorded sha calls table) (hclock : calls.Pairwise fun c d => c.now.time ≤ d.now.time)
    {limit : Nat} (hlimit : 2 ≤ limit) {i : Nat} (hi : i < limit) {e f : AuditEntry}
    (he : table[i]? = some e) (hf : table[i + 1]? = some f)
    (hapart : ∀ j, j < i → ∀ c d, calls[j]? = some c → calls[j + 1]? = some d →
      c.now.time < d.now.time) :
    ¬ Linked AuditEntry.prevHash AuditEntry.hash (recomputed sha col) GENESIS_HASH
      ((table.take i ++ f :: e :: table.drop (i + 2)).take limit) := by
  have hlen : (table.take i).length = i := by
    obtain ⟨hlt, _⟩ := List.getElem?_eq_some_iff.mp he
    rw [List.length_take]
    omega
  have hread : ∃ k, limit = i + (k + 1) := ⟨limit - i - 1, by omega⟩
  obtain ⟨k, rfl⟩ := hread
  rw [List.take_append, hlen, Nat.add_sub_cancel_left, List.take_succ_cons,
    List.take_of_length_le (by omega)]
  intro hlinked
  -- the row read early links to the row it was recorded after
  have hprev := h.links hclock (n := i + 1) (fun j hj => hapart j (by omega)) hf
  rw [List.take_add_one, he, Option.toList_some, lastHash_concat] at hprev
  have hbefore := hlinked.prev_of_append
  rw [hprev] at hbefore
  cases i with
  | zero =>
      cases k with
      | zero => omega
      | succ k =>
          have hnext := hlinked.2.2.1
          have hgenesis := h.links hclock (n := 0) (fun j hj => absurd hj (by omega)) he
          simp only [List.take_zero, lastHash_nil] at hbefore hgenesis
          exact h.hash_ne (Nat.zero_lt_one) he hf (hbefore.trans (hgenesis.symm.trans hnext))
  | succ j =>
      have hj : j < table.length := by
        obtain ⟨hlt, _⟩ := List.getElem?_eq_some_iff.mp he
        omega
      have hg := List.getElem?_eq_getElem hj
      rw [List.take_add_one, hg, Option.toList_some, lastHash_concat] at hbefore
      exact h.hash_ne (Nat.lt_succ_self j) hg he hbefore.symm

/-- **WHEN AN UNTAMPERED LOG VERIFIES**: in every order the database may return,
    exactly when each of the first `limit` entries was recorded at an earlier
    millisecond than the next and its JSON columns kept the order of its keys. -/
theorem untampered_verifies_iff {calls : List Call} {table : List AuditEntry} {limit : Nat}
    {now : JsDate} (hlimit : 2 ≤ limit) (hrec : Recorded sha calls table)
    (hclock : calls.Pairwise fun c d => c.now.time ≤ d.now.time)
    (hcoll : NoCollisions sha (recordedTexts calls table ++ table.map (AuditEntry.text col))) :
    (∀ rows, Ordered table rows → (verify sha col limit rows now).ok = true)
      ↔ Steady col limit calls := by
  have hsorted := hrec.sorted hclock
  constructor
  -- by induction on the entry: each is linked to the one before it
  · intro hok
    refine ⟨?_, ?_⟩
    · intro i hi c hc
      obtain ⟨hlt, _⟩ := List.getElem?_eq_some_iff.mp hc
      rw [hrec.length_eq] at hlt
      have he := List.getElem?_eq_getElem hlt
      have hlinked := verify_ok_iff.mp (hok table ⟨.refl _, hsorted⟩)
      have hmem : table[i] ∈ table.take limit :=
        List.mem_of_getElem? (by rw [List.getElem?_take_of_lt hi]; exact he)
      have hsealed := hlinked.digest_of_mem hmem
      obtain ⟨c', latest, hc', -, hmade⟩ := hrec.row he
      rw [hc, Option.some.injEq] at hc'
      subst hc'
      have hused := mem_recordedTexts hc he
      have hchecked := List.mem_map_of_mem (f := AuditEntry.text col) (List.mem_of_mem_take hmem)
      rw [hmade] at hused hchecked hsealed
      exact text_record_iff.mp (hcoll _ (List.mem_append_right _ hchecked) _
        (List.mem_append_left _ hused) hsealed.symm)
    · intro i
      induction i using Nat.strongRecOn with
      | ind i ih =>
          intro hi c d hc hd
          obtain ⟨hlt, _⟩ := List.getElem?_eq_some_iff.mp hd
          rw [hrec.length_eq] at hlt
          have hf := List.getElem?_eq_getElem hlt
          have he := List.getElem?_eq_getElem (show i < table.length by omega)
          by_contra htie
          have hswap : Ordered table (table.take i ++ table[i + 1] :: table[i] :: table.drop (i + 2)) := by
            have hsplit := split_at he hf
            have htimes : (table[i + 1]).createdAt.time ≤ (table[i]).createdAt.time := by
              rw [hrec.time_at hc he, hrec.time_at hd hf]
              exact Int.not_lt.mp htie
            have hall := hsorted
            rw [hsplit] at hall
            have hordered := ordered_swap hall htimes
            rwa [← hsplit] at hordered
          exact hrec.tie_reported hclock hlimit hi he hf
            (fun j hj c' d' hc' hd' => ih j hj (by omega) c' d' hc' hd')
            (verify_ok_iff.mp (hok _ hswap))
  -- with times apart the rows come in one order only
  · intro hsteady rows hrows
    have hstrict : Strict (fun e : AuditEntry => e.createdAt.time) limit table :=
      strict_of_next hsorted fun i hi e f he hf => hrec.apart he hf (hsteady.apart i hi)
    rw [verify_ok_iff, take_eq_of_strict hstrict hrows.1 hrows.2]
    exact hrec.linked hclock hsteady (Nat.le_refl limit)

end

/-- The rows of two calls, the second linked to the first. -/
def pair (now later : JsDate) : List AuditEntry :=
  [record (fun s => s) none (creation "a" now),
    record (fun s => s) (some (record (fun s => s) none (creation "a" now))) (creation "b" later)]

theorem recorded_pair (now later : JsDate) :
    Recorded (fun s => s) [creation "a" now, creation "b" later] (pair now later) := by
  refine @Recorded.snoc _ [creation "a" now] _ _ _ (recorded_creation "a" now)
    (.last (List.mem_singleton.mpr rfl) ?_) ?_ ?_
  · intro f hf
    exact List.mem_singleton.mp hf ▸ Int.le_refl _
  · intro e he
    rw [List.mem_singleton.mp he]
    exact show "a" ≠ "b" by decide
  · intro e he hhash
    rw [List.mem_singleton.mp he] at hhash
    have hfirst := congrArg (fun s => s.toList.head?) hhash
    simp [record, computeHash, payload, creation, String.intercalate_cons_cons] at hfirst

/-- **CHANGES UNSEEN**: an absent `resourceId` replaced by the empty string
    verifies, and so does any change of an entry past the limit. -/
theorem change_unreported :
    (∃ (calls : List Call) (table rows : List AuditEntry) (e e' : AuditEntry),
      Recorded (fun s => s) calls table ∧ table[0]? = some e ∧ Replaced .keeping e e'
        ∧ Ordered (table.set 0 e') rows ∧ (verify (fun s => s) .keeping 100000 rows noon).ok = true)
      ∧ ∃ (calls : List Call) (table rows : List AuditEntry) (e e' : AuditEntry),
          Recorded (fun s => s) calls table ∧ table[1]? = some e ∧ Replaced .keeping e e'
            ∧ ¬ Alike e e' ∧ Ordered (table.set 1 e') rows
            ∧ (verify (fun s => s) .keeping 1 rows noon).ok = true := by
  refine ⟨⟨[creation "a" noon], [record (fun s => s) none (creation "a" noon)],
    [{ record (fun s => s) none (creation "a" noon) with resourceId := some "" }],
    record (fun s => s) none (creation "a" noon),
    { record (fun s => s) none (creation "a" noon) with resourceId := some "" },
    recorded_creation "a" noon, rfl, .resourceId (some "") (by decide),
    ⟨.refl _, List.pairwise_singleton _ _⟩, verify_ok_iff.mpr ⟨rfl, rfl, trivial⟩⟩, ?_⟩
  let first := record (fun s => s) none (creation "a" noon)
  let second := record (fun s => s) (some first) (creation "b" noon)
  exact ⟨_, _, [first, { second with actor := "GEVE" }], second, { second with actor := "GEVE" },
    recorded_pair noon noon, rfl, .actor "GEVE" (by decide), fun h => h.1 rfl,
    ⟨.refl _, by simp [first, second, record, creation]⟩, verify_ok_iff.mpr ⟨rfl, rfl, trivial⟩⟩

theorem steady_pair {now later : JsDate} {limit : Nat} (h : now.time < later.time) :
    Steady .keeping limit [creation "a" now, creation "b" later] := by
  refine ⟨?_, ?_⟩
  · intro i _ c hc
    have hmem := List.mem_of_getElem? hc
    simp only [List.mem_cons, List.not_mem_nil, or_false] at hmem
    obtain rfl | rfl := hmem
    · exact ⟨rfl, rfl⟩
    · exact ⟨rfl, rfl⟩
  · intro i _ c d hc hd
    cases i with
    | zero =>
        obtain rfl : creation "a" now = c := by simpa using hc
        obtain rfl : creation "b" later = d := by simpa using hd
        exact h
    | succ i => exact absurd hd (by simp)

/-- Two entries a millisecond apart verify. -/
theorem untampered_verifies_pair :
    Steady .keeping 100000 [creation "a" noon, creation "b" ⟨1700000000001, by decide⟩]
      ∧ ∀ rows, Ordered (pair noon ⟨1700000000001, by decide⟩) rows →
        (verify (fun s => s) .keeping 100000 rows noon).ok = true :=
  ⟨steady_pair (by decide), (untampered_verifies_iff (by decide) (recorded_pair _ _)
    (by simp [creation, noon]) (fun _ _ _ _ h => h)).mpr (steady_pair (by decide))⟩

/-- **A FALSE ALARM**: two entries recorded in one millisecond, untampered, may
    be read in an order that is reported. -/
theorem tie_reported_pair :
    ∃ (calls : List Call) (table rows : List AuditEntry), Recorded (fun s => s) calls table
      ∧ (calls.Pairwise fun c d => c.now.time ≤ d.now.time) ∧ (∀ c ∈ calls, Kept .keeping c)
      ∧ Ordered table rows ∧ (verify (fun s => s) .keeping 100000 rows noon).ok = false := by
  refine ⟨[creation "a" noon, creation "b" noon], pair noon noon, (pair noon noon).reverse,
    recorded_pair noon noon, by simp [creation], ?_, ⟨List.reverse_perm _, by simp [pair, record, creation]⟩,
    ?_⟩
  · intro c hc
    simp only [List.mem_cons, List.not_mem_nil, or_false] at hc
    obtain rfl | rfl := hc
    · exact ⟨rfl, rfl⟩
    · exact ⟨rfl, rfl⟩
  · rw [← Bool.not_eq_true, verify_ok_iff]
    rintro ⟨hlink, -⟩
    have hfirst := congrArg (fun s => s.toList.head?) hlink
    simp [record, computeHash, payload, creation, String.intercalate_cons_cons, GENESIS_HASH]
      at hfirst

end AuditEventLog
