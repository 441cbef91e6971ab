import StellarSave.PoolProofs
import StellarSave.TraceProofs

/-! # Reconciliation — compare, look again, write

    `ReconciliationService.run` (`reconciliation_service.ts`).  `diffGroup` compares the
    latest row of a group with the chain; `heal` looks for the latest row again and
    writes what was found into that one.  Rows come in between, and where the node does
    not answer the chain is read from a cache. -/

namespace Reconciliation

open Trace

/-- A row of `ContractEvent`: the group its data names (`groupId`), the one it is sampled
    by (`groupId ?? group_id ?? group`), and its data by field. -/
structure Row (V : Type) where
  id : Nat
  timestamp : Nat
  groupId : Option String
  sampledAs : Option String
  fields : String → Option V

/-- The table; its primary key. -/
structure Table (V : Type) where
  rows : List (Row V)
  distinct : (rows.map Row.id).Nodup

/-- A drift record.  The last two say where it comes from: the row compared, and whether
    the value is the chain's; no step looks at them. -/
structure DriftRecord (V : Type) where
  groupId : String
  field : String
  onChainValue : V
  dbValue : V
  compared : Nat
  live : Bool

/-- Where a run stands. -/
inductive Phase (V : Type) where
  | sampling
  | diffing (groupId : String) (groupIds : List String) (drifted : List (DriftRecord V))
  | reading (groupId : String) (dbEvent : Row V) (groupIds : List String) (drifted : List (DriftRecord V))
  | healing (record : DriftRecord V) (records : List (DriftRecord V)) (drifted : List (DriftRecord V))
  | writing (record : DriftRecord V) (latest : Row V) (records : List (DriftRecord V))
      (drifted : List (DriftRecord V))
  | done (drifted : List (DriftRecord V))

/-- A row that `heal` has written, and for which record. -/
structure Written (V : Type) where
  record : DriftRecord V
  row : Nat

/-- The table, what the contract would return for each group, the run, and what it wrote. -/
structure State (V : Type) where
  table : Table V
  chain : String → Option (String → Option V)
  phase : Phase V
  written : List (Written V)

/-- How `fetchOnChainGroupState` ends: with what the contract returns now, or without it and
    with what is cached, if anything. -/
inductive Answer (V : Type) where
  | live
  | failed (cached : Option (String → Option V))

/-- What can happen: the run goes on with what a query gives it, or a query fails; a row is
    inserted, the chain moves. -/
inductive Event (V : Type) where
  | sample (order : List Nat)
  | select (row : Option Nat)
  | answer (a : Answer V)
  | update
  | fail
  | insert (row : Row V)
  | move (groupId : String) (fields : Option (String → Option V))

def comparableFields : List String := ["status", "memberCount", "totalContributions", "cycleIndex"]

variable {V : Type}

/-- The loop of `sampleGroupIds`: the first `take` groups that the rows name. -/
def gather (take : Nat) : List (Row V) → List String → List String
  | [], seen => seen
  | row :: rows, seen =>
      match row.sampledAs with
      | some g =>
          let seen := if g ∈ seen then seen else seen ++ [g]
          if take ≤ seen.length then seen else gather take rows seen
      | none => gather take rows seen

/-- `sampleGroupIds`, by the rows in the order of the query. -/
def sampleGroupIds (sampleSize : Nat) (rows : List (Row V)) : List String :=
  let take := if sampleSize > 0 then sampleSize else 10000
  gather take (rows.take (take * 10)) []

namespace Table

def get (t : Table V) (id : Nat) : Option (Row V) := t.rows.find? fun row => decide (row.id = id)

/-- The rows of a group's data. -/
def ofGroup (t : Table V) (groupId : String) : List (Row V) :=
  t.rows.filter fun row => decide (row.groupId = some groupId)

/-- `findFirst` by the group, latest first, may give this row; of rows that are equally late
    it may give any. -/
def first (t : Table V) (groupId : String) (id : Nat) : Option (Row V) :=
  (t.ofGroup groupId).find? fun row =>
    decide (row.id = id) && (t.ofGroup groupId).all fun other => decide (other.timestamp ≤ row.timestamp)

/-- The rows in an order that `findMany` may give them in, latest first. -/
def listed (t : Table V) (order : List Nat) : Option (List (Row V)) :=
  if order.isPerm (t.rows.map Row.id) = true ∧
      ((order.filterMap t.get).map Row.timestamp).IsChain (· ≥ ·)
  then some (order.filterMap t.get) else none

/-- A row with a new id keeps the ids distinct. -/
theorem distinct_append (t : Table V) {row : Row V} (h : row.id ∉ t.rows.map Row.id) :
    ((t.rows ++ [row]).map Row.id).Nodup := by
  rw [List.map_append, List.nodup_append]
  refine ⟨t.distinct, List.nodup_singleton _, ?_⟩
  intro a ha b hb hab
  rw [List.map_singleton, List.mem_singleton] at hb
  rw [hab, hb] at ha
  exact h ha

/-- `create`; the key is new. -/
def insert (t : Table V) (row : Row V) : Table V :=
  if h : row.id ∈ t.rows.map Row.id then t else ⟨t.rows ++ [row], t.distinct_append h⟩

/-- The row with a key gets new data. -/
def rewrite (id : Nat) (fields : String → Option V) (row : Row V) : Row V :=
  if row.id = id then { row with fields := fields } else row

/-- A rewrite keeps the id. -/
theorem rewrite_id (id : Nat) (fields : String → Option V) (row : Row V) : (rewrite id fields row).id = row.id := by
  rw [rewrite]
  split
  · rfl
  · rfl

/-- So the ids stay distinct. -/
theorem distinct_rewrite (t : Table V) (id : Nat) (fields : String → Option V) :
    ((t.rows.map (rewrite id fields)).map Row.id).Nodup := by
  have hids : t.rows.map (Row.id ∘ rewrite id fields) = t.rows.map Row.id :=
    List.map_congr_left fun row _ => rewrite_id id fields row
  rw [List.map_map, hids]
  exact t.distinct

/-- `update`. -/
def update (t : Table V) (id : Nat) (fields : String → Option V) : Table V :=
  ⟨t.rows.map (rewrite id fields), t.distinct_rewrite id fields⟩

end Table

/-- Over to the next group, or to the repair. -/
def afterHeal (drifted : List (DriftRecord V)) : List (DriftRecord V) → Phase V
  | [] => .done drifted
  | record :: records => .healing record records drifted

def afterDiff (drifted : List (DriftRecord V)) : List String → Phase V
  | [] => afterHeal drifted drifted
  | groupId :: groupIds => .diffing groupId groupIds drifted

variable (text : V → String) (stored : V → Option V)

/-- The comparison of `diffGroup`; `text` is `String`. -/
def diff (groupId : String) (dbEvent : Row V) (fields : String → Option V) (live : Bool) :
    List (DriftRecord V) :=
  comparableFields.filterMap fun field =>
    match dbEvent.fields field, fields field with
    | some dbVal, some chainVal =>
        if text dbVal ≠ text chainVal then some ⟨groupId, field, chainVal, dbVal, dbEvent.id, live⟩ else none
    | _, _ => none

/-- The data of a row with one field changed. -/
def patch (field : String) (value : V) (fields : String → Option V) : String → Option V :=
  fun f => if f = field then some value else fields f

/-- The state that `diffGroup` compares with, and whether the chain gave it. -/
def State.fetched (groupId : String) (s : State V) : Answer V → Option ((String → Option V) × Bool)
  | .live => (s.chain groupId).map fun fields => (fields, true)
  | .failed cached => cached.map fun fields => (fields, false)

/-- A query of the run comes back; `stored` is what the column keeps of a value, if it can be
    written. -/
def step (sampleSize : Nat) (x : Event V) (s : State V) : State V :=
  match x, s.phase with
  | .insert row, _ => { s with table := s.table.insert row }
  | .move groupId fields, _ => { s with chain := fun g => if g = groupId then fields else s.chain g }
  | .sample order, .sampling =>
      match s.table.listed order with
      | some rows => { s with phase := afterDiff [] (sampleGroupIds sampleSize rows) }
      | none => s
  | .select none, .diffing groupId groupIds drifted =>
      if (s.table.ofGroup groupId).isEmpty = true then { s with phase := afterDiff drifted groupIds } else s
  | .select (some id), .diffing groupId groupIds drifted =>
      match s.table.first groupId id with
      | some dbEvent => { s with phase := .reading groupId dbEvent groupIds drifted }
      | none => s
  | .answer a, .reading groupId dbEvent groupIds drifted =>
      match s.fetched groupId a with
      | some (fields, live) =>
          { s with phase := afterDiff (drifted ++ diff text groupId dbEvent fields live) groupIds }
      | none => { s with phase := afterDiff drifted groupIds }
  | .select none, .healing record records drifted =>
      if (s.table.ofGroup record.groupId).isEmpty = true then { s with phase := afterHeal drifted records } else s
  | .select (some id), .healing record records drifted =>
      match s.table.first record.groupId id with
      | some latest => { s with phase := .writing record latest records drifted }
      | none => s
  | .update, .writing record latest records drifted =>
      match stored record.onChainValue with
      | some value =>
          { s with
            table := s.table.update latest.id (patch record.field value latest.fields)
            written := s.written ++ [⟨record, latest.id⟩]
            phase := afterHeal drifted records }
      | none => { s with phase := afterHeal drifted records }
  -- before the repairs an error ends the run, in a repair it is logged
  | .fail, .sampling => { s with phase := .done [] }
  | .fail, .diffing _ _ _ => { s with phase := .done [] }
  | .fail, .healing _ records drifted => { s with phase := afterHeal drifted records }
  | .fail, .writing _ _ records drifted => { s with phase := afterHeal drifted records }
  | _, _ => s

/-! ## What the run promises -/

/-- The row is the latest of the group, and no other is as late. -/
def Newest (t : Table V) (groupId : String) (row : Row V) : Prop :=
  row ∈ t.ofGroup groupId ∧ ∀ other ∈ t.ofGroup groupId, other.id ≠ row.id → other.timestamp < row.timestamp

/-- Only rows that were compared are written, and only with what the chain gave. -/
def Healed (s : State V) : Prop :=
  ∀ w ∈ s.written, w.row = w.record.compared ∧ w.record.live = true

instance (s : State V) : Decidable (Healed s) :=
  inferInstanceAs (Decidable (∀ w ∈ s.written, w.row = w.record.compared ∧ w.record.live = true))

/-- Before it looks again, the row that was compared is still the only latest one; and where
    the node does not answer, no cached copy differs from the row. -/
def Careful (x : Event V) (s : State V) : Prop :=
  match x, s.phase with
  | .select (some _), .healing record _ _ =>
      ∃ row, Newest s.table record.groupId row ∧ row.id = record.compared
  | .answer (.failed (some fields)), .reading groupId dbEvent _ _ => diff text groupId dbEvent fields false = []
  | _, _ => True

/-- The records that a run has in hand. -/
def Phase.records : Phase V → List (DriftRecord V)
  | .sampling => []
  | .diffing _ _ drifted => drifted
  | .reading _ _ _ drifted => drifted
  | .healing record records _ => record :: records
  | .writing record _ records _ => record :: records
  | .done _ => []

/-- The drift that it has found. -/
def Phase.drifted : Phase V → List (DriftRecord V)
  | .sampling => []
  | .diffing _ _ drifted => drifted
  | .reading _ _ _ drifted => drifted
  | .healing _ _ drifted => drifted
  | .writing _ _ _ drifted => drifted
  | .done drifted => drifted

section Selecting

variable {t : Table V} {groupId : String} {id : Nat} {row other : Row V}

/-- An id is that of one row. -/
theorem row_unique (hrow : row ∈ t.rows) (hother : other ∈ t.rows) (h : row.id = other.id) : row = other :=
  List.inj_on_of_nodup_map t.distinct hrow hother h

theorem mem_ofGroup : row ∈ t.ofGroup groupId ↔ row ∈ t.rows ∧ row.groupId = some groupId := by
  rw [Table.ofGroup, List.mem_filter, decide_eq_true_eq]

/-- The first row of a group with an id is one of the newest. -/
theorem first_some (h : t.first groupId id = some row) :
    row ∈ t.ofGroup groupId ∧ row.id = id ∧ ∀ other ∈ t.ofGroup groupId, other.timestamp ≤ row.timestamp := by
  have hmem := List.mem_of_find?_eq_some h
  have hrow := List.find?_some h
  rw [Bool.and_eq_true, decide_eq_true_eq, List.all_eq_true] at hrow
  exact ⟨hmem, hrow.1, fun other hother => of_decide_eq_true (hrow.2 other hother)⟩

/-- A query cannot miss a row that is later than all others. -/
theorem first_newest (h : t.first groupId id = some row) (hnewest : Newest t groupId other) : row = other := by
  obtain ⟨hmem, -, hlatest⟩ := first_some h
  by_contra hne
  have hid : row.id ≠ other.id := fun hsame =>
    hne (row_unique (mem_ofGroup.mp hmem).1 (mem_ofGroup.mp hnewest.1).1 hsame)
  have hlater := hnewest.2 row hmem hid
  have hle := hlatest other hnewest.1
  omega

end Selecting

section Phases

variable {text} {r record : DriftRecord V} {drifted records : List (DriftRecord V)} {groupIds : List String}
  {groupId : String} {dbEvent : Row V} {fields : String → Option V} {live : Bool}

@[simp] theorem records_afterHeal : (afterHeal drifted records).records = records := by
  cases records with
  | nil => rfl
  | cons record records => rfl

@[simp] theorem drifted_afterHeal : (afterHeal drifted records).drifted = drifted := by
  cases records with
  | nil => rfl
  | cons record records => rfl

@[simp] theorem records_afterDiff : (afterDiff drifted groupIds).records = drifted := by
  cases groupIds with
  | nil => exact records_afterHeal
  | cons groupId groupIds => rfl

@[simp] theorem drifted_afterDiff : (afterDiff drifted groupIds).drifted = drifted := by
  cases groupIds with
  | nil => exact drifted_afterHeal
  | cons groupId groupIds => rfl

/-- A drift record has the row that was compared and the other value of its field. -/
theorem mem_diff (h : r ∈ diff text groupId dbEvent fields live) :
    r.groupId = groupId ∧ r.compared = dbEvent.id ∧ r.live = live ∧ fields r.field = some r.onChainValue := by
  obtain ⟨field, -, hfield⟩ := List.mem_filterMap.mp h
  split at hfield
  · next dbVal chainVal hdb hchain =>
      split at hfield
      · obtain rfl := Option.some.inj hfield
        exact ⟨rfl, rfl, rfl, hchain⟩
      · exact nomatch hfield
  · exact nomatch hfield

/-- A comparable field that differs has a record. -/
theorem diff_complete {field : String} {dbVal chainVal : V} (hfield : field ∈ comparableFields)
    (hdb : dbEvent.fields field = some dbVal) (hchain : fields field = some chainVal)
    (hne : text dbVal ≠ text chainVal) :
    ∃ r ∈ diff text groupId dbEvent fields live, r.groupId = groupId ∧ r.field = field := by
  refine ⟨⟨groupId, field, chainVal, dbVal, dbEvent.id, live⟩, List.mem_filterMap.mpr ⟨field, hfield, ?_⟩,
    rfl, rfl⟩
  rw [hdb, hchain]
  exact if_pos hne

end Phases

/-! ## What a step can do -/

/-- What a step did, and from where. -/
inductive Moves (sampleSize : Nat) : Event V → State V → State V → Prop where
  -- a row that the query cannot give, or something that the phase does not wait for
  | stays (x : Event V) (s : State V) : Moves sampleSize x s s
  | inserted (row : Row V) (s : State V) : Moves sampleSize (.insert row) s { s with table := s.table.insert row }
  | moved (groupId : String) (fields : Option (String → Option V)) (s : State V) :
      Moves sampleSize (.move groupId fields) s { s with chain := fun g => if g = groupId then fields else s.chain g }
  | sampled {table chain written order rows} : table.listed order = some rows →
      Moves sampleSize (.sample order) ⟨table, chain, .sampling, written⟩
        ⟨table, chain, afterDiff [] (sampleGroupIds sampleSize rows), written⟩
  | passed {table chain written groupId groupIds drifted} : (table.ofGroup groupId).isEmpty = true →
      Moves sampleSize (.select none) ⟨table, chain, .diffing groupId groupIds drifted, written⟩
        ⟨table, chain, afterDiff drifted groupIds, written⟩
  | selected {table chain written groupId groupIds drifted id dbEvent} : table.first groupId id = some dbEvent →
      Moves sampleSize (.select (some id)) ⟨table, chain, .diffing groupId groupIds drifted, written⟩
        ⟨table, chain, .reading groupId dbEvent groupIds drifted, written⟩
  | compared {table chain written groupId dbEvent groupIds drifted a fields live} :
      State.fetched groupId ⟨table, chain, .reading groupId dbEvent groupIds drifted, written⟩ a =
        some (fields, live) →
      Moves sampleSize (.answer a) ⟨table, chain, .reading groupId dbEvent groupIds drifted, written⟩
        ⟨table, chain, afterDiff (drifted ++ diff text groupId dbEvent fields live) groupIds, written⟩
  -- neither the contract nor the cache has the group
  | unread {table chain written groupId dbEvent groupIds drifted a} :
      State.fetched groupId ⟨table, chain, .reading groupId dbEvent groupIds drifted, written⟩ a = none →
      Moves sampleSize (.answer a) ⟨table, chain, .reading groupId dbEvent groupIds drifted, written⟩
        ⟨table, chain, afterDiff drifted groupIds, written⟩
  | gone {table chain written record records drifted} : (table.ofGroup record.groupId).isEmpty = true →
      Moves sampleSize (.select none) ⟨table, chain, .healing record records drifted, written⟩
        ⟨table, chain, afterHeal drifted records, written⟩
  | found {table chain written record records drifted id latest} : table.first record.groupId id = some latest →
      Moves sampleSize (.select (some id)) ⟨table, chain, .healing record records drifted, written⟩
        ⟨table, chain, .writing record latest records drifted, written⟩
  | healed {table chain written record latest records drifted value} : stored record.onChainValue = some value →
      Moves sampleSize .update ⟨table, chain, .writing record latest records drifted, written⟩
        ⟨table.update latest.id (patch record.field value latest.fields), chain, afterHeal drifted records,
          written ++ [⟨record, latest.id⟩]⟩
  | unstored {table chain written record latest records drifted} : stored record.onChainValue = none →
      Moves sampleSize .update ⟨table, chain, .writing record latest records drifted, written⟩
        ⟨table, chain, afterHeal drifted records, written⟩
  | aborted {table chain phase written} :
      Moves sampleSize .fail ⟨table, chain, phase, written⟩ ⟨table, chain, .done [], written⟩
  | unhealed {table chain written phase record records drifted} : phase.records = record :: records →
      Moves sampleSize .fail ⟨table, chain, phase, written⟩ ⟨table, chain, afterHeal drifted records, written⟩

section Moves

variable {text stored} {sampleSize : Nat} {s : State V}

/-- Choosing the next group moves the job by its own rule. -/
theorem moves_select (id : Option Nat) :
    Moves text stored sampleSize (.select id) s (step text stored sampleSize (.select id) s) := by
  obtain ⟨table, chain, phase, written⟩ := s
  -- the newest row of the next group, or of the record to heal
  cases phase with
  | diffing groupId groupIds drifted =>
      cases id with
      | none =>
          show Moves _ _ _ _ _ (if _ then _ else _)
          split
          · next hempty => exact .passed hempty
          · exact .stays _ _
      | some id =>
          show Moves _ _ _ _ _ (match table.first groupId id with | some dbEvent => _ | none => _)
          split
          · next dbEvent hfirst => exact .selected hfirst
          · exact .stays _ _
  | healing record records drifted =>
      cases id with
      | none =>
          show Moves _ _ _ _ _ (if _ then _ else _)
          split
          · next hempty => exact .gone hempty
          · exact .stays _ _
      | some id =>
          show Moves _ _ _ _ _ (match table.first record.groupId id with | some latest => _ | none => _)
          split
          · next latest hfirst => exact .found hfirst
          · exact .stays _ _
  | _ =>
      cases id with
      | none => exact .stays _ _
      | some id => exact .stays _ _

/-- Every step is one of these. -/
theorem step_moves (x : Event V) : Moves text stored sampleSize x s (step text stored sampleSize x s) := by
  cases x with
  | insert row => exact .inserted row s
  | move groupId fields => exact .moved groupId fields s
  | select id => exact moves_select id
  | sample order =>
      obtain ⟨table, chain, phase, written⟩ := s
      cases phase with
      | sampling =>
          show Moves _ _ _ _ _ (match table.listed order with | some rows => _ | none => _)
          split
          · next rows hrows => exact .sampled hrows
          · exact .stays _ _
      | _ => exact .stays _ _
  | answer a =>
      obtain ⟨table, chain, phase, written⟩ := s
      cases phase with
      | reading groupId dbEvent groupIds drifted =>
          show Moves _ _ _ _ _ (match State.fetched groupId _ a with | some (fields, live) => _ | none => _)
          split
          · next fields live hfetched => exact .compared hfetched
          · next hfetched => exact .unread hfetched
      | _ => exact .stays _ _
  | update =>
      obtain ⟨table, chain, phase, written⟩ := s
      cases phase with
      | writing record latest records drifted =>
          show Moves _ _ _ _ _ (match stored record.onChainValue with | some value => _ | none => _)
          split
          · next value hstored => exact .healed hstored
          · next hstored => exact .unstored hstored
      | _ => exact .stays _ _
  | fail =>
      obtain ⟨table, chain, phase, written⟩ := s
      cases phase with
      -- what fails is skipped or ends the pass, phase by phase
      | sampling => exact .aborted
      | diffing groupId groupIds drifted => exact .aborted
      | reading groupId dbEvent groupIds drifted => exact .stays _ _
      | healing record records drifted => exact .unhealed rfl
      | writing record latest records drifted => exact .unhealed rfl
      | done drifted => exact .stays _ _

end Moves

/-! ## Careful runs -/

/-- The row of a repair is the one that its record was made of. -/
def Phase.Aimed : Phase V → Prop
  | .writing record latest _ _ => latest.id = record.compared
  | _ => True

/-- What a careful run has in hand. -/
structure Sound (s : State V) : Prop where
  live : ∀ r ∈ s.phase.records, r.live = true
  aimed : s.phase.Aimed
  healed : Healed s

/-- Whatever is left to heal, the records are those of the phase. -/
theorem aimed_afterHeal (drifted records : List (DriftRecord V)) : (afterHeal drifted records).Aimed := by
  cases records with
  | nil => trivial
  | cons record records => trivial

theorem aimed_afterDiff (drifted : List (DriftRecord V)) (groupIds : List String) :
    (afterDiff drifted groupIds).Aimed := by
  cases groupIds with
  | nil => exact aimed_afterHeal drifted drifted
  | cons groupId groupIds => trivial

section Sound

variable {s s' : State V} {drifted records : List (DriftRecord V)} {groupIds : List String}

/-- A record is healed, and the rest stays to be. -/
theorem Sound.onHeal {record : DriftRecord V} (h : Sound s) (hrecords : s.phase.records = record :: records)
    (hphase : s'.phase = afterHeal drifted records) (hwritten : s'.written = s.written) : Sound s' where
  live := by
    rw [hphase, records_afterHeal]
    exact fun r hr => h.live r (hrecords ▸ List.mem_cons_of_mem record hr)
  aimed := by rw [hphase]; exact aimed_afterHeal drifted records
  healed := by rw [Healed, hwritten]; exact h.healed

/-- What a comparison found is live. -/
theorem Sound.onDiff (h : Sound s) (hlive : ∀ r ∈ drifted, r.live = true)
    (hphase : s'.phase = afterDiff drifted groupIds) (hwritten : s'.written = s.written) : Sound s' where
  live := by rw [hphase, records_afterDiff]; exact hlive
  aimed := by rw [hphase]; exact aimed_afterDiff drifted groupIds
  healed := by rw [Healed, hwritten]; exact h.healed

variable {text stored} {sampleSize : Nat} {x : Event V}

/-- A careful answer that leaves a record is the chain's. -/
theorem answered_live {a : Answer V} {groupId : String} {dbEvent : Row V} {fields : String → Option V} {live : Bool}
    {r : DriftRecord V} (hphase : s.phase = .reading groupId dbEvent groupIds drifted)
    (hx : Careful text (.answer a) s) (hfetched : s.fetched groupId a = some (fields, live))
    (hr : r ∈ diff text groupId dbEvent fields live) : r.live = true := by
  obtain ⟨table, chain, phase, written⟩ := s
  subst hphase
  cases a with
  | live =>
      obtain ⟨fields', -, hpair⟩ := Option.map_eq_some_iff.mp hfetched
      rw [(mem_diff hr).2.2.1]
      exact (congrArg Prod.snd hpair).symm
  | failed cached =>
      obtain ⟨fields', hcached, hpair⟩ := Option.map_eq_some_iff.mp hfetched
      obtain ⟨rfl, rfl⟩ := Prod.mk.inj hpair
      subst hcached
      rw [show diff text groupId dbEvent fields' false = [] from hx] at hr
      exact nomatch hr

/-- **ONE STEP** of a careful run keeps every record of drift true. -/
theorem Sound.step (hx : Careful text x s) (h : Sound s) (hmoves : Moves text stored sampleSize x s s') : Sound s' := by
  cases hmoves with
  | stays => exact h
  | inserted row => exact ⟨h.live, h.aimed, h.healed⟩
  | moved groupId fields => exact ⟨h.live, h.aimed, h.healed⟩
  | sampled hrows => exact h.onDiff (List.forall_mem_nil _) rfl rfl
  | passed hempty => exact h.onDiff h.live rfl rfl
  | selected hfirst => exact ⟨h.live, trivial, h.healed⟩
  | compared hfetched =>
      refine h.onDiff (fun r hr => ?_) rfl rfl
      obtain hold | hr := List.mem_append.mp hr
      · exact h.live r hold
      · exact answered_live rfl hx hfetched hr
  | unread hfetched => exact h.onDiff h.live rfl rfl
  | gone hempty => exact h.onHeal rfl rfl rfl
  | found hfirst =>
      -- no other row is as late, so that the query finds the compared one again
      obtain ⟨row, hnewest, hrow⟩ := hx
      obtain rfl := first_newest hfirst hnewest
      exact ⟨h.live, hrow, h.healed⟩
  | @healed table chain written record latest records drifted value hstored =>
      refine ⟨fun r hr => ?_, aimed_afterHeal drifted records, fun w hw => ?_⟩
      · rw [records_afterHeal] at hr
        exact h.live r (List.mem_cons_of_mem record hr)
      · obtain hold | rfl := Pool.mem_concat hw
        · exact h.healed w hold
        · exact ⟨h.aimed, h.live record List.mem_cons_self⟩
  | unstored hstored => exact h.onHeal rfl rfl rfl
  | aborted => exact ⟨List.forall_mem_nil _, trivial, h.healed⟩
  | unhealed hrecords => exact h.onHeal hrecords rfl rfl

end Sound

/-- A run that begins; nothing has been written. -/
def begin (table : Table V) (chain : String → Option (String → Option V)) : State V :=
  ⟨table, chain, .sampling, []⟩

/-- A careful run writes what was compared, with what the chain gave. -/
theorem heals_compared (sampleSize : Nat) (table : Table V) (chain : String → Option (String → Option V))
    (xs : List (Event V)) (hrun : Along (step text stored sampleSize) (Careful text) xs (begin table chain)) :
    Healed (exec (step text stored sampleSize) xs (begin table chain)) := by
  have hbegin : Sound (begin table chain) := ⟨fun _ hr => (nomatch hr), trivial, fun _ hw => (nomatch hw)⟩
  exact (exec_invariant (fun x _ hx h => h.step hx (step_moves x)) hbegin hrun).healed

/-! ## Runs that nothing disturbs -/

/-- No row comes, the chain stays, the node and the database answer; of the rows that are
    looked for one is later than all others; and what is written reads as the chain does. -/
def Quiet (x : Event V) (s : State V) : Prop :=
  match x, s.phase with
  | .insert _, _ => False
  | .move _ _, _ => False
  | .fail, _ => False
  | .answer (.failed _), _ => False
  | .select (some _), .diffing groupId _ _ => ∃ row, Newest s.table groupId row
  | .select (some _), .healing record _ _ => ∃ row, Newest s.table record.groupId row
  | .update, .writing record _ _ _ =>
      ∃ value, stored record.onChainValue = some value ∧ text value = text record.onChainValue
  | _, _ => True

/-- The groups that a run has still to compare. -/
def Phase.todo : Phase V → List String
  | .diffing groupId groupIds _ => groupId :: groupIds
  | .reading groupId _ groupIds _ => groupId :: groupIds
  | _ => []

/-- The row in hand is the latest of its group. -/
def Phase.Holds (t : Table V) : Phase V → Prop
  | .reading groupId dbEvent _ _ => Newest t groupId dbEvent
  | .writing record latest _ _ => Newest t record.groupId latest
  | _ => True

/-- A field of a row reads as that of the chain, where both have it. -/
def Same (row : Row V) (fields : String → Option V) (field : String) : Prop :=
  ∀ dbVal chainVal, row.fields field = some dbVal → fields field = some chainVal → text dbVal = text chainVal

/-- Each comparable field of each group still has its comparison or its repair before it, or
    reads as the chain does. -/
structure Converging (groupIds : List String) (s : State V) : Prop where
  covered : ∀ g ∈ groupIds, g ∈ s.phase.todo ∨ ∀ row, Newest s.table g row → ∀ fields, s.chain g = some fields →
    ∀ field ∈ comparableFields, Same text row fields field ∨
      ∃ r ∈ s.phase.records, r.groupId = g ∧ r.field = field
  genuine : ∀ r ∈ s.phase.records, ∃ fields, s.chain r.groupId = some fields ∧
    fields r.field = some r.onChainValue
  holds : s.phase.Holds s.table

/-- What a query can tell of a row apart from its data. -/
def Row.shape (row : Row V) : Nat × Nat × Option String := (row.id, row.timestamp, row.sampledAs)

section Tables

variable {t : Table V} {groupId : String} {id : Nat} {row other : Row V} {fields : String → Option V}

/-- Two newest rows of a group are one. -/
theorem newest_unique (h : Newest t groupId row) (hother : Newest t groupId other) : row = other := by
  by_contra hne
  have hid : row.id ≠ other.id := fun hsame =>
    hne (row_unique (mem_ofGroup.mp h.1).1 (mem_ofGroup.mp hother.1).1 hsame)
  have hlater := hother.2 row h.1 hid
  have hearlier := h.2 other hother.1 (Ne.symm hid)
  omega

/-- A group without rows has no newest one. -/
theorem not_newest_of_empty (h : (t.ofGroup groupId).isEmpty = true) : ¬ Newest t groupId row := by
  rintro ⟨hmem, -⟩
  rw [List.isEmpty_iff.mp h] at hmem
  exact nomatch hmem

theorem rewrite_group : (Table.rewrite id fields row).groupId = row.groupId := by
  rw [Table.rewrite]
  split
  · rfl
  · rfl

theorem rewrite_timestamp : (Table.rewrite id fields row).timestamp = row.timestamp := by
  rw [Table.rewrite]
  split
  · rfl
  · rfl

/-- A rewrite changes only what is compared, not what a row is sampled by. -/
theorem rewrite_shape : (Table.rewrite id fields row).shape = row.shape := by
  rw [Table.rewrite]
  split
  · rfl
  · rfl

/-- The rows of a group after an update are its rows, rewritten. -/
theorem mem_ofGroup_update : row ∈ (t.update id fields).ofGroup groupId ↔
    ∃ old ∈ t.ofGroup groupId, Table.rewrite id fields old = row := by
  rw [mem_ofGroup]
  constructor
  · rintro ⟨hmem, hgroup⟩
    obtain ⟨old, hold, rfl⟩ := List.mem_map.mp hmem
    rw [rewrite_group] at hgroup
    exact ⟨old, mem_ofGroup.mpr ⟨hold, hgroup⟩, rfl⟩
  · rintro ⟨old, hold, rfl⟩
    obtain ⟨hmem, hgroup⟩ := mem_ofGroup.mp hold
    exact ⟨List.mem_map_of_mem hmem, by rw [rewrite_group]; exact hgroup⟩

/-- Writing does not change which row is the latest. -/
theorem newest_update (h : Newest (t.update id fields) groupId row) :
    ∃ old, Newest t groupId old ∧ Table.rewrite id fields old = row := by
  obtain ⟨hmem, hlatest⟩ := h
  obtain ⟨old, hold, rfl⟩ := mem_ofGroup_update.mp hmem
  refine ⟨old, ⟨hold, fun other hother hne => ?_⟩, rfl⟩
  have hlater := hlatest (Table.rewrite id fields other) (mem_ofGroup_update.mpr ⟨other, hother, rfl⟩)
    (by rw [Table.rewrite_id, Table.rewrite_id]; exact hne)
  rwa [rewrite_timestamp, rewrite_timestamp] at hlater

/-- An update changes no row's shape. -/
theorem shape_update : (t.update id fields).rows.map Row.shape = t.rows.map Row.shape := by
  show (t.rows.map (Table.rewrite id fields)).map Row.shape = _
  rw [List.map_map]
  exact List.map_congr_left fun row _ => rewrite_shape

end Tables

section Todo

variable {drifted records : List (DriftRecord V)} {groupIds : List String} {t : Table V}

@[simp] theorem todo_afterHeal : (afterHeal drifted records).todo = [] := by
  cases records with
  | nil => rfl
  | cons record records => rfl

@[simp] theorem todo_afterDiff : (afterDiff drifted groupIds).todo = groupIds := by
  cases groupIds with
  | nil => exact todo_afterHeal
  | cons groupId groupIds => rfl

theorem holds_afterHeal : (afterHeal drifted records).Holds t := by
  cases records with
  | nil => trivial
  | cons record records => trivial

theorem holds_afterDiff : (afterDiff drifted groupIds).Holds t := by
  cases groupIds with
  | nil => exact holds_afterHeal
  | cons groupId groupIds => trivial

end Todo

section Converging

variable {text stored} {s s' : State V} {sampleSize : Nat} {gids groupIds : List String} {g : String}
  {drifted records new : List (DriftRecord V)} {record : DriftRecord V}

/-- A group has been compared: what differs is in hand. -/
theorem Converging.compare (h : Converging text gids s) (htodo : s.phase.todo = g :: groupIds)
    (hrecords : s.phase.records = drifted)
    (hgenuine : ∀ r ∈ new, ∃ fields, s.chain r.groupId = some fields ∧ fields r.field = some r.onChainValue)
    (hcompared : ∀ row, Newest s.table g row → ∀ fields, s.chain g = some fields → ∀ field ∈ comparableFields,
      Same text row fields field ∨ ∃ r ∈ new, r.groupId = g ∧ r.field = field)
    (htable : s'.table = s.table) (hchain : s'.chain = s.chain)
    (hphase : s'.phase = afterDiff (drifted ++ new) groupIds) : Converging text gids s' where
  covered := by
    intro g' hg'
    rw [hphase, todo_afterDiff, records_afterDiff, htable, hchain]
    have hold := h.covered g' hg'
    rw [htodo, hrecords, List.mem_cons] at hold
    -- the group just compared, one still to do, or one done before
    obtain (rfl | htodo') | hdone := hold
    · refine Or.inr fun row hrow fields hfields field hfield => ?_
      obtain hsame | ⟨r, hr, hrg⟩ := hcompared row hrow fields hfields field hfield
      · exact Or.inl hsame
      · exact Or.inr ⟨r, List.mem_append_right drifted hr, hrg⟩
    · exact Or.inl htodo'
    · refine Or.inr fun row hrow fields hfields field hfield => ?_
      obtain hsame | ⟨r, hr, hrg⟩ := hdone row hrow fields hfields field hfield
      · exact Or.inl hsame
      · exact Or.inr ⟨r, List.mem_append_left new hr, hrg⟩
  genuine := by
    intro r hr
    rw [hphase, records_afterDiff] at hr
    rw [hchain]
    obtain hr | hr := List.mem_append.mp hr
    · exact h.genuine r (by rw [hrecords]; exact hr)
    · exact hgenuine r hr
  holds := by
    rw [hphase]
    exact holds_afterDiff

/-- A record has had its turn: its field reads as the chain does, and the others as before. -/
theorem Converging.repair (h : Converging text gids s) (htodo : s.phase.todo = [])
    (hrecords : s.phase.records = record :: records) (hchain : s'.chain = s.chain)
    (hrepaired : ∀ row, Newest s'.table record.groupId row → ∀ fields, s.chain record.groupId = some fields →
      Same text row fields record.field)
    (hothers : ∀ g row, Newest s'.table g row → ∃ old, Newest s.table g old ∧
      ∀ field, ¬ (record.groupId = g ∧ record.field = field) → row.fields field = old.fields field)
    (hphase : s'.phase = afterHeal drifted records) : Converging text gids s' where
  covered := by
    intro g hg
    rw [hphase, records_afterHeal, hchain]
    refine Or.inr fun row hrow fields hfields field hfield => ?_
    -- the field just healed agrees now; another field is as it was
    by_cases hrecord : record.groupId = g ∧ record.field = field
    · obtain ⟨rfl, rfl⟩ := hrecord
      exact Or.inl (hrepaired row hrow fields hfields)
    · obtain ⟨old, hold, hfields'⟩ := hothers g row hrow
      obtain htodo' | hdone := h.covered g hg
      · rw [htodo] at htodo'
        exact nomatch htodo'
      · obtain hsame | ⟨r, hr, hrg⟩ := hdone old hold fields hfields field hfield
        · refine Or.inl fun dbVal chainVal hdb => hsame dbVal chainVal ?_
          rwa [← hfields' field hrecord]
        · rw [hrecords] at hr
          obtain rfl | hr := List.mem_cons.mp hr
          · exact absurd hrg hrecord
          · exact Or.inr ⟨r, hr, hrg⟩
  genuine := by
    intro r hr
    rw [hphase, records_afterHeal] at hr
    rw [hchain]
    exact h.genuine r (by rw [hrecords]; exact List.mem_cons_of_mem record hr)
  holds := by
    rw [hphase]
    exact holds_afterHeal

/-- Nothing but the chain answers. -/
theorem quiet_fetched {a : Answer V} {dbEvent : Row V} (hphase : s.phase = .reading g dbEvent groupIds drifted)
    (hx : Quiet text stored (.answer a) s) : s.fetched g a = (s.chain g).map fun fields => (fields, true) := by
  obtain ⟨table, chain, phase, written⟩ := s
  subst hphase
  cases a with
  | live => rfl
  | failed cached => exact hx.elim

/-- A group has been passed over: nothing is to be compared. -/
theorem Converging.pass (h : Converging text gids s) (htodo : s.phase.todo = g :: groupIds)
    (hrecords : s.phase.records = drifted)
    (hnone : ∀ row, Newest s.table g row → ∀ fields, s.chain g ≠ some fields)
    (htable : s'.table = s.table) (hchain : s'.chain = s.chain)
    (hphase : s'.phase = afterDiff drifted groupIds) : Converging text gids s' := by
  rw [← List.append_nil drifted] at hphase
  exact h.compare htodo hrecords (List.forall_mem_nil _)
    (fun row hrow fields hfields => absurd hfields (hnone row hrow fields)) htable hchain hphase

/-- What `diffGroup` compares with the row in hand covers the latest row. -/
theorem diff_covers {t : Table V} {dbEvent row : Row V} {fields : String → Option V} {field : String}
    (hnewest : Newest t g dbEvent) (hrow : Newest t g row) (hfield : field ∈ comparableFields) :
    Same text row fields field ∨ ∃ r ∈ diff text g dbEvent fields true, r.groupId = g ∧ r.field = field := by
  obtain rfl := newest_unique hnewest hrow
  by_cases hsame : Same text dbEvent fields field
  · exact Or.inl hsame
  · right
    simp only [Same, not_forall] at hsame
    obtain ⟨dbVal, chainVal, hdb, hchain, hne⟩ := hsame
    exact diff_complete hfield hdb hchain hne

/-- A repair writes into its row and no other. -/
theorem rewrite_row {t : Table V} {latest old row : Row V} {fields : String → Option V} (hlatest : latest ∈ t.rows)
    (hold : old ∈ t.rows) (hrow : Table.rewrite latest.id fields old = row) :
    old = latest ∧ row.fields = fields ∨ old ≠ latest ∧ row = old := by
  subst hrow
  by_cases hid : old.id = latest.id
  · obtain rfl := row_unique hold hlatest hid
    exact Or.inl ⟨rfl, by rw [Table.rewrite, if_pos rfl]⟩
  · exact Or.inr ⟨fun hsame => hid (congrArg Row.id hsame), if_neg hid⟩

/-- What is stored is in the place of its record's field, and reads as the chain does. -/
theorem Converging.heal {table : Table V} {chain : String → Option (String → Option V)} {written : List (Written V)}
    {latest : Row V} {value : V} (h : Converging text gids ⟨table, chain, .writing record latest records drifted, written⟩)
    (hvalue : text value = text record.onChainValue) :
    Converging text gids ⟨table.update latest.id (patch record.field value latest.fields), chain,
      afterHeal drifted records, written ++ [⟨record, latest.id⟩]⟩ := by
  obtain ⟨fields, hchain, hfield⟩ := h.genuine record List.mem_cons_self
  have hlatest : Newest table record.groupId latest := h.holds
  have hmem : latest ∈ table.rows := (mem_ofGroup.mp hlatest.1).1
  refine h.repair rfl rfl rfl (fun row hrow fields' hfields' => ?_) (fun g row hrow => ?_) rfl
  -- the newest row is the one that was rewritten
  · obtain ⟨old, hold, hrewrite⟩ := newest_update hrow
    obtain rfl := newest_unique hold hlatest
    obtain rfl : fields = fields' := Option.some.inj (hchain.symm.trans hfields')
    obtain ⟨-, hfields⟩ | ⟨hne, -⟩ := rewrite_row hmem hmem hrewrite
    · intro dbVal chainVal hdb hchainVal
      rw [hfields, patch, if_pos rfl] at hdb
      rw [hfield] at hchainVal
      rw [← Option.some.inj hdb, ← Option.some.inj hchainVal]
      exact hvalue
    · exact absurd rfl hne
  -- other fields of the group, and other groups, keep their values
  · obtain ⟨old, hold, hrewrite⟩ := newest_update hrow
    refine ⟨old, hold, fun field hother => ?_⟩
    obtain ⟨rfl, hfields⟩ | ⟨-, rfl⟩ := rewrite_row hmem (mem_ofGroup.mp hold.1).1 hrewrite
    · -- the row is one of the record's group, so that the field is another
      have hgroup : record.groupId = g :=
        Option.some.inj ((mem_ofGroup.mp hlatest.1).2.symm.trans (mem_ofGroup.mp hold.1).2)
      rw [hfields, patch, if_neg fun hsame => hother ⟨hgroup, hsame.symm⟩]
    · rfl

/-- **ONE STEP** of a quiet run brings the rows closer to the chain, or keeps them there. -/
theorem Converging.step {x : Event V} (hx : Quiet text stored x s) (h : Converging text gids s)
    (hsampled : s.phase ≠ .sampling) (hmoves : Moves text stored sampleSize x s s') : Converging text gids s' := by
  cases hmoves with
  | stays => exact h
  | inserted row => exact hx.elim
  | moved groupId fields => exact hx.elim
  | aborted => exact hx.elim
  | unhealed hrecords => exact hx.elim
  | sampled hrows => exact absurd rfl hsampled
  | passed hempty => exact h.pass rfl rfl (fun row hrow => absurd hrow (not_newest_of_empty hempty)) rfl rfl rfl
  | selected hfirst =>
      obtain ⟨row, hnewest⟩ := hx
      obtain rfl := first_newest hfirst hnewest
      exact ⟨h.covered, h.genuine, hnewest⟩
  | compared hfetched =>
      rw [quiet_fetched rfl hx] at hfetched
      obtain ⟨fields, hchain, hpair⟩ := Option.map_eq_some_iff.mp hfetched
      obtain ⟨rfl, rfl⟩ := Prod.mk.inj hpair
      refine h.compare rfl rfl (fun r hr => ?_) (fun row hrow fields' hfields' field hfield => ?_) rfl rfl rfl
      · obtain ⟨hg, -, -, hvalue⟩ := mem_diff hr
        exact ⟨fields, by rw [hg]; exact hchain, hvalue⟩
      · obtain rfl : fields = fields' := Option.some.inj (hchain.symm.trans hfields')
        exact diff_covers h.holds hrow hfield
  | unread hfetched =>
      rw [quiet_fetched rfl hx] at hfetched
      have hchain := Option.map_eq_none_iff.mp hfetched
      refine h.pass rfl rfl (fun row _ fields hfields => ?_) rfl rfl rfl
      exact nomatch hchain.symm.trans hfields
  | gone hempty =>
      -- no row is left to repair
      exact h.repair rfl rfl rfl (fun row hrow => absurd hrow (not_newest_of_empty hempty))
        (fun g row hrow => ⟨row, hrow, fun _ _ => rfl⟩) rfl
  | found hfirst =>
      obtain ⟨row, hnewest⟩ := hx
      obtain rfl := first_newest hfirst hnewest
      exact ⟨h.covered, h.genuine, hnewest⟩
  | healed hstored =>
      -- what is stored reads as the chain's value, although it may be another
      obtain ⟨value, hvalue, htext⟩ := hx
      obtain rfl := Option.some.inj (hstored.symm.trans hvalue)
      exact h.heal htext
  | unstored hstored =>
      obtain ⟨value, hvalue, -⟩ := hx
      exact nomatch hstored.symm.trans hvalue

end Converging

/-! ## What a quiet run leaves as it was -/

/-- The groups are sampled, and neither the chain nor what tells the rows apart has changed. -/
structure Underway (t : Table V) (chain : String → Option (String → Option V)) (s : State V) : Prop where
  sampled : s.phase ≠ .sampling
  shape : s.table.rows.map Row.shape = t.rows.map Row.shape
  chain : s.chain = chain

section Underway

variable {text stored} {s s' : State V} {sampleSize : Nat} {t : Table V} {chain : String → Option (String → Option V)}
  {drifted records : List (DriftRecord V)} {groupIds : List String}

theorem sampled_afterHeal : afterHeal drifted records ≠ .sampling := by
  cases records with
  | nil => exact nofun
  | cons record records => exact nofun

theorem sampled_afterDiff : afterDiff drifted groupIds ≠ .sampling := by
  cases groupIds with
  | nil => exact sampled_afterHeal
  | cons groupId groupIds => exact nofun

/-- A job under way goes on with the groups it has left. -/
theorem Underway.step {x : Event V} (hx : Quiet text stored x s) (h : Underway t chain s)
    (hmoves : Moves text stored sampleSize x s s') : Underway t chain s' := by
  cases hmoves with
  | stays => exact h
  | inserted row => exact hx.elim
  | moved groupId fields => exact hx.elim
  | aborted => exact hx.elim
  | unhealed hrecords => exact hx.elim
  | sampled hrows => exact absurd rfl h.sampled
  | passed hempty => exact ⟨sampled_afterDiff, h.shape, h.chain⟩
  | selected hfirst => exact ⟨nofun, h.shape, h.chain⟩
  | compared hfetched => exact ⟨sampled_afterDiff, h.shape, h.chain⟩
  | unread hfetched => exact ⟨sampled_afterDiff, h.shape, h.chain⟩
  | gone hempty => exact ⟨sampled_afterHeal, h.shape, h.chain⟩
  | found hfirst => exact ⟨nofun, h.shape, h.chain⟩
  | healed hstored => exact ⟨sampled_afterHeal, shape_update.trans h.shape, h.chain⟩
  | unstored hstored => exact ⟨sampled_afterHeal, h.shape, h.chain⟩

end Underway

section Sampling

variable {t t' : Table V} {order : List Nat} {rows rows' : List (Row V)} {sampleSize : Nat}

/-- What is sampled depends on the shapes of the rows alone. -/
theorem gather_shape (take : Nat) (h : rows'.map Row.shape = rows.map Row.shape) (seen : List String) :
    gather take rows' seen = gather take rows seen := by
  induction rows generalizing rows' seen with
  | nil => rw [List.map_eq_nil_iff.mp h]
  | cons row rows ih =>
      obtain ⟨row', rest, rfl, hrow, hrest⟩ := List.map_eq_cons_iff.mp h
      have hsampled : row'.sampledAs = row.sampledAs := congrArg (fun shape => shape.2.2) hrow
      rw [gather, gather, hsampled]
      cases row.sampledAs with
      | none => exact ih hrest seen
      | some g => simp only [ih hrest]

/-- So does the sample of group ids. -/
theorem sampleGroupIds_shape (h : rows'.map Row.shape = rows.map Row.shape) :
    sampleGroupIds sampleSize rows' = sampleGroupIds sampleSize rows := by
  refine gather_shape _ ?_ []
  rw [List.map_take, List.map_take, h]

/-- And so does the row that an id finds. -/
theorem get_shape (h : t'.rows.map Row.shape = t.rows.map Row.shape) (id : Nat) :
    (t'.get id).map Row.shape = (t.get id).map Row.shape := by
  have hfind : ∀ t : Table V, (t.get id).map Row.shape =
      (t.rows.map Row.shape).find? fun shape => decide (shape.1 = id) := fun t => by
    rw [List.find?_map]
    rfl
  rw [hfind, hfind, h]

/-- The same order lists the same rows, apart from their data. -/
theorem listed_shape (h : t'.rows.map Row.shape = t.rows.map Row.shape) (hrows : t.listed order = some rows) :
    ∃ rows', t'.listed order = some rows' ∧ rows'.map Row.shape = rows.map Row.shape := by
  have hids : t'.rows.map Row.id = t.rows.map Row.id := by
    have hfirst := congrArg (List.map Prod.fst) h
    rwa [List.map_map, List.map_map] at hfirst
  have hlist : (order.filterMap t'.get).map Row.shape = (order.filterMap t.get).map Row.shape := by
    rw [List.map_filterMap, List.map_filterMap]
    exact List.filterMap_congr fun id _ => get_shape h id
  have htimes : (order.filterMap t'.get).map Row.timestamp = (order.filterMap t.get).map Row.timestamp := by
    have hsecond := congrArg (List.map fun shape => shape.2.1) hlist
    rwa [List.map_map, List.map_map] at hsecond
  rw [Table.listed] at hrows
  split at hrows
  · next hcond =>
      obtain rfl := Option.some.inj hrows
      refine ⟨order.filterMap t'.get, ?_, hlist⟩
      rw [Table.listed, hids, htimes]
      exact if_pos hcond
  · exact nomatch hrows

end Sampling

/-! ## The run after it -/

/-- In the latest row of each group, every comparable field reads as the chain does. -/
def Agreed (t : Table V) (chain : String → Option (String → Option V)) (groupIds : List String) : Prop :=
  ∀ g ∈ groupIds, ∀ row, Newest t g row → ∀ fields, chain g = some fields →
    ∀ field ∈ comparableFields, Same text row fields field

/-- A run that finds nothing. -/
structure Clean (groupIds : List String) (s : State V) : Prop where
  drifted : s.phase.drifted = []
  records : s.phase.records = []
  written : s.written = []
  todo : s.phase.todo ⊆ groupIds
  holds : s.phase.Holds s.table
  agreed : Agreed text s.table s.chain groupIds

section Clean

variable {text stored} {s s' : State V} {sampleSize : Nat} {gids groupIds : List String} {g : String}

/-- With all repairs made, the rows read as the chain does. -/
theorem Converging.agreed {drifted : List (DriftRecord V)} (h : Converging text gids s)
    (hdone : s.phase = .done drifted) : Agreed text s.table s.chain gids := by
  intro g hg row hrow fields hfields field hfield
  have hcovered := h.covered g hg
  rw [hdone] at hcovered
  obtain htodo | hcompared := hcovered
  · exact nomatch htodo
  · obtain hsame | ⟨r, hr, -⟩ := hcompared row hrow fields hfields field hfield
    · exact hsame
    · exact nomatch hr

/-- Equal fields make no record of drift. -/
theorem diff_nil {dbEvent : Row V} {fields : String → Option V} {live : Bool}
    (h : ∀ field ∈ comparableFields, Same text dbEvent fields field) : diff text g dbEvent fields live = [] := by
  refine List.filterMap_eq_nil_iff.mpr fun field hfield => ?_
  split
  · next dbVal chainVal hdb hchain => exact if_neg (not_not_intro (h field hfield dbVal chainVal hdb hchain))
  · rfl

/-- A group has been compared, and nothing differed. -/
theorem Clean.onDiff (h : Clean text gids s) (htodo : s.phase.todo = g :: groupIds) (htable : s'.table = s.table)
    (hchain : s'.chain = s.chain) (hwritten : s'.written = s.written)
    (hphase : s'.phase = afterDiff s.phase.drifted groupIds) : Clean text gids s' where
  drifted := by rw [hphase, drifted_afterDiff, h.drifted]
  records := by rw [hphase, records_afterDiff, h.drifted]
  written := hwritten.trans h.written
  todo := by
    rw [hphase, todo_afterDiff]
    exact List.Subset.trans (List.subset_cons_self g groupIds) (htodo ▸ h.todo)
  holds := by rw [hphase]; exact holds_afterDiff
  agreed := by rw [htable, hchain]; exact h.agreed

/-- A table that agrees with the chain stays as it is. -/
theorem Clean.step {x : Event V} (hx : Quiet text stored x s) (h : Clean text gids s)
    (hsampled : s.phase ≠ .sampling) (hmoves : Moves text stored sampleSize x s s') : Clean text gids s' := by
  cases hmoves with
  -- in a quiet pass nothing is inserted, nothing moves and nothing fails
  | stays => exact h
  | inserted row => exact hx.elim
  | moved groupId fields => exact hx.elim
  | aborted => exact hx.elim
  | unhealed hrecords => exact hx.elim
  | sampled hrows => exact absurd rfl hsampled
  | passed hempty => exact h.onDiff rfl rfl rfl rfl rfl
  | selected hfirst =>
      obtain ⟨row, hnewest⟩ := hx
      obtain rfl := first_newest hfirst hnewest
      exact ⟨h.drifted, h.records, h.written, h.todo, hnewest, h.agreed⟩
  -- the group agrees field by field, so the comparison yields no record
  | @compared table chain written g dbEvent groupIds drifted a fields live hfetched =>
      rw [quiet_fetched rfl hx] at hfetched
      obtain ⟨fields, hchain, hpair⟩ := Option.map_eq_some_iff.mp hfetched
      obtain ⟨rfl, rfl⟩ := Prod.mk.inj hpair
      have hnone : diff text g dbEvent fields true = [] :=
        diff_nil (h.agreed g (h.todo List.mem_cons_self) dbEvent h.holds fields hchain)
      refine h.onDiff rfl rfl rfl rfl ?_
      show afterDiff (drifted ++ diff text g dbEvent fields true) groupIds = _
      rw [hnone, List.append_nil]
      rfl
  | unread hfetched => exact h.onDiff rfl rfl rfl rfl rfl
  -- without records there is nothing to heal
  | gone hempty => exact nomatch h.records
  | found hfirst => exact nomatch h.records
  | healed hstored => exact nomatch h.records
  | unstored hstored => exact nomatch h.records

end Clean

section Runs

variable {text stored} {sampleSize : Nat} {table : Table V} {chain : String → Option (String → Option V)}
  {order : List Nat} {rows : List (Row V)}

theorem step_sample (hrows : table.listed order = some rows) :
    step text stored sampleSize (.sample order) (begin table chain) =
      ⟨table, chain, afterDiff [] (sampleGroupIds sampleSize rows), []⟩ := by
  show (match table.listed order with | some rows => _ | none => _) = _
  rw [hrows]
  rfl

/-- A quiet run, once it has its groups. -/
theorem quiet_run (hrows : table.listed order = some rows) {xs : List (Event V)}
    (hrun : Along (step text stored sampleSize) (Quiet text stored) (.sample order :: xs) (begin table chain)) :
    Converging text (sampleGroupIds sampleSize rows)
        (exec (step text stored sampleSize) (.sample order :: xs) (begin table chain)) ∧
      Underway table chain (exec (step text stored sampleSize) (.sample order :: xs) (begin table chain)) := by
  obtain ⟨-, hrest⟩ := hrun
  rw [exec_cons]
  rw [step_sample hrows] at hrest ⊢
  have hstep : ∀ x s, Quiet text stored x s →
      Converging text (sampleGroupIds sampleSize rows) s ∧ Underway table chain s →
      Converging text (sampleGroupIds sampleSize rows) (step text stored sampleSize x s) ∧
        Underway table chain (step text stored sampleSize x s) :=
    fun x s hx h => ⟨h.1.step hx h.2.sampled (step_moves x), h.2.step hx (step_moves x)⟩
  refine exec_invariant hstep ⟨⟨?_, ?_, ?_⟩, ?_⟩ hrest
  · intro g hg
    left
    show g ∈ (afterDiff _ _).todo
    rwa [todo_afterDiff]
  · show ∀ r ∈ (afterDiff _ _).records, _
    rw [records_afterDiff]
    exact List.forall_mem_nil _
  · exact holds_afterDiff
  · exact ⟨sampled_afterDiff, rfl, rfl⟩

/-- A quiet run over rows that read as the chain does. -/
theorem clean_run (hrows : table.listed order = some rows)
    (hagreed : Agreed text table chain (sampleGroupIds sampleSize rows)) {xs : List (Event V)}
    (hrun : Along (step text stored sampleSize) (Quiet text stored) (.sample order :: xs) (begin table chain)) :
    Clean text (sampleGroupIds sampleSize rows)
      (exec (step text stored sampleSize) (.sample order :: xs) (begin table chain)) := by
  obtain ⟨-, hrest⟩ := hrun
  rw [exec_cons]
  rw [step_sample hrows] at hrest ⊢
  have hstart : Clean text (sampleGroupIds sampleSize rows)
      ⟨table, chain, afterDiff [] (sampleGroupIds sampleSize rows), []⟩ :=
    ⟨drifted_afterDiff, records_afterDiff, rfl, by rw [todo_afterDiff]; exact List.Subset.refl _, holds_afterDiff,
      hagreed⟩
  have hstep : ∀ x s, Quiet text stored x s →
      Clean text (sampleGroupIds sampleSize rows) s ∧ Underway table chain s →
      Clean text (sampleGroupIds sampleSize rows) (step text stored sampleSize x s) ∧
        Underway table chain (step text stored sampleSize x s) :=
    fun x s hx h => ⟨h.1.step hx h.2.sampled (step_moves x), h.2.step hx (step_moves x)⟩
  exact (exec_invariant hstep ⟨hstart, sampled_afterDiff, rfl, rfl⟩ hrest).1

end Runs

/-- **WHAT A CAREFUL RUN DOES, AND A QUIET ONE**: a careful run writes the rows that it compared
    and what the chain gave; after a quiet run to its end, a quiet run finds no drift and writes
    nothing. -/
theorem heals_and_converges (text : V → String) (stored : V → Option V) (sampleSize : Nat) (table : Table V)
    (chain : String → Option (String → Option V)) :
    (∀ xs, Along (step text stored sampleSize) (Careful text) xs (begin table chain) →
      Healed (exec (step text stored sampleSize) xs (begin table chain))) ∧
    ∀ order rows xs ys drifted s, table.listed order = some rows →
      Along (step text stored sampleSize) (Quiet text stored) (.sample order :: xs) (begin table chain) →
      exec (step text stored sampleSize) (.sample order :: xs) (begin table chain) = s →
      s.phase = .done drifted →
      Along (step text stored sampleSize) (Quiet text stored) (.sample order :: ys) (begin s.table s.chain) →
      (exec (step text stored sampleSize) (.sample order :: ys) (begin s.table s.chain)).phase.drifted = [] ∧
        (exec (step text stored sampleSize) (.sample order :: ys) (begin s.table s.chain)).written = [] := by
  refine ⟨fun xs hrun => heals_compared text stored sampleSize table chain xs hrun, ?_⟩
  rintro order rows xs ys drifted s hrows hrun rfl hdone hagain
  obtain ⟨hconverging, hunderway⟩ := quiet_run hrows hrun
  -- the query that lists the rows sees the same groups
  obtain ⟨rows', hrows', hshape⟩ := listed_shape hunderway.shape hrows
  have hagreed := hconverging.agreed hdone
  rw [← sampleGroupIds_shape hshape] at hagreed
  have hclean := clean_run hrows' hagreed hagain
  exact ⟨hclean.drifted, hclean.written⟩

section Witness

def statusOnly (status : String) : String → Option String :=
  fun field => if field = "status" then some status else none

/-- A group's first row, and one that comes later. -/
def firstRow : Row String := ⟨1, 1, some "g", some "g", statusOnly "Active"⟩

def laterRow : Row String := ⟨2, 2, some "g", some "g", statusOnly "Completed"⟩

theorem firstRow_distinct : ([firstRow].map Row.id).Nodup := List.nodup_singleton _

def oneRow : Table String := ⟨[firstRow], firstRow_distinct⟩

def paused : String → Option (String → Option String) :=
  fun g => if g = "g" then some (statusOnly "Paused") else none

/-- The only row of a group is its newest. -/
theorem newest_alone {t : Table String} {row : Row String} {groupId : String} (hrows : t.rows = [row])
    (hgroup : row.groupId = some groupId) : Newest t groupId row := by
  refine ⟨mem_ofGroup.mpr ⟨hrows ▸ List.mem_singleton_self row, hgroup⟩, fun other hother hne => ?_⟩
  have hmem := (mem_ofGroup.mp hother).1
  rw [hrows, List.mem_singleton] at hmem
  exact absurd (congrArg Row.id hmem) hne

/-- A run that repairs the one row, and the run after it. -/
theorem heals_and_converges_once :
    let run := [.sample [1], .select (some 1), .answer .live, .select (some 1), .update]
    let s := exec (step id some 1) run (begin oneRow paused)
    s.written.map (fun w => (w.record.compared, w.row)) = [(1, 1)] ∧ Healed s ∧
      (exec (step id some 1) [.sample [1], .select (some 1), .answer .live]
        (begin s.table s.chain)).phase.drifted = [] := by
  have hfirst : Newest oneRow "g" firstRow := newest_alone rfl rfl
  have hmain := heals_and_converges id some 1 oneRow paused
  refine ⟨by decide +kernel, hmain.1 _ ⟨trivial, trivial, trivial, ⟨firstRow, hfirst, rfl⟩, trivial, trivial⟩,
    (hmain.2 [1] [firstRow] _ _ _ _ rfl ?_ rfl rfl ?_).1⟩
  · exact ⟨trivial, ⟨firstRow, hfirst⟩, trivial, ⟨firstRow, hfirst⟩, ⟨"Paused", rfl, rfl⟩, trivial⟩
  · exact ⟨trivial, ⟨_, newest_alone rfl rfl⟩, trivial, trivial⟩

/-- The later row comes between the comparison and the repair, and gets the value; and what was
    cached is written although the chain has the row's value. -/
theorem uncompared_row_written :
    ¬ Healed (exec (step id some 1) [.sample [1], .select (some 1), .answer .live, .insert laterRow,
        .select (some 2), .update] (begin oneRow paused)) ∧
      ¬ Healed (exec (step id some 1) [.sample [1], .select (some 1), .answer (.failed (some (statusOnly "Paused"))),
        .select (some 1), .update] (begin oneRow fun _ => some (statusOnly "Active"))) := by
  decide +kernel

end Witness

end Reconciliation
