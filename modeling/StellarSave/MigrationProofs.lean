import StellarSave.LayoutProofs

/-! # Migration — the two migrations from version 1 to version 2

    `migrations/v1_to_v2.rs` backfills token configurations and keeps an index of
    what it wrote, so that its rollback removes that and no more; `migration.rs`
    initialises balances.  Both go through the ids up to the total-groups counter,
    which no call of the contract writes.  Three entries are stored under symbols
    of their own: the schema version, the record of the last migration and the
    backfill index. -/

namespace SaveMigration

open HostProg Footprint TokenLedger SaveData SaveMembership SaveAdmin SaveCall SaveLayout
open SaveRoster Typing Trace

/-! ## The schema migration -/

/-- `MigrationRecord`. -/
structure MigrationRecord where
  fromVersion : Nat
  toVersion : Nat
  appliedAt : Nat
  appliedBy : Address
  deriving DecidableEq

def V1 : Nat := 1
def V2 : Nat := 2

/-- The contract's storage with the entries under `SCH_VER`, `MIG_REC` and `MIG_BFI`. -/
structure Storage where
  base : State
  schemaVersion : Option Nat
  migrationRecord : Option MigrationRecord
  backfillIndex : Option (List Nat)

abbrev MigrationM := Prog Env Storage SaveError

/-- A program on the contract's own entries. -/
def onBase {α : Type} (m : SaveM α) : MigrationM α := fun env s =>
  match m env s.base with
  | .ok a t => .ok a { s with base := t }
  | .err e t => .err e { s with base := t }
  | .trap => .trap
  | .mistyped => .mistyped

/-- `set_schema_version`. -/
def setSchemaVersion (version : Nat) : MigrationM Unit := fun _ s =>
  .ok () { s with schemaVersion := some version }

/-- `save_migration_record`. -/
def saveMigrationRecord (record : MigrationRecord) : MigrationM Unit := fun _ s =>
  .ok () { s with migrationRecord := some record }

def setBackfillIndex (backfilled : List Nat) : MigrationM Unit := fun _ s =>
  .ok () { s with backfillIndex := some backfilled }

def getBackfillIndex : MigrationM (List Nat) := fun _ s => .ok (s.backfillIndex.getD []) s

def removeBackfillIndex : MigrationM Unit := fun _ s => .ok () { s with backfillIndex := none }

/-- One group of `apply`. -/
def backfillGroup (xlm : Address) (backfilled : List Nat) (id : Nat) : MigrationM (List Nat) := do
  let hasToken ← onBase (has (.grpTok id))
  if hasToken = true then pure backfilled else do
    onBase (put (.grpTok id) (TokenConfig.mk xlm 7))
    pure (backfilled ++ [id])

/-- `v1_to_v2::apply`. -/
def apply (admin xlm : Address) : MigrationM Unit := do
  let total : U64 ← onBase (getD .cntTotG ⟨0⟩)
  let backfilled ← foldEach (backfillGroup xlm) [] ((List.range total.val).map (· + 1))
  setBackfillIndex backfilled
  setSchemaVersion V2
  let time ← onBase now
  saveMigrationRecord ⟨V1, V2, time, admin⟩

/-- `v1_to_v2::rollback`. -/
def rollback (admin : Address) : MigrationM Unit := do
  let backfilled ← getBackfillIndex
  forEach (fun id => onBase (del (.grpTok id))) backfilled
  removeBackfillIndex
  setSchemaVersion V1
  let time ← onBase now
  saveMigrationRecord ⟨V2, V1, time, admin⟩

/-! ## What the two write -/

/-- The ids up to the total-groups counter. -/
def counted (s : State) : List Nat :=
  (List.range ((readAt U64 s.persistent .cntTotG).getD ⟨0⟩).val).map (· + 1)

/-- Those with no token configuration. -/
def missing (s : State) (ids : List Nat) : List Nat :=
  ids.filter fun id => (s.persistent (.grpTok id)).isNone

def backfill (xlm : Address) (ids : List Nat) (s : State) : State :=
  ids.foldl (fun t id => t.set (.grpTok id) (Codec.encode (TokenConfig.mk xlm 7))) s

def removeTokens (ids : List Nat) (s : State) : State :=
  ids.foldl (fun t id => t.remove (.grpTok id)) s

/-- The migration goes through every group once. -/
theorem counted_nodup (s : State) : (counted s).Nodup :=
  List.Nodup.map (fun _ _ h => Nat.succ.inj h) List.nodup_range

section Writes

variable {xlm : Address} {ids : List Nat} {s : State}

/-- A token key of the first group or of one of the others. -/
theorem exists_cons {id : Nat} {k : Key} :
    (∃ i ∈ id :: ids, k = .grpTok i) ↔ k = .grpTok id ∨ ∃ i ∈ ids, k = .grpTok i := by
  simp [List.mem_cons]

/-- A backfill writes the configurations that are missing, and nothing else. -/
theorem backfill_eq : backfill xlm ids s =
    { s with
      persistent := fun k =>
        if ∃ id ∈ ids, k = .grpTok id then some (Codec.encode (TokenConfig.mk xlm 7))
        else s.persistent k } := by
  induction ids generalizing s with
  | nil => simp [backfill]
  | cons id ids ih =>
      rw [backfill, List.foldl_cons, ← backfill, ih]
      refine congrArg (fun f => { s with persistent := f }) (funext fun k => ?_)
      simp only [exists_cons, HostState.set_persistent]
      by_cases hrest : ∃ i ∈ ids, k = .grpTok i
      · rw [if_pos hrest, if_pos (Or.inr hrest)]
      · rw [if_neg hrest]
        exact if_congr (by simp [hrest]) rfl rfl

/-- A rollback removes those it is told to. -/
theorem removeTokens_eq : removeTokens ids s =
    { s with
      persistent := fun k => if ∃ id ∈ ids, k = .grpTok id then none else s.persistent k } := by
  induction ids generalizing s with
  | nil => simp [removeTokens]
  | cons id ids ih =>
      rw [removeTokens, List.foldl_cons, ← removeTokens, ih]
      refine congrArg (fun f => { s with persistent := f }) (funext fun k => ?_)
      simp only [exists_cons, HostState.remove_persistent]
      by_cases hrest : ∃ i ∈ ids, k = .grpTok i
      · rw [if_pos hrest, if_pos (Or.inr hrest)]
      · rw [if_neg hrest]
        exact if_congr (by simp [hrest]) rfl rfl

/-- Removing what was missing and backfilled restores the entries. -/
theorem removeTokens_backfill (h : ∀ id ∈ ids, s.persistent (.grpTok id) = none) :
    removeTokens ids (backfill xlm ids s) = s := by
  rw [removeTokens_eq, backfill_eq]
  refine congrArg (fun f => { s with persistent := f }) (funext fun k => ?_)
  by_cases hk : ∃ id ∈ ids, k = .grpTok id
  · obtain ⟨id, hid, rfl⟩ := hk
    rw [if_pos ⟨id, hid, rfl⟩]
    exact (h id hid).symm
  · rw [if_neg hk]
    exact if_neg hk

/-- Nothing is missing once it has been backfilled. -/
theorem missing_backfill : missing (backfill xlm (missing s ids) s) ids = [] := by
  rw [missing, List.filter_eq_nil_iff]
  intro id hid
  rw [backfill_eq]
  by_cases hmissing : id ∈ missing s ids
  · simp [hmissing]
  · have hsome : (s.persistent (.grpTok id)).isNone = false := by
      by_contra hnone
      exact hmissing (List.mem_filter.mpr ⟨hid, by simpa using hnone⟩)
    simp [hmissing, hsome]

end Writes

section Runs

variable {env : Env} {s t : Storage} {admin xlm : Address} {ids backfilled : List Nat}

/-- A program of the contract runs inside the migration. -/
theorem onBase_of_ok {α β : Type} {m : SaveM α} {f : α → MigrationM β} {a : α} {u : State}
    (h : m env s.base = .ok a u) : (onBase m >>= f) env s = f a env { s with base := u } := by
  refine bind_of_ok ?_
  rw [onBase, h]

/-- One round adds the group to the index if it had no configuration. -/
theorem backfillGroup_eq (id : Nat) :
    backfillGroup xlm backfilled id env s = .ok (backfilled ++ missing s.base [id])
      { s with base := backfill xlm (missing s.base [id]) s.base } := by
  have hhas : (has (.grpTok id) : SaveM Bool) env s.base
      = .ok (s.base.persistent (.grpTok id)).isSome s.base := rfl
  rw [backfillGroup, onBase_of_ok hhas]
  cases htok : s.base.persistent (.grpTok id) with
  | none =>
      have hput : (put (.grpTok id) (TokenConfig.mk xlm 7) : SaveM Unit) env s.base
          = .ok () (s.base.set (.grpTok id) (Codec.encode (TokenConfig.mk xlm 7))) := rfl
      rw [if_neg (by simp), onBase_of_ok hput]
      simp [missing, htok, backfill, pure]
  | some v => simp [missing, htok, backfill, pure]

/-- What is missing is so group by group. -/
theorem missing_cons (id : Nat) (ids : List Nat) (u : State) :
    missing u (id :: ids) = missing u [id] ++ missing u ids := by
  rw [missing, missing, missing, ← List.filter_append]
  rfl

/-- Backfilling a group changes nothing of the others. -/
theorem missing_other {id : Nat} (hid : id ∉ ids) (u : State) :
    missing (backfill xlm (missing u [id]) u) ids = missing u ids := by
  refine List.filter_congr fun i hi => ?_
  have hne : ¬ ∃ j ∈ missing u [id], Key.grpTok i = .grpTok j := by
    rintro ⟨j, hj, heq⟩
    obtain rfl := List.mem_singleton.mp (List.mem_filter.mp hj).1
    exact hid (Key.grpTok.inj heq ▸ hi)
  rw [backfill_eq]
  simp only [if_neg hne]

/-- The loop of `apply` backfills what is missing. -/
theorem backfill_loop (hids : ids.Nodup) :
    foldEach (backfillGroup xlm) backfilled ids env s = .ok (backfilled ++ missing s.base ids)
      { s with base := backfill xlm (missing s.base ids) s.base } := by
  induction ids generalizing backfilled s with
  | nil => simp [missing, backfill, pure]
  | cons id ids ih =>
      obtain ⟨hid, hids⟩ := List.nodup_cons.mp hids
      rw [foldEach_cons, bind_of_ok (backfillGroup_eq id), ih hids]
      simp only [missing_other hid]
      rw [missing_cons id ids, List.append_assoc, backfill, backfill, backfill, List.foldl_append]

/-- **WHAT APPLY WRITES**. -/
theorem apply_eq (hs : TypedAt U64 s.base.persistent .cntTotG) :
    apply admin xlm env s = .ok ()
      { base := backfill xlm (missing s.base (counted s.base)) s.base
        schemaVersion := some V2
        migrationRecord := some ⟨V1, V2, env.timestamp, admin⟩
        backfillIndex := some (missing s.base (counted s.base)) } := by
  have htotal : (getD .cntTotG ⟨0⟩ : SaveM U64) env s.base
      = .ok ((readAt U64 s.base.persistent .cntTotG).getD ⟨0⟩) s.base := getD_ok.mpr ⟨⟨hs, rfl⟩, rfl⟩
  rw [apply, onBase_of_ok htotal, ← counted, bind_of_ok (backfill_loop (counted_nodup s.base))]
  rfl

/-- The loop of `rollback`. -/
theorem rollback_loop :
    forEach (fun id => (onBase (del (.grpTok id)) : MigrationM Unit)) ids env s
      = .ok () { s with base := removeTokens ids s.base } := by
  induction ids generalizing s with
  | nil => rfl
  | cons id ids ih =>
      have hdel : (del (.grpTok id) : SaveM Unit) env s.base = .ok () (s.base.remove (.grpTok id)) := rfl
      rw [forEach_cons, onBase_of_ok hdel, ih]
      rfl

/-- **WHAT ROLLBACK WRITES**. -/
theorem rollback_eq :
    rollback admin env s = .ok ()
      { base := removeTokens (s.backfillIndex.getD []) s.base
        schemaVersion := some V1
        migrationRecord := some ⟨V2, V1, env.timestamp, admin⟩
        backfillIndex := none } := by
  have hget : getBackfillIndex env s = .ok (s.backfillIndex.getD []) s := rfl
  rw [rollback, bind_of_ok hget, bind_of_ok rollback_loop]
  rfl

end Runs

/-! ## The balance migration -/

/-- Write an entry that is not there. -/
def ensure (k : Key) (v : Val) (s : State) : State := if (s.persistent k).isSome then s else s.set k v

/-- The group's balances are there. -/
structure Migrated (s : State) (g : Nat) : Prop where
  balance : (s.persistent (.grpBal g)).isSome
  paidOut : (s.persistent (.grpPaid g)).isSome

/-- What one group's migration leaves. -/
def migrateGroup (g : Nat) (s : State) : State :=
  if (s.persistent (.grp g)).isSome then
    ensure (.grpPaid g) (Codec.encode (I128.mk 0)) (ensure (.grpBal g) (Codec.encode (I128.mk 0)) s)
  else s

section Groups

variable {env : Env} {s t : State} {k k' : Key} {v : Val} {g : Nat} {ids : List Nat}

/-- An ensured key is there. -/
theorem ensure_isSome : ((ensure k v s).persistent k).isSome := by
  rw [ensure]
  split
  · next h => exact h
  · simp

/-- So is every key that was. -/
theorem ensure_keeps (h : (s.persistent k').isSome) : ((ensure k v s).persistent k').isSome := by
  rw [ensure]
  split
  · exact h
  · rw [HostState.set_persistent]
    split
    · rfl
    · exact h

/-- Other keys stay as they are. -/
theorem ensure_other (h : k' ≠ k) : (ensure k v s).persistent k' = s.persistent k' := by
  rw [ensure]
  split
  · rfl
  · rw [HostState.set_persistent, if_neg h]

/-- The check and the write are what ensures the key. -/
theorem ensure_run {α : Type} [Codec Val α] (a : α) :
    ((do
      let has_ ← has k
      runIf (has_ = false) (put k a)) : SaveM Unit) env s = .ok () (ensure k (Codec.encode a) s) := by
  have hhas : (has k : SaveM Bool) env s = .ok (s.persistent k).isSome s := rfl
  rw [bind_of_ok hhas, ensure]
  cases s.persistent k with
  | none => rfl
  | some v => rfl

/-- What follows goes on from there. -/
theorem ensure_bind {α β : Type} [Codec Val α] (a : α) (m : SaveM β) :
    ((do
      let has_ ← has k
      runIf (has_ = false) (put k a)
      m) : SaveM β) env s = m env (ensure k (Codec.encode a) s) := by
  have hhas : (has k : SaveM Bool) env s = .ok (s.persistent k).isSome s := rfl
  rw [bind_of_ok hhas, ensure]
  cases s.persistent k with
  | none => rfl
  | some v => rfl

/-- The migration of a group ensures its keys, one after the other. -/
theorem migrateGroup_run : migrateGroupV1ToV2 g env s = .ok () (migrateGroup g s) := by
  have hhas : (has (.grp g) : SaveM Bool) env s = .ok (s.persistent (.grp g)).isSome s := rfl
  rw [migrateGroupV1ToV2, bind_of_ok hhas, migrateGroup]
  cases s.persistent (.grp g) with
  | none => rfl
  | some v => exact (ensure_bind _ _).trans (ensure_run _)

/-- One group's migration keeps what is there. -/
theorem migrateGroup_keeps (h : (s.persistent k').isSome) :
    ((migrateGroup g s).persistent k').isSome := by
  rw [migrateGroup]
  split
  · exact ensure_keeps (ensure_keeps h)
  · exact h

/-- It leaves the records of the groups alone. -/
theorem migrateGroup_record (g' : Nat) :
    (migrateGroup g s).persistent (.grp g') = s.persistent (.grp g') := by
  rw [migrateGroup]
  split
  · rw [ensure_other (by simp), ensure_other (by simp)]
  · rfl

/-- A group that is there has all its keys afterwards. -/
theorem migrateGroup_migrated (h : (s.persistent (.grp g)).isSome) : Migrated (migrateGroup g s) g := by
  rw [migrateGroup, if_pos h]
  exact ⟨ensure_keeps ensure_isSome, ensure_isSome⟩

/-- A loop over images is a loop. -/
theorem forEach_map {α β : Type} {m : β → SaveM Unit} (f : α → β) (xs : List α) :
    forEach (fun x => m (f x)) xs env s = forEach m (xs.map f) env s := by
  have h : forEach (fun x => m (f x)) xs = forEach m (xs.map f) := by
    induction xs with
    | nil => rfl
    | cons x xs ih => rw [forEach_cons, List.map_cons, forEach_cons, ih]
  rw [h]

/-- **THE LOOP** migrates every group it visits. -/
theorem migrateGroups_run : ∃ t, forEach migrateGroupV1ToV2 ids env s = .ok () t
    ∧ (∀ k, (s.persistent k).isSome → (t.persistent k).isSome)
    ∧ ∀ g ∈ ids, (s.persistent (.grp g)).isSome → Migrated t g := by
  induction ids generalizing s with
  | nil => exact ⟨s, rfl, fun _ h => h, by simp⟩
  | cons id ids ih =>
      obtain ⟨t, hrun, hkeep, hall⟩ := @ih (migrateGroup id s)
      refine ⟨t, by rw [forEach_cons, bind_of_ok migrateGroup_run, hrun],
        fun k h => hkeep k (migrateGroup_keeps h), fun g hg h => ?_⟩
      rcases List.mem_cons.mp hg with rfl | hg
      · have hdone := migrateGroup_migrated h
        exact ⟨hkeep _ hdone.balance, hkeep _ hdone.paidOut⟩
      · exact hall g hg (by rw [migrateGroup_record]; exact h)

end Groups

/-! ## Storages of version 1 -/

/-- A storage no migration has been applied to, or whose last one was rolled back. -/
structure V1Storage (s : Storage) : Prop where
  counter : TypedAt U64 s.base.persistent .cntTotG
  version : ∀ v, s.base.persistent .storeVer = some v → v = Codec.encode (U32.mk 1)
  schema : s.schemaVersion = none ∨ s.schemaVersion = some V1
  index : s.backfillIndex = none

section Theorems

variable {env : Env} {s : Storage}

/-- A backfill changes neither the number of groups nor its type. -/
theorem counted_backfill (xlm : Address) (ids : List Nat) (u : State) :
    counted (backfill xlm ids u) = counted u ∧
      (TypedAt U64 u.persistent .cntTotG → TypedAt U64 (backfill xlm ids u).persistent .cntTotG) := by
  have hsame : (backfill xlm ids u).persistent .cntTotG = u.persistent .cntTotG := by
    rw [backfill_eq]
    exact if_neg (by simp)
  rw [counted, counted, readAt_congr hsame]
  exact ⟨rfl, fun h => h.congr hsame⟩

/-- `migrate` brings every group up to the total-groups counter to version 2. -/
theorem migrate_run (hs : V1Storage s) :
    ∃ t, migrate env s.base = .ok () t ∧
      ∀ g ∈ counted s.base, groupAt s.base g ≠ none → Migrated t g := by
  have hversion : (getD .storeVer ⟨1⟩ : SaveM U32) env s.base = .ok ⟨1⟩ s.base := by
    refine getD_ok.mpr ⟨⟨fun v hv => ⟨_, hs.version v hv⟩, ?_⟩, rfl⟩
    cases hv : s.base.persistent .storeVer with
    | none => rw [readAt, hv]; rfl
    | some v => rw [readAt, hv, hs.version v hv]; rfl
  -- the two flags are other entries than the counter and the records
  obtain ⟨u, hu⟩ : ∃ u, u = ensure .guard (Codec.encode false)
    (ensure .emrgPause (Codec.encode false) s.base) := ⟨_, rfl⟩
  have hcounter : u.persistent .cntTotG = s.base.persistent .cntTotG := by
    rw [hu, ensure_other (by simp), ensure_other (by simp)]
  have hrecord : ∀ g, u.persistent (.grp g) = s.base.persistent (.grp g) := fun g => by
    rw [hu, ensure_other (by simp), ensure_other (by simp)]
  have htotal : (getD .cntTotG ⟨0⟩ : SaveM U64) env u
      = .ok ((readAt U64 s.base.persistent .cntTotG).getD ⟨0⟩) u :=
    getD_ok.mpr ⟨⟨hs.counter.congr hcounter, by rw [readAt_congr hcounter]⟩, rfl⟩
  obtain ⟨t, hloop, -, hall⟩ := @migrateGroups_run env u (counted s.base)
  have hgroups : migrateV1ToV2 env s.base = .ok () t := by
    rw [migrateV1ToV2]
    refine (ensure_bind _ _).trans ((ensure_bind _ _).trans ?_)
    rw [← hu, bind_of_ok htotal]
    exact (forEach_map _ _).trans hloop
  refine ⟨t.set .storeVer (Codec.encode (U32.mk 2)), ?_, fun g hg hgrp => ?_⟩
  · rw [migrate, bind_of_ok hversion]
    exact bind_of_ok hgroups
  · have hdone := hall g hg (by
      rw [hrecord]
      by_contra hnone
      exact hgrp (by rw [groupAt, readAt, Option.not_isSome_iff_eq_none.mp hnone]; rfl))
    exact ⟨hdone.balance, hdone.paidOut⟩

/-- **BACK AND FORTH**: applying the schema migration and rolling it back restores
    every entry but the schema version and the migration record; applying it again
    changes nothing but the backfill index and the record; and `migrate` migrates
    every group up to the total-groups counter. -/
theorem migration_reversible (hs : V1Storage s) (env env' : Env) (admin admin' xlm xlm' : Address) :
    ∃ t, apply admin xlm env s = .ok () t
      ∧ rollback admin' env' t = .ok ()
          { s with schemaVersion := some V1
                   migrationRecord := some ⟨V2, V1, env'.timestamp, admin'⟩ }
      ∧ (∃ u, apply admin' xlm' env' t = .ok () u
          ∧ u.base = t.base ∧ u.schemaVersion = t.schemaVersion)
      ∧ ∃ v, migrate env s.base = .ok () v
          ∧ ∀ g ∈ counted s.base, groupAt s.base g ≠ none → Migrated v g := by
  refine ⟨_, apply_eq hs.counter, ?_, ?_, migrate_run hs⟩
  · rw [rollback_eq]
    simp only [Option.getD_some]
    rw [removeTokens_backfill fun id hid => by
      simpa using (List.mem_filter.mp hid).2, hs.index]
  · obtain ⟨hcounted, htyped⟩ := counted_backfill xlm (missing s.base (counted s.base)) s.base
    refine ⟨_, apply_eq (htyped hs.counter), ?_, rfl⟩
    simp only [hcounted, missing_backfill]
    rfl

end Theorems

/-- Two groups, of which the total-groups counter knows one. -/
def twoGroups : Storage where
  base := ((((deployed fun _ => none).set .cntNextG (Codec.encode (U64.mk 2))).set
    .cntTotG (Codec.encode (U64.mk 1))).set (.grp 1) (Codec.encode openGroup)).set
    (.grp 2) (Codec.encode { openGroup with id := 2 })
  schemaVersion := none
  migrationRecord := none
  backfillIndex := none

/-- The example is a storage of the first version. -/
theorem twoGroups_v1 : V1Storage twoGroups where
  counter := by
    have hobeys : Obeys layout twoGroups.base := by
      refine Obeys.set (Obeys.set (Obeys.set (Obeys.set (obeys_deployed _) ?_) ?_) ?_) ?_ <;> rfl
    exact typed_of_obeys hobeys
  version v hv := absurd hv (by simp [twoGroups, deployed])
  schema := Or.inl rfl
  index := rfl

/-- The first of them migrated and rolled back. -/
theorem twoGroups_reversible :
    V1Storage twoGroups ∧ ∃ t, apply ⟨7⟩ ⟨9⟩ trioEnv twoGroups = .ok () t
      ∧ rollback ⟨7⟩ trioEnv t = .ok ()
          { twoGroups with schemaVersion := some V1
                           migrationRecord := some ⟨V2, V1, trioEnv.timestamp, ⟨7⟩⟩ } := by
  obtain ⟨t, happly, hrollback, -⟩ := migration_reversible twoGroups_v1 trioEnv trioEnv ⟨7⟩ ⟨7⟩ ⟨9⟩ ⟨9⟩
  exact ⟨twoGroups_v1, t, happly, hrollback⟩

/-- **NOT EXACT**: the migration record stays behind a rollback, a second migration
    loses the backfill index, and the group above the counter is not migrated. -/
theorem twoGroups_not_exact :
    ∃ t u v w, apply ⟨7⟩ ⟨9⟩ trioEnv twoGroups = .ok () t
      ∧ rollback ⟨7⟩ trioEnv t = .ok () u ∧ u.migrationRecord ≠ twoGroups.migrationRecord
      ∧ apply ⟨7⟩ ⟨9⟩ trioEnv t = .ok () v ∧ v.backfillIndex ≠ t.backfillIndex
      ∧ migrate trioEnv twoGroups.base = .ok () w ∧ groupAt twoGroups.base 2 ≠ none
      ∧ 2 ≤ lastId twoGroups.base ∧ ¬ Migrated w 2 := by
  refine ⟨_, _, _, _, rfl, rfl, ?_, rfl, ?_, rfl, ?_, Nat.le_refl 2, fun h => ?_⟩
  · exact fun h => nomatch h
  · exact fun h => nomatch h
  · exact fun h => nomatch h
  · exact absurd h.balance (by decide)

/-! ## The counter -/

/-- No call writes the total-groups counter. -/
theorem totalGroups_step {env : Env} {s t : State} {c : Call} (h : c.body env s = .ok () t) :
    t.persistent .cntTotG = s.persistent .cntTotG :=
  (Within.agree_ok (w := c.footprint) h).persistent .cntTotG (by cases c <;> exact Place.other_kind rfl)

/-- **NOTHING TO VISIT**: in every storage the contract has written, both migrations
    go through no group at all. -/
theorem counted_run (l : Ledger) (steps : List Step) : counted (run steps (deployed l)) = [] := by
  have hnone : (run steps (deployed l)).persistent .cntTotG = none := by
    refine exec_invariant_always (I := fun t : State => t.persistent .cntTotG = none)
      (fun x u hu => ?_) rfl steps
    exact apply_invariant (C := fun _ _ => True) (I := fun t : State => t.persistent .cntTotG = none)
      (fun _ _ _ _ _ hv h => (totalGroups_step h).trans hv) (fun _ h => h) (fun _ _ h => h) x u trivial hu
  rw [counted, readAt, hnone]
  rfl

end SaveMigration
