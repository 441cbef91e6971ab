import Mathlib

/-! # Backups — what pruning by age leaves behind

    `BackupService.pruneOldBackups` (`backup_service.ts`) lists the objects in
    the bucket and deletes those whose job was created before the cutoff.  It
    looks at one job at a time: an increment does not keep its base, and the
    newest full backup is not spared.  `RecoveryService.restore`
    (`recovery_service.ts`) looks at the job it restores and at its object only. -/

namespace Backup

inductive BackupType where
  | full
  | incremental
  deriving DecidableEq, Repr

def BackupType.name : BackupType → String
  | .full => "full"
  | .incremental => "incremental"

inductive BackupStatus where
  | pending
  | running
  | completed
  | failed
  deriving DecidableEq, Repr

def BackupStatus.name : BackupStatus → String
  | .pending => "pending"
  | .running => "running"
  | .completed => "completed"
  | .failed => "failed"

structure BackupJob where
  id : String
  type : BackupType
  status : BackupStatus
  createdAt : Nat
  completedAt : Option Nat
  s3Key : Option String
  sizeBytes : Option Nat
  checksum : Option String
  baseBackupId : Option String
  error : Option String
  deriving DecidableEq, Repr

/-! ## Keys -/

/-- `backups/<type>/<id>.json`. -/
def s3KeyOf (type : BackupType) (id : String) : String :=
  "backups/" ++ type.name ++ "/" ++ id ++ ".json"

/-- `split('/').pop()`. -/
def lastSegment (cs : List Char) : List Char := (cs.reverse.takeWhile fun c => c ≠ '/').reverse

/-- `replace(pattern, '')`: the first occurrence. -/
def removeFirst (pattern : List Char) : List Char → List Char
  | [] => []
  | c :: cs =>
      if pattern.isPrefixOf (c :: cs) = true then (c :: cs).drop pattern.length
      else c :: removeFirst pattern cs

/-- The job a key is of. -/
def jobIdOf (key : String) : String :=
  String.ofList (removeFirst ".json".toList (lastSegment key.toList))

/-- What an id of `crypto.randomUUID` has: neither `/` nor `.`. -/
def Uuid (id : String) : Prop := ∀ c ∈ id.toList, c ≠ '/' ∧ c ≠ '.'

theorem lastSegment_append {before cs : List Char} (h : ∀ c ∈ cs, c ≠ '/') :
    lastSegment (before ++ '/' :: cs) = cs := by
  have hall : ∀ c ∈ cs.reverse, decide (c ≠ '/') = true := fun c hc =>
    decide_eq_true (h c (List.mem_reverse.mp hc))
  rw [lastSegment, List.reverse_append, List.reverse_cons, List.append_assoc,
    List.takeWhile_append_of_pos hall]
  simp

theorem removeFirst_append {pattern cs : List Char} {c : Char} (h : c ∉ cs) :
    removeFirst (c :: pattern) (cs ++ c :: pattern) = cs := by
  induction cs with
  | nil =>
      have hprefix : (c :: pattern).isPrefixOf (c :: pattern) = true :=
        List.isPrefixOf_iff_prefix.mpr (List.prefix_refl _)
      rw [List.nil_append, removeFirst, if_pos hprefix]
      simp
  | cons d cs ih =>
      have hne : c ≠ d := fun heq => h (heq ▸ List.mem_cons_self)
      rw [List.cons_append, removeFirst, if_neg, ih fun hmem => h (List.mem_cons_of_mem d hmem)]
      simp [List.isPrefixOf, hne]

/-- A job is found again by its key. -/
theorem jobIdOf_s3KeyOf (type : BackupType) {id : String} (h : Uuid id) :
    jobIdOf (s3KeyOf type id) = id := by
  have hjson : ".json".toList = ['.', 'j', 's', 'o', 'n'] := by decide
  have hextension : ∀ c ∈ ".json".toList, c ≠ '/' := by simp [hjson]
  have hslash : ∀ c ∈ id.toList ++ ".json".toList, c ≠ '/' := by
    intro c hc
    obtain hc | hc := List.mem_append.mp hc
    · exact (h c hc).1
    · exact hextension c hc
  have hdot : '.' ∉ id.toList := fun hmem => (h '.' hmem).2 rfl
  have hkey : (s3KeyOf type id).toList =
      ("backups/" ++ type.name).toList ++ '/' :: (id.toList ++ ".json".toList) := by
    simp [s3KeyOf]
  rw [jobIdOf, hkey, lastSegment_append hslash, hjson, removeFirst_append hdot, String.ofList_toList]

/-! ## The service -/

/-- The jobs, in the order they were created, and the bucket.  A job that has a
    key has the key of its id. -/
structure BackupService (β : Type) where
  jobs : List BackupJob
  bucket : List (String × β)
  ids : (jobs.map BackupJob.id).Nodup
  uuids : ∀ job ∈ jobs, Uuid job.id
  keys : ∀ job ∈ jobs, ∀ key, job.s3Key = some key → key = s3KeyOf job.type job.id

namespace BackupService

variable {β : Type}

def empty : BackupService β := ⟨[], [], by simp, by simp, by simp⟩

def getJob (s : BackupService β) (id : String) : Option BackupJob :=
  s.jobs.find? fun job => job.id = id

theorem getJob_some {s : BackupService β} {id : String} {job : BackupJob} (h : s.getJob id = some job) :
    job ∈ s.jobs ∧ job.id = id :=
  ⟨List.mem_of_find?_eq_some h, by simpa using List.find?_some h⟩

theorem getJob_of_mem {s : BackupService β} {job : BackupJob} (h : job ∈ s.jobs) :
    s.getJob job.id = some job := by
  obtain ⟨found, hfound⟩ : ∃ found, s.getJob job.id = some found :=
    Option.isSome_iff_exists.mp (List.find?_isSome.mpr ⟨job, h, by simp⟩)
  obtain ⟨hmem, hid⟩ := getJob_some hfound
  rw [hfound, List.inj_on_of_nodup_map s.ids hmem h hid]

/-- `listJobs`: the newest first. -/
def listJobs (s : BackupService β) : List BackupJob :=
  s.jobs.insertionSort fun a b => b.createdAt ≤ a.createdAt

def getLatestCompleted (s : BackupService β) (type : Option BackupType) : Option BackupJob :=
  s.listJobs.find? fun job => job.status = .completed ∧ ∀ t ∈ type, job.type = t

/-- `createBackup`, with the id it draws; a drawn id is a new one. -/
def createBackup (s : BackupService β) (type : BackupType) (baseBackupId : Option String) (id : String)
    (now : Nat) (huuid : Uuid id) (hnew : id ∉ s.jobs.map BackupJob.id) : BackupService β where
  jobs := s.jobs ++ [⟨id, type, .pending, now, none, none, none, none, baseBackupId, none⟩]
  bucket := s.bucket
  ids := by
    rw [List.map_append, List.nodup_append]
    refine ⟨s.ids, by simp, fun a ha b hb => ?_⟩
    obtain rfl : b = id := by simpa using hb
    rintro rfl
    exact hnew ha
  uuids job hjob := by
    obtain hjob | hjob := List.mem_append.mp hjob
    · exact s.uuids job hjob
    · obtain rfl := List.mem_singleton.mp hjob
      exact huuid
  keys job hjob key hkey := by
    obtain hjob | hjob := List.mem_append.mp hjob
    · exact s.keys job hjob key hkey
    · obtain rfl := List.mem_singleton.mp hjob
      cases hkey

/-- What `runBackup` writes into its job once `putObject` is done, or has failed. -/
def finished (job : BackupJob) (put : Except String Nat) (checksum : String) (now : Nat) : BackupJob :=
  match put with
  | .ok size =>
      { job with
        status := .completed
        completedAt := some now
        s3Key := some (s3KeyOf job.type job.id)
        sizeBytes := some size
        checksum := some checksum }
  | .error error => { job with status := .failed, error := some error }

/-- `runBackup` of the job `id`, whose payload is `body`. -/
def runBackup (s : BackupService β) (id : String) (body : β) (put : Except String Nat) (checksum : String)
    (now : Nat) : BackupService β where
  jobs := s.jobs.map fun job => if job.id = id then finished job put checksum now else job
  bucket :=
    match s.getJob id, put with
    | some job, .ok _ => s.bucket ++ [(s3KeyOf job.type job.id, body)]
    | _, _ => s.bucket
  ids := by
    have hids : (s.jobs.map fun job => if job.id = id then finished job put checksum now else job).map
        BackupJob.id = s.jobs.map BackupJob.id := by
      rw [List.map_map]
      refine List.map_congr_left fun job _ => ?_
      simp only [Function.comp]
      split
      · cases put <;> rfl
      · rfl
    rw [hids]
    exact s.ids
  uuids job hjob := by
    obtain ⟨old, hold, rfl⟩ := List.mem_map.mp hjob
    split
    · cases put <;> exact s.uuids old hold
    · exact s.uuids old hold
  keys job hjob key := by
    obtain ⟨old, hold, rfl⟩ := List.mem_map.mp hjob
    split
    · cases put with
      | ok size => exact fun hkey => (Option.some.inj hkey).symm
      | error error => exact s.keys old hold key
    · exact s.keys old hold key

/-- `deleteObject` and `jobs.delete`. -/
def remove (s : BackupService β) (key id : String) : BackupService β where
  jobs := s.jobs.filter fun job => job.id ≠ id
  bucket := s.bucket.filter fun object => object.1 ≠ key
  ids := s.ids.sublist (List.filter_sublist.map _)
  uuids job hjob := s.uuids job (List.mem_filter.mp hjob).1
  keys job hjob := s.keys job (List.mem_filter.mp hjob).1

/-! ## Pruning -/

/-- A job from before the cutoff. -/
def Expired (cutoff : Int) (job : BackupJob) : Prop := (job.createdAt : Int) < cutoff

instance (cutoff : Int) (job : BackupJob) : Decidable (Expired cutoff job) :=
  inferInstanceAs (Decidable (_ < _))

/-- The loop of `pruneOldBackups` over the listed keys, up to the first object
    that cannot be deleted. -/
def pruneKeys (cutoff : Int) (deleteObject : String → Except String Unit) :
    List String → BackupService β → Nat → BackupService β × Except String Nat
  | [], s, pruned => (s, .ok pruned)
  | key :: keys, s, pruned =>
      match s.getJob (jobIdOf key) with
      | some job =>
          if Expired cutoff job then
            match deleteObject key with
            | .ok () => pruneKeys cutoff deleteObject keys (s.remove key job.id) (pruned + 1)
            | .error error => (s, .error error)
          else pruneKeys cutoff deleteObject keys s pruned
      | none => pruneKeys cutoff deleteObject keys s pruned

def cutoff (now retentionDays : Nat) : Int := now - retentionDays * 86400000

/-- `pruneOldBackups`, with what `listObjects` returned. -/
def pruneOldBackups (s : BackupService β) (now retentionDays : Nat) (listed : List String)
    (deleteObject : String → Except String Unit) : BackupService β × Except String Nat :=
  pruneKeys (cutoff now retentionDays) deleteObject listed s 0

variable {cutoff : Int} {deleteObject : String → Except String Unit} {s : BackupService β}

variable (cutoff deleteObject) in
/-- **THE LOOP**: jobs only go, and only expired ones; an object goes only with
    its expired job; and where every delete succeeds, every expired job that is
    listed goes. -/
theorem pruneKeys_spec (keys : List String) (s : BackupService β) (pruned : Nat) :
    let r := pruneKeys cutoff deleteObject keys s pruned
    (∀ job ∈ r.1.jobs, job ∈ s.jobs) ∧
      (∀ job ∈ s.jobs, ¬ Expired cutoff job → job ∈ r.1.jobs) ∧
      (∀ key body, (∀ job ∈ s.jobs, job.id = jobIdOf key → ¬ Expired cutoff job) →
        (key, body) ∈ s.bucket → (key, body) ∈ r.1.bucket) ∧
      (∀ n, r.2 = .ok n → ∀ job ∈ r.1.jobs, job.id ∈ keys.map jobIdOf → ¬ Expired cutoff job) := by
  induction keys generalizing s pruned with
  | nil =>
      exact ⟨fun _ h => h, fun _ h _ => h, fun _ _ _ h => h, fun _ _ _ _ h => absurd h List.not_mem_nil⟩
  | cons key keys ih =>
      -- a key that deletes nothing: its job is gone, or within the retention
      have hskip : (∀ job ∈ s.jobs, job.id = jobIdOf key → ¬ Expired cutoff job) →
          pruneKeys cutoff deleteObject (key :: keys) s pruned = pruneKeys cutoff deleteObject keys s pruned →
          let r := pruneKeys cutoff deleteObject (key :: keys) s pruned
          (∀ job ∈ r.1.jobs, job ∈ s.jobs) ∧
            (∀ job ∈ s.jobs, ¬ Expired cutoff job → job ∈ r.1.jobs) ∧
            (∀ key body, (∀ job ∈ s.jobs, job.id = jobIdOf key → ¬ Expired cutoff job) →
              (key, body) ∈ s.bucket → (key, body) ∈ r.1.bucket) ∧
            (∀ n, r.2 = .ok n → ∀ job ∈ r.1.jobs, job.id ∈ (key :: keys).map jobIdOf →
              ¬ Expired cutoff job) := by
        intro hkey heq
        obtain ⟨hsub, hkeep, hobject, hgone⟩ := ih s pruned
        rw [heq]
        refine ⟨hsub, hkeep, hobject, fun n hn job hjob hlisted => ?_⟩
        obtain hid | hlisted := List.mem_cons.mp hlisted
        · exact hkey job (hsub job hjob) hid
        · exact hgone n hn job hjob hlisted
      cases hjob : s.getJob (jobIdOf key) with
      | none =>
          refine hskip (fun job hmem hid => ?_) (by simp [pruneKeys, hjob])
          rw [← hid, getJob_of_mem hmem] at hjob
          cases hjob
      | some job =>
          obtain ⟨hmem, hid⟩ := getJob_some hjob
          by_cases hexpired : Expired cutoff job
          · cases hdelete : deleteObject key with
            | error error =>
                have heq : pruneKeys cutoff deleteObject (key :: keys) s pruned = (s, .error error) := by
                  simp [pruneKeys, hjob, hexpired, hdelete]
                rw [heq]
                exact ⟨fun _ h => h, fun _ h _ => h, fun _ _ _ h => h, fun _ hn => by cases hn⟩
            | ok _ =>
                have heq : pruneKeys cutoff deleteObject (key :: keys) s pruned =
                    pruneKeys cutoff deleteObject keys (s.remove key job.id) (pruned + 1) := by
                  simp [pruneKeys, hjob, hexpired, hdelete]
                obtain ⟨hsub, hkeep, hobject, hgone⟩ := ih (s.remove key job.id) (pruned + 1)
                rw [heq]
                refine ⟨fun other hother => (List.mem_filter.mp (hsub other hother)).1,
                  fun other hother hkept => ?_, fun k body hk hbody => ?_, fun n hn other hother hlisted => ?_⟩
                · refine hkeep other (List.mem_filter.mpr ⟨hother, decide_eq_true fun heq => ?_⟩) hkept
                  exact hkept (List.inj_on_of_nodup_map s.ids hother hmem heq ▸ hexpired)
                · refine hobject k body (fun other hother => hk other (List.mem_filter.mp hother).1)
                    (List.mem_filter.mpr ⟨hbody, decide_eq_true ?_⟩)
                  rintro rfl
                  exact hk job hmem hid hexpired
                · obtain heq | hlisted := List.mem_cons.mp hlisted
                  · have hne := of_decide_eq_true (List.mem_filter.mp (hsub other hother)).2
                    exact absurd (heq.trans hid.symm) hne
                  · exact hgone n hn other hother hlisted
          · refine hskip (fun other hother hsame => ?_) (by simp [pruneKeys, hjob, hexpired])
            rwa [List.inj_on_of_nodup_map s.ids hother hmem (hsame.trans hid.symm)]

end BackupService

/-! ## Restoring -/

open BackupService

variable {β π : Type}

/-- What `restore` applies to its target. -/
inductive Applied (π : Type) where
  | full (payload : π)
  | incremental (baseJobId : String) (payload : π)

/-- `RecoveryService.restore`, with the digest and the parser it uses. -/
def restore (sha256 : β → String) (parse : β → Except String π) (s : BackupService β) (jobId : String) :
    Except String (Applied π) :=
  match s.getJob jobId with
  | none => .error ("Backup job not found: " ++ jobId)
  | some job =>
      if job.status ≠ .completed then
        .error ("Backup job " ++ jobId ++ " is not completed (status: " ++ job.status.name ++ ")")
      else
        match job.s3Key with
        | none => .error ("Backup job " ++ jobId ++ " has no S3 key")
        | some key =>
            match s.bucket.lookup key with
            | none => .error "S3 getObject failed: 404"
            | some body =>
                if job.checksum.getD "" ≠ "" ∧ sha256 body ≠ job.checksum.getD "" then
                  .error ("Checksum mismatch for backup " ++ jobId ++ ": expected " ++
                    job.checksum.getD "" ++ ", got " ++ sha256 body)
                else
                  match parse body with
                  | .error error => .error error
                  | .ok payload =>
                      -- an empty id is none: `job.baseBackupId &&`
                      if job.type = .incremental ∧ job.baseBackupId.getD "" ≠ "" then
                        .ok (.incremental (job.baseBackupId.getD "") payload)
                      else .ok (.full payload)

/-- `restoreLatest`. -/
def restoreLatest (sha256 : β → String) (parse : β → Except String π) (s : BackupService β)
    (type : Option BackupType) : Except String (Applied π) :=
  match s.getLatestCompleted type with
  | none => .error ("No completed " ++ (type.elim "" BackupType.name) ++ " backup found")
  | some job => restore sha256 parse s job.id

/-- An increment that is applied is a completed one that is still there. -/
theorem restore_incremental {sha256 : β → String} {parse : β → Except String π} {s : BackupService β}
    {jobId base : String} {payload : π}
    (h : restore sha256 parse s jobId = .ok (.incremental base payload)) :
    ∃ job ∈ s.jobs, job.id = jobId ∧ job.status = .completed ∧ job.type = .incremental ∧
      job.baseBackupId = some base := by
  -- the job is found, completed, and of the type whose branch is taken
  unfold restore at h
  split at h
  · cases h
  case h_2 job hjob =>
    obtain ⟨hmem, hid⟩ := getJob_some hjob
    split at h
    · cases h
    case isFalse hstatus =>
      split at h
      · cases h
      · split at h
        · cases h
        · split at h
          · cases h
          · split at h
            · cases h
            · split at h
              case isTrue hbase =>
                obtain ⟨htype, hid'⟩ := hbase
                obtain ⟨rfl, -⟩ : job.baseBackupId.getD "" = base ∧ _ := by simpa using h
                refine ⟨job, hmem, hid, by simpa using hstatus, htype, ?_⟩
                cases hbase : job.baseBackupId with
                | none =>
                    rw [hbase] at hid'
                    exact absurd rfl hid'
                | some b => rfl
              case isFalse => cases h

theorem getLatestCompleted_mem {s : BackupService β} {type : Option BackupType} {job : BackupJob}
    (h : s.getLatestCompleted type = some job) : job ∈ s.jobs :=
  (List.mem_insertionSort _).mp (List.mem_of_find?_eq_some h)

/-! ## What pruning keeps -/

/-- `s'` is `s` pruned by age: everything within the retention stays, with its
    object, and so do the bases and the newest full backup that are within it. -/
structure PrunedByAge (cutoff : Int) (listed : List String) (s s' : BackupService β)
    (result : Except String Nat) : Prop where
  only_expired : ∀ job ∈ s.jobs, job ∉ s'.jobs → Expired cutoff job
  expired_gone : ∀ n, result = .ok n → ∀ job ∈ s.jobs, job.id ∈ listed.map jobIdOf → Expired cutoff job →
    job ∉ s'.jobs
  base_stays : ∀ job ∈ s'.jobs, job.type = .incremental → job.status = .completed → ∀ base ∈ s.jobs,
    job.baseBackupId = some base.id → ¬ Expired cutoff base →
      base ∈ s'.jobs ∧ ∀ key body, base.s3Key = some key → (key, body) ∈ s.bucket → (key, body) ∈ s'.bucket
  restored_on : ∀ (π : Type) (sha256 : β → String) (parse : β → Except String π) jobId base payload,
    restore sha256 parse s' jobId = .ok (.incremental base payload) →
      (∃ job ∈ s'.jobs, job.id = jobId ∧ job.status = .completed ∧ job.type = .incremental ∧
        job.baseBackupId = some base) ∧
      ∀ job ∈ s.jobs, job.id = base → job ∈ s'.jobs ∨ Expired cutoff job
  latest_full_stays : ∀ job, s.getLatestCompleted (some .full) = some job → ¬ Expired cutoff job →
    job ∈ s'.jobs

/-- **BY AGE**: pruning removes the expired backups, whatever depends on them,
    and nothing else. -/
theorem prune_by_age (s : BackupService β) (now retentionDays : Nat) (listed : List String)
    (deleteObject : String → Except String Unit) :
    PrunedByAge (cutoff now retentionDays) listed s
      (s.pruneOldBackups now retentionDays listed deleteObject).1
      (s.pruneOldBackups now retentionDays listed deleteObject).2 := by
  obtain ⟨hsub, hkeep, hobject, hgone⟩ :=
    pruneKeys_spec (cutoff now retentionDays) deleteObject listed s 0
  have honly : ∀ job ∈ s.jobs, job ∉ (s.pruneOldBackups now retentionDays listed deleteObject).1.jobs →
      Expired (cutoff now retentionDays) job := by
    intro job hjob hnot
    by_contra hkept
    exact hnot (hkeep job hjob hkept)
  refine ⟨honly, fun n hn job _ hlisted hexpired hjob => hgone n hn job hjob hlisted hexpired, ?_, ?_,
    fun job hlatest hkept => hkeep job (getLatestCompleted_mem hlatest) hkept⟩
  · intro job hjob _ _ base hbase _ hkept
    refine ⟨hkeep base hbase hkept, fun key body hkey hbody => hobject key body ?_ hbody⟩
    intro other hother hid
    rw [s.keys base hbase key hkey, jobIdOf_s3KeyOf base.type (s.uuids base hbase)] at hid
    rwa [List.inj_on_of_nodup_map s.ids hother hbase hid]
  · intro π sha256 parse jobId base payload hrestore
    refine ⟨restore_incremental hrestore, fun job hjob hid => ?_⟩
    by_cases hthere : job ∈ (s.pruneOldBackups now retentionDays listed deleteObject).1.jobs
    · exact Or.inl hthere
    · exact Or.inr (honly job hjob hthere)

/-- A full backup of day 0 and an increment on it of day 10. -/
def chain : BackupService Unit where
  jobs := [⟨"a", .full, .completed, 0, none, some (s3KeyOf .full "a"), none, none, none, none⟩,
    ⟨"b", .incremental, .completed, 864000000, none, some (s3KeyOf .incremental "b"), none, none, some "a",
      none⟩]
  bucket := [(s3KeyOf .full "a", ()), (s3KeyOf .incremental "b", ())]
  ids := by decide
  uuids := by simp [Uuid]
  keys := by simp

/-- On day 40 the full backup goes, and the increment stays without it. -/
theorem base_pruned : ¬ ∀ (s : BackupService Unit) (now retentionDays : Nat) (listed : List String)
    (deleteObject : String → Except String Unit),
    let s' := (s.pruneOldBackups now retentionDays listed deleteObject).1
    (∀ job ∈ s'.jobs, job.type = .incremental → job.status = .completed → ∀ base ∈ s.jobs,
      job.baseBackupId = some base.id → base ∈ s'.jobs) ∧
    ∀ job, s.getLatestCompleted (some .full) = some job → job ∈ s'.jobs := by
  intro h
  have hbases := (h chain (40 * 86400000) 30 [s3KeyOf .full "a"] fun _ => .ok ()).1
  have hid : jobIdOf (s3KeyOf .full "a") = "a" := jobIdOf_s3KeyOf .full (by simp [Uuid])
  have hafter : (chain.pruneOldBackups (40 * 86400000) 30 [s3KeyOf .full "a"] fun _ => .ok ()).1.jobs =
      chain.jobs.tail := by
    simp [pruneOldBackups, pruneKeys, hid, chain, getJob, Expired, cutoff, remove]
  rw [hafter] at hbases
  have hmem := hbases _ List.mem_cons_self rfl rfl _ List.mem_cons_self rfl
  simp [chain] at hmem

end Backup
