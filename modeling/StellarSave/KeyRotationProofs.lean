import Mathlib
import StellarSave.TraceProofs

/-! # Key rotation — a window that only the pruner closes

    `KeyRegistry` and the functions around it (`key_rotation_service.ts`).  A key
    that is rotated out is `retiring` and still validates; it stops when
    `pruneRetiring` finds its transition window over.  Nothing calls the pruner
    between rotations of the type, and the verifier looks at the status alone. -/

namespace KeyRotation

open Trace

inductive KeyType where
  | jwt
  | hmac
  | api
  deriving DecidableEq, Repr

inductive KeyStatus where
  | active
  | retiring
  | retired
  deriving DecidableEq, Repr

structure RotationPolicy where
  rotationIntervalMs : Nat
  transitionWindowMs : Nat
  keyLengthBytes : Nat

/-- `DEFAULT_POLICIES`. -/
def defaultPolicies : KeyType → RotationPolicy
  | .jwt => ⟨30 * 86400000, 86400000, 64⟩
  | .hmac => ⟨30 * 86400000, 86400000, 32⟩
  | .api => ⟨90 * 86400000, 7 * 86400000, 32⟩

/-- A key; `κ` is its material. -/
structure KeyRecord (κ : Type) where
  keyId : Nat
  material : κ
  status : KeyStatus
  createdAt : Nat
  expiresAt : Nat
  rotatedAt : Option Nat
  deriving DecidableEq

/-- A signature as its caller keeps it. -/
structure Signed (δ σ : Type) where
  keyType : KeyType
  data : δ
  keyId : Nat
  signature : σ

/-- The registry, newest keys first, how many keys were drawn, the clock, and
    the signatures made. -/
structure State (κ δ σ : Type) where
  keys : KeyType → List (KeyRecord κ)
  drawn : Nat
  now : Nat
  signed : List (Signed δ σ)

def start {κ δ σ : Type} : State κ δ σ := ⟨fun _ => [], 0, 0, []⟩

/-- What can happen; `rotateKeys` without a type is one after the other. -/
inductive Event (δ : Type) where
  | seedInitial (keyType : KeyType)
  | rotate (keyType : KeyType)
  | rotateKeys (keyType : KeyType)
  | pruneRetiring (keyType : KeyType)
  | sign (keyType : KeyType) (data : δ)
  | verify (j : Nat)
  | pass (ms : Nat)

section
variable {κ δ σ : Type}

/-! ## The registry -/

def getActive (keys : List (KeyRecord κ)) : Option (KeyRecord κ) :=
  keys.find? fun key => key.status = .active

def getValidating (keys : List (KeyRecord κ)) : List (KeyRecord κ) :=
  keys.filter fun key => key.status = .active ∨ key.status = .retiring

/-- The first active key starts to retire. -/
def supersede (now : Nat) : List (KeyRecord κ) → List (KeyRecord κ)
  | [] => []
  | key :: keys =>
      if key.status = .active then { key with status := .retiring, rotatedAt := some now } :: keys
      else key :: supersede now keys

/-- What `pruneRetiring` makes of a key. -/
def retire (policy : RotationPolicy) (now : Nat) (key : KeyRecord κ) : KeyRecord κ :=
  if key.status = .retiring ∧ ∃ rotatedAt ∈ key.rotatedAt, rotatedAt + policy.transitionWindowMs < now then
    { key with status := .retired }
  else key

variable (policies : KeyType → RotationPolicy) (draw : Nat → Nat → κ) (hmac : κ → δ → σ)

/-- The keys of one type replaced. -/
def State.setKeys (s : State κ δ σ) (keyType : KeyType) (keys : List (KeyRecord κ)) : State κ δ σ :=
  { s with keys := fun t => if t = keyType then keys else s.keys t }

/-- `_createKey`: `draw n length` is the `n`-th key drawn. -/
def createKey (s : State κ δ σ) (keyType : KeyType) : State κ δ σ :=
  let policy := policies keyType
  let key : KeyRecord κ :=
    ⟨s.drawn, draw s.drawn policy.keyLengthBytes, .active, s.now, s.now + policy.rotationIntervalMs, none⟩
  { s.setKeys keyType (key :: s.keys keyType) with drawn := s.drawn + 1 }

def seedInitial (s : State κ δ σ) (keyType : KeyType) : State κ δ σ :=
  match getActive (s.keys keyType) with
  | some _ => s
  | none => createKey policies draw s keyType

def rotate (s : State κ δ σ) (keyType : KeyType) : State κ δ σ :=
  match getActive (s.keys keyType) with
  | none => createKey policies draw s keyType
  | some _ => createKey policies draw (s.setKeys keyType (supersede s.now (s.keys keyType))) keyType

def pruneRetiring (s : State κ δ σ) (keyType : KeyType) : State κ δ σ :=
  s.setKeys keyType ((s.keys keyType).map (retire (policies keyType) s.now))

def signWithActiveKey (s : State κ δ σ) (keyType : KeyType) (data : δ) : Option (Signed δ σ) :=
  (getActive (s.keys keyType)).map fun key => ⟨keyType, data, key.keyId, hmac key.material data⟩

/-- `verifyWithDualValidation`: the first key that made the signature. -/
def verifyWithDualValidation [DecidableEq σ] (s : State κ δ σ) (keyType : KeyType) (data : δ)
    (signature : σ) : Option (KeyRecord κ) :=
  (getValidating (s.keys keyType)).find? fun key => hmac key.material data = signature

def step : Event δ → State κ δ σ → State κ δ σ
  | .seedInitial keyType, s => seedInitial policies draw s keyType
  | .rotate keyType, s => rotate policies draw s keyType
  | .rotateKeys keyType, s => pruneRetiring policies (rotate policies draw s keyType) keyType
  | .pruneRetiring keyType, s => pruneRetiring policies s keyType
  | .sign keyType data, s =>
      match signWithActiveKey hmac s keyType data with
      | some made => { s with signed := s.signed ++ [made] }
      | none => s
  | .verify _, s => s
  | .pass ms, s => { s with now := s.now + ms }

/-! ## What rotation promises -/

/-- Each seeded type has exactly one active key. -/
def OneActive (s : State κ δ σ) : Prop :=
  ∀ keyType, s.keys keyType ≠ [] → (s.keys keyType).countP (fun key => key.status = .active) = 1

/-- A key within its time: active, or not longer rotated out than the window. -/
def Current (policy : RotationPolicy) (now : Nat) (key : KeyRecord κ) : Prop :=
  key.status = .active ∨ ∃ rotatedAt, key.rotatedAt = some rotatedAt ∧
    now ≤ rotatedAt + policy.transitionWindowMs

/-- A signature is accepted if and only if its key is within its time. -/
def Honoured [DecidableEq σ] (x : Event δ) (s : State κ δ σ) : Prop :=
  ∀ j made, x = .verify j → s.signed[j]? = some made →
    ∃ key ∈ s.keys made.keyType, key.keyId = made.keyId ∧
      ((verifyWithDualValidation hmac s made.keyType made.data made.signature).isSome = true ↔
        Current (policies made.keyType) s.now key)

/-- A key whose signature is verified is not `retiring` past its window. -/
def Pruned (x : Event δ) (s : State κ δ σ) : Prop :=
  ∀ j made, x = .verify j → s.signed[j]? = some made → ∀ key ∈ s.keys made.keyType, key.keyId = made.keyId →
    key.status = .retiring → ∀ rotatedAt, key.rotatedAt = some rotatedAt →
      s.now ≤ rotatedAt + (policies made.keyType).transitionWindowMs

/-! ## Lists of keys -/

/-- What holds of the keys of one type: each was drawn, one is active, a key that
    is not was rotated out, and a retired one is past its window. -/
structure Kept (policy : RotationPolicy) (drawn now : Nat) (keys : List (KeyRecord κ)) : Prop where
  ids : (keys.map KeyRecord.keyId).Nodup
  drawn : ∀ key ∈ keys, key.keyId < drawn ∧ key.material = draw key.keyId policy.keyLengthBytes
  active : keys ≠ [] → keys.countP (fun key => key.status = .active) = 1
  dated : ∀ key ∈ keys, key.status ≠ .active → ∃ rotatedAt, key.rotatedAt = some rotatedAt
  retired : ∀ key ∈ keys, key.status = .retired → ∀ rotatedAt, key.rotatedAt = some rotatedAt →
    rotatedAt + policy.transitionWindowMs < now

variable {policy : RotationPolicy} {drawn now : Nat} {keys : List (KeyRecord κ)} {draw}

/-- No key is active if the count of active ones is zero. -/
theorem getActive_none : getActive keys = none ↔ keys.countP (fun key => key.status = .active) = 0 := by
  rw [getActive, List.find?_eq_none, List.countP_eq_zero]

/-- Without an active key there is none at all. -/
theorem Kept.eq_nil (h : Kept draw policy drawn now keys) (hnone : getActive keys = none) : keys = [] := by
  by_contra hne
  have hone := h.active hne
  rw [getActive_none.mp hnone] at hone
  cases hone

/-- A rotation keeps every key. -/
theorem supersede_ids (now : Nat) (keys : List (KeyRecord κ)) :
    (supersede now keys).map KeyRecord.keyId = keys.map KeyRecord.keyId := by
  induction keys with
  | nil => rfl
  | cons key keys ih =>
      unfold supersede
      split
      · rfl
      · rw [List.map_cons, List.map_cons, ih]

/-- A key behind a rotation is one from before it, or the one rotated out. -/
theorem mem_supersede {key : KeyRecord κ} (h : key ∈ supersede now keys) :
    key ∈ keys ∨ ∃ old ∈ keys, key = { old with status := .retiring, rotatedAt := some now } := by
  induction keys with
  | nil => exact absurd h List.not_mem_nil
  | cons old keys ih =>
      unfold supersede at h
      split at h
      · obtain rfl | h := List.mem_cons.mp h
        · exact Or.inr ⟨old, List.mem_cons_self, rfl⟩
        · exact Or.inl (List.mem_cons_of_mem old h)
      · obtain rfl | h := List.mem_cons.mp h
        · exact Or.inl List.mem_cons_self
        · obtain h | ⟨other, hother, heq⟩ := ih h
          · exact Or.inl (List.mem_cons_of_mem old h)
          · exact Or.inr ⟨other, List.mem_cons_of_mem old hother, heq⟩

/-- And makes one fewer active. -/
theorem supersede_active (now : Nat) (keys : List (KeyRecord κ)) :
    (supersede now keys).countP (fun key => key.status = .active) =
      keys.countP (fun key => key.status = .active) - 1 := by
  induction keys with
  | nil => rfl
  | cons key keys ih =>
      unfold supersede
      split
      case isTrue hactive =>
        rw [List.countP_cons_of_neg (by simp), List.countP_cons_of_pos (by simpa using hactive)]
        rfl
      case isFalse hactive =>
        rw [List.countP_cons_of_neg (by simpa using hactive), List.countP_cons_of_neg (by simpa using hactive),
          ih]

/-- **CREATED**: a new key beside keys none of which is active. -/
theorem Kept.create (hids : (keys.map KeyRecord.keyId).Nodup)
    (hdrawn : ∀ key ∈ keys, key.keyId < drawn ∧ key.material = draw key.keyId policy.keyLengthBytes)
    (hactive : keys.countP (fun key => key.status = .active) = 0)
    (hdated : ∀ key ∈ keys, key.status ≠ .active → ∃ rotatedAt, key.rotatedAt = some rotatedAt)
    (hretired : ∀ key ∈ keys, key.status = .retired → ∀ rotatedAt, key.rotatedAt = some rotatedAt →
      rotatedAt + policy.transitionWindowMs < now) (expiresAt : Nat) :
    Kept draw policy (drawn + 1) now
      (⟨drawn, draw drawn policy.keyLengthBytes, .active, now, expiresAt, none⟩ :: keys) where
  -- the new key has a number of its own
  ids := by
    rw [List.map_cons, List.nodup_cons]
    refine ⟨fun hmem => ?_, hids⟩
    obtain ⟨key, hkey, hid⟩ := List.mem_map.mp hmem
    exact absurd (hdrawn key hkey).1 (by simp [hid])
  drawn key hkey := by
    obtain rfl | hkey := List.mem_cons.mp hkey
    · exact ⟨Nat.lt_succ_self drawn, rfl⟩
    · exact ⟨Nat.lt_succ_of_lt (hdrawn key hkey).1, (hdrawn key hkey).2⟩
  -- it is the only active one
  active := fun _ => by rw [List.countP_cons_of_pos (by simp), hactive]
  dated key hkey hstatus := by
    obtain rfl | hkey := List.mem_cons.mp hkey
    · exact absurd rfl hstatus
    · exact hdated key hkey hstatus
  retired key hkey hstatus := by
    obtain rfl | hkey := List.mem_cons.mp hkey
    · cases hstatus
    · exact hretired key hkey hstatus

/-- **ROTATED**: one key starts to retire, and one is new. -/
theorem Kept.rotate (h : Kept draw policy drawn now keys) (expiresAt : Nat) :
    Kept draw policy (drawn + 1) now
      (⟨drawn, draw drawn policy.keyLengthBytes, .active, now, expiresAt, none⟩ :: supersede now keys) := by
  refine Kept.create ?_ (fun key hkey => ?_) ?_ (fun key hkey hstatus => ?_)
    (fun key hkey hstatus => ?_) expiresAt
  · rw [supersede_ids]
    exact h.ids
  · obtain hold | ⟨old, hold, rfl⟩ := mem_supersede hkey
    · exact h.drawn key hold
    · exact h.drawn old hold
  · rw [supersede_active]
    by_cases hempty : keys = []
    · rw [hempty]
      rfl
    · rw [h.active hempty]
  · obtain hold | ⟨old, hold, rfl⟩ := mem_supersede hkey
    · exact h.dated key hold hstatus
    · exact ⟨now, rfl⟩
  · obtain hold | ⟨old, hold, rfl⟩ := mem_supersede hkey
    · exact h.retired key hold hstatus
    · cases hstatus

/-- A key that retires keeps its id. -/
theorem retire_keyId (key : KeyRecord κ) : (retire policy now key).keyId = key.keyId := by
  unfold retire
  split <;> rfl

/-- The active key does not retire, whatever its age. -/
theorem retire_active (key : KeyRecord κ) : (retire policy now key).status = .active ↔ key.status = .active := by
  unfold retire
  split
  case isTrue h => simp [h.1]
  case isFalse => rfl

/-- **PRUNED**: a key retires past its window only. -/
theorem Kept.prune (h : Kept draw policy drawn now keys) :
    Kept draw policy drawn now (keys.map (retire policy now)) where
  -- to retire a key moves it between statuses only
  ids := by
    rw [List.map_map]
    simpa only [Function.comp_def, retire_keyId] using h.ids
  drawn key hkey := by
    obtain ⟨old, hold, rfl⟩ := List.mem_map.mp hkey
    unfold retire
    split <;> exact h.drawn old hold
  active hne := by
    rw [List.countP_map]
    simp only [Function.comp_def, retire_active]
    exact h.active fun hnil => hne (by simp [hnil])
  dated key hkey hstatus := by
    obtain ⟨old, hold, rfl⟩ := List.mem_map.mp hkey
    have hdated := h.dated old hold fun hactive => hstatus (retire_active old |>.mpr hactive)
    unfold retire
    split <;> exact hdated
  -- a key retires when its window is over, or had retired before
  retired key hkey := by
    obtain ⟨old, hold, rfl⟩ := List.mem_map.mp hkey
    unfold retire
    split
    case isTrue hpast =>
      intro _ rotatedAt hrotated
      obtain ⟨_, r, hr, hlt⟩ := hpast
      obtain rfl : r = rotatedAt := Option.some.inj (hr.symm.trans hrotated)
      exact hlt
    case isFalse => exact h.retired old hold

/-- What is kept at a time is kept later on. -/
theorem Kept.later (h : Kept draw policy drawn now keys) {drawn' now' : Nat} (hdrawn : drawn ≤ drawn')
    (hnow : now ≤ now') : Kept draw policy drawn' now' keys where
  ids := h.ids
  drawn := fun key hkey => ⟨Nat.lt_of_lt_of_le (h.drawn key hkey).1 hdrawn, (h.drawn key hkey).2⟩
  active := h.active
  dated := h.dated
  retired := fun key hkey hstatus r hr => Nat.lt_of_lt_of_le (h.retired key hkey hstatus r hr) hnow

/-! ## Along a run -/

variable (draw)

/-- Every type is kept, and every signature is its key's. -/
structure Sound (s : State κ δ σ) : Prop where
  kept : ∀ keyType, Kept draw (policies keyType) s.drawn s.now (s.keys keyType)
  signed : ∀ made ∈ s.signed,
    made.signature = hmac (draw made.keyId (policies made.keyType).keyLengthBytes) made.data
  there : ∀ made ∈ s.signed, made.keyId ∈ (s.keys made.keyType).map KeyRecord.keyId

variable {policies draw hmac} {s : State κ δ σ}

/-- No type has two active keys. -/
theorem Sound.oneActive (h : Sound policies draw hmac s) : OneActive s :=
  fun keyType hne => (h.kept keyType).active hne

/-- The keys of one type change, and keys may be drawn. -/
theorem Sound.setKeys (h : Sound policies draw hmac s) {s' : State κ δ σ} (keyType : KeyType)
    (hdrawn : s.drawn ≤ s'.drawn) (hnow : s'.now = s.now) (hsigned : s'.signed = s.signed)
    (hothers : ∀ t, t ≠ keyType → s'.keys t = s.keys t)
    (hids : (s.keys keyType).map KeyRecord.keyId ⊆ (s'.keys keyType).map KeyRecord.keyId)
    (hkept : Kept draw (policies keyType) s'.drawn s.now (s'.keys keyType)) : Sound policies draw hmac s' where
  kept t := by
    rw [hnow]
    by_cases ht : t = keyType
    · exact ht ▸ hkept
    · rw [hothers t ht]
      exact (h.kept t).later hdrawn (Nat.le_refl _)
  signed := hsigned ▸ h.signed
  there := by
    rw [hsigned]
    intro made hmade
    by_cases ht : made.keyType = keyType
    · exact ht ▸ hids (ht ▸ h.there made hmade)
    · rw [hothers _ ht]
      exact h.there made hmade

/-- A key is created where none is active. -/
theorem Sound.createKey (h : Sound policies draw hmac s) {keyType : KeyType}
    (hnone : getActive (s.keys keyType) = none) : Sound policies draw hmac (createKey policies draw s keyType) := by
  have hempty := (h.kept keyType).eq_nil hnone
  refine h.setKeys keyType (Nat.le_succ _) rfl rfl (fun t ht => if_neg ht) ?_ ?_
  · simp [hempty]
  have hkept := (h.kept keyType).rotate (s.now + (policies keyType).rotationIntervalMs)
  rw [hempty] at hkept
  simpa [KeyRotation.createKey, State.setKeys, hempty, supersede] using hkept

/-- A rotation ends the active key and creates its successor. -/
theorem Sound.rotate (h : Sound policies draw hmac s) (keyType : KeyType) :
    Sound policies draw hmac (rotate policies draw s keyType) := by
  unfold KeyRotation.rotate
  split
  case h_1 hnone => exact h.createKey hnone
  case h_2 =>
    refine h.setKeys keyType (Nat.le_succ _) rfl rfl (fun t ht => ?_) ?_ ?_
    · simp [KeyRotation.createKey, State.setKeys, ht]
    · have hids := supersede_ids s.now (s.keys keyType)
      simp [KeyRotation.createKey, State.setKeys, hids]
    · have hkept := (h.kept keyType).rotate (s.now + (policies keyType).rotationIntervalMs)
      simpa [KeyRotation.createKey, State.setKeys] using hkept

/-- To prune the retiring keys touches no active one. -/
theorem Sound.pruneRetiring (h : Sound policies draw hmac s) (keyType : KeyType) :
    Sound policies draw hmac (pruneRetiring policies s keyType) := by
  refine h.setKeys keyType (Nat.le_refl _) rfl rfl (fun t ht => if_neg ht) ?_ ?_
  · simp [KeyRotation.pruneRetiring, State.setKeys, Function.comp_def, retire_keyId]
  simpa [KeyRotation.pruneRetiring, State.setKeys] using (h.kept keyType).prune

/-- **SIGNED**: with the active key. -/
theorem Sound.sign (h : Sound policies draw hmac s) {keyType : KeyType} {data : δ} {made : Signed δ σ}
    (hmade : signWithActiveKey hmac s keyType data = some made) :
    made.signature = hmac (draw made.keyId (policies made.keyType).keyLengthBytes) made.data ∧
      made.keyId ∈ (s.keys made.keyType).map KeyRecord.keyId := by
  obtain ⟨key, hkey, rfl⟩ := Option.map_eq_some_iff.mp hmade
  have hmem := List.mem_of_find?_eq_some hkey
  refine ⟨?_, List.mem_map_of_mem hmem⟩
  rw [((h.kept keyType).drawn key hmem).2]

/-- **ONE STEP**: whatever is called. -/
theorem step_sound (x : Event δ) (h : Sound policies draw hmac s) :
    Sound policies draw hmac (step policies draw hmac x s) := by
  -- a rotation takes the active key, and there is one
  cases x with
  | seedInitial keyType =>
      simp only [step, seedInitial]
      split
      · exact h
      case h_2 hnone => exact h.createKey hnone
  | rotate keyType => exact h.rotate keyType
  | rotateKeys keyType => exact (h.rotate keyType).pruneRetiring keyType
  | pruneRetiring keyType => exact h.pruneRetiring keyType
  -- what is signed is signed by the active key
  | sign keyType data =>
      simp only [step]
      split
      case h_1 made hmade =>
        refine ⟨h.kept, fun other hother => ?_, fun other hother => ?_⟩
        · obtain hother | hother := List.mem_append.mp hother
          · exact h.signed other hother
          · obtain rfl := List.mem_singleton.mp hother
            exact (h.sign hmade).1
        · obtain hother | hother := List.mem_append.mp hother
          · exact h.there other hother
          · obtain rfl := List.mem_singleton.mp hother
            exact (h.sign hmade).2
      case h_2 => exact h
  | verify j => exact h
  | pass ms =>
      exact ⟨fun keyType => (h.kept keyType).later (Nat.le_refl _) (Nat.le_add_right _ _), h.signed,
        h.there⟩

/-- **ACCEPTED**: keys that are told apart by what they sign are accepted until
    they are retired. -/
theorem accepted_iff [DecidableEq σ] (hdraw : ∀ m n a b, draw m a = draw n b → m = n)
    (hhmac : ∀ data, Function.Injective fun key => hmac key data) (h : Sound policies draw hmac s)
    {made : Signed δ σ} (hmade : made ∈ s.signed) {key : KeyRecord κ} (hkey : key ∈ s.keys made.keyType)
    (hid : key.keyId = made.keyId) :
    (verifyWithDualValidation hmac s made.keyType made.data made.signature).isSome = true ↔
      key.status ≠ .retired := by
  have hkept := h.kept made.keyType
  -- the signature is that of the key with its id
  have hsignature : made.signature = hmac key.material made.data := by
    rw [h.signed made hmade, (hkept.drawn key hkey).2, hid]
  rw [verifyWithDualValidation, List.find?_isSome]
  constructor
  -- a key that made this very signature is the key itself
  · rintro ⟨other, hother, hsame⟩
    obtain ⟨hmem, hstatus⟩ := List.mem_filter.mp hother
    have hmaterial : other.material = key.material :=
      hhmac made.data ((of_decide_eq_true hsame).trans hsignature)
    rw [(hkept.drawn other hmem).2, (hkept.drawn key hkey).2] at hmaterial
    obtain rfl : other = key :=
      List.inj_on_of_nodup_map hkept.ids hmem hkey (hdraw _ _ _ _ hmaterial)
    obtain hactive | hretiring := of_decide_eq_true hstatus
    · simp [hactive]
    · simp [hretiring]
  -- the key is among those tried, as long as it has not retired
  · intro hstatus
    refine ⟨key, List.mem_filter.mpr ⟨hkey, decide_eq_true ?_⟩, decide_eq_true hsignature.symm⟩
    cases hs : key.status with
    | active => exact Or.inl rfl
    | retiring => exact Or.inr rfl
    | retired => exact absurd hs hstatus

/-- **ONE VERIFICATION**: the window is honoured exactly where the pruner has
    seen to it. -/
theorem honoured_iff [DecidableEq σ] (hdraw : ∀ m n a b, draw m a = draw n b → m = n)
    (hhmac : ∀ data, Function.Injective fun key => hmac key data) (h : Sound policies draw hmac s)
    (x : Event δ) : Honoured policies hmac x s ↔ Pruned policies x s := by
  constructor
  -- a retiring key past its window would be accepted, against its window
  · intro hon j made hx hj key hkey hid hretiring rotatedAt hrotated
    have haccepted := (accepted_iff hdraw hhmac h (List.mem_of_getElem? hj) hkey hid).mpr (by simp [hretiring])
    obtain ⟨other, hother, hsame, hiff⟩ := hon j made hx hj
    obtain rfl : other = key :=
      List.inj_on_of_nodup_map (h.kept made.keyType).ids hother hkey (hsame.trans hid.symm)
    obtain hactive | ⟨r, hr, hle⟩ := hiff.mp haccepted
    · simp [hretiring] at hactive
    · obtain rfl : r = rotatedAt := Option.some.inj (hr.symm.trans hrotated)
      exact hle
  -- once pruned, a key that is accepted is active or in its window
  · intro hpruned j made hx hj
    obtain ⟨key, hkey, hid⟩ := List.mem_map.mp (h.there made (List.mem_of_getElem? hj))
    refine ⟨key, hkey, hid, ?_⟩
    rw [accepted_iff hdraw hhmac h (List.mem_of_getElem? hj) hkey hid]
    have hkept := h.kept made.keyType
    constructor
    · intro hstatus
      cases hs : key.status with
      | active => exact Or.inl hs
      | retiring =>
          obtain ⟨r, hr⟩ := hkept.dated key hkey (by simp [hs])
          exact Or.inr ⟨r, hr, hpruned j made hx hj key hkey hid hs r hr⟩
      | retired => exact absurd hs hstatus
    · rintro (hactive | ⟨r, hr, hle⟩) hretired
      · simp [hretired] at hactive
      · exact absurd hle (Nat.not_le.mpr (hkept.retired key hkey hretired r hr))

/-- At first there are no keys. -/
theorem start_sound : Sound policies draw hmac (start : State κ δ σ) where
  kept := fun _ => ⟨List.nodup_nil, nofun, fun hne => absurd rfl hne, nofun, nofun⟩
  signed := nofun
  there := nofun

/-! ## Every run -/

/-- **THE WINDOW**: in every run each seeded type has one active key, and the
    verifications of a run are right exactly when each comes before the end of
    its key's window, or after the pruner. -/
theorem window_honoured_iff [DecidableEq σ] (policies : KeyType → RotationPolicy) (draw : Nat → Nat → κ)
    (hmac : κ → δ → σ) (hdraw : ∀ m n a b, draw m a = draw n b → m = n)
    (hhmac : ∀ data, Function.Injective fun key => hmac key data) (xs : List (Event δ)) :
    Along (step policies draw hmac) (fun x s => OneActive (step policies draw hmac x s)) xs start ∧
      (Along (step policies draw hmac) (Honoured policies hmac) xs start ↔
        Along (step policies draw hmac) (Pruned policies) xs start) := by
  constructor
  · refine along_of_invariant (I := Sound policies draw hmac) (fun x s _ h => ?_) start_sound
      (along_true (step policies draw hmac) xs start)
    exact ⟨(step_sound x h).oneActive, step_sound x h⟩
  · exact along_congr (I := Sound policies draw hmac) (fun x _ h => honoured_iff hdraw hhmac h x)
      (fun x _ _ h => step_sound x h) start_sound xs

/-- A token signed before a rotation, and verified a day later. -/
theorem window_honoured_iff_jwt :
    Along (step defaultPolicies (fun n _ => n) Prod.mk) (Honoured defaultPolicies Prod.mk)
        [.seedInitial .jwt, .sign .jwt "payload", .rotateKeys .jwt, .pass 86400000, .verify 0] start ↔
      Along (step defaultPolicies (fun n _ => n) Prod.mk) (Pruned defaultPolicies)
        [.seedInitial .jwt, .sign .jwt "payload", .rotateKeys .jwt, .pass 86400000, .verify 0] start :=
  (window_honoured_iff defaultPolicies (fun n _ => n) Prod.mk (fun _ _ _ _ h => h)
    (fun _ _ _ h => congrArg Prod.fst h) _).2

/-- One rotation, and a day and a millisecond: the old key still validates. -/
theorem late_key_accepted : ¬ ∀ (policies : KeyType → RotationPolicy) (draw : Nat → Nat → Nat)
    (hmac : Nat → Nat → Nat × Nat), (∀ m n a b, draw m a = draw n b → m = n) →
    (∀ data, Function.Injective fun key => hmac key data) → ∀ xs : List (Event Nat),
      Along (step policies draw hmac) (Honoured policies hmac) xs start := by
  intro h
  have hrun := h defaultPolicies (fun n _ => n) Prod.mk (fun _ _ _ _ h => h)
    (fun _ _ _ h => congrArg Prod.fst h)
    (([.seedInitial .jwt, .sign .jwt 7, .rotateKeys .jwt, .pass 86400001] : List (Event Nat)) ++ [Event.verify 0])
  have hlast := ((along_append (step defaultPolicies (fun n _ => n) Prod.mk) _ _ _ start).mp hrun).2.1
  obtain ⟨key, hkey, hid, hiff⟩ := hlast 0 ⟨.jwt, 7, 0, (0, 7)⟩ rfl rfl
  have hkeys : key ∈ [(⟨1, 1, .active, 0, 30 * 86400000, none⟩ : KeyRecord Nat),
    ⟨0, 0, .retiring, 0, 30 * 86400000, some 0⟩] := hkey
  obtain rfl | hkeys := List.mem_cons.mp hkeys
  · cases hid
  · obtain rfl := List.mem_singleton.mp hkeys
    obtain hactive | ⟨r, hr, hle⟩ := hiff.mp (by decide)
    · cases hactive
    · obtain rfl : 0 = r := Option.some.inj hr
      exact absurd hle (by decide)

end

end KeyRotation
