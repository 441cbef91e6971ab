import Mathlib.Data.List.Pairwise
import StellarSave.FixedWindowProofs
import StellarSave.TraceProofs
import StellarSave.UnitsProofs

/-! # API keys — a key that is looked up, and a limit that is counted

    `api_key_service.ts` keeps keys by their hash; `api_key_rate_limiter.ts` looks the
    key of a request up, waits for the database twice, and then counts the request in a
    map of its own, in one go.  Between the two waits anything can happen to the key. -/

namespace ApiKeys

open FixedWindow Trace Units

inductive Tier where
  | free
  | pro
  | enterprise
  deriving DecidableEq, Repr

/-- `rateLimits`. -/
def rateLimits : Tier → Nat
  | .free => 100
  | .pro => 1000
  | .enterprise => 10000

/-- A row of the table of keys. -/
structure ApiKey (H : Type) where
  id : Nat
  keyHash : H
  keyPrefix : JsString
  userId : JsString
  name : JsString
  tier : Tier
  rateLimit : Nat
  isActive : Bool
  lastUsedAt : Option Int
  expiresAt : Option Int
  deriving DecidableEq, Repr

/-- What the limiter keeps for a key. -/
structure Usage where
  count : Nat
  resetAt : Int
  deriving DecidableEq, Repr

/-- Where a request stands in the middleware. -/
inductive Pc where
  | looking (key : JsString)
  | touching (keyId rateLimit : Nat)
  | counting (keyId rateLimit : Nat)
  | answered (status : Nat)
  | passed (keyId : Nat)
  | failed
  deriving DecidableEq, Repr

/-- The table, the map of the limiter, the requests, and those that `next` was called for. -/
structure State (H : Type) where
  keys : List (ApiKey H)
  keyUsageCounts : Nat → Option Usage
  calls : List Pc
  served : List (Nat × Int)
  now : Int

section
variable {H : Type} [DecidableEq H] (sha256 : JsString → H)

def start (now : Int) : State H := ⟨[], fun _ => none, [], [], now⟩

/-- `generateKey`; `keyId` are the random digits, `id` is what the database gives.  It takes
    neither an id nor a hash twice. -/
def generateKey (id : Nat) (keyId userId name : JsString) (tier : Tier) (s : State H) : State H :=
  let fullKey := lit "ss_" ++ keyId
  if s.keys.any fun r => decide (r.id = id ∨ r.keyHash = sha256 fullKey) then s
  else
    { s with
      keys := s.keys ++ [
        { id := id, keyHash := sha256 fullKey, keyPrefix := fullKey.take 15 ++ lit "..."
          userId := userId, name := name, tier := tier, rateLimit := rateLimits tier
          isActive := true, lastUsedAt := none, expiresAt := none }] }

/-- `apiKey.update`. -/
def update (id : Nat) (f : ApiKey H → ApiKey H) (s : State H) : State H :=
  { s with keys := s.keys.map fun r => if r.id = id then f r else r }

/-- `revokeKey`. -/
def revokeKey (id : Nat) (s : State H) : State H := update id (fun r => { r with isActive := false }) s

/-- What `validateKey` makes of the row it found. -/
def accepts (now : Int) (r : ApiKey H) : Bool :=
  r.isActive && match r.expiresAt with
    | some expiresAt => !decide (expiresAt < now)
    | none => true

/-- The counting of `apiKeyAuthMiddleware`.  What it counts up is the object of the map,
    where there is one. -/
def arrive (now : Int) (rateLimit : Nat) (stored : Option Usage) : Option Usage × Bool :=
  let usage := stored.getD ⟨0, now + 60 * 1000⟩
  let usage := if usage.resetAt < now then ⟨0, now + 60 * 1000⟩ else usage
  let usage := { usage with count := usage.count + 1 }
  if rateLimit < usage.count then (stored.map fun _ => usage, false)
  else (some usage, true)

/-- One step of a request; the database answers. -/
def turn (k : Nat) (s : State H) : State H :=
  match s.calls[k]? with
  | some (.looking key) =>
      match s.keys.find? fun r => decide (r.keyHash = sha256 key) with
      | some r =>
          { s with calls := s.calls.set k (if accepts s.now r then .touching r.id r.rateLimit else .answered 403) }
      | none => { s with calls := s.calls.set k (.answered 403) }
  | some (.touching keyId rateLimit) =>
      update keyId (fun r => { r with lastUsedAt := some s.now })
        { s with calls := s.calls.set k (.counting keyId rateLimit) }
  | some (.counting keyId rateLimit) =>
      let counted := arrive s.now rateLimit (s.keyUsageCounts keyId)
      { s with
        keyUsageCounts := fun id => if id = keyId then counted.1 else s.keyUsageCounts id
        calls := s.calls.set k (if counted.2 then .passed keyId else .answered 429)
        served := if counted.2 then s.served ++ [(keyId, s.now)] else s.served }
  | _ => s

/-- The database fails the request. -/
def fail (k : Nat) (s : State H) : State H :=
  match s.calls[k]? with
  | some (.looking _) | some (.touching _ _) => { s with calls := s.calls.set k .failed }
  | _ => s

inductive Event where
  | generate (id : Nat) (keyId userId name : JsString) (tier : Tier)
  | revoke (id : Nat)
  | request (key : Option JsString)
  | turn (k : Nat)
  | fail (k : Nat)
  | wait (ms : Nat)
  deriving DecidableEq, Repr

def step : Event → State H → State H
  | .generate id keyId userId name tier, s => generateKey sha256 id keyId userId name tier s
  | .revoke id, s => revokeKey id s
  | .request key, s =>
      { s with calls := s.calls ++ [if key.getD [] = [] then .answered 401 else .looking (key.getD [])] }
  | .turn k, s => turn sha256 k s
  | .fail k, s => fail k s
  | .wait ms, s => { s with now := s.now + ms }

/-- When the requests with a key were let through. -/
def timesOf (id : Nat) (s : State H) : List Int :=
  s.served.filterMap fun e => if e.1 = id then some e.2 else none

/-! ## The limit -/

/-- What the limiter remembers of a key. -/
def Metered (limit id : Nat) (s : State H) : Prop :=
  match s.keyUsageCounts id with
  | none => timesOf id s = []
  | some u => Counted limit 60000 (u.resetAt - 60000) u.count (timesOf id s) ∧ u.resetAt - 60000 ≤ s.now

/-- A request that was looked up carries the limit of its row, and every key is `Metered`. -/
structure Kept (s : State H) : Prop where
  rows : s.keys.Pairwise fun r r' => r.id ≠ r'.id
  limits : ∀ id limit, (Pc.touching id limit ∈ s.calls ∨ Pc.counting id limit ∈ s.calls) →
    ∃ r ∈ s.keys, r.id = id ∧ r.rateLimit = limit
  metered : ∀ id limit, (∀ r ∈ s.keys, r.id = id → r.rateLimit = limit) → Metered limit id s

section Limit

variable {s : State H} {id limit : Nat} {now : Int} {times : List Int}

/-- The counting keeps count: of a request that it lets through, and of one that it does not. -/
theorem arrive_counted (limit : Nat) {stored : Option Usage}
    (h : match stored with
      | none => times = []
      | some u => Counted limit 60000 (u.resetAt - 60000) u.count times ∧ u.resetAt - 60000 ≤ now) :
    match (arrive now limit stored).1 with
    | none => (if (arrive now limit stored).2 then times ++ [now] else times) = []
    | some u => Counted limit 60000 (u.resetAt - 60000) u.count
          (if (arrive now limit stored).2 then times ++ [now] else times) ∧
        u.resetAt - 60000 ≤ now := by
  -- no window is stored, or one that is over or still runs
  cases stored with
  | none =>
      obtain rfl : times = [] := h
      have hcalm : ¬ now + 60 * 1000 < now := by omega
      simp only [arrive, Option.getD_none, if_neg hcalm, Option.map_none, Nat.zero_add]
      by_cases hfull : limit < 1
      · rw [if_pos hfull]
        rfl
      · rw [if_neg hfull]
        refine ⟨?_, show now + 60 * 1000 - 60000 ≤ now by omega⟩
        rw [show now + 60 * 1000 - 60000 = now by omega]
        exact Counted.first (by decide) (by omega) now
  | some u =>
      obtain ⟨hcounted, hopened⟩ := h
      simp only [arrive, Option.getD_some, Option.map_some]
      by_cases hlate : u.resetAt < now
      · rw [if_pos hlate]
        have hstart : now + 60 * 1000 - 60000 = now := by omega
        by_cases hfull : limit < 1
        · simp only [Nat.zero_add, if_pos hfull]
          rw [hstart]
          exact ⟨hcounted.roll_refuse (by decide) (by omega), Int.le_refl now⟩
        · simp only [Nat.zero_add, if_neg hfull]
          rw [hstart]
          exact ⟨hcounted.roll (by decide) (by omega) (by omega), Int.le_refl now⟩
      · rw [if_neg hlate]
        by_cases hfull : limit < u.count + 1
        · simp only [if_pos hfull]
          exact ⟨hcounted.refuse, hopened⟩
        · simp only [if_neg hfull]
          exact ⟨hcounted.accept (by omega) hopened (by omega), hopened⟩

omit [DecidableEq H] in
theorem Metered.of_eq {s' : State H} (h : Metered limit id s)
    (husage : s'.keyUsageCounts id = s.keyUsageCounts id) (hserved : s'.served = s.served)
    (hnow : s.now ≤ s'.now) : Metered limit id s' := by
  have htimes : timesOf id s' = timesOf id s := by
    rw [timesOf, timesOf, hserved]
  rw [Metered] at h ⊢
  rw [husage, htimes]
  cases hu : s.keyUsageCounts id with
  | none =>
      rw [hu] at h
      exact h
  | some u =>
      rw [hu] at h
      exact ⟨h.1, h.2.trans hnow⟩

omit [DecidableEq H] in
theorem mem_update {f : ApiKey H → ApiKey H} {r : ApiKey H} :
    r ∈ (update id f s).keys ↔ ∃ r' ∈ s.keys, (if r'.id = id then f r' else r') = r :=
  List.mem_map

omit [DecidableEq H] in
/-- A write to a row that leaves its id and its limit. -/
theorem Kept.update (h : Kept s) {f : ApiKey H → ApiKey H} (hid : ∀ r, (f r).id = r.id)
    (hlimit : ∀ r, (f r).rateLimit = r.rateLimit) : Kept (update id f s) := by
  have hrow : ∀ r : ApiKey H, (if r.id = id then f r else r).id = r.id ∧
      (if r.id = id then f r else r).rateLimit = r.rateLimit := by
    intro r
    by_cases hr : r.id = id
    · rw [if_pos hr]
      exact ⟨hid r, hlimit r⟩
    · rw [if_neg hr]
      exact ⟨rfl, rfl⟩
  refine ⟨?_, ?_, ?_⟩
  · refine List.pairwise_map.mpr (h.rows.imp ?_)
    intro r r' hne
    rw [(hrow r).1, (hrow r').1]
    exact hne
  · intro key limit hcall
    obtain ⟨r, hr, hrid, hrlimit⟩ := h.limits key limit hcall
    exact ⟨_, mem_update.mpr ⟨r, hr, rfl⟩, (hrow r).1.trans hrid, (hrow r).2.trans hrlimit⟩
  · intro key limit hall
    refine (h.metered key limit ?_).of_eq rfl rfl (Int.le_refl _)
    intro r hr hrid
    rw [← (hrow r).2]
    exact hall _ (mem_update.mpr ⟨r, hr, rfl⟩) ((hrow r).1.trans hrid)

omit [DecidableEq H] in
/-- A request moves on, and nothing is counted. -/
theorem Kept.set (h : Kept s) (k : Nat) (pc : Pc)
    (hpc : ∀ id limit, pc = .touching id limit ∨ pc = .counting id limit →
      ∃ r ∈ s.keys, r.id = id ∧ r.rateLimit = limit) :
    Kept { s with calls := s.calls.set k pc } := by
  refine ⟨h.rows, ?_, ?_⟩
  · rintro id limit (hcall | hcall)
    · rcases List.mem_or_eq_of_mem_set hcall with hold | hnew
      · exact h.limits id limit (Or.inl hold)
      · exact hpc id limit (Or.inl hnew.symm)
    · rcases List.mem_or_eq_of_mem_set hcall with hold | hnew
      · exact h.limits id limit (Or.inr hold)
      · exact hpc id limit (Or.inr hnew.symm)
  · intro id limit hall
    exact (h.metered id limit hall).of_eq rfl rfl (Int.le_refl _)

/-- The request that is counted. -/
theorem Kept.counting (h : Kept s) {k keyId rateLimit : Nat}
    (hk : s.calls[k]? = some (.counting keyId rateLimit)) : Kept (turn sha256 k s) := by
  obtain ⟨row, hrow, hrowid, hrowlimit⟩ := h.limits keyId rateLimit (Or.inr (List.mem_of_getElem? hk))
  have hmoved : ∀ id limit, (if (arrive s.now rateLimit (s.keyUsageCounts keyId)).2 then Pc.passed keyId
      else .answered 429) ≠ .touching id limit ∧ (if (arrive s.now rateLimit (s.keyUsageCounts keyId)).2
      then Pc.passed keyId else .answered 429) ≠ .counting id limit := by
    intro id limit
    split <;> exact ⟨by simp, by simp⟩
  have hset := h.set k (if (arrive s.now rateLimit (s.keyUsageCounts keyId)).2 then Pc.passed keyId
    else .answered 429) fun id limit hpc => by
      rcases hpc with hpc | hpc
      · exact absurd hpc (hmoved id limit).1
      · exact absurd hpc (hmoved id limit).2
  rw [turn, hk]
  refine ⟨hset.rows, hset.limits, ?_⟩
  intro id limit hall
  have hold := h.metered id limit hall
  by_cases hid : id = keyId
  · obtain rfl := hid
    -- the limit of the row is the one that was looked up
    obtain rfl : rateLimit = limit := hrowlimit.symm.trans (hall row hrow hrowid)
    have hnew := arrive_counted rateLimit hold
    have htimes : timesOf id { s with served := if (arrive s.now rateLimit (s.keyUsageCounts id)).2 then
        s.served ++ [(id, s.now)] else s.served } = if (arrive s.now rateLimit
        (s.keyUsageCounts id)).2 then timesOf id s ++ [s.now] else timesOf id s := by
      cases (arrive s.now rateLimit (s.keyUsageCounts id)).2 with
      | true => simp [timesOf]
      | false => rfl
    rw [Metered]
    dsimp only
    rw [if_pos rfl]
    rw [← htimes] at hnew
    exact hnew
  · have htimes : timesOf id { s with served := if (arrive s.now rateLimit (s.keyUsageCounts keyId)).2 then
        s.served ++ [(keyId, s.now)] else s.served } = timesOf id s := by
      cases (arrive s.now rateLimit (s.keyUsageCounts keyId)).2 with
      | true => simp [timesOf, Ne.symm hid]
      | false => rfl
    rw [Metered] at hold ⊢
    dsimp only
    rw [if_neg hid]
    rw [← htimes] at hold
    exact hold

theorem Kept.turn (h : Kept s) (k : Nat) : Kept (turn sha256 k s) := by
  cases hk : s.calls[k]? with
  | none =>
      rw [ApiKeys.turn, hk]
      exact h
  | some pc =>
      cases pc with
      -- the request goes on from the await it stopped at
      | looking key =>
          rw [ApiKeys.turn, hk]
          dsimp only
          cases hfind : s.keys.find? fun r => decide (r.keyHash = sha256 key) with
          | none => exact h.set k _ fun id limit hpc => by simp at hpc
          | some r =>
              refine h.set k _ ?_
              intro id limit hpc
              by_cases haccepts : accepts s.now r = true
              · rw [if_pos haccepts] at hpc
                rcases hpc with hpc | hpc
                · obtain ⟨rfl, rfl⟩ := Pc.touching.inj hpc
                  exact ⟨r, List.mem_of_find?_eq_some hfind, rfl, rfl⟩
                · exact nomatch hpc
              · rw [if_neg haccepts] at hpc
                rcases hpc with hpc | hpc <;> exact nomatch hpc
      | touching keyId rateLimit =>
          rw [ApiKeys.turn, hk]
          refine Kept.update (h.set k _ ?_) (fun _ => rfl) (fun _ => rfl)
          intro id limit hpc
          rcases hpc with hpc | hpc
          · exact nomatch hpc
          · obtain ⟨rfl, rfl⟩ := Pc.counting.inj hpc
            exact h.limits _ _ (Or.inl (List.mem_of_getElem? hk))
      | counting keyId rateLimit => exact h.counting sha256 hk
      | answered status | passed keyId | failed =>
          rw [ApiKeys.turn, hk]
          exact h

theorem step_kept (e : Event) (h : Kept s) : Kept (step sha256 e s) := by
  cases e with
  -- a new key is active, and no request has looked it up
  | generate id keyId userId name tier =>
      rw [step, generateKey]
      by_cases htaken : (s.keys.any fun r => decide (r.id = id ∨ r.keyHash = sha256 (lit "ss_" ++ keyId))) = true
      · rw [if_pos htaken]
        exact h
      · rw [if_neg htaken]
        have hfresh : ∀ r ∈ s.keys, r.id ≠ id := by
          intro r hr hid
          exact htaken (List.any_eq_true.mpr ⟨r, hr, decide_eq_true (Or.inl hid)⟩)
        refine ⟨?_, ?_, ?_⟩
        · refine List.pairwise_append.mpr ⟨h.rows, List.pairwise_singleton _ _, ?_⟩
          intro r hr r' hr'
          rw [List.mem_singleton.mp hr']
          exact hfresh r hr
        · intro key limit hcall
          obtain ⟨r, hr, hrest⟩ := h.limits key limit hcall
          exact ⟨r, List.mem_append_left _ hr, hrest⟩
        · intro key limit hall
          exact (h.metered key limit fun r hr => hall r (List.mem_append_left _ hr)).of_eq rfl rfl
            (Int.le_refl _)
  | revoke id => exact h.update (fun _ => rfl) (fun _ => rfl)
  | request key =>
      refine ⟨h.rows, ?_, ?_⟩
      · intro id limit hcall
        refine h.limits id limit (hcall.imp ?_ ?_) <;>
        · intro hmem
          rcases List.mem_append.mp hmem with hold | hnew
          · exact hold
          · have hpc := List.mem_singleton.mp hnew
            split at hpc <;> exact nomatch hpc
      · intro id limit hall
        exact (h.metered id limit hall).of_eq rfl rfl (Int.le_refl _)
  | turn k => exact h.turn sha256 k
  -- what fails ends the request, and counts nothing
  | fail k =>
      rw [step, fail]
      split
      · exact h.set k _ fun id limit hpc => by simp at hpc
      · exact h.set k _ fun id limit hpc => by simp at hpc
      · exact h
  | wait ms =>
      refine ⟨h.rows, h.limits, ?_⟩
      intro id limit hall
      refine (h.metered id limit hall).of_eq rfl rfl ?_
      show s.now ≤ s.now + ms
      omega

omit [DecidableEq H] in
theorem start_kept (now : Int) : Kept (start now : State H) := by
  refine ⟨List.Pairwise.nil, ?_, fun _ _ _ => rfl⟩
  rintro id limit (hcall | hcall) <;> exact absurd hcall List.not_mem_nil

end Limit

/-- **THE LIMIT OF A KEY**: in every run, whatever requests overlap, an interval of a minute
    (its end included, and a millisecond more) holds at most twice as many requests of a key
    that were let through as its row allows. -/
theorem at_most_twice (now : Int) (es : List Event) (r : ApiKey H)
    (hr : r ∈ (exec (step sha256) es (start now)).keys) (a : Int) :
    between a (a + 60000 + 1) (timesOf r.id (exec (step sha256) es (start now))) ≤ 2 * r.rateLimit := by
  have hend : Kept (exec (step sha256) es (start now : State H)) :=
    exec_invariant_always (I := Kept) (fun e _ h => step_kept sha256 e h) (start_kept now) es
  have hmetered := hend.metered r.id r.rateLimit (by
    intro r' hr' hid
    by_contra hne
    have hdiff : r' ≠ r := fun heq => hne (congrArg ApiKey.rateLimit heq)
    have : Std.Symm fun r r' : ApiKey H => r.id ≠ r'.id := ⟨fun _ _ h => h.symm⟩
    exact hend.rows.forall hr' hr hdiff hid)
  rw [Metered] at hmetered
  cases hu : (exec (step sha256) es (start now : State H)).keyUsageCounts r.id with
  | none =>
      rw [hu] at hmetered
      replace hmetered : timesOf r.id (exec (step sha256) es (start now)) = [] := hmetered
      rw [hmetered]
      exact Nat.zero_le _
  | some u =>
      rw [hu] at hmetered
      exact hmetered.1.any a

/-- A key, and a request that is let through with it. -/
def onceServed : List Event :=
  [.generate 7 (lit "ab") (lit "u") (lit "n") .free, .request (some (lit "ss_ab")), .turn 0, .turn 0, .turn 0,
    .wait 5]

theorem at_most_twice_instance :
    timesOf 7 (exec (step fun key => key) onceServed (start 0)) = [0] ∧
      between 0 60001 (timesOf 7 (exec (step fun key => key) onceServed (start 0))) ≤ 200 :=
  ⟨by decide, at_most_twice (fun key => key) 0 onceServed
    ⟨7, lit "ss_ab", lit "ss_ab...", lit "u", lit "n", .free, 100, true, some 0, none⟩ (by decide) 0⟩

/-! ## A key that is no longer valid -/

/-- The database has the key, and `validateKey` refuses it. -/
def Dead (id : Nat) (s : State H) : Prop :=
  (∃ r ∈ s.keys, r.id = id) ∧ ∀ r ∈ s.keys, r.id = id → accepts s.now r = false

/-- A request that was looked up and found valid. -/
def LookedUp (id : Nat) : Pc → Prop
  | .touching keyId _ | .counting keyId _ | .passed keyId => keyId = id
  | _ => False

/-- Every request that was found valid in `s'` was so in `s`. -/
def NoneAdded (id : Nat) (s s' : State H) : Prop :=
  ∀ (k : Nat) (pc : Pc), s'.calls[k]? = some pc → LookedUp id pc →
    ∃ pc', s.calls[k]? = some pc' ∧ LookedUp id pc'

section Revoked

variable {s s' : State H} {id k : Nat} {pc pc' : Pc}

omit [DecidableEq H] in
theorem accepts_later {now later : Int} (hle : now ≤ later) {r : ApiKey H} (h : accepts now r = false) :
    accepts later r = false := by
  rw [accepts, Bool.and_eq_false_iff] at h ⊢
  refine h.imp_right fun hexpired => ?_
  cases hexpires : r.expiresAt with
  | none =>
      rw [hexpires] at hexpired
      exact nomatch hexpired
  | some expiresAt =>
      rw [hexpires] at hexpired
      simp only [Bool.not_eq_false', decide_eq_true_eq] at hexpired ⊢
      omega

omit [DecidableEq H] in
/-- A write that makes no key valid. -/
theorem Dead.update (h : Dead id s) {other : Nat} {f : ApiKey H → ApiKey H}
    (hid : ∀ r, (f r).id = r.id)
    (hf : ∀ r, accepts s.now r = false → accepts s.now (f r) = false) : Dead id (update other f s) := by
  have hrow : ∀ r : ApiKey H, (if r.id = other then f r else r).id = r.id := by
    intro r
    split
    · exact hid r
    · rfl
  obtain ⟨⟨r, hr, hrid⟩, hall⟩ := h
  refine ⟨⟨_, mem_update.mpr ⟨r, hr, rfl⟩, (hrow r).trans hrid⟩, ?_⟩
  intro r' hr' hrid'
  obtain ⟨r, hr, rfl⟩ := mem_update.mp hr'
  have hdead := hall r hr ((hrow r).symm.trans hrid')
  show accepts s.now _ = false
  split
  · exact hf r hdead
  · exact hdead

omit [DecidableEq H] in
theorem NoneAdded.set (hk : s.calls[k]? = some pc) (hcalls : s'.calls = s.calls.set k pc')
    (hpc : LookedUp id pc' → LookedUp id pc) : NoneAdded id s s' := by
  intro j pc'' hj hlooked
  rw [hcalls] at hj
  by_cases hjk : k = j
  · obtain rfl := hjk
    rw [List.getElem?_set_self (List.getElem?_eq_some_iff.mp hk).1] at hj
    obtain rfl := Option.some.inj hj
    exact ⟨pc, hk, hpc hlooked⟩
  · rw [List.getElem?_set_ne hjk] at hj
    exact ⟨pc'', hj, hlooked⟩

theorem turn_dead (h : Dead id s) (k : Nat) : Dead id (turn sha256 k s) ∧ NoneAdded id s (turn sha256 k s) := by
  cases hk : s.calls[k]? with
  | none =>
      rw [turn, hk]
      exact ⟨h, fun j pc hj hlooked => ⟨pc, hj, hlooked⟩⟩
  | some pc =>
      cases pc with
      | looking key =>
          rw [turn, hk]
          dsimp only
          cases hfind : s.keys.find? fun r => decide (r.keyHash = sha256 key) with
          | none => exact ⟨h, NoneAdded.set hk rfl fun hlooked => hlooked.elim⟩
          | some r =>
              -- the key that was looked up is another, or was not revoked then
              refine ⟨h, NoneAdded.set hk rfl fun hlooked => ?_⟩
              by_cases haccepts : accepts s.now r = true
              · rw [if_pos haccepts] at hlooked
                have hrefused := h.2 r (List.mem_of_find?_eq_some hfind) hlooked
                rw [haccepts] at hrefused
                exact nomatch hrefused
              · rw [if_neg haccepts] at hlooked
                exact hlooked
      | touching keyId rateLimit =>
          rw [turn, hk]
          exact ⟨Dead.update h (fun _ => rfl) (fun _ hr => hr), NoneAdded.set hk rfl fun hlooked => hlooked⟩
      | counting keyId rateLimit =>
          rw [turn, hk]
          refine ⟨h, NoneAdded.set hk rfl ?_⟩
          split
          · exact fun hlooked => hlooked
          · exact fun hlooked => hlooked.elim
      | answered status | passed keyId | failed =>
          rw [turn, hk]
          exact ⟨h, fun j pc hj hlooked => ⟨pc, hj, hlooked⟩⟩

theorem step_dead (e : Event) (h : Dead id s) : Dead id (step sha256 e s) ∧ NoneAdded id s (step sha256 e s) := by
  have hsame : NoneAdded id s s := fun j pc hj hlooked => ⟨pc, hj, hlooked⟩
  cases e with
  -- ids are given out once: the new key is not the dead one
  | generate id' keyId userId name tier =>
      rw [step, generateKey]
      by_cases htaken : (s.keys.any fun r => decide (r.id = id' ∨ r.keyHash = sha256 (lit "ss_" ++ keyId))) = true
      · rw [if_pos htaken]
        exact ⟨h, hsame⟩
      · rw [if_neg htaken]
        obtain ⟨⟨r, hr, hrid⟩, hall⟩ := h
        refine ⟨⟨⟨r, List.mem_append_left _ hr, hrid⟩, ?_⟩, hsame⟩
        intro r' hr' hrid'
        rcases List.mem_append.mp hr' with hold | hnew
        · exact hall r' hold hrid'
        · -- the database does not give the id twice
          rw [List.mem_singleton.mp hnew] at hrid'
          exact absurd (List.any_eq_true.mpr ⟨r, hr, decide_eq_true (Or.inl (hrid.trans hrid'.symm))⟩) htaken
  | revoke id' =>
      exact ⟨h.update (fun _ => rfl) fun r _ => by rw [accepts, Bool.false_and], hsame⟩
  -- a request that begins has looked nothing up
  | request key =>
      refine ⟨h, ?_⟩
      intro j pc hj hlooked
      rcases Nat.lt_or_ge j s.calls.length with hlt | hge
      · rw [step, List.getElem?_append_left hlt] at hj
        exact ⟨pc, hj, hlooked⟩
      · rw [step, List.getElem?_append_right hge] at hj
        have hpc := List.mem_singleton.mp (List.mem_of_getElem? hj)
        rw [hpc] at hlooked
        split at hlooked <;> exact hlooked.elim
  | turn k => exact turn_dead sha256 h k
  | fail k =>
      rw [step, fail]
      split
      · next hk => exact ⟨h, NoneAdded.set hk rfl fun hlooked => hlooked.elim⟩
      · next hk => exact ⟨h, NoneAdded.set hk rfl fun hlooked => hlooked.elim⟩
      · exact ⟨h, hsame⟩
  | wait ms =>
      refine ⟨⟨h.1, fun r hr hrid => accepts_later ?_ (h.2 r hr hrid)⟩, hsame⟩
      show s.now ≤ s.now + ms
      omega

end Revoked

/-- **REVOKED FOR GOOD**: once a key is revoked or has expired, it stays so, and in every run
    from there no request gets through with it but those that had been looked up before. -/
theorem revoked_for_good (s : State H) (id : Nat) (hrow : ∃ r ∈ s.keys, r.id = id)
    (hdead : ∀ r ∈ s.keys, r.id = id → accepts s.now r = false) (es : List Event) :
    (∀ r ∈ (exec (step sha256) es s).keys, r.id = id →
        accepts (exec (step sha256) es s).now r = false) ∧
      ∀ k : Nat, (exec (step sha256) es s).calls[k]? = some (Pc.passed id) →
        ∃ pc, s.calls[k]? = some pc ∧ LookedUp id pc := by
  have hend : Dead id (exec (step sha256) es s) ∧ NoneAdded id s (exec (step sha256) es s) := by
    refine exec_invariant_always (I := fun s' => Dead id s' ∧ NoneAdded id s s') ?_
      ⟨⟨hrow, hdead⟩, fun j pc hj hlooked => ⟨pc, hj, hlooked⟩⟩ es
    rintro e s' ⟨hdead', hnone⟩
    obtain ⟨hnext, hadded⟩ := step_dead sha256 e hdead'
    refine ⟨hnext, ?_⟩
    intro k pc hk hlooked
    obtain ⟨pc', hk', hlooked'⟩ := hadded k pc hk hlooked
    exact hnone k pc' hk' hlooked'
  exact ⟨hend.1.2, fun k hk => hend.2 k _ hk rfl⟩

/-- A key that is revoked while a request with it waits for the database. -/
def revoked : List Event :=
  [.generate 7 (lit "ab") (lit "u") (lit "n") .free, .request (some (lit "ss_ab")), .turn 0, .revoke 7]

/-- The request goes on, and another one comes. -/
def goesOn : List Event :=
  [.turn 0, .turn 0, .request (some (lit "ss_ab")), .turn 1, .wait 1000000, .turn 1, .turn 1]

theorem revoked_for_good_instance :
    (exec (step fun key => key) goesOn (exec (step fun key => key) revoked (start 0))).calls =
        [.passed 7, .answered 403] ∧
      ∀ k : Nat, (exec (step fun key => key) goesOn (exec (step fun key => key) revoked (start 0))).calls[k]? =
        some (Pc.passed 7) → ∃ pc, (exec (step fun key => key) revoked (start 0)).calls[k]? = some pc ∧
          LookedUp 7 pc :=
  ⟨by decide, (revoked_for_good (fun key => key) (exec (step fun key => key) revoked (start 0)) 7
    ⟨⟨7, lit "ss_ab", lit "ss_ab...", lit "u", lit "n", .free, 100, false, none, none⟩, by decide, rfl⟩
    (by decide) goesOn).2⟩

end

end ApiKeys
