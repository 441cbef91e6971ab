import Mathlib
import StellarSave.TraceProofs

/-! # The tiered cache — two maps that should read as one

    `TieredCache` (`packages/sdk/src/rpcBatchCache.ts`).  A value is written to one of two
    maps, and a read copies what it finds into the first.  What a later write leaves in
    the other map can hide it, or come back when it has expired. -/

namespace TieredCache

open Trace

/-- A number of milliseconds. -/
inductive Number where
  | nan
  | negInfinity
  | finite (ms : ℚ)
  | infinity
  deriving DecidableEq

/-- `Date.now() + ttlMs`. -/
def Number.after (now : Nat) : Number → Number
  | .finite ms => .finite (now + ms)
  | ttlMs => ttlMs

/-- `expiresAt > now`. -/
def Number.later (now : Nat) : Number → Bool
  | .finite ms => decide ((now : ℚ) < ms)
  | .infinity => true
  | .negInfinity => false
  | .nan => false

/-- `expiresAt <= now`. -/
def Number.past (now : Nat) : Number → Bool
  | .finite ms => decide (ms ≤ (now : ℚ))
  | .infinity => false
  | .negInfinity => true
  | .nan => false

structure CacheEntry (T : Type) where
  value : T
  expiresAt : Number
  deriving DecidableEq

/-- One of the maps. -/
abbrev Tier (T : Type) : Type := String → Option (CacheEntry T)

variable {T : Type}

def Tier.set (tier : Tier T) (key : String) (entry : CacheEntry T) : Tier T :=
  fun k => if k = key then some entry else tier k

def Tier.delete (tier : Tier T) (key : String) : Tier T :=
  fun k => if k = key then none else tier k

/-- The maps, the statistics, and the clock. -/
structure State (T : Type) where
  l1 : Tier T
  l2 : Tier T
  hits : Nat
  misses : Nat
  now : Nat

inductive TierName where
  | l1
  | l2
  deriving DecidableEq, Repr

/-- One round of the loop in `get`: what the tier has that is not expired, and the tier
    without what is. -/
def Tier.look (now : Nat) (key : String) (tier : Tier T) : Option (CacheEntry T) × Tier T :=
  match tier key with
  | some entry =>
      if entry.expiresAt.later now = true then (some entry, tier) else (none, tier.delete key)
  | none => (none, tier)

/-- `get`. -/
def State.get (key : String) (s : State T) : Option T × State T :=
  match s.l1.look s.now key with
  | (some entry, l1) => (some entry.value, { s with hits := s.hits + 1, l1 := l1.set key entry })
  | (none, l1) =>
      match s.l2.look s.now key with
      | (some entry, l2) =>
          (some entry.value, { s with hits := s.hits + 1, l1 := l1.set key entry, l2 := l2 })
      | (none, l2) => (none, { s with misses := s.misses + 1, l1 := l1, l2 := l2 })

/-- `set`. -/
def State.set (key : String) (value : T) (ttlMs : Number) (tier : TierName) (s : State T) : State T :=
  match tier with
  | .l1 => { s with l1 := s.l1.set key ⟨value, ttlMs.after s.now⟩ }
  | .l2 => { s with l2 := s.l2.set key ⟨value, ttlMs.after s.now⟩ }

/-- `evictExpired`, for one tier. -/
def Tier.evictExpired (now : Nat) (tier : Tier T) : Tier T :=
  fun key => (tier key).filter fun entry => !entry.expiresAt.past now

def State.evictExpired (s : State T) : State T :=
  { s with l1 := s.l1.evictExpired s.now, l2 := s.l2.evictExpired s.now }

/-- `getStats`: hits, misses and the rate of hits. -/
def State.getStats (s : State T) : Nat × Nat × ℚ :=
  (s.hits, s.misses, if s.hits + s.misses = 0 then 0 else s.hits / (s.hits + s.misses : Nat))

/-- The three calls, and time. -/
inductive Event (T : Type) where
  | get (key : String)
  | set (key : String) (value : T) (ttlMs : Number) (tier : TierName)
  | evictExpired
  | pass (ms : Nat)

def step : Event T → State T → State T
  | .get key, s => (s.get key).2
  | .set key value ttlMs tier, s => s.set key value ttlMs tier
  | .evictExpired, s => s.evictExpired
  | .pass ms, s => { s with now := s.now + ms }

/-- A cache that has just been made. -/
def fresh (now : Nat) : State T := ⟨fun _ => none, fun _ => none, 0, 0, now⟩

/-! ## One map with expiries -/

/-- The most recent `set` of each key. -/
structure TtlMap (T : Type) where
  latest : Tier T
  now : Nat

def TtlMap.get (key : String) (m : TtlMap T) : Option T :=
  ((m.latest key).filter fun entry => entry.expiresAt.later m.now).map CacheEntry.value

def TtlMap.step : Event T → TtlMap T → TtlMap T
  | .get _, m => m
  | .set key value ttlMs _, m => { m with latest := m.latest.set key ⟨value, ttlMs.after m.now⟩ }
  | .evictExpired, m => m
  | .pass ms, m => { m with now := m.now + ms }

def TtlMap.empty (now : Nat) : TtlMap T := ⟨fun _ => none, now⟩

/-! ## What a read would see -/

def CacheEntry.live (t : Nat) (entry : CacheEntry T) : Bool := entry.expiresAt.later t

/-- The entry that a read of the key would find at a time. -/
def State.peek (t : Nat) (key : String) (s : State T) : Option (CacheEntry T) :=
  ((s.l1 key).filter (CacheEntry.live t)).or ((s.l2 key).filter (CacheEntry.live t))

/-- No entry of the other map hides the written one or lives on after it. -/
def WritesWin : Event T → State T → Prop
  | .set key _ ttlMs .l1, s =>
      ∀ entry, s.l2 key = some entry → ∀ t, s.now ≤ t → entry.live t = true →
        (ttlMs.after s.now).later t = true
  | .set key _ _ .l2, s => ∀ entry, s.l1 key = some entry → entry.live s.now = false
  | _, _ => True

/-- Every read now and later would find the most recent entry, as long as it lives. -/
structure Agrees (s : State T) (m : TtlMap T) : Prop where
  now : s.now = m.now
  finds : ∀ key t, s.now ≤ t → s.peek t key = (m.latest key).filter (CacheEntry.live t)

theorem later_mono {n : Number} {now t : Nat} (ht : now ≤ t) (h : n.later t = true) :
    n.later now = true := by
  cases n with
  | nan => exact h
  | negInfinity => exact h
  | infinity => exact h
  | finite ms =>
      have hlt : (t : ℚ) < ms := of_decide_eq_true h
      have hle : (now : ℚ) ≤ t := by exact_mod_cast ht
      exact decide_eq_true (lt_of_le_of_lt hle hlt)

theorem past_not_later {n : Number} {now : Nat} (h : n.past now = true) : n.later now = false := by
  cases n with
  | nan => rfl
  | negInfinity => rfl
  | infinity => exact nomatch h
  | finite ms =>
      have hle : ms ≤ (now : ℚ) := of_decide_eq_true h
      exact decide_eq_false (not_lt.mpr hle)

/-- What has expired stays so. -/
theorem dead_later {entry : CacheEntry T} {now t : Nat} (ht : now ≤ t) (h : entry.live now = false) :
    entry.live t = false := by
  cases hlive : entry.live t with
  | false => rfl
  | true => exact absurd (later_mono ht hlive) (by rw [show entry.expiresAt.later now = false from h]; exact nofun)

section Tiers

variable {tier : Tier T} {key k : String} {entry : CacheEntry T} {now t : Nat}

@[simp] theorem set_self : tier.set key entry key = some entry := if_pos rfl

theorem set_other (hk : k ≠ key) : tier.set key entry k = tier k := if_neg hk

/-- The round finds the entry that lives. -/
theorem look_fst : (tier.look now key).1 = (tier key).filter (CacheEntry.live now) := by
  rw [Tier.look]
  cases tier key with
  | none => rfl
  | some entry =>
      show (if entry.live now = true then (some entry, tier) else (none, tier.delete key)).1 = _
      rw [Option.filter_some]
      split
      · rfl
      · rfl

/-- What the round deletes would not be found any more. -/
theorem look_snd (ht : now ≤ t) :
    ((tier.look now key).2 k).filter (CacheEntry.live t) = (tier k).filter (CacheEntry.live t) := by
  rw [Tier.look]
  cases hentry : tier key with
  | none => rfl
  | some entry =>
      show ((if entry.live now = true then (some entry, tier) else (none, tier.delete key)).2 k).filter _ = _
      cases hlive : entry.live now with
      | true => rfl
      | false =>
          show ((tier.delete key) k).filter _ = _
          rw [Tier.delete]
          split
          · next hk =>
              rw [hk, hentry, Option.filter_some, dead_later ht hlive]
              rfl
          · rfl

/-- Where nothing is found now, nothing is found later. -/
theorem none_later (ht : now ≤ t) (h : (tier key).filter (CacheEntry.live now) = none) :
    (tier key).filter (CacheEntry.live t) = none := by
  rw [Option.filter_eq_none_iff] at h ⊢
  intro entry hentry
  have hdead : entry.live now = false := Bool.eq_false_iff.mpr (h entry hentry)
  rw [dead_later ht hdead]
  exact Bool.false_ne_true

theorem evict_filter (ht : now ≤ t) :
    ((tier.evictExpired now) k).filter (CacheEntry.live t) = (tier k).filter (CacheEntry.live t) := by
  rw [Tier.evictExpired]
  cases tier k with
  | none => rfl
  | some entry =>
      cases hpast : entry.expiresAt.past now with
      | false =>
          show (Option.filter _ (some entry)).filter _ = _
          rw [Option.filter_some, hpast]
          rfl
      | true =>
          show (Option.filter _ (some entry)).filter _ = _
          rw [Option.filter_some, hpast, Option.filter_some,
            dead_later ht (past_not_later hpast : entry.live now = false)]
          rfl

end Tiers

section Reads

variable {s : State T} {m : TtlMap T} {key k : String} {t : Nat}

/-- A read returns what it would find now. -/
theorem get_fst : (s.get key).1 = (s.peek s.now key).map CacheEntry.value := by
  rw [State.get, State.peek, ← look_fst, ← look_fst]
  cases hfirst : s.l1.look s.now key with
  | mk found l1 =>
      cases found with
      | some entry => rfl
      | none =>
          cases hsecond : s.l2.look s.now key with
          | mk found l2 =>
              cases found with
              | some entry => rfl
              | none => rfl

theorem get_now : (s.get key).2.now = s.now := by
  rw [State.get]
  split
  · rfl
  · split
    · rfl
    · rfl

/-- A read leaves what later reads would find. -/
theorem peek_get (ht : s.now ≤ t) : (s.get key).2.peek t k = s.peek t k := by
  have hl1 : ∀ j, ((s.l1.look s.now key).2 j).filter (CacheEntry.live t) = (s.l1 j).filter (CacheEntry.live t) :=
    fun j => look_snd ht
  have hl2 : ∀ j, ((s.l2.look s.now key).2 j).filter (CacheEntry.live t) = (s.l2 j).filter (CacheEntry.live t) :=
    fun j => look_snd ht
  have hfirst : (s.l1.look s.now key).1 = _ := look_fst
  have hsecond : (s.l2.look s.now key).1 = _ := look_fst
  rw [State.get]
  cases hlook : s.l1.look s.now key with
  | mk found l1 =>
      rw [hlook] at hl1 hfirst
      cases found with
      | some entry =>
          -- it was in the first map and is written there again
          obtain ⟨hentry, -⟩ := Option.filter_eq_some_iff.mp hfirst.symm
          show ((l1.set key entry k).filter _).or ((s.l2 k).filter _) = _
          by_cases hk : k = key
          · rw [hk, set_self, ← hentry]
            rfl
          · rw [set_other hk, hl1]
            rfl
      | none =>
          cases hlook' : s.l2.look s.now key with
          | mk found l2 =>
              rw [hlook'] at hl2 hsecond
              cases found with
              | some entry =>
                  -- it is now in both maps, with one expiry
                  obtain ⟨hentry, -⟩ := Option.filter_eq_some_iff.mp hsecond.symm
                  show ((l1.set key entry k).filter _).or ((l2 k).filter _) = _
                  by_cases hk : k = key
                  · rw [hk, set_self, hl2, State.peek, none_later ht hfirst.symm, ← hentry, Option.none_or,
                      Option.or_self]
                  · rw [set_other hk, hl1, hl2]
                    rfl
              | none =>
                  show ((l1 k).filter _).or ((l2 k).filter _) = _
                  rw [hl1, hl2]
                  rfl

/-- Each read is counted once. -/
theorem getStats_get : (s.get key).2.getStats.1 + (s.get key).2.getStats.2.1 =
    s.getStats.1 + s.getStats.2.1 + 1 := by
  show (s.get key).2.hits + (s.get key).2.misses = s.hits + s.misses + 1
  rw [State.get]
  split
  · exact Nat.add_right_comm s.hits 1 s.misses
  · split
    · exact Nat.add_right_comm s.hits 1 s.misses
    · rfl

end Reads

/-! ## The two maps as one -/

section Refinement

variable {s : State T} {m : TtlMap T}

/-- **ONE STEP OF BOTH**: under the condition the two maps go on reading as the one. -/
theorem step_agrees (x : Event T) (hx : WritesWin x s) (h : Agrees s m) :
    Agrees (step x s) (m.step x) := by
  cases x with
  | get key =>
      refine ⟨?_, fun k t ht => ?_⟩
      · show (s.get key).2.now = m.now
        rw [get_now, h.now]
      · have ht' : s.now ≤ t := by
          rw [show (step (.get key) s).now = s.now from get_now] at ht
          exact ht
        exact (peek_get ht').trans (h.finds k t ht')
  | set key value ttlMs tier =>
      cases tier with
      | l1 =>
          refine ⟨h.now, fun k t ht => ?_⟩
          have hold := h.finds k t ht
          show ((s.l1.set key _ k).filter _).or ((s.l2 k).filter _) = (m.latest.set key _ k).filter _
          by_cases hk : k = key
          · rw [hk, set_self, set_self, ← h.now, Option.filter_some]
            split
            · rfl
            · next hdead =>
                -- the new entry has expired, and so has what the second map has
                rw [Option.none_or, Option.filter_eq_none_iff]
                intro entry hentry hlive
                exact hdead (hx entry hentry t ht hlive)
          · rw [set_other hk, set_other hk]
            exact hold
      | l2 =>
          refine ⟨h.now, fun k t ht => ?_⟩
          have hold := h.finds k t ht
          show ((s.l1 k).filter _).or ((s.l2.set key _ k).filter _) = (m.latest.set key _ k).filter _
          by_cases hk : k = key
          · -- what the first map has has expired
            have hnone : (s.l1 key).filter (CacheEntry.live t) = none := by
              rw [Option.filter_eq_none_iff]
              intro entry hentry
              rw [dead_later ht (hx entry hentry)]
              exact Bool.false_ne_true
            rw [hk, set_self, set_self, hnone, Option.none_or, h.now]
          · rw [set_other hk, set_other hk]
            exact hold
  | evictExpired =>
      refine ⟨h.now, fun k t (ht : s.now ≤ t) => ?_⟩
      show ((s.l1.evictExpired s.now k).filter _).or ((s.l2.evictExpired s.now k).filter _) = _
      rw [evict_filter ht, evict_filter ht]
      exact h.finds k t ht
  | pass ms =>
      refine ⟨?_, fun k t ht => ?_⟩
      · show s.now + ms = m.now + ms
        rw [h.now]
      · exact h.finds k t (Nat.le_trans (Nat.le_add_right s.now ms) ht)

theorem run_agrees {xs : List (Event T)} (hrun : Along step WritesWin xs s) (h : Agrees s m) :
    Agrees (exec step xs s) (exec TtlMap.step xs m) := by
  induction xs generalizing s m with
  | nil => exact h
  | cons x xs ih =>
      obtain ⟨hx, hrest⟩ := hrun
      exact ih hrest (step_agrees x hx h)

/-- A read of the two maps is one of the map. -/
theorem Agrees.get (h : Agrees s m) (key : String) : (s.get key).1 = m.get key := by
  rw [get_fst, h.finds key s.now (Nat.le_refl _), TtlMap.get, h.now]
  rfl

end Refinement

/-- **THE TIERED CACHE IS ONE MAP** in every state of a run in which each write wins. -/
theorem get_latest (now : Nat) (xs : List (Event T))
    (hrun : Along step WritesWin xs (fresh now)) (key : String) :
    ((exec step xs (fresh now)).get key).1 = (exec TtlMap.step xs (TtlMap.empty now)).get key :=
  (run_agrees hrun ⟨rfl, fun _ _ _ => rfl⟩).get key

/-- A value in the second map that a read copies to the first, and another in the second
    when both have expired. -/
def inTurn : List (Event Nat) :=
  [.set "k" 1 (.finite 60) .l2, .get "k", .pass 60, .set "k" 2 (.finite 10) .l2, .get "k"]

theorem get_latest_in_turn :
    ((exec step inTurn (fresh 0)).get "k").1 = (exec TtlMap.step inTurn (TtlMap.empty 0)).get "k" := by
  refine get_latest 0 inTurn ⟨?_, trivial, trivial, ?_, trivial, trivial⟩ "k"
  · intro entry hentry
    exact nomatch hentry
  · intro entry hentry
    -- the copy expires with the entry it was made of
    have hcopy : (exec step (inTurn.take 3) (fresh 0)).l1 "k" =
        some ⟨1, (Number.finite 60).after 0⟩ := by decide +kernel
    obtain rfl : entry = ⟨1, (Number.finite 60).after 0⟩ :=
      (Option.some.inj (hcopy.symm.trans hentry)).symm
    decide +kernel

/-- The second of two writes is not seen, and a value comes back when a later one has expired. -/
theorem writes_lost :
    ((exec step [.set "k" 1 (.finite 60000) .l1, .set "k" 2 (.finite 60000) .l2] (fresh 0)).get "k").1 =
        some 1 ∧
      ((exec step [.set "k" 1 (.finite 60000) .l2, .set "k" 2 (.finite 10) .l1, .pass 10]
        (fresh 0)).get "k").1 = some 1 ∧
      ¬ ∀ (xs : List (Event Nat)) (key : String), ((exec step xs (fresh 0)).get key).1 =
        (exec TtlMap.step xs (TtlMap.empty 0)).get key := by
  refine ⟨by decide +kernel, by decide +kernel, fun hall => ?_⟩
  have hread := hall [.set "k" 1 (.finite 60000) .l1, .set "k" 2 (.finite 60000) .l2] "k"
  exact absurd hread (by decide +kernel)

end TieredCache
