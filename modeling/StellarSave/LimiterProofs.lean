import Mathlib.Data.Rat.Floor
import StellarSave.TraceProofs
import StellarSave.WindowProofs

/-! # The in-process limiter — a list of timestamps for each key

    `SlidingWindowStore.take` drops the timestamps its window has passed, denies
    the call where as many as the policy allows are left, and adds the call's own
    time otherwise.  What it dropped no later window of the key would count, so the
    list answers as the whole history would; a call told to come back does so after
    the oldest timestamp of a full window has left it. -/

namespace SlidingWindow

open Window Trace

/-- The sums of a policy and the times are taken without rounding, as doubles take those of
    whole numbers of milliseconds. -/
structure RateLimitPolicy where
  windowMs : ℚ
  max : ℚ

structure RateLimitResult where
  allowed : Bool
  limit : ℚ
  remaining : ℚ
  resetAtMs : ℚ
  retryAfterSeconds : Int

/-- The timestamps stored for each key. -/
abbrev Store := String → Option (List ℚ)

/-- The timestamps of a key that a window ending now still holds. -/
def current (key : String) (policy : RateLimitPolicy) (nowMs : ℚ) (store : Store) : List ℚ :=
  recent (nowMs - policy.windowMs) ((store key).getD [])

/-- `take`. -/
def take (key : String) (policy : RateLimitPolicy) (nowMs : ℚ) (store : Store) :
    RateLimitResult × Store :=
  let kept := current key policy nowMs store
  if policy.max ≤ kept.length then
    let resetAtMs := kept.headD nowMs + policy.windowMs
    (⟨false, policy.max, 0, resetAtMs, max 1 ⌈(resetAtMs - nowMs) / 1000⌉⟩,
      Function.update store key (some kept))
  else
    let kept := kept ++ [nowMs]
    let resetAtMs := kept.headD nowMs + policy.windowMs
    (⟨true, policy.max, max 0 (policy.max - kept.length), resetAtMs,
        max 0 ⌈(resetAtMs - nowMs) / 1000⌉⟩,
      Function.update store key (some kept))

structure Call where
  key : String
  policy : RateLimitPolicy
  nowMs : ℚ

/-- The store, and the calls allowed so far with their times. -/
structure Traffic where
  store : Store
  granted : List (String × ℚ)

def start : Traffic := ⟨fun _ => none, []⟩

def step (c : Call) (s : Traffic) : Traffic :=
  let (result, store) := take c.key c.policy c.nowMs s.store
  ⟨store, if result.allowed then s.granted ++ [(c.key, c.nowMs)] else s.granted⟩

/-- When calls of the key were allowed. -/
def grantedTo (key : String) (s : Traffic) : List ℚ :=
  s.granted.filterMap fun grant => if grant.1 = key then some grant.2 else none

section Take

variable {key : String} {policy : RateLimitPolicy} {nowMs : ℚ} {store : Store}

theorem take_allowed_iff :
    (take key policy nowMs store).1.allowed = true ↔
      ((current key policy nowMs store).length : ℚ) < policy.max := by
  rw [take]
  split
  · next hfull => simpa using hfull
  · next hroom => simpa using hroom

theorem take_store (key : String) (policy : RateLimitPolicy) (nowMs : ℚ) (store : Store) :
    (take key policy nowMs store).2 = Function.update store key (some (current key policy nowMs store ++
      if (take key policy nowMs store).1.allowed = true then [nowMs] else [])) := by
  rw [take]
  split
  · simp
  · simp

/-- A denied call is told to come back when the oldest timestamp has left the window. -/
theorem take_retry (h : (take key policy nowMs store).1.allowed = false) :
    (current key policy nowMs store).headD nowMs + policy.windowMs ≤
      nowMs + 1000 * (take key policy nowMs store).1.retryAfterSeconds := by
  rw [take] at h ⊢
  split
  · next hfull =>
      have hceil := Int.le_ceil (((current key policy nowMs store).headD nowMs + policy.windowMs - nowMs) / 1000)
      have hmax : (⌈((current key policy nowMs store).headD nowMs + policy.windowMs - nowMs) / 1000⌉ : ℚ) ≤
          (max 1 ⌈((current key policy nowMs store).headD nowMs + policy.windowMs - nowMs) / 1000⌉ : Int) := by
        exact_mod_cast le_max_right _ _
      simp only
      linarith
  · next hroom =>
      rw [if_neg hroom] at h
      cases h

end Take

/-- The list of a key answers, from now on, as all its allowed calls would, and never
    holds more than one call above what the policy allows. -/
structure Faithful (key : String) (policy : RateLimitPolicy) (now : ℚ) (s : Traffic) : Prop where
  window : ∀ t, now ≤ t → current key policy t s.store = recent (t - policy.windowMs) (grantedTo key s)
  past : ∀ ts ∈ grantedTo key s, ts ≤ now
  room : (s.store key).getD [] = [] ∨ (((s.store key).getD []).length : ℚ) < policy.max + 1

section Runs

variable {key : String} {policy : RateLimitPolicy} {now t : ℚ} {s : Traffic} {c : Call} {calls : List Call}

theorem start_faithful (key : String) (policy : RateLimitPolicy) (now : ℚ) :
    Faithful key policy now start := by
  refine ⟨fun t _ => rfl, fun ts h => ?_, .inl rfl⟩
  cases h

theorem step_store (c : Call) (s : Traffic) :
    (step c s).store = (take c.key c.policy c.nowMs s.store).2 := rfl

/-- Other keys do not matter. -/
theorem step_other (hc : c.key ≠ key) :
    (step c s).store key = s.store key ∧ grantedTo key (step c s) = grantedTo key s := by
  constructor
  · rw [step_store, take_store, Function.update_of_ne hc.symm]
  · simp only [step, grantedTo]
    split
    · rw [List.filterMap_append]
      simp [hc]
    · rfl

theorem exec_other (hcalls : ∀ c ∈ calls, c.key ≠ key) (s : Traffic) :
    (exec step calls s).store key = s.store key := by
  induction calls generalizing s with
  | nil => rfl
  | cons c calls ih =>
      rw [exec_cons, ih fun c hc => hcalls c (List.mem_cons_of_mem _ hc)]
      exact (step_other (hcalls c List.mem_cons_self)).1

theorem current_congr {store store' : Store} (h : store key = store' key) :
    current key policy t store = current key policy t store' := by
  rw [current, h, current]

theorem Faithful.other (h : Faithful key policy now s) (hc : c.key ≠ key) :
    Faithful key policy now (step c s) := by
  obtain ⟨hstore, hgranted⟩ := step_other (s := s) hc
  refine ⟨fun t ht => ?_, ?_, ?_⟩
  · rw [hgranted, ← h.window t ht, current, hstore, current]
  · rw [hgranted]
    exact h.past
  · rw [hstore]
    exact h.room

theorem entries_step (key : String) (policy : RateLimitPolicy) (t : ℚ) (s : Traffic) :
    ((step ⟨key, policy, t⟩ s).store key).getD [] = current key policy t s.store ++
      if (take key policy t s.store).1.allowed = true then [t] else [] := by
  rw [step_store, take_store, Function.update_self, Option.getD_some]

theorem grantedTo_step (key : String) (policy : RateLimitPolicy) (t : ℚ) (s : Traffic) :
    grantedTo key (step ⟨key, policy, t⟩ s) = grantedTo key s ++
      if (take key policy t s.store).1.allowed = true then [t] else [] := by
  simp only [step, grantedTo]
  split
  · rw [List.filterMap_append]
    simp
  · simp

/-- **ONE CALL** of the key, no earlier than those before it. -/
theorem Faithful.own (h : Faithful key policy now s) (ht : now ≤ t) :
    Faithful key policy t (step ⟨key, policy, t⟩ s) := by
  have hentries := entries_step key policy t s
  refine ⟨fun u hu => ?_, fun ts hts => ?_, ?_⟩
  · -- what was dropped at `t` is dropped at `u`
    have hcutoff : t - policy.windowMs ≤ u - policy.windowMs := by linarith
    rw [current, hentries, grantedTo_step, recent_append, recent_append, current, recent_recent hcutoff,
      ← h.window u (ht.trans hu), current]
  -- the new time is the last of those granted
  · rw [grantedTo_step, List.mem_append] at hts
    rcases hts with hts | hts
    · exact (h.past ts hts).trans ht
    · split at hts
      · exact (List.mem_singleton.mp hts).le
      · cases hts
  · rw [hentries]
    by_cases hallowed : (take key policy t s.store).1.allowed = true
    · have hroom := take_allowed_iff.mp hallowed
      rw [if_pos hallowed, List.length_append, List.length_singleton]
      push_cast
      exact .inr (by linarith)
    · -- a denied call adds nothing, so the store is no fuller than before
      rw [if_neg hallowed, List.append_nil]
      rcases h.room with hnone | hroom
      · rw [current, hnone]
        exact .inl rfl
      · have hle : ((current key policy t s.store).length : ℚ) ≤ ((s.store key).getD []).length := by
          exact_mod_cast (recent_sublist _ _).length_le
        exact .inr (by linarith)

/-- The times of the calls of a key. -/
def timesOf (key : String) (calls : List Call) : List ℚ :=
  (calls.filter fun c => c.key = key).map Call.nowMs

/-- **ANY CALLS**, those of the key under one policy and in order of time. -/
theorem Faithful.run (h : Faithful key policy now s)
    (hpolicy : ∀ c ∈ calls, c.key = key → c.policy = policy)
    (hordered : (now :: timesOf key calls ++ [t]).Pairwise (· ≤ ·)) :
    Faithful key policy t (exec step calls s) := by
  induction calls generalizing now s with
  | nil =>
      have ht : now ≤ t := (List.pairwise_cons.mp hordered).1 t (by simp [timesOf])
      refine ⟨fun u hu => h.window u (ht.trans hu), fun ts hts => (h.past ts hts).trans ht, h.room⟩
  | cons c calls ih =>
      have hrest : ∀ c ∈ calls, c.key = key → c.policy = policy := fun c hc =>
        hpolicy c (List.mem_cons_of_mem _ hc)
      rw [exec_cons]
      by_cases hc : c.key = key
      · have htimes : timesOf key (c :: calls) = c.nowMs :: timesOf key calls := by simp [timesOf, hc]
        rw [htimes] at hordered
        obtain ⟨hfirst, hnext⟩ := List.pairwise_cons.mp hordered
        obtain rfl := hpolicy c List.mem_cons_self hc
        subst hc
        exact ih (h.own (hfirst _ (by simp))) hrest hnext
      · have htimes : timesOf key (c :: calls) = timesOf key calls := by simp [timesOf, hc]
        rw [htimes] at hordered
        -- a call of another key leaves the store of this one alone
        exact ih (h.other hc) hrest hordered

/-- Where a call is denied, the one that comes back as told is allowed unless the
    policy allows none at all. -/
theorem Faithful.retry (h : Faithful key policy t s)
    (hdenied : (take key policy t s.store).1.allowed = false) :
    (take key policy (t + 1000 * (take key policy t s.store).1.retryAfterSeconds)
      (step ⟨key, policy, t⟩ s).store).1.allowed = true ↔ 0 < policy.max := by
  have hretry := take_retry hdenied
  have hfull : policy.max ≤ (current key policy t s.store).length := by
    by_contra hroom
    rw [take_allowed_iff.mpr (not_le.mp hroom)] at hdenied
    cases hdenied
  have hentries := entries_step key policy t s
  rw [if_neg (by simp [hdenied]), List.append_nil] at hentries
  rw [take_allowed_iff, current, hentries]
  constructor
  · intro hallowed
    exact lt_of_le_of_lt (Nat.cast_nonneg _) hallowed
  · intro hpos
    have hroom : ((current key policy t s.store).length : ℚ) < policy.max + 1 := by
      have hle : ((current key policy t s.store).length : ℚ) ≤ ((s.store key).getD []).length := by
        exact_mod_cast (recent_sublist _ _).length_le
      rcases h.room with hnone | hroom
      · rw [hnone] at hle
        simp only [List.length_nil, Nat.cast_zero] at hle
        linarith
      · linarith
    -- a full window holds an entry, and the first of them is out of the next one
    cases hkept : current key policy t s.store with
    | nil =>
        rw [hkept] at hfull
        simp only [List.length_nil, Nat.cast_zero] at hfull
        linarith
    | cons first kept =>
        rw [hkept] at hretry hroom
        rw [List.headD_cons] at hretry
        have hcutoff : first ≤ t + 1000 * (take key policy t s.store).1.retryAfterSeconds -
            policy.windowMs := by linarith
        have hlt : (recent (t + 1000 * (take key policy t s.store).1.retryAfterSeconds -
            policy.windowMs) (first :: kept)).length < (first :: kept).length := length_recent_lt hcutoff
        have hle : ((recent (t + 1000 * (take key policy t s.store).1.retryAfterSeconds -
            policy.windowMs) (first :: kept)).length : ℚ) + 1 ≤ (first :: kept).length := by
          exact_mod_cast hlt
        linarith

/-- **AN EXACT WINDOW**: after any calls, those of the key under one policy and in order
    of time, the next is allowed exactly where fewer than the policy allows were allowed
    within its window; one that is denied is allowed when it comes back as told, unless
    the policy allows none at all. -/
theorem window_exact (key : String) (policy : RateLimitPolicy) (calls : List Call) (t : ℚ)
    (hpolicy : ∀ c ∈ calls, c.key = key → c.policy = policy)
    (hordered : (timesOf key calls ++ [t]).Pairwise (· ≤ ·)) :
    ((take key policy t (exec step calls start).store).1.allowed = true ↔
        (((grantedTo key (exec step calls start)).filter fun ts =>
          t - policy.windowMs < ts ∧ ts ≤ t).length : ℚ) < policy.max) ∧
      ((take key policy t (exec step calls start).store).1.allowed = false →
        ∀ others : List Call, (∀ c ∈ others, c.key ≠ key) →
          ((take key policy
              (t + 1000 * (take key policy t (exec step calls start).store).1.retryAfterSeconds)
              (exec step others (step ⟨key, policy, t⟩ (exec step calls start))).store).1.allowed = true ↔
            0 < policy.max)) := by
  obtain ⟨now, hnow⟩ := exists_first hordered (by simp)
  have hfaithful := (start_faithful key policy now).run hpolicy (List.pairwise_cons.mpr ⟨hnow, hordered⟩)
  constructor
  · have hcount : (grantedTo key (exec step calls start)).filter (fun ts =>
        t - policy.windowMs < ts ∧ ts ≤ t) = current key policy t (exec step calls start).store := by
      rw [hfaithful.window t le_rfl, recent]
      refine List.filter_congr fun ts hts => ?_
      simp [hfaithful.past ts hts]
    rw [hcount]
    exact take_allowed_iff
  · intro hdenied others hothers
    -- calls of other keys in between change nothing
    rw [take_allowed_iff, current_congr (exec_other hothers _), ← hfaithful.retry hdenied,
      take_allowed_iff]

end Runs

/-- Two a second. -/
def twice : RateLimitPolicy := ⟨1000, 2⟩

/-- The third call within a second. -/
theorem window_exact_twice :
    (take "ip" twice 400 (exec step [⟨"ip", twice, 0⟩, ⟨"ip", twice, 300⟩] start).store).1.allowed = true ↔
      (((grantedTo "ip" (exec step [⟨"ip", twice, 0⟩, ⟨"ip", twice, 300⟩] start)).filter fun ts =>
        400 - twice.windowMs < ts ∧ ts ≤ 400).length : ℚ) < twice.max :=
  (window_exact "ip" twice [⟨"ip", twice, 0⟩, ⟨"ip", twice, 300⟩] 400 (by simp)
    (by norm_num [timesOf])).1

/-- **NONE AT ALL**: a policy of none denies the call, tells it to come back in a second,
    and denies it then. -/
theorem nothing_allowed_later :
    (take "ip" ⟨1000, 0⟩ 0 start.store).1.allowed = false ∧
      (take "ip" ⟨1000, 0⟩ 0 start.store).1.retryAfterSeconds = 1 ∧
      (take "ip" ⟨1000, 0⟩ (0 + 1000 * 1) (step ⟨"ip", ⟨1000, 0⟩, 0⟩ start).store).1.allowed = false := by
  refine ⟨rfl, ?_, rfl⟩
  norm_num [take, current, recent, start]

end SlidingWindow
