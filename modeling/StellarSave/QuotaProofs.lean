import Mathlib
import StellarSave.TraceProofs

/-! # Quota — the tiered rate limiter

    A request is checked against each window of its tier by one run of a Lua
    script: entries that left the window are removed, and when the rest leaves
    room for the cost, one entry is added for each unit.  Only then the verdict
    is taken, from the window with the largest usage.  What the windows allow is
    what they charge, whatever the verdict; the limiter keeps its promises along
    the runs in which every request finds room in all windows or in none.

    One identifier, scope and tier: a key is named by the length of its window.
    Costs, limits and times are whole numbers; the clock of the server that
    expires keys is the clock of the requests. -/

namespace Quota

open Trace

structure RateLimitWindow where
  windowMs : Nat
  max : Nat
  label : String
  deriving DecidableEq, Repr

/-- A member of a sorted set, the request's id and the unit, with its score. -/
abbrev Entry := (String × Nat) × Nat

structure SortedSet where
  members : List Entry
  expireAt : Option Nat
  deriving DecidableEq, Repr

def SortedSet.empty : SortedSet := { members := [], expireAt := none }

/-- The sorted sets by the length of their window. -/
abbrev Store := Nat → SortedSet

structure WindowResult where
  allowed : Bool
  limit : Nat
  remaining : Nat
  resetAt : Nat
  retryAfter : Nat
  windowMs : Nat
  deriving DecidableEq, Repr

/-- A request: its clock, the cost of its endpoint and the id drawn for it. -/
structure Request where
  now : Nat
  cost : Nat
  memberId : String
  deriving DecidableEq, Repr

-- ── The script ────────────────────────────────────────────────────────────────

/-- An entry still in the window. -/
def alive (windowMs now : Nat) (e : Entry) : Bool := decide (now < e.2 + windowMs)

/-- The members left by `ZREMRANGEBYSCORE key 0 (now - window_ms)`, of a key that
    has not expired. -/
def SortedSet.purge (windowMs now : Nat) (set : SortedSet) : List Entry :=
  let expired := set.expireAt.any fun at_ => decide (at_ < now)
  (if expired then [] else set.members).filter (alive windowMs now)

/-- `ZADD key score member`. -/
def zadd (members : List Entry) (member : String × Nat) (score : Nat) : List Entry :=
  members.filter (fun e => !(e.1 == member)) ++ [(member, score)]

/-- One `ZADD` for each unit of the cost. -/
def zaddAll (members : List Entry) (member : String) (score cost : Nat) : List Entry :=
  (List.range cost).foldl (fun ms i => zadd ms (member, i + 1) score) members

/-- The lowest score. -/
def oldest : List Entry → Option Nat
  | [] => none
  | e :: es => some (es.foldl (fun t f => min t f.2) e.2)

/-- `SCRIPT`: the set after it, and `allowed`, `remaining` and `reset_at`. -/
def evalScript (set : SortedSet) (now windowMs max cost : Nat) (member : String) :
    SortedSet × Bool × Nat × Nat :=
  let members := set.purge windowMs now
  let count := members.length
  if count + cost ≤ max then
    ({ members := zaddAll members member now cost, expireAt := some (now + windowMs) },
      true, max - count - cost, now + windowMs)
  else
    ({ members, expireAt := set.expireAt }, false, max - count, ((oldest members).getD now) + windowMs)

def checkWindow (set : SortedSet) (w : RateLimitWindow) (r : Request) : SortedSet × WindowResult :=
  let (set', allowed, remaining, resetAt) := evalScript set r.now w.windowMs w.max r.cost r.memberId
  (set', { allowed, limit := w.max, remaining, resetAt, retryAfter := (resetAt - r.now + 999) / 1000,
           windowMs := w.windowMs })

-- ── The limiter ───────────────────────────────────────────────────────────────

/-- The loop over the windows, each charged before the next is checked. -/
def checkAll (r : Request) : List RateLimitWindow → Store → Store × List WindowResult
  | [], store => (store, [])
  | w :: ws, store =>
      let (set', result) := checkWindow (store w.windowMs) w r
      let store' := fun k => if k = w.windowMs then set' else store k
      let (store'', results) := checkAll r ws store'
      (store'', result :: results)

section
variable (stricter : WindowResult → WindowResult → Bool)

/-- The first result no later one is stricter than; `stricter r s` is
    `1 - r.remaining / r.limit > 1 - s.remaining / s.limit` in double precision. -/
def strictest (first : WindowResult) (results : List WindowResult) : WindowResult :=
  results.foldl (fun s r => if stricter r s then r else s) first

/-- `createTieredRateLimiter`: the store after a request, and whether `next` runs. -/
def limiter (windows : List RateLimitWindow) (r : Request) (store : Store) : Store × Bool :=
  let (store', results) := checkAll r windows store
  match results with
  | [] => (store', true)
  | first :: _ => (store', (strictest stricter first results).allowed)

/-- The store, and the record kept of the requests let through. -/
structure State where
  store : Store
  through : List Request

def start : State := { store := fun _ => .empty, through := [] }

def step (windows : List RateLimitWindow) (r : Request) (s : State) : State :=
  let (store, ok) := limiter stricter windows r s.store
  { store, through := if ok then s.through ++ [r] else s.through }

/-- The quota of a window in use at a time. -/
def Store.occupied (store : Store) (windowMs now : Nat) : Nat :=
  ((store windowMs).purge windowMs now).length

/-- Room in a window for the cost of a request. -/
def Room (store : Store) (r : Request) (w : RateLimitWindow) : Prop :=
  store.occupied w.windowMs r.now + r.cost ≤ w.max

instance (store : Store) (r : Request) (w : RateLimitWindow) : Decidable (Room store r w) :=
  inferInstanceAs (Decidable (_ ≤ _))

/-- **ONE REQUEST ENFORCED**: let through exactly when every window has room, and
    no quota used by a request that is not. -/
def Enforced (windows : List RateLimitWindow) (r : Request) (s : State) : Prop :=
  ((limiter stricter windows r s.store).2 = true ↔ ∀ w ∈ windows, Room s.store r w)
    ∧ ((limiter stricter windows r s.store).2 = false → ∀ w ∈ windows, ∀ now, r.now ≤ now →
        (limiter stricter windows r s.store).1.occupied w.windowMs now
          = s.store.occupied w.windowMs now)

end

/-- The cost let through from a time on, for the length of a window. -/
def costWithin (windowMs from_ : Nat) (rs : List Request) : Nat :=
  ((rs.filter fun r => decide (from_ ≤ r.now ∧ r.now < from_ + windowMs)).map (·.cost)).sum

/-- **NO WINDOW EXCEEDED**, over any interval of its length. -/
def Bounded (windows : List RateLimitWindow) (rs : List Request) : Prop :=
  ∀ w ∈ windows, ∀ from_, costWithin w.windowMs from_ rs ≤ w.max

/-- Every window has room, those that share a key with an earlier one for the
    cost twice, or none has. -/
def Uniform (windows : List RateLimitWindow) (r : Request) (s : State) : Prop :=
  (∀ pre w post, windows = pre ++ w :: post →
      s.store.occupied w.windowMs r.now + r.cost
        + (if w.windowMs ∈ pre.map (·.windowMs) then r.cost else 0) ≤ w.max)
    ∨ ∀ w ∈ windows, ¬ Room s.store r w

-- ── What the sets hold ────────────────────────────────────────────────────────

/-- The entries of one request. -/
def batch (r : Request) : List Entry :=
  (List.range r.cost).map fun i => ((r.memberId, i + 1), r.now)

/-- The entries of the requests let through. -/
def charges (rs : List Request) : List Entry := rs.flatMap batch

/-- A request charges at the end of the log. -/
theorem charges_concat (rs : List Request) (r : Request) :
    charges (rs ++ [r]) = charges rs ++ batch r := by
  simp [charges]

/-- Its entries are its member's, at its time, numbered up to its cost. -/
theorem mem_batch {r : Request} {e : Entry} (h : e ∈ batch r) :
    e.1.1 = r.memberId ∧ e.1.2 ≤ r.cost ∧ 1 ≤ e.1.2 ∧ e.2 = r.now := by
  obtain ⟨i, hi, rfl⟩ := List.mem_map.mp h
  rw [List.mem_range] at hi
  exact ⟨rfl, hi, Nat.succ_pos i, rfl⟩

/-- Every entry was charged by a request. -/
theorem mem_charges {rs : List Request} {e : Entry} (h : e ∈ charges rs) :
    ∃ r ∈ rs, e ∈ batch r :=
  List.mem_flatMap.mp h

/-- A member of the first `n` units of a request. -/
def units (id : String) (n : Nat) (e : Entry) : Bool :=
  decide (e.1.1 = id ∧ 1 ≤ e.1.2 ∧ e.1.2 ≤ n)

/-- The units of a request, added one by one, replace those already there. -/
theorem zaddAll_eq (members : List Entry) (id : String) (score cost : Nat) :
    zaddAll members id score cost
      = members.filter (fun e => !units id cost e)
        ++ (List.range cost).map fun i => ((id, i + 1), score) := by
  -- the units are added one by one, each taking the place of its namesake
  induction cost with
  | zero =>
      have hall : ∀ e ∈ members, (!units id 0 e) = true := by
        intro e _
        simp [units]
        omega
      simp [zaddAll, List.filter_eq_self.mpr hall]
  | succ n ih =>
      have hstep : zaddAll members id score (n + 1)
          = zadd (zaddAll members id score n) (id, n + 1) score := by
        simp [zaddAll, List.range_succ]
      rw [hstep, ih, zadd, List.filter_append, List.filter_filter, List.range_succ, List.map_append]
      have hold : ((List.range n).map fun i => (((id, i + 1), score) : Entry)).filter
          (fun e => !(e.1 == (id, n + 1))) = (List.range n).map fun i => ((id, i + 1), score) := by
        refine List.filter_eq_self.mpr fun e he => ?_
        obtain ⟨i, hi, rfl⟩ := List.mem_map.mp he
        rw [List.mem_range] at hi
        simp
        omega
      have hkept : (members.filter fun e => !(e.1 == (id, n + 1)) && !units id n e)
          = members.filter fun e => !units id (n + 1) e := by
        refine List.filter_congr fun e _ => ?_
        obtain ⟨⟨a, i⟩, t⟩ := e
        rw [Bool.eq_iff_iff]
        by_cases ha : a = id
        · simp [units, ha]
          omega
        · simp [units, ha]
      rw [hold, hkept, List.append_assoc]
      rfl

/-- What counts later counts now. -/
theorem alive_later {windowMs now later : Nat} (hle : now ≤ later) (e : Entry) :
    (alive windowMs later e && alive windowMs now e) = alive windowMs later e := by
  rw [Bool.eq_iff_iff]
  simp only [alive, Bool.and_eq_true, decide_eq_true_eq]
  omega

/-- A set holds what the requests let through charged its window, as far as it
    still counts, and expires no earlier than its entries leave the window. -/
structure Holds (windowMs : Nat) (rs : List Request) (set : SortedSet) (now : Nat) : Prop where
  counted : ∀ later, now ≤ later →
    set.members.filter (alive windowMs later) = (charges rs).filter (alive windowMs later)
  expiry : ∀ e ∈ set.members, ∃ at_, set.expireAt = some at_ ∧ e.2 + windowMs ≤ at_

/-- A set that holds the entries of the window holds those of any later one. -/
theorem Holds.later {windowMs now later : Nat} {rs : List Request} {set : SortedSet}
    (h : Holds windowMs rs set now) (hle : now ≤ later) : Holds windowMs rs set later :=
  ⟨fun t ht => h.counted t (Nat.le_trans hle ht), h.expiry⟩

/-- Expiry removes nothing that counts. -/
theorem Holds.purge {windowMs now later : Nat} {rs : List Request} {set : SortedSet}
    (h : Holds windowMs rs set now) (hle : now ≤ later) :
    set.purge windowMs later = (charges rs).filter (alive windowMs later) := by
  rw [← h.counted later hle, SortedSet.purge]
  split
  · next hexp =>
      obtain ⟨at_, hat, hlt⟩ := (Option.any_eq_true _ _).mp hexp
      rw [decide_eq_true_eq] at hlt
      rw [List.filter_nil, eq_comm, List.filter_eq_nil_iff]
      intro e he
      obtain ⟨x, hx, hle'⟩ := h.expiry e he
      obtain rfl : at_ = x := by simpa [hat] using hx
      rw [alive, decide_eq_true_eq]
      omega
  · rfl

/-- The quota in use. -/
def used (windowMs now : Nat) (rs : List Request) : Nat :=
  ((charges rs).filter (alive windowMs now)).length

/-- A request uses its own cost at most. -/
theorem used_concat_le (windowMs now : Nat) (rs : List Request) (r : Request) :
    used windowMs now (rs ++ [r]) ≤ used windowMs now rs + r.cost := by
  have hbatch := List.length_filter_le (alive windowMs now) (batch r)
  have hlen : (batch r).length = r.cost := by simp [batch]
  simp only [used, charges_concat, List.filter_append, List.length_append]
  omega

/-- The entries of other requests are not those of a new one. -/
theorem strip_charges {rs : List Request} {r : Request} (p : Entry → Bool)
    (hfresh : ∀ q ∈ rs, q.memberId ≠ r.memberId) :
    ((charges rs).filter p).filter (fun e => !units r.memberId r.cost e) = (charges rs).filter p := by
  refine List.filter_eq_self.mpr fun e he => ?_
  obtain ⟨q, hq, hbatch⟩ := mem_charges (List.mem_of_mem_filter he)
  have hid := (mem_batch hbatch).1
  simp only [units, Bool.not_eq_true', decide_eq_false_iff_not]
  exact fun h => hfresh q hq (hid.symm.trans h.1)

/-- Its entries are those it takes back when it is refused. -/
theorem strip_batch {r : Request} (p : Entry → Bool) :
    ((batch r).filter p).filter (fun e => !units r.memberId r.cost e) = [] := by
  refine List.filter_eq_nil_iff.mpr fun e he => ?_
  obtain ⟨hid, hle, hpos, -⟩ := mem_batch (List.mem_of_mem_filter he)
  simp [units, hid, hle, hpos]

/-- **CHARGED**: a window with room for a request holds its units afterwards,
    also where an earlier window of the same length has charged them. -/
theorem evalScript_charged {windowMs : Nat} {rs : List Request} {set : SortedSet} {r : Request}
    (hholds : Holds windowMs rs set r.now ∨ Holds windowMs (rs ++ [r]) set r.now)
    (hfresh : ∀ q ∈ rs, q.memberId ≠ r.memberId) (htimes : ∀ q ∈ rs, q.now ≤ r.now) :
    Holds windowMs (rs ++ [r])
      { members := zaddAll (set.purge windowMs r.now) r.memberId r.now r.cost,
        expireAt := some (r.now + windowMs) } r.now := by
  have hmembers : zaddAll (set.purge windowMs r.now) r.memberId r.now r.cost
      = (charges rs).filter (alive windowMs r.now) ++ batch r := by
    -- with fresh names nothing is replaced: the units go to the end
    rw [zaddAll_eq]
    obtain h | h := hholds
    · rw [h.purge (Nat.le_refl _), strip_charges _ hfresh]
      rfl
    · rw [h.purge (Nat.le_refl _), charges_concat, List.filter_append, List.filter_append,
        strip_charges _ hfresh, strip_batch, List.append_nil]
      rfl
  refine ⟨?_, ?_⟩
  -- what was alive and what is new is what is alive afterwards
  · intro later hle
    rw [hmembers, charges_concat, List.filter_append, List.filter_append, List.filter_filter]
    congr 1
    exact List.filter_congr fun e _ => alive_later hle e
  -- the set outlives its last unit
  · intro e he
    refine ⟨_, rfl, ?_⟩
    rw [hmembers] at he
    obtain he | he := List.mem_append.mp he
    · obtain ⟨q, hq, hbatch⟩ := mem_charges (List.mem_of_mem_filter he)
      have ht := htimes q hq
      rw [(mem_batch hbatch).2.2.2]
      omega
    · exact Nat.le_of_eq (congrArg (· + windowMs) (mem_batch he).2.2.2)

/-- **NOT CHARGED**: a window without room only lets go of what no longer counts. -/
theorem evalScript_purged {windowMs : Nat} {rs : List Request} {set : SortedSet} {now : Nat}
    (h : Holds windowMs rs set now) :
    Holds windowMs rs { members := set.purge windowMs now, expireAt := set.expireAt } now := by
  refine ⟨?_, ?_⟩
  · intro later hle
    rw [h.purge (Nat.le_refl _), List.filter_filter]
    exact List.filter_congr fun e _ => alive_later hle e
  · intro e he
    refine h.expiry e ?_
    have hmem := List.mem_of_mem_filter he
    split at hmem
    · exact absurd hmem (by simp)
    · exact hmem

-- ── One request ───────────────────────────────────────────────────────────────

/-- The set of a window that is checked. -/
theorem checkWindow_room {set : SortedSet} {w : RateLimitWindow} {r : Request}
    (h : (set.purge w.windowMs r.now).length + r.cost ≤ w.max) :
    (checkWindow set w r).1
        = { members := zaddAll (set.purge w.windowMs r.now) r.memberId r.now r.cost,
            expireAt := some (r.now + w.windowMs) }
      ∧ (checkWindow set w r).2.allowed = true := by
  simp only [checkWindow, evalScript, if_pos h, and_self]

/-- A window that is full refuses, and keeps what it had. -/
theorem checkWindow_full {set : SortedSet} {w : RateLimitWindow} {r : Request}
    (h : ¬ (set.purge w.windowMs r.now).length + r.cost ≤ w.max) :
    (checkWindow set w r).1 = { members := set.purge w.windowMs r.now, expireAt := set.expireAt }
      ∧ (checkWindow set w r).2.allowed = false := by
  simp only [checkWindow, evalScript, if_neg h, and_self]

/-- The store after one window. -/
def Store.after (store : Store) (w : RateLimitWindow) (r : Request) : Store :=
  fun k => if k = w.windowMs then (checkWindow (store w.windowMs) w r).1 else store k

/-- The windows are checked one after the other, each on what the one before left. -/
theorem checkAll_cons (r : Request) (w : RateLimitWindow) (ws : List RateLimitWindow)
    (store : Store) :
    checkAll r (w :: ws) store
      = ((checkAll r ws (store.after w r)).1,
          (checkWindow (store w.windowMs) w r).2 :: (checkAll r ws (store.after w r)).2) := rfl

/-- **ALL WINDOWS HAVE ROOM**: every one allows the request and holds its units.
    The induction carries which lengths have been charged. -/
theorem checkAll_room {rs : List Request} {r : Request} (hfresh : ∀ q ∈ rs, q.memberId ≠ r.memberId)
    (htimes : ∀ q ∈ rs, q.now ≤ r.now) (ks : List Nat) :
    ∀ (ws : List RateLimitWindow) (done : List Nat) (store : Store),
      (∀ w ∈ ws, w.windowMs ∈ ks) →
      (∀ k ∈ ks, Holds k (if k ∈ done then rs ++ [r] else rs) (store k) r.now) →
      (∀ (pre : List RateLimitWindow) (w : RateLimitWindow) (post : List RateLimitWindow),
        ws = pre ++ w :: post → used w.windowMs r.now rs + r.cost
        + (if w.windowMs ∈ done ∨ w.windowMs ∈ pre.map (·.windowMs) then r.cost else 0) ≤ w.max) →
      (∀ result ∈ (checkAll r ws store).2, result.allowed = true)
        ∧ ∀ k ∈ ks, Holds k (if k ∈ done ∨ k ∈ ws.map (·.windowMs) then rs ++ [r] else rs)
            ((checkAll r ws store).1 k) r.now := by
  intro ws
  -- the windows before this one are charged, this one is, the rest is not
  induction ws with
  | nil =>
      intro done store _ hstore _
      refine ⟨fun result h => absurd h (by simp [checkAll]), fun k hk => ?_⟩
      simpa [checkAll] using hstore k hk
  | cons w ws ih =>
      intro done store hks hstore hroom
      have hw := hks w (List.mem_cons_self)
      have hset := hstore w.windowMs hw
      have hfirst := hroom [] w ws rfl
      have hfits : ((store w.windowMs).purge w.windowMs r.now).length + r.cost ≤ w.max := by
        rw [hset.purge (Nat.le_refl _)]
        have hone := used_concat_le w.windowMs r.now rs r
        simp only [used] at hfirst hone
        split
        · next hdone =>
            rw [if_pos (Or.inl hdone)] at hfirst
            omega
        · omega
      obtain ⟨hafter, hallowed⟩ := checkWindow_room hfits
      have hcharged : Holds w.windowMs (rs ++ [r]) (checkWindow (store w.windowMs) w r).1 r.now := by
        rw [hafter]
        refine evalScript_charged ?_ hfresh htimes
        split at hset
        · exact Or.inr hset
        · exact Or.inl hset
      have hnext : ∀ k ∈ ks, Holds k (if k ∈ w.windowMs :: done then rs ++ [r] else rs)
          (store.after w r k) r.now := by
        intro k hk
        simp only [Store.after]
        by_cases hkw : k = w.windowMs
        · subst hkw
          simpa using hcharged
        · simpa [hkw] using hstore k hk
      obtain ⟨hall, hholds⟩ := ih (w.windowMs :: done) (store.after w r)
        (fun v hv => hks v (List.mem_cons_of_mem w hv)) hnext (by
          intro pre v post hsplit
          have hv := hroom (w :: pre) v post (by rw [hsplit]; rfl)
          simp only [List.map_cons, List.mem_cons] at hv ⊢
          have hor : ((v.windowMs = w.windowMs ∨ v.windowMs ∈ done)
              ∨ v.windowMs ∈ pre.map (·.windowMs))
              ↔ (v.windowMs ∈ done ∨ v.windowMs = w.windowMs ∨ v.windowMs ∈ pre.map (·.windowMs)) := by
            rw [or_assoc, or_left_comm]
          rwa [if_congr hor rfl rfl])
      rw [checkAll_cons]
      refine ⟨?_, fun k hk => ?_⟩
      · intro result hresult
        obtain rfl | hresult := List.mem_cons.mp hresult
        · exact hallowed
        · exact hall result hresult
      · have h := hholds k hk
        have hor : (k ∈ w.windowMs :: done ∨ k ∈ ws.map (·.windowMs))
            ↔ (k ∈ done ∨ k ∈ (w :: ws).map (·.windowMs)) := by
          rw [List.map_cons, List.mem_cons, List.mem_cons, or_assoc, or_left_comm]
        rwa [if_congr hor rfl rfl] at h

/-- **NO WINDOW HAS ROOM**: every one denies the request and holds what it held. -/
theorem checkAll_full {rs : List Request} {r : Request} (ks : List Nat) :
    ∀ (ws : List RateLimitWindow) (store : Store), (∀ w ∈ ws, w.windowMs ∈ ks) →
      (∀ k ∈ ks, Holds k rs (store k) r.now) →
      (∀ w ∈ ws, ¬ used w.windowMs r.now rs + r.cost ≤ w.max) →
      (∀ result ∈ (checkAll r ws store).2, result.allowed = false)
        ∧ ∀ k ∈ ks, Holds k rs ((checkAll r ws store).1 k) r.now := by
  intro ws
  -- a refused request takes its units back, window by window
  induction ws with
  | nil => exact fun store _ hstore _ => ⟨fun result h => absurd h (by simp [checkAll]), hstore⟩
  | cons w ws ih =>
      intro store hks hstore hroom
      have hset := hstore w.windowMs (hks w (List.mem_cons_self))
      have hfull : ¬ ((store w.windowMs).purge w.windowMs r.now).length + r.cost ≤ w.max := by
        rw [hset.purge (Nat.le_refl _)]
        exact hroom w (List.mem_cons_self)
      obtain ⟨hafter, hdenied⟩ := checkWindow_full hfull
      have hnext : ∀ k ∈ ks, Holds k rs (store.after w r k) r.now := by
        intro k hk
        simp only [Store.after]
        by_cases hkw : k = w.windowMs
        · subst hkw
          rw [if_pos rfl, hafter]
          exact evalScript_purged hset
        · rw [if_neg hkw]
          exact hstore k hk
      obtain ⟨hall, hholds⟩ := ih (store.after w r) (fun v hv => hks v (List.mem_cons_of_mem w hv))
        hnext (fun v hv => hroom v (List.mem_cons_of_mem w hv))
      rw [checkAll_cons]
      refine ⟨?_, hholds⟩
      intro result hresult
      obtain rfl | hresult := List.mem_cons.mp hresult
      · exact hdenied
      · exact hall result hresult

/-- The strictest result is one of the results. -/
theorem strictest_mem (stricter : WindowResult → WindowResult → Bool) (first : WindowResult)
    (results : List WindowResult) :
    strictest stricter first results = first ∨ strictest stricter first results ∈ results := by
  induction results generalizing first with
  | nil => exact Or.inl rfl
  | cons r results ih =>
      have h := ih (if stricter r first then r else first)
      simp only [strictest, List.foldl_cons] at h ⊢
      obtain heq | hmem := h
      · rw [heq]
        split
        · exact Or.inr (List.mem_cons_self)
        · exact Or.inl rfl
      · exact Or.inr (List.mem_cons_of_mem r hmem)

/-- The verdict is that of one of the results. -/
theorem limiter_verdict {stricter : WindowResult → WindowResult → Bool}
    {windows : List RateLimitWindow} {r : Request} {store : Store} {b : Bool}
    (hall : ∀ result ∈ (checkAll r windows store).2, result.allowed = b)
    (hne : b = false → windows ≠ []) : (limiter stricter windows r store).2 = b := by
  simp only [limiter]
  cases hresults : (checkAll r windows store).2 with
  | nil =>
      cases b with
      | true => rfl
      | false =>
          cases windows with
          | nil => exact absurd rfl (hne rfl)
          | cons w ws => rw [checkAll_cons] at hresults; exact absurd hresults (by simp)
  | cons first rest =>
      rw [hresults] at hall
      simp only
      obtain heq | hmem := strictest_mem stricter first (first :: rest)
      · rw [heq]
        exact hall first (List.mem_cons_self)
      · exact hall _ hmem

/-- What the limiter leaves depends on the windows alone, not on the result it shows. -/
theorem limiter_store (stricter : WindowResult → WindowResult → Bool)
    (windows : List RateLimitWindow) (r : Request) (store : Store) :
    (limiter stricter windows r store).1 = (checkAll r windows store).1 := by
  simp only [limiter]
  split <;> rfl

-- ── Runs ──────────────────────────────────────────────────────────────────────

/-- The quota in use is the cost let through that still counts. -/
theorem used_eq (windowMs now : Nat) (rs : List Request) :
    used windowMs now rs
      = ((rs.filter fun r => decide (now < r.now + windowMs)).map (·.cost)).sum := by
  induction rs with
  | nil => rfl
  | cons r rs ih =>
      have hbatch : (batch r).filter (alive windowMs now)
          = if now < r.now + windowMs then batch r else [] := by
        split
        · next h =>
            refine List.filter_eq_self.mpr fun e he => ?_
            rw [alive, (mem_batch he).2.2.2, decide_eq_true_eq]
            exact h
        · next h =>
            refine List.filter_eq_nil_iff.mpr fun e he => ?_
            rw [alive, (mem_batch he).2.2.2, decide_eq_true_eq]
            exact h
      have hcons : charges (r :: rs) = batch r ++ charges rs := rfl
      rw [used, hcons, List.filter_append, List.length_append, hbatch, List.filter_cons]
      simp only [used] at ih
      split
      · next h =>
          rw [if_pos (by simpa using h), List.map_cons, List.sum_cons, ih]
          simp [batch]
      · next h =>
          rw [if_neg (by simpa using h), ih]
          simp

/-- A condition met by more requests adds up to more. -/
theorem sum_filter_le {p q : Request → Bool} (h : ∀ r, p r = true → q r = true)
    (rs : List Request) :
    ((rs.filter p).map (·.cost)).sum ≤ ((rs.filter q).map (·.cost)).sum := by
  induction rs with
  | nil => exact Nat.le_refl 0
  | cons r rs ih =>
      rw [List.filter_cons, List.filter_cons]
      by_cases hp : p r = true
      · rw [if_pos hp, if_pos (h r hp)]
        simp only [List.map_cons, List.sum_cons]
        omega
      · rw [if_neg hp]
        split
        · simp only [List.map_cons, List.sum_cons]
          omega
        · exact ih

/-- One more request in a window that has room for it. -/
theorem costWithin_concat_le {w : RateLimitWindow} {rs : List Request} {r : Request}
    (hroom : used w.windowMs r.now rs + r.cost ≤ w.max)
    (hrs : ∀ from_, costWithin w.windowMs from_ rs ≤ w.max) (from_ : Nat) :
    costWithin w.windowMs from_ (rs ++ [r]) ≤ w.max := by
  rw [costWithin, List.filter_append, List.map_append, List.sum_append]
  by_cases hin : from_ ≤ r.now ∧ r.now < from_ + w.windowMs
  · have hle := sum_filter_le (p := fun q => decide (from_ ≤ q.now ∧ q.now < from_ + w.windowMs))
      (q := fun q => decide (r.now < q.now + w.windowMs)) (by
        intro q hq
        simp only [decide_eq_true_eq] at hq ⊢
        omega) rs
    rw [← used_eq] at hle
    simp only [hin, and_self, decide_true, List.filter_cons_of_pos, List.filter_nil, List.map_cons,
      List.map_nil, List.sum_cons, List.sum_nil]
    omega
  · have hnone : [r].filter (fun q => decide (from_ ≤ q.now ∧ q.now < from_ + w.windowMs)) = [] := by
      simp [hin]
    rw [hnone]
    exact hrs from_

/-- What holds between requests: the sets hold what was let through, and no
    window is exceeded. -/
structure Sound (windows : List RateLimitWindow) (now : Nat) (s : State) : Prop where
  holds : ∀ w ∈ windows, Holds w.windowMs s.through (s.store w.windowMs) now
  times : ∀ q ∈ s.through, q.now ≤ now
  bounded : Bounded windows s.through

section
variable {stricter : WindowResult → WindowResult → Bool} {windows : List RateLimitWindow}

/-- In a sound state a window is occupied by what was let through. -/
theorem Sound.occupied {now later : Nat} {s : State} (h : Sound windows now s) {w : RateLimitWindow}
    (hw : w ∈ windows) (hle : now ≤ later) :
    s.store.occupied w.windowMs later = used w.windowMs later s.through := by
  rw [Store.occupied, (h.holds w hw).purge hle]
  rfl

/-- **ONE UNIFORM REQUEST**: it is enforced, and the sets stay sound. -/
theorem step_enforced (stricter : WindowResult → WindowResult → Bool) {last : Nat} {s : State}
    {r : Request} (hsound : Sound windows last s) (hlast : last ≤ r.now) (hfresh : ∀ q ∈ s.through, q.memberId ≠ r.memberId)
    (huniform : Uniform windows r s) :
    Enforced stricter windows r s ∧ Sound windows r.now (step stricter windows r s) := by
  -- no request that went through is of the future
  have htimes : ∀ q ∈ s.through, q.now ≤ r.now := fun q hq => Nat.le_trans (hsound.times q hq) hlast
  have hstore : ∀ k ∈ windows.map (·.windowMs), Holds k s.through (s.store k) r.now := by
    intro k hk
    obtain ⟨w, hw, rfl⟩ := List.mem_map.mp hk
    exact (hsound.holds w hw).later hlast
  have hmem : ∀ w ∈ windows, w.windowMs ∈ windows.map (·.windowMs) :=
    fun w hw => List.mem_map_of_mem hw
  -- the windows all have room, or, by the uniform limit, none has
  by_cases hroom : ∀ (pre : List RateLimitWindow) (w : RateLimitWindow) (post : List RateLimitWindow),
      windows = pre ++ w :: post → s.store.occupied w.windowMs r.now + r.cost
        + (if w.windowMs ∈ pre.map (·.windowMs) then r.cost else 0) ≤ w.max
  · have hin : ∀ w ∈ windows, used w.windowMs r.now s.through + r.cost ≤ w.max := by
      intro w hw
      obtain ⟨pre, post, hsplit⟩ := List.append_of_mem hw
      have h := hroom pre w post hsplit
      rw [hsound.occupied hw hlast] at h
      omega
    -- all have room: the request is charged to every window
    obtain ⟨hall, hholds⟩ := checkAll_room hfresh htimes (windows.map (·.windowMs)) windows [] s.store
      hmem (by simpa using hstore) (by
        intro pre w post hsplit
        have hw : w ∈ windows := by
          rw [hsplit]
          exact List.mem_append_right _ (List.mem_cons_self)
        have h := hroom pre w post hsplit
        rw [hsound.occupied hw hlast] at h
        simpa using h)
    have hverdict : (limiter stricter windows r s.store).2 = true :=
      limiter_verdict hall (by simp)
    refine ⟨⟨⟨fun _ w hw => ?_, fun _ => hverdict⟩, fun h => absurd (h.symm.trans hverdict) (by simp)⟩,
      ?_, ?_, ?_⟩
    · rw [Room, hsound.occupied hw hlast]
      exact hin w hw
    · intro w hw
      have h := hholds w.windowMs (hmem w hw)
      rw [if_pos (Or.inr (hmem w hw))] at h
      simp only [step, hverdict, if_true, limiter_store]
      exact h
    · intro q hq
      simp only [step, hverdict, if_true] at hq
      obtain hq | hq := List.mem_append.mp hq
      · exact htimes q hq
      · exact List.mem_singleton.mp hq ▸ Nat.le_refl _
    · intro w hw
      simp only [step, hverdict, if_true]
      exact costWithin_concat_le (hin w hw) (hsound.bounded w hw)
  -- none has room: every window refuses and keeps what it had
  · have hnone : ∀ w ∈ windows, ¬ Room s.store r w := huniform.resolve_left hroom
    have hne : windows ≠ [] := by
      rintro rfl
      exact hroom fun pre w post h => absurd h (by simp)
    have hfull : ∀ w ∈ windows, ¬ used w.windowMs r.now s.through + r.cost ≤ w.max := by
      intro w hw
      rw [← hsound.occupied hw hlast]
      exact hnone w hw
    obtain ⟨hall, hholds⟩ := checkAll_full (windows.map (·.windowMs)) windows s.store hmem hstore hfull
    have hverdict : (limiter stricter windows r s.store).2 = false :=
      limiter_verdict hall fun _ => hne
    refine ⟨⟨⟨fun h => absurd (h.symm.trans hverdict) (by simp), fun h => ?_⟩, fun _ w hw now hle => ?_⟩,
      ?_, ?_, ?_⟩
    · obtain ⟨w, hw⟩ := List.exists_mem_of_ne_nil windows hne
      exact absurd (h w hw) (hnone w hw)
    · rw [hsound.occupied hw (Nat.le_trans hlast hle), limiter_store, Store.occupied,
        (hholds w.windowMs (hmem w hw)).purge hle]
      rfl
    · intro w hw
      simp only [step, hverdict, limiter_store, Bool.false_eq_true, if_false]
      exact hholds w.windowMs (hmem w hw)
    · simp only [step, hverdict, Bool.false_eq_true, if_false]
      exact htimes
    · simp only [step, hverdict, Bool.false_eq_true, if_false]
      exact hsound.bounded

/-- One request at most goes through in a step. -/
theorem step_through {r : Request} {s : State} {q : Request}
    (h : q ∈ (step stricter windows r s).through) : q ∈ s.through ∨ q = r := by
  simp only [step] at h
  split at h
  · obtain h | h := List.mem_append.mp h
    · exact Or.inl h
    · exact Or.inr (List.mem_singleton.mp h)
  · exact Or.inl h

/-- From any sound state on, every window keeps to its maximum. -/
theorem run_enforced {rs : List Request} :
    ∀ {last : Nat} {s : State}, Sound windows last s → (∀ r ∈ rs, last ≤ r.now) →
      (∀ q ∈ s.through, ∀ r ∈ rs, q.memberId ≠ r.memberId) →
      rs.Pairwise (fun q r => q.now ≤ r.now) → rs.Pairwise (fun q r => q.memberId ≠ r.memberId) →
      Along (step stricter windows) (Uniform windows) rs s →
      Along (step stricter windows) (Enforced stricter windows) rs s
        ∧ Bounded windows (exec (step stricter windows) rs s).through := by
  induction rs with
  | nil => exact fun hsound _ _ _ _ _ => ⟨trivial, hsound.bounded⟩
  | cons r rs ih =>
      intro last s hsound hlast hfresh htimes hids hrun
      obtain ⟨huniform, hrun⟩ := hrun
      obtain ⟨hr, htimes⟩ := List.pairwise_cons.mp htimes
      obtain ⟨hid, hids⟩ := List.pairwise_cons.mp hids
      obtain ⟨henforced, hsound'⟩ := step_enforced stricter hsound
        (hlast r (List.mem_cons_self)) (fun q hq => hfresh q hq r (List.mem_cons_self)) huniform
      obtain ⟨hrest, hbounded⟩ := ih hsound' hr (by
        intro q hq v hv
        obtain hq | rfl := step_through hq
        · exact hfresh q hq v (List.mem_cons_of_mem r hv)
        · exact hid v hv) htimes hids hrun
      exact ⟨⟨henforced, hrest⟩, hbounded⟩

/-- At first nothing is charged and nothing was let through. -/
theorem sound_start (windows : List RateLimitWindow) : Sound windows 0 start :=
  ⟨fun _ _ => ⟨fun _ _ => rfl, fun e he => absurd he (by simp [start, SortedSet.empty])⟩,
    fun q hq => absurd hq (by simp [start]), fun _ _ _ => Nat.zero_le _⟩

-- ── A request that finds room in some windows only ────────────────────────────

/-- A set of another length of window stays as it is. -/
theorem checkAll_other {r : Request} {ws : List RateLimitWindow} {store : Store} {k : Nat}
    (hk : k ∉ ws.map (·.windowMs)) : (checkAll r ws store).1 k = store k := by
  induction ws generalizing store with
  | nil => rfl
  | cons w ws ih =>
      rw [List.map_cons, List.mem_cons, not_or] at hk
      rw [checkAll_cons, ih hk.2, Store.after, if_neg hk.1]

/-- Windows of different lengths are checked each on its own set. -/
theorem checkAll_at {r : Request} {ws : List RateLimitWindow} (hnodup : (ws.map (·.windowMs)).Nodup)
    {store : Store} {w : RateLimitWindow} (hw : w ∈ ws) :
    (checkAll r ws store).1 w.windowMs = (checkWindow (store w.windowMs) w r).1 := by
  induction ws generalizing store with
  | nil => exact absurd hw (by simp)
  | cons v ws ih =>
      rw [List.map_cons, List.nodup_cons] at hnodup
      rw [checkAll_cons]
      obtain rfl | hw := List.mem_cons.mp hw
      · rw [checkAll_other hnodup.1, Store.after, if_pos rfl]
      · have hne : w.windowMs ≠ v.windowMs := fun h =>
          hnodup.1 (h ▸ List.mem_map_of_mem hw)
        rw [ih hnodup.2 hw, Store.after, if_neg hne]

/-- Windows of different lengths that all have room. -/
theorem uniform_of_room (hnodup : (windows.map (·.windowMs)).Nodup) {s : State} {r : Request}
    (hall : ∀ w ∈ windows, Room s.store r w) : Uniform windows r s := by
  refine Or.inl fun pre w post hsplit => ?_
  have hw : w ∈ windows := by
    rw [hsplit]
    exact List.mem_append_right _ (List.mem_cons_self)
  have hnot : w.windowMs ∉ pre.map (·.windowMs) := by
    intro hmem
    rw [hsplit, List.map_append, List.map_cons] at hnodup
    exact (List.nodup_append.mp hnodup).2.2 _ hmem _ (List.mem_cons_self) rfl
  rw [if_neg hnot]
  exact hall w hw

/-- **A MIXED REQUEST BREAKS THE LIMITER**: with windows of different lengths, a
    request that is enforced found room in all of them or in none. -/
theorem uniform_of_enforced (hnodup : (windows.map (·.windowMs)).Nodup)
    (hpositive : ∀ w ∈ windows, 0 < w.windowMs) {last : Nat} {s : State} {r : Request}
    (hsound : Sound windows last s) (hlast : last ≤ r.now) (hcost : 1 ≤ r.cost)
    (hfresh : ∀ q ∈ s.through, q.memberId ≠ r.memberId) (h : Enforced stricter windows r s) :
    Uniform windows r s := by
  by_cases hall : ∀ w ∈ windows, Room s.store r w
  · exact uniform_of_room hnodup hall
  · have hdenied : (limiter stricter windows r s.store).2 = false := by
      rw [← Bool.not_eq_true, h.1]
      exact hall
    -- a window with room among full ones would stay charged for a denied request
    refine Or.inr fun w hw hroom => ?_
    have hsame := h.2 hdenied w hw r.now (Nat.le_refl _)
    have hbefore := hsound.occupied hw hlast
    have hset := (hsound.holds w hw).later hlast
    rw [Room, Store.occupied] at hroom
    have hafter : (limiter stricter windows r s.store).1.occupied w.windowMs r.now
        = used w.windowMs r.now (s.through ++ [r]) := by
      have hcharged := evalScript_charged (Or.inl hset) hfresh
        fun q hq => Nat.le_trans (hsound.times q hq) hlast
      rw [limiter_store, Store.occupied, checkAll_at hnodup hw, (checkWindow_room hroom).1,
        hcharged.purge (Nat.le_refl _)]
      rfl
    -- the charge itself is still in its window
    have hcounts : r.now < r.now + w.windowMs := by
      have hpos := hpositive w hw
      omega
    rw [hafter, hbefore, used_eq, used_eq, List.filter_append, List.map_append,
      List.sum_append] at hsame
    simp only [hcounts, decide_true, List.filter_cons_of_pos, List.filter_nil, List.map_cons,
      List.map_nil, List.sum_cons, List.sum_nil] at hsame
    omega

/-- From any sound state on, the same of the uniform limit. -/
theorem run_uniform {rs : List Request} (hnodup : (windows.map (·.windowMs)).Nodup)
    (hpositive : ∀ w ∈ windows, 0 < w.windowMs) :
    ∀ {last : Nat} {s : State}, Sound windows last s → (∀ r ∈ rs, last ≤ r.now) →
      (∀ r ∈ rs, 1 ≤ r.cost) → (∀ q ∈ s.through, ∀ r ∈ rs, q.memberId ≠ r.memberId) →
      rs.Pairwise (fun q r => q.now ≤ r.now) → rs.Pairwise (fun q r => q.memberId ≠ r.memberId) →
      Along (step stricter windows) (Enforced stricter windows) rs s →
      Along (step stricter windows) (Uniform windows) rs s := by
  -- the next request finds the state the one before left
  induction rs with
  | nil => exact fun _ _ _ _ _ _ _ => trivial
  | cons r rs ih =>
      intro last s hsound hlast hcosts hfresh htimes hids hrun
      obtain ⟨henforced, hrun⟩ := hrun
      obtain ⟨hr, htimes⟩ := List.pairwise_cons.mp htimes
      obtain ⟨hid, hids⟩ := List.pairwise_cons.mp hids
      have hnow := hlast r (List.mem_cons_self)
      have hnew : ∀ q ∈ s.through, q.memberId ≠ r.memberId :=
        fun q hq => hfresh q hq r (List.mem_cons_self)
      have huniform := uniform_of_enforced hnodup hpositive hsound hnow
        (hcosts r (List.mem_cons_self)) hnew henforced
      obtain ⟨-, hsound'⟩ := step_enforced stricter hsound hnow hnew huniform
      refine ⟨huniform, ih hsound' hr (fun v hv => hcosts v (List.mem_cons_of_mem r hv)) ?_ htimes hids
        hrun⟩
      intro q hq v hv
      obtain hq | rfl := step_through hq
      · exact hfresh q hq v (List.mem_cons_of_mem r hv)
      · exact hid v hv

/-- **WHEN EVERY WINDOW IS ENFORCED**: along a run of requests at nondecreasing
    times in which each finds room in all windows or in none, each is let through
    exactly when all have room, uses no quota when it is not, and no window is
    exceeded over any interval of its length; with windows of different lengths,
    along no other run. -/
theorem enforced_iff_uniform {rs : List Request} (htimes : rs.Pairwise fun q r => q.now ≤ r.now)
    (hids : rs.Pairwise fun q r => q.memberId ≠ r.memberId) (hcosts : ∀ r ∈ rs, 1 ≤ r.cost) :
    (Along (step stricter windows) (Uniform windows) rs start →
      Along (step stricter windows) (Enforced stricter windows) rs start
        ∧ Bounded windows (exec (step stricter windows) rs start).through)
      ∧ ((windows.map (·.windowMs)).Nodup → (∀ w ∈ windows, 0 < w.windowMs) →
        Along (step stricter windows) (Enforced stricter windows) rs start
          ∧ Bounded windows (exec (step stricter windows) rs start).through →
        Along (step stricter windows) (Uniform windows) rs start) := by
  have hnone : ∀ q ∈ start.through, ∀ r ∈ rs, q.memberId ≠ r.memberId :=
    fun q hq => absurd hq (by simp [start])
  refine ⟨fun huniform => ?_, fun hnodup hpositive hrun => ?_⟩
  · exact run_enforced (sound_start windows) (fun _ _ => Nat.zero_le _) hnone htimes hids huniform
  · exact run_uniform hnodup hpositive (sound_start windows) (fun _ _ => Nat.zero_le _) hcosts hnone
      htimes hids hrun.1

end

/-- The usage ratios compared exactly; with a limit of 0 the ratio is no number. -/
def usageGreater (r s : WindowResult) : Bool :=
  decide (0 < r.limit ∧ 0 < s.limit ∧ r.remaining * s.limit < s.remaining * r.limit)

/-- A window of a minute and one of an hour. -/
def twoWindows (minute hour : Nat) : List RateLimitWindow :=
  [{ windowMs := 60000, max := minute, label := "1m" },
    { windowMs := 3600000, max := hour, label := "1h" }]

def request (now cost : Nat) (memberId : String) : Request := { now, cost, memberId }

/-- A request that both windows have room for, and one that neither has. -/
theorem enforced_two :
    Along (step usageGreater (twoWindows 3 4)) (Enforced usageGreater (twoWindows 3 4))
        [request 1000 3 "a", request 2000 2 "b"] start
      ∧ Bounded (twoWindows 3 4) (exec (step usageGreater (twoWindows 3 4))
          [request 1000 3 "a", request 2000 2 "b"] start).through :=
  (enforced_iff_uniform (by decide) (by decide) (by decide)).1
    ⟨uniform_of_room (by decide) (by decide), Or.inr (by decide), trivial⟩

/-- **LET THROUGH WITHOUT ROOM, REJECTED AND CHARGED**: a request of cost 2 passes
    an hour's limit of 1 because the minute's window shows the larger usage, and a
    request that the minute's window rejects uses up the hour's. -/
theorem mixed_request_breaks :
    (∃ w ∈ twoWindows 2 1, ¬ Room start.store (request 1000 2 "a") w
        ∧ (limiter usageGreater (twoWindows 2 1) (request 1000 2 "a") start.store).2 = true
        ∧ w.max < costWithin w.windowMs 0
            (step usageGreater (twoWindows 2 1) (request 1000 2 "a") start).through)
      ∧ (limiter usageGreater (twoWindows 1 5) (request 2000 1 "b")
            (step usageGreater (twoWindows 1 5) (request 1000 1 "a") start).store).2 = false
      ∧ (step usageGreater (twoWindows 1 5) (request 1000 1 "a") start).store.occupied 3600000 2000
          < (limiter usageGreater (twoWindows 1 5) (request 2000 1 "b")
              (step usageGreater (twoWindows 1 5) (request 1000 1 "a") start).store).1.occupied
              3600000 2000 := by
  decide

end Quota
