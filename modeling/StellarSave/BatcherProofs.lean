import StellarSave.PoolProofs
import StellarSave.TieredCacheProofs

/-! # The request batcher — one queue, one timer

    `RequestBatcher` (`packages/sdk/src/rpcBatchCache.ts`).  Requests gather in a queue
    until it is long enough or its timer fires; then all of them go off as one batch,
    and each is answered when that batch comes back. -/

namespace RequestBatcher

open Trace TieredCache

/-- How the promise of a request is settled. -/
inductive Outcome (V : Type) where
  | resolved (value : V)
  | noResult
  | failed
  deriving DecidableEq

/-- A call of `enqueue`: its key, its promise, and how often that was resolved or rejected. -/
structure Request (K V : Type) where
  key : K
  outcome : Option (Outcome V)
  settlements : Nat
  deriving DecidableEq

/-- Where the promise of `batchFn` stands; `undefined` counts as no result. -/
inductive Reply (K V : Type) where
  | running
  | completed (results : K → Option V)
  | failed

/-- What was taken out of the queue at once. -/
structure Batch (K V : Type) where
  items : List Nat
  reply : Reply K V

/-- The requests by number, the queue, whether the timer is set, and the batches. -/
structure State (K V : Type) where
  requests : List (Request K V)
  queue : List Nat
  timer : Bool
  batches : List (Batch K V)

variable {K V : Type}

def start : State K V := ⟨[], [], false, []⟩

/-- `queue.length >= maxBatchSize`. -/
def reaches (maxBatchSize : Number) (length : Nat) : Bool :=
  match maxBatchSize with
  | .finite size => decide (size ≤ (length : ℚ))
  | .negInfinity => true
  | .infinity => false
  | .nan => false

/-- `flush`: the timer is cleared, and an empty queue sends nothing. -/
def State.flush (s : State K V) : State K V :=
  match s.queue with
  | [] => { s with timer := false }
  | batch => { s with timer := false, queue := [], batches := s.batches ++ [⟨batch, .running⟩] }

/-- `resolve` or `reject`: the first one settles the promise. -/
def Request.settle (outcome : Outcome V) (r : Request K V) : Request K V :=
  { r with outcome := r.outcome.or (some outcome), settlements := r.settlements + 1 }

/-- What the result holds for the key. -/
def answer (results : K → Option V) (key : K) : Outcome V :=
  match results key with
  | some value => .resolved value
  | none => .noResult

/-- The loop over a batch. -/
def settleAll (outcome : K → Outcome V) (items : List Nat) (requests : List (Request K V)) :
    List (Request K V) :=
  items.foldl (fun rs id => rs.modify id fun r => r.settle (outcome r.key)) requests

inductive Event (K V : Type) where
  | enqueue (key : K)
  | timer
  | complete (b : Nat) (results : K → Option V)
  | fail (b : Nat)

def step (maxBatchSize : Number) : Event K V → State K V → State K V
  | .enqueue key, s =>
      let s : State K V :=
        { s with requests := s.requests ++ [⟨key, none, 0⟩], queue := s.queue ++ [s.requests.length] }
      if reaches maxBatchSize s.queue.length = true then s.flush else { s with timer := true }
  | .timer, s => if s.timer = true then s.flush else s
  | .complete b results, s =>
      match s.batches[b]? with
      | some ⟨items, .running⟩ =>
          { s with
            requests := settleAll (answer results) items s.requests
            batches := s.batches.set b ⟨items, .completed results⟩ }
      | _ => s
  | .fail b, s =>
      match s.batches[b]? with
      | some ⟨items, .running⟩ =>
          { s with
            requests := settleAll (fun _ => .failed) items s.requests
            batches := s.batches.set b ⟨items, .failed⟩ }
      | _ => s

/-! ## What the batcher promises -/

/-- The most keys of a batch: at least the one that it is sent for. -/
def largest : Number → Option Nat
  | .finite size => some (max 1 ⌈size⌉₊)
  | .negInfinity => some 1
  | .infinity => none
  | .nan => none

/-- The numbers of all requests that have left the queue. -/
def State.sent (s : State K V) : List Nat := s.batches.flatMap Batch.items

/-- The promise of a request of a batch, by what has come back for it. -/
def Answered (reply : Reply K V) (r : Request K V) : Prop :=
  match reply with
  | .running => r.outcome = none ∧ r.settlements = 0
  | .completed results => r.outcome = some (answer results r.key) ∧ r.settlements = 1
  | .failed => r.outcome = some .failed ∧ r.settlements = 1

/-- Each request is in the queue or in one batch, and the queue has its timer. -/
structure Placed (s : State K V) : Prop where
  once : (s.queue ++ s.sent).Perm (List.range s.requests.length)
  armed : s.queue ≠ [] ↔ s.timer = true

/-- No promise is settled before its batch is back, and each is settled once then. -/
structure Settled (s : State K V) : Prop where
  waiting : ∀ id ∈ s.queue, ∃ r, s.requests[id]? = some r ∧ Answered .running r
  answered : ∀ (b : Nat) batch, s.batches[b]? = some batch → ∀ id ∈ batch.items,
    ∃ r, s.requests[id]? = some r ∧ Answered batch.reply r

/-- No batch could have been sent earlier for its size. -/
def Sized (maxBatchSize : Number) (s : State K V) : Prop :=
  ∀ batch ∈ s.batches, batch.items ≠ [] ∧ ∀ most ∈ largest maxBatchSize, batch.items.length ≤ most

/-- What the queue has grown to since its last flush. -/
def Short (maxBatchSize : Number) (s : State K V) : Prop :=
  s.queue ≠ [] → reaches maxBatchSize s.queue.length = false

/-! ## Lists of requests -/

section Lists

variable {requests : List (Request K V)} {items : List Nat} {outcome : K → Outcome V} {id : Nat}
  {batches : List (Batch K V)} {b c : Nat} {p q : Batch K V}

/-- The loop answers the requests of the batch and no others. -/
theorem settleAll_get (hnodup : items.Nodup) :
    (settleAll outcome items requests)[id]? =
      if id ∈ items then requests[id]?.map fun r => r.settle (outcome r.key) else requests[id]? := by
  induction items generalizing requests with
  | nil => rfl
  | cons first items ih =>
      obtain ⟨hfirst, hrest⟩ := List.nodup_cons.mp hnodup
      show (settleAll outcome items (requests.modify first _))[id]? = _
      rw [ih hrest]
      by_cases hid : id = first
      · subst hid
        rw [if_neg hfirst, if_pos List.mem_cons_self, List.getElem?_modify_eq]
        rfl
      · have hother : (requests.modify first fun r => r.settle (outcome r.key))[id]? = requests[id]? :=
          List.getElem?_modify_ne _ _ (Ne.symm hid)
        by_cases hmem : id ∈ items
        · rw [if_pos hmem, if_pos (List.mem_cons_of_mem first hmem), hother]
        · rw [if_neg hmem, if_neg (by simp [hid, hmem]), hother]

/-- To settle requests adds none and drops none. -/
theorem settleAll_length : (settleAll outcome items requests).length = requests.length := by
  induction items generalizing requests with
  | nil => rfl
  | cons first items ih =>
      show (settleAll outcome items (requests.modify first _)).length = _
      rw [ih, List.length_modify]

/-- An answer for a promise that was open. -/
theorem settle_answered {r : Request K V} (h : Answered .running r) (value : Outcome V) :
    (r.settle value).outcome = some value ∧ (r.settle value).settlements = 1 := by
  obtain ⟨hopen, hzero⟩ := h
  refine ⟨?_, ?_⟩
  · show r.outcome.or (some value) = some value
    rw [hopen]
    rfl
  · show r.settlements + 1 = 1
    rw [hzero]

/-- A batch that comes back keeps its requests. -/
theorem flatMap_set (hb : batches[b]? = some p) (hitems : q.items = p.items) :
    (batches.set b q).flatMap Batch.items = batches.flatMap Batch.items := by
  obtain ⟨hlt, rfl⟩ := List.getElem?_eq_some_iff.mp hb
  have hmap : (batches.set b q).map Batch.items = batches.map Batch.items := by
    rw [List.map_set, hitems]
    conv_lhs => rw [← List.getElem_map Batch.items (h := by rwa [List.length_map])]
    exact List.set_getElem_self _
  rw [List.flatMap_def, List.flatMap_def, hmap]

/-- Two batches have no request in common. -/
theorem batches_disjoint (hnodup : (batches.flatMap Batch.items).Nodup) (hb : batches[b]? = some p)
    (hc : batches[c]? = some q) (hne : b ≠ c) (hp : id ∈ p.items) : id ∉ q.items := by
  obtain ⟨hltb, rfl⟩ := List.getElem?_eq_some_iff.mp hb
  obtain ⟨hltc, rfl⟩ := List.getElem?_eq_some_iff.mp hc
  rw [List.flatMap_def, List.nodup_flatten] at hnodup
  have hpairs := List.pairwise_iff_getElem.mp hnodup.2
  obtain hbc | hbc := Nat.lt_or_gt_of_ne hne
  · have hdisjoint := hpairs b c (by rwa [List.length_map]) (by rwa [List.length_map]) hbc
    rw [List.getElem_map, List.getElem_map] at hdisjoint
    exact fun hq => hdisjoint hp hq
  · have hdisjoint := hpairs c b (by rwa [List.length_map]) (by rwa [List.length_map]) hbc
    rw [List.getElem_map, List.getElem_map] at hdisjoint
    exact fun hq => hdisjoint hq hp

end Lists

/-! ## What each step leaves -/

section Steps

variable {maxBatchSize : Number} {s : State K V}

/-- A batch that would not have been sent without its last key is not too large. -/
theorem length_le_largest {n most : Nat} (hmost : most ∈ largest maxBatchSize)
    (h : n = 0 ∨ reaches maxBatchSize n = false) : n + 1 ≤ most := by
  obtain rfl | hshort := h
  · cases maxBatchSize with
    | nan => exact nomatch hmost
    | infinity => exact nomatch hmost
    | negInfinity =>
        obtain rfl := Option.some.inj hmost
        exact le_refl 1
    | finite size =>
        obtain rfl := Option.some.inj hmost
        exact le_max_left 1 _
  · cases maxBatchSize with
    | nan => exact nomatch hmost
    | infinity => exact nomatch hmost
    | negInfinity => exact nomatch hshort
    | finite size =>
        obtain rfl := Option.some.inj hmost
        have hlt : (n : ℚ) < size := not_le.mp (of_decide_eq_false hshort)
        exact (Nat.lt_ceil.mpr hlt).trans_le (le_max_right 1 _)

/-- An empty queue is not sent: only the timer is cleared. -/
theorem flush_nil (h : s.queue = []) : s.flush = { s with timer := false } := by
  obtain ⟨requests, queue, timer, batches⟩ := s
  obtain rfl : queue = [] := h
  rfl

/-- Any other is one batch. -/
theorem flush_cons (h : s.queue ≠ []) :
    s.flush = { s with timer := false, queue := [], batches := s.batches ++ [⟨s.queue, .running⟩] } := by
  obtain ⟨requests, queue, timer, batches⟩ := s
  cases queue with
  | nil => exact absurd rfl h
  | cons first rest => rfl

/-- A flush moves the queue to a batch of its own. -/
theorem flush_once (h : (s.queue ++ s.sent).Perm (List.range s.requests.length)) (hq : s.queue ≠ []) :
    Placed s.flush := by
  rw [flush_cons hq]
  refine ⟨?_, ?_⟩
  · show ([] ++ (s.batches ++ [(⟨s.queue, .running⟩ : Batch K V)]).flatMap Batch.items).Perm _
    rw [List.nil_append, List.flatMap_append, List.flatMap_singleton]
    exact List.perm_append_comm.trans h
  · exact iff_of_false (fun hne => hne rfl) Bool.false_ne_true

/-- What a flush sends is not settled yet. -/
theorem flush_settled (h : Settled s) (hq : s.queue ≠ []) : Settled s.flush := by
  rw [flush_cons hq]
  refine ⟨fun _ hid => (nomatch hid), fun b batch hb id hid => ?_⟩
  obtain hold | rfl := Pool.mem_concat (List.mem_of_getElem? hb)
  · obtain ⟨c, hc⟩ := List.mem_iff_getElem?.mp hold
    exact h.answered c batch hc id hid
  · exact h.waiting id hid

/-- A batch is as long as the queue it was made of. -/
theorem flush_sized (h : Sized maxBatchSize s) (hq : s.queue ≠ [])
    (hsize : ∀ most ∈ largest maxBatchSize, s.queue.length ≤ most) : Sized maxBatchSize s.flush := by
  rw [flush_cons hq]
  intro batch hbatch
  obtain hold | rfl := Pool.mem_concat hbatch
  · exact h batch hold
  · exact ⟨hq, hsize⟩

/-- The queue with one request more. -/
def State.push (key : K) (s : State K V) : State K V :=
  { s with requests := s.requests ++ [⟨key, none, 0⟩], queue := s.queue ++ [s.requests.length] }

/-- A new request is in the queue, once. -/
theorem push_once (h : Placed s) (key : K) :
    ((s.push key).queue ++ (s.push key).sent).Perm (List.range (s.push key).requests.length) := by
  show (s.queue ++ [s.requests.length] ++ s.sent).Perm (List.range (s.requests ++ [_]).length)
  rw [List.length_append, List.length_singleton, List.range_succ, List.append_assoc]
  refine (List.Perm.append_left s.queue List.perm_append_comm).trans ?_
  rw [← List.append_assoc]
  exact h.once.append_right _

/-- It is pending there. -/
theorem push_settled (h : Settled s) (key : K) : Settled (s.push key) := by
  have hkeep : ∀ (id : Nat) r, s.requests[id]? = some r →
      (s.requests ++ [⟨key, none, 0⟩])[id]? = some r := by
    intro id r hr
    obtain ⟨hlt, -⟩ := List.getElem?_eq_some_iff.mp hr
    rw [List.getElem?_append_left hlt]
    exact hr
  refine ⟨fun id hid => ?_, fun b batch hb id hid => ?_⟩
  · obtain hold | rfl := Pool.mem_concat hid
    · obtain ⟨r, hr, hopen⟩ := h.waiting id hold
      exact ⟨r, hkeep id r hr, hopen⟩
    · exact ⟨⟨key, none, 0⟩, List.getElem?_concat_length, rfl, rfl⟩
  · obtain ⟨r, hr, hanswered⟩ := h.answered b batch hb id hid
    exact ⟨r, hkeep id r hr, hanswered⟩

/-- What comes back for a batch settles its requests, and no others. -/
theorem reply_settled (outcome : K → Outcome V) (reply : Reply K V) {b : Nat} {items : List Nat}
    {s' : State K V} (hplaced : Placed s) (h : Settled s) (hb : s.batches[b]? = some ⟨items, .running⟩)
    (hreply : ∀ r : Request K V, r.outcome = some (outcome r.key) → r.settlements = 1 → Answered reply r)
    (hqueue : s'.queue = s.queue) (hrequests : s'.requests = settleAll outcome items s.requests)
    (hbatches : s'.batches = s.batches.set b ⟨items, reply⟩) : Settled s' := by
  -- a request is in one batch only, and not in the queue
  have hnodup : (s.queue ++ s.sent).Nodup := hplaced.once.nodup_iff.mpr List.nodup_range
  obtain ⟨-, hsent, hqueued⟩ := List.nodup_append.mp hnodup
  have hitems : items.Nodup := by
    rw [State.sent, List.flatMap_def, List.nodup_flatten] at hsent
    exact hsent.1 items (List.mem_map.mpr ⟨_, List.mem_of_getElem? hb, rfl⟩)
  have hother : ∀ id, id ∉ items → s'.requests[id]? = s.requests[id]? := by
    intro id hid
    rw [hrequests, settleAll_get hitems, if_neg hid]
  -- the requests that wait are not those of the batch that replies
  refine ⟨fun id hid => ?_, fun c batch hc id hid => ?_⟩
  · rw [hqueue] at hid
    have hnot : id ∉ items := fun hmem =>
      hqueued id hid id (List.mem_flatMap.mpr ⟨_, List.mem_of_getElem? hb, hmem⟩) rfl
    rw [hother id hnot]
    exact h.waiting id hid
  · rw [hbatches] at hc
    by_cases hcb : b = c
    · subst hcb
      obtain ⟨hlt, -⟩ := List.getElem?_eq_some_iff.mp hb
      rw [List.getElem?_set_self hlt] at hc
      obtain rfl := Option.some.inj hc
      obtain ⟨r, hr, hopen⟩ := h.answered b _ hb id hid
      obtain ⟨hout, hone⟩ := settle_answered hopen (outcome r.key)
      refine ⟨r.settle (outcome r.key), ?_, hreply _ hout hone⟩
      rw [hrequests, settleAll_get hitems, if_pos hid, hr]
      rfl
    · rw [List.getElem?_set_ne hcb] at hc
      rw [hother id (batches_disjoint hsent hc hb (Ne.symm hcb) hid)]
      exact h.answered c batch hc id hid

/-- A reply settles the requests of its batch, which stay where they were. -/
theorem reply_placed (outcome : K → Outcome V) {reply : Reply K V} {b : Nat} {items : List Nat}
    {s' : State K V} (h : Placed s) (hb : s.batches[b]? = some ⟨items, .running⟩)
    (hqueue : s'.queue = s.queue) (htimer : s'.timer = s.timer)
    (hrequests : s'.requests = settleAll outcome items s.requests)
    (hbatches : s'.batches = s.batches.set b ⟨items, reply⟩) : Placed s' where
  once := by
    rw [State.sent, hbatches, flatMap_set hb (show Batch.items ⟨items, reply⟩ = items from rfl), hqueue, hrequests, settleAll_length]
    exact h.once
  armed := by
    rw [hqueue, htimer]
    exact h.armed

/-- And changes the length of no batch. -/
theorem reply_sized {reply : Reply K V} {b : Nat} {items : List Nat} (h : Sized maxBatchSize s)
    (hb : s.batches[b]? = some ⟨items, .running⟩) {s' : State K V}
    (hbatches : s'.batches = s.batches.set b ⟨items, reply⟩) : Sized maxBatchSize s' := by
  intro batch hbatch
  rw [hbatches] at hbatch
  obtain rfl | hold := Pool.mem_set hbatch
  · obtain ⟨hne, hmost⟩ := h _ (List.mem_of_getElem? hb)
    exact ⟨hne, hmost⟩
  · exact h batch hold

end Steps

/-- What every run keeps. -/
structure Served (maxBatchSize : Number) (s : State K V) : Prop where
  placed : Placed s
  settled : Settled s
  sized : Sized maxBatchSize s
  short : Short maxBatchSize s

section Run

variable {maxBatchSize : Number} {s : State K V}

/-- A request joins the queue, which is sent if it is full. -/
theorem Served.enqueue (h : Served maxBatchSize s) (key : K) :
    Served maxBatchSize (step maxBatchSize (.enqueue key) s) := by
  have hlength : (s.push key).queue.length = s.queue.length + 1 := List.length_append
  have hne : (s.push key).queue ≠ [] := List.append_ne_nil_of_right_ne_nil _ (List.cons_ne_nil _ _)
  show Served maxBatchSize (if reaches maxBatchSize (s.push key).queue.length = true
    then (s.push key).flush else { s.push key with timer := true })
  split
  · next hfull =>
      refine ⟨flush_once (push_once h.placed key) hne, flush_settled (push_settled h.settled key) hne,
        flush_sized h.sized hne fun most hmost => ?_, fun hqueue => ?_⟩
      · -- before this request the queue was not long enough
        rw [hlength]
        refine length_le_largest hmost ?_
        by_cases hq : s.queue = []
        · rw [hq]
          exact Or.inl rfl
        · exact Or.inr (h.short hq)
      · rw [flush_cons hne] at hqueue
        exact absurd rfl hqueue
  · next hshort =>
      have hsettled := push_settled h.settled key
      refine ⟨⟨push_once h.placed key, iff_of_true hne rfl⟩, ⟨hsettled.waiting, hsettled.answered⟩,
        h.sized, fun _ => ?_⟩
      exact Bool.eq_false_iff.mpr hshort

/-- The timer sends what there is. -/
theorem Served.timer (h : Served maxBatchSize s) : Served maxBatchSize (step maxBatchSize .timer s) := by
  rw [step]
  split
  · next htimer =>
      have hne : s.queue ≠ [] := h.placed.armed.mpr htimer
      refine ⟨flush_once h.placed.once hne, flush_settled h.settled hne,
        flush_sized h.sized hne fun most hmost => ?_, fun hqueue => ?_⟩
      · have hle := length_le_largest hmost (Or.inr (h.short hne))
        exact Nat.le_of_succ_le hle
      · rw [flush_cons hne] at hqueue
        exact absurd rfl hqueue
  · exact h

/-- One event keeps every request on its way to an answer. -/
theorem Served.step (x : Event K V) (h : Served maxBatchSize s) :
    Served maxBatchSize (step maxBatchSize x s) := by
  cases x with
  | enqueue key => exact h.enqueue key
  | timer => exact h.timer
  | complete b results =>
      rw [RequestBatcher.step]
      split
      · next items hb =>
          exact ⟨reply_placed (answer results) h.placed hb rfl rfl rfl rfl,
            reply_settled (answer results) (.completed results) h.placed h.settled hb
              (fun _ hout hone => ⟨hout, hone⟩) rfl rfl rfl,
            reply_sized h.sized hb rfl, h.short⟩
      · exact h
  | fail b =>
      rw [RequestBatcher.step]
      split
      · next items hb =>
          exact ⟨reply_placed (fun _ => .failed) h.placed hb rfl rfl rfl rfl,
            reply_settled (fun _ => .failed) .failed h.placed h.settled hb
              (fun _ hout hone => ⟨hout, hone⟩) rfl rfl rfl,
            reply_sized h.sized hb rfl, h.short⟩
      · exact h

/-- Without requests there is nothing to answer. -/
theorem start_served (maxBatchSize : Number) : Served maxBatchSize (start : State K V) where
  placed := ⟨List.Perm.refl _, iff_of_false (fun h => h rfl) Bool.false_ne_true⟩
  settled := ⟨fun _ hid => (nomatch hid), fun _ _ hb => (nomatch hb)⟩
  sized := fun _ hbatch => (nomatch hbatch)
  short := fun h => absurd rfl h

end Run

/-- When the timer fires, all that have waited are in a batch. -/
theorem timer_empties {maxBatchSize : Number} {s : State K V} (h : Placed s) :
    (step maxBatchSize .timer s).queue = [] := by
  rw [step]
  split
  · by_cases hq : s.queue = []
    · rw [flush_nil hq]
      exact hq
    · rw [flush_cons hq]
  · next htimer =>
      by_contra hq
      exact htimer (h.armed.mp hq)

/-- **EACH REQUEST IS ANSWERED ONCE, FOR ITS OWN KEY**: in every state of every run it is in one
    batch or in the queue, which the timer empties; no batch is larger than the limit
    rounded up, or than one; a promise is settled when its batch is back, once, with what
    the result has for its key. -/
theorem every_request_answered (maxBatchSize : Number) (xs : List (Event K V)) :
    Placed (exec (step maxBatchSize) xs start) ∧
      (step maxBatchSize .timer (exec (step maxBatchSize) xs (start : State K V))).queue = [] ∧
      Settled (exec (step maxBatchSize) xs start) ∧ Sized maxBatchSize (exec (step maxBatchSize) xs start) := by
  have hserved : Served maxBatchSize (exec (step maxBatchSize) xs start) :=
    exec_invariant (C := fun _ _ => True) (fun x _ _ h => h.step x) (start_served maxBatchSize)
      (along_true (step maxBatchSize) xs start)
  exact ⟨hserved.placed, timer_empties hserved.placed, hserved.settled, hserved.sized⟩

/-- With a limit of zero every request goes off alone, and one is more than zero. -/
theorem one_above_zero :
    ((exec (step (.finite 0)) [.enqueue "G"] (start : State String Nat)).batches.map
      fun batch => batch.items.length) = [1] := by
  decide +kernel

end RequestBatcher
