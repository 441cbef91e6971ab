import Mathlib
import StellarSave.WebhookProofs

/-! # Retry — the queue of the client and the queue of the backend

    `client/src/webhook_retry.rs` keeps the same queue with `u32` and `u64`
    numbers, whose sums panic or wrap by the build profile.  Both queues are
    compared by what a job says in either language; the idempotency key of the
    backend has no counterpart.  As long as the sums fit both number types the
    two ticks agree, over runs of any length. -/

namespace Retry

open Webhook

-- ── The queue of the client ───────────────────────────────────────────────────

/-- What an overflowing sum does. -/
inductive Profile where
  | dev
  | release
  deriving DecidableEq, Repr

/-- `a + b` of machine integers of a width; a panic is `none`. -/
def sum (p : Profile) (width a b : Nat) : Option Nat :=
  if a + b < 2 ^ width then some (a + b)
  else match p with
    | .dev => none
    | .release => some ((a + b) % 2 ^ width)

def MAX_ATTEMPTS : Nat := 5

def BASE_DELAY_SECS : Nat := 1

def MAX_DELAY_SECS : Nat := 300

/-- A job: `attempts` is a `u32`, `next_attempt_at` a `u64`. -/
structure WebhookJob where
  id : String
  url : String
  payload : String
  attempts : Fin (2 ^ 32)
  next_attempt_at : Fin (2 ^ 64)
  deriving DecidableEq

/-- `saturating_mul` of `u64` numbers. -/
def saturatingMul (a b : Nat) : Nat := min (a * b) (2 ^ 64 - 1)

/-- `1u64 << attempts.min(30)`, then the cap. -/
def backoff_delay (attempts : Nat) : Nat :=
  min (saturatingMul BASE_DELAY_SECS (2 ^ min attempts 30 % 2 ^ 64)) MAX_DELAY_SECS

def record_failure (p : Profile) (job : WebhookJob) (now_secs : Fin (2 ^ 64)) : Option WebhookJob := do
  let attempts ← sum p 32 job.attempts 1
  let next ← sum p 64 now_secs (backoff_delay attempts)
  return { job with attempts := Fin.ofNat (2 ^ 32) attempts, next_attempt_at := Fin.ofNat (2 ^ 64) next }

def is_exhausted (job : WebhookJob) : Bool := decide (MAX_ATTEMPTS ≤ job.attempts.val)

def is_due (job : WebhookJob) (now_secs : Fin (2 ^ 64)) : Bool :=
  decide (job.next_attempt_at.val ≤ now_secs.val)

structure WebhookQueue where
  pending : List WebhookJob
  dead_letter : List WebhookJob
  deriving DecidableEq

/-- The loop of `tick`; a panic is `none`. -/
def tickLoop {σ : Type} (p : Profile) (deliver : σ → WebhookJob → DeliveryResult × σ)
    (now_secs : Fin (2 ^ 64)) : List WebhookJob → σ → List WebhookJob → List WebhookJob →
      Option (WebhookQueue × σ)
  | [], s, dead_letter, remaining => some ({ pending := remaining, dead_letter }, s)
  | job :: todo, s, dead_letter, remaining =>
      if !is_due job now_secs then
        tickLoop p deliver now_secs todo s dead_letter (remaining ++ [job])
      else
        match deliver s job with
        | (.success, s') => tickLoop p deliver now_secs todo s' dead_letter remaining
        | (.failure, s') =>
            match record_failure p job now_secs with
            | none => none
            | some job' =>
                if is_exhausted job' then
                  tickLoop p deliver now_secs todo s' (dead_letter ++ [job']) remaining
                else tickLoop p deliver now_secs todo s' dead_letter (remaining ++ [job'])

/-- `WebhookQueue::tick` at a clock held fixed. -/
def WebhookQueue.tick {σ : Type} (p : Profile) (q : WebhookQueue)
    (deliver : σ → WebhookJob → DeliveryResult × σ) (now_secs : Fin (2 ^ 64)) (s : σ) :
    Option (WebhookQueue × σ) :=
  tickLoop p deliver now_secs q.pending s q.dead_letter []

-- ── One contract ──────────────────────────────────────────────────────────────

/-- What a job says in either language. -/
structure JobView where
  id : String
  url : String
  payload : String
  attempts : Nat
  nextAttemptAt : Nat
  deriving DecidableEq, Repr

def view (job : WebhookJob) : JobView :=
  ⟨job.id, job.url, job.payload, job.attempts, job.next_attempt_at⟩

def viewTs (job : Webhook.WebhookJob) : JobView :=
  ⟨job.id, job.url, job.payload, job.attempts, job.nextAttemptAt⟩

/-- Two queues with the same jobs in the same order. -/
structure Same (q : Webhook.WebhookQueue) (r : WebhookQueue) : Prop where
  pending : q.pending.map viewTs = r.pending.map view
  deadLetter : q.deadLetter.map viewTs = r.dead_letter.map view

/-- A tick of either queue: its clock and its delivery function. -/
structure Round (σ : Type) where
  now : Fin (2 ^ 64)
  deliver : σ → JobView → DeliveryResult × σ

/-- Successive ticks of the backend's queue. -/
def runTs {σ : Type} : List (Round σ) → Webhook.WebhookQueue × σ → Webhook.WebhookQueue × σ
  | [], qs => qs
  | t :: ts, (q, s) => runTs ts (q.tick (fun s job => t.deliver s (viewTs job)) t.now s)

/-- Successive ticks of the client's queue. -/
def run {σ : Type} (p : Profile) : List (Round σ) → WebhookQueue × σ → Option (WebhookQueue × σ)
  | [], rs => some rs
  | t :: ts, (r, s) => (r.tick p (fun s job => t.deliver s (view job)) t.now s).bind (run p ts)

/-- A clock whose sum with the delay after any failure is a `u64` and a number a double
    holds; a failure has counted itself. -/
def Representable (now : Nat) : Prop :=
  ∀ failures, now + computeBackoffDelaySecs (failures + 1) < 2 ^ 64
    ∧ Double.Exact (now + computeBackoffDelaySecs (failures + 1))

/-- A counter that can count one more attempt. -/
def Countable (job : WebhookJob) : Prop := job.attempts.val + 1 < 2 ^ 32

theorem computeBackoffDelaySecs_le (attempts : Nat) : computeBackoffDelaySecs attempts ≤ 300 :=
  Nat.min_le_right _ _

/-- Every clock of the next hundred million years is representable. -/
theorem representable_of_le {now : Nat} (h : now ≤ 2 ^ 53 - 300) : Representable now := by
  intro failures
  have hdelay := computeBackoffDelaySecs_le (failures + 1)
  exact ⟨by omega, Double.exact_of_le (by omega)⟩

theorem backoff_delay_eq (attempts : Nat) :
    backoff_delay attempts = computeBackoffDelaySecs attempts := by
  have hshift : 2 ^ min attempts 30 ≤ 2 ^ 30 :=
    Nat.pow_le_pow_right (by decide) (Nat.min_le_right _ _)
  simp only [backoff_delay, computeBackoffDelaySecs, saturatingMul, BASE_DELAY_SECS,
    Webhook.BASE_DELAY_SECS, MAX_DELAY_SECS, Webhook.MAX_DELAY_SECS, Nat.one_mul]
  rw [Nat.mod_eq_of_lt (by omega)]
  omega

/-- A failure recorded in both languages. -/
theorem record_failure_eq {p : Profile} {job : WebhookJob} {tsJob : Webhook.WebhookJob}
    {now : Fin (2 ^ 64)} (hview : viewTs tsJob = view job) (hjob : Countable job)
    (hnow : Representable now.val) :
    ∃ job', record_failure p job now = some job'
      ∧ viewTs (recordJobFailure tsJob now.val) = view job'
      ∧ job'.attempts.val = job.attempts.val + 1 := by
  -- the sum of the clock and the delay is a number both languages have
  obtain ⟨hsum, hexact⟩ := hnow job.attempts.val
  simp only [viewTs, view, JobView.mk.injEq] at hview
  obtain ⟨hid, hurl, hpayload, hattempts, -⟩ := hview
  have hone : Double.add tsJob.attempts 1 = job.attempts.val + 1 := by
    rw [hattempts]
    refine Double.add_of_le ?_
    rw [Countable] at hjob
    omega
  rw [Countable] at hjob
  -- the wrapped sum is the sum: neither overflows
  refine ⟨{ job with
    attempts := Fin.ofNat (2 ^ 32) (job.attempts.val + 1)
    next_attempt_at := Fin.ofNat (2 ^ 64)
      (now.val + computeBackoffDelaySecs (job.attempts.val + 1)) }, ?_, ?_, ?_⟩
  · simp only [record_failure, sum, backoff_delay_eq, if_pos hjob, if_pos hsum, Option.bind_eq_bind,
      Option.bind_some, Option.pure_def]
  · have hnext : Double.add now.val (computeBackoffDelaySecs (job.attempts.val + 1))
        = now.val + computeBackoffDelaySecs (job.attempts.val + 1) := hexact
    simp only [viewTs, view, recordJobFailure, hone, hnext, hid, hurl, hpayload, Fin.ofNat,
      Nat.mod_eq_of_lt hjob, Nat.mod_eq_of_lt hsum]
  · exact Nat.mod_eq_of_lt hjob

/-- **ONE TICK**: from the same jobs to do, dead letters and jobs that remain, the
    two loops end in the same queue, whose jobs can be counted again. -/
theorem tickLoop_same {σ : Type} {p : Profile} {t : Round σ} (hnow : Representable t.now.val)
    {todo : List Webhook.WebhookJob} {todo' : List WebhookJob} (htodo : todo.map viewTs = todo'.map view)
    (hcount : ∀ job ∈ todo', Countable job) (s : σ) {dead remaining : List Webhook.WebhookJob}
    {dead' remaining' : List WebhookJob} (hdead : dead.map viewTs = dead'.map view)
    (hremaining : remaining.map viewTs = remaining'.map view)
    (hremain : ∀ job ∈ remaining', Countable job) :
    ∃ r s', tickLoop p (fun s job => t.deliver s (view job)) t.now todo' s dead' remaining'
        = some (r, s')
      ∧ (Webhook.tickLoop (fun s job => t.deliver s (viewTs job)) t.now todo s dead remaining).2 = s'
      ∧ Same (Webhook.tickLoop (fun s job => t.deliver s (viewTs job)) t.now todo s dead remaining).1 r
      ∧ ∀ job ∈ r.pending, Countable job := by
  -- one job after the other, in step
  induction todo' generalizing todo s dead remaining dead' remaining' with
  | nil =>
      obtain rfl : todo = [] := by simpa using htodo
      exact ⟨_, s, rfl, rfl, ⟨hremaining, hdead⟩, hremain⟩
  | cons job todo' ih =>
      cases todo with
      | nil => exact absurd htodo (by simp)
      | cons tsJob todo =>
          rw [List.map_cons, List.map_cons, List.cons.injEq] at htodo
          obtain ⟨hview, htodo⟩ := htodo
          have hrest : ∀ job ∈ todo', Countable job :=
            fun j hj => hcount j (List.mem_cons_of_mem job hj)
          have hdue : isJobDue tsJob t.now.val = is_due job t.now := by
            have hnext := congrArg JobView.nextAttemptAt hview
            simp only [viewTs, view] at hnext
            simp only [isJobDue, is_due, hnext]
          rw [tickLoop, Webhook.tickLoop, hdue, hview]
          cases is_due job t.now with
          | false =>
              simp only [Bool.not_false, if_true, Bool.false_eq_true, if_false]
              refine ih htodo hrest s hdead (by simp [hremaining, hview]) ?_
              intro j hj
              obtain hj | hj := List.mem_append.mp hj
              · exact hremain j hj
              · exact hcount j (List.mem_singleton.mp hj ▸ List.mem_cons_self)
          | true =>
              simp only [Bool.not_true, Bool.false_eq_true, if_false, if_true]
              obtain ⟨result, s'⟩ := t.deliver s (view job)
              cases result with
              | success => exact ih htodo hrest s' hdead hremaining hremain
              | failure =>
                  obtain ⟨job', hrecord, hview', hattempts⟩ :=
                    record_failure_eq (p := p) hview (hcount job (List.mem_cons_self)) hnow
                  have hexhausted : isJobExhausted (recordJobFailure tsJob t.now.val)
                      = is_exhausted job' := by
                    have h := congrArg JobView.attempts hview'
                    simp only [viewTs, view] at h
                    simp only [isJobExhausted, is_exhausted, h]
                    rfl
                  simp only [hrecord, afterFailure, hexhausted]
                  cases hex : is_exhausted job' with
                  | true => exact ih htodo hrest s' (by simp [hdead, hview']) hremaining hremain
                  | false =>
                      refine ih htodo hrest s' hdead (by simp [hremaining, hview']) ?_
                      intro j hj
                      obtain hj | hj := List.mem_append.mp hj
                      · exact hremain j hj
                      · rw [List.mem_singleton.mp hj, Countable]
                        rw [is_exhausted, decide_eq_false_iff_not, MAX_ATTEMPTS] at hex
                        omega

/-- **ONE CONTRACT**: from queues with the same jobs, whose counters can count
    one more attempt, any number of ticks at representable clocks leave the same
    pending list, the same dead letters and the same state of `deliver`. -/
theorem run_same {σ : Type} {p : Profile} {ts : List (Round σ)} {q : Webhook.WebhookQueue}
    {r : WebhookQueue} (s : σ) (hsame : Same q r) (hcount : ∀ job ∈ r.pending, Countable job)
    (hnow : ∀ t ∈ ts, Representable t.now.val) :
    ∃ r' s', run p ts (r, s) = some (r', s') ∧ (runTs ts (q, s)).2 = s'
      ∧ Same (runTs ts (q, s)).1 r' := by
  induction ts generalizing q r s with
  | nil => exact ⟨r, s, rfl, rfl, hsame⟩
  | cons t ts ih =>
      obtain ⟨r', s', htick, hstate, hsame', hcount'⟩ :=
        @tickLoop_same σ p t (hnow t (List.mem_cons_self)) _ _ hsame.pending hcount s _ [] _ []
          hsame.deadLetter rfl (by simp)
      have hts : q.tick (fun s job => t.deliver s (viewTs job)) t.now s
          = ((Webhook.tickLoop (fun s job => t.deliver s (viewTs job)) t.now q.pending s q.deadLetter
              []).1, s') := by
        rw [← hstate]
        rfl
      simp only [run, runTs, WebhookQueue.tick, htick, hts, Option.bind_some]
      exact ih s' hsame' hcount' fun u hu => hnow u (List.mem_cons_of_mem t hu)

/-- A job of either queue. -/
def job (attempts : Fin (2 ^ 32)) : WebhookJob :=
  { id := "a", url := "https://example.com/hook", payload := "{}", attempts, next_attempt_at := 0 }

def tsJob (attempts : Fin (2 ^ 32)) : Webhook.WebhookJob :=
  { id := "a", url := "https://example.com/hook", payload := "{}", attempts := attempts.val,
    nextAttemptAt := 0, idempotencyKey := "whk_a" }

theorem same_job (attempts : Fin (2 ^ 32)) :
    Same { pending := [tsJob attempts], deadLetter := [] }
      { pending := [job attempts], dead_letter := [] } := ⟨rfl, rfl⟩

/-- A tick in which every delivery fails. -/
def failing (now : Fin (2 ^ 64)) : Round Unit := ⟨now, fun s _ => (.failure, s)⟩

/-- Two failing ticks from a new job. -/
theorem run_same_twice :
    ∃ r' s', run .dev [failing 1700000000, failing 1700000002]
        ({ pending := [job 0], dead_letter := [] }, ()) = some (r', s')
      ∧ (runTs [failing 1700000000, failing 1700000002]
          ({ pending := [tsJob 0], deadLetter := [] }, ())).2 = s'
      ∧ Same (runTs [failing 1700000000, failing 1700000002]
          ({ pending := [tsJob 0], deadLetter := [] }, ())).1 r' := by
  refine run_same () (same_job 0) ?_ ?_
  · intro j hj
    rw [List.mem_singleton.mp hj]
    exact show 0 + 1 < 2 ^ 32 by decide
  · intro t ht
    simp only [List.mem_cons, List.not_mem_nil, or_false] at ht
    obtain rfl | rfl := ht
    · exact representable_of_le (by decide)
    · exact representable_of_le (by decide)

/-- **WHERE THEY PART**: a job whose `u32` counter is at its maximum, under either
    profile, and a job that fails at the clock 2^54. -/
theorem queues_part :
    (∀ p, ¬ ∃ r' s', run p [failing 0] ({ pending := [job 4294967295], dead_letter := [] }, ())
        = some (r', s')
      ∧ Same (runTs [failing 0] ({ pending := [tsJob 4294967295], deadLetter := [] }, ())).1 r')
      ∧ ∀ p, ¬ ∃ r' s', run p [failing 18014398509481984]
            ({ pending := [job 0], dead_letter := [] }, ()) = some (r', s')
          ∧ Same (runTs [failing 18014398509481984]
              ({ pending := [tsJob 0], deadLetter := [] }, ())).1 r' := by
  -- the count at its limit panics in one profile and wraps in the other
  refine ⟨?_, ?_⟩
  · rintro p ⟨r', s', hrun, hsame⟩
    cases p with
    | dev =>
        have hpanic : run .dev [failing 0] ({ pending := [job 4294967295], dead_letter := [] }, ())
          = none := by decide
        rw [hpanic] at hrun
        exact absurd hrun (by simp)
    | release =>
        obtain ⟨rfl, -⟩ := Prod.mk.inj (Option.some.inj hrun)
        exact absurd hsame.pending (by decide +kernel)
  -- a clock past the doubles' integers is rounded in one language only
  · rintro p ⟨r', s', hrun, hsame⟩
    cases p with
    | dev =>
        obtain ⟨rfl, -⟩ := Prod.mk.inj (Option.some.inj hrun)
        exact absurd hsame.pending (by decide +kernel)
    | release =>
        obtain ⟨rfl, -⟩ := Prod.mk.inj (Option.some.inj hrun)
        exact absurd hsame.pending (by decide +kernel)

end Retry
