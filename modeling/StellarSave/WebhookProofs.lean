import Mathlib.Data.List.Perm.Basic
import StellarSave.DoubleProofs
import StellarSave.PoolProofs
import StellarSave.TraceProofs

/-! # Webhook — the retry queue and its interleavings

    `WebhookQueue.tick` takes the pending list, empties it, awaits `deliver`
    for each job that is due and at its end puts the jobs that remain back by
    assigning the list.  Between an await and its answer other calls run: an
    `enqueue`, a second tick, and the answer may be an exception.  A job is
    known by its `id`; different objects are enqueued, and `deliver` leaves them
    alone.  What is lost is exactly what the assignment overwrites and what an
    exception drops. -/

namespace Webhook

open Trace Pool

-- ── The queue ─────────────────────────────────────────────────────────────────

def MAX_ATTEMPTS : Nat := 5

def BASE_DELAY_SECS : Nat := 1

def MAX_DELAY_SECS : Nat := 300

structure WebhookJob where
  id : String
  url : String
  payload : String
  attempts : Nat
  nextAttemptAt : Nat
  idempotencyKey : String
  deriving DecidableEq, Repr

inductive DeliveryResult where
  | success
  | failure
  deriving DecidableEq, Repr

def computeBackoffDelaySecs (attempts : Nat) : Nat :=
  min (BASE_DELAY_SECS * 2 ^ min attempts 30) MAX_DELAY_SECS

def recordJobFailure (job : WebhookJob) (nowSecs : Nat) : WebhookJob :=
  let attempts := Double.add job.attempts 1
  { job with attempts, nextAttemptAt := Double.add nowSecs (computeBackoffDelaySecs attempts) }

@[simp] theorem recordJobFailure_id (job : WebhookJob) (nowSecs : Nat) :
    (recordJobFailure job nowSecs).id = job.id := rfl

@[simp] theorem recordJobFailure_attempts (job : WebhookJob) (nowSecs : Nat) :
    (recordJobFailure job nowSecs).attempts = Double.add job.attempts 1 := rfl

def isJobExhausted (job : WebhookJob) : Bool := decide (MAX_ATTEMPTS ≤ job.attempts)

def isJobDue (job : WebhookJob) (nowSecs : Nat) : Bool := decide (job.nextAttemptAt ≤ nowSecs)

structure WebhookQueue where
  pending : List WebhookJob
  deadLetter : List WebhookJob
  deriving DecidableEq, Repr

def WebhookQueue.enqueue (q : WebhookQueue) (job : WebhookJob) : WebhookQueue :=
  { q with pending := q.pending ++ [job] }

/-- What a failed delivery does to the job: the DLQ or the jobs that remain. -/
def afterFailure (job : WebhookJob) (nowSecs : Nat) (deadLetter remaining : List WebhookJob) :
    List WebhookJob × List WebhookJob :=
  let job := recordJobFailure job nowSecs
  if isJobExhausted job then (deadLetter ++ [job], remaining) else (deadLetter, remaining ++ [job])

/-- The loop of `tick` with nothing else running: the queue's dead letters, the
    jobs that remain and the state of `deliver`. -/
def tickLoop {σ : Type} (deliver : σ → WebhookJob → DeliveryResult × σ) (nowSecs : Nat) :
    List WebhookJob → σ → List WebhookJob → List WebhookJob → WebhookQueue × σ
  | [], s, deadLetter, remaining => ({ pending := remaining, deadLetter }, s)
  | job :: todo, s, deadLetter, remaining =>
      if isJobDue job nowSecs then
        match deliver s job with
        | (.success, s') => tickLoop deliver nowSecs todo s' deadLetter remaining
        | (.failure, s') =>
            let (deadLetter, remaining) := afterFailure job nowSecs deadLetter remaining
            tickLoop deliver nowSecs todo s' deadLetter remaining
      else tickLoop deliver nowSecs todo s deadLetter (remaining ++ [job])

/-- `WebhookQueue.tick` with nothing else running. -/
def WebhookQueue.tick {σ : Type} (q : WebhookQueue) (deliver : σ → WebhookJob → DeliveryResult × σ)
    (nowSecs : Nat) (s : σ) : WebhookQueue × σ :=
  tickLoop deliver nowSecs q.pending s q.deadLetter []

-- ── Ticks in flight ───────────────────────────────────────────────────────────

/-- A call of `tick` that awaits the delivery of a job. -/
structure Tick where
  nowSecs : Nat
  job : WebhookJob
  todo : List WebhookJob
  remaining : List WebhookJob
  deriving DecidableEq, Repr

/-- How a call of `tick` goes on: to the next job due, or to its end. -/
inductive Progress where
  | awaits (t : Tick)
  | ends (remaining : List WebhookJob)

/-- The loop of `tick` from one await to the next. -/
def advance (nowSecs : Nat) : List WebhookJob → List WebhookJob → Progress
  | [], remaining => .ends remaining
  | job :: todo, remaining =>
      if isJobDue job nowSecs then .awaits { nowSecs, job, todo, remaining }
      else advance nowSecs todo (remaining ++ [job])

/-- How `deliver` settles. -/
inductive Settled where
  | result (r : DeliveryResult)
  | throws
  deriving DecidableEq, Repr

/-- The queue with the calls in flight, and the record kept of every job
    enqueued, handed to `deliver`, delivered and lost. -/
structure World where
  queue : WebhookQueue
  ticks : List Tick
  enqueued : List WebhookJob
  attempted : List String
  delivered : List WebhookJob
  lost : List WebhookJob

def start : World :=
  { queue := { pending := [], deadLetter := [] }, ticks := [], enqueued := [], attempted := [],
    delivered := [], lost := [] }

/-- One step between awaits. -/
inductive Event where
  | enqueue (job : WebhookJob)
  | tick (nowSecs : Nat)
  | settle (k : Nat) (s : Settled)
  deriving DecidableEq, Repr

/-- `this.pending = remaining`, or the next call of `deliver`. -/
def World.goOn (w : World) : Progress → World
  | .awaits t => { w with ticks := w.ticks ++ [t], attempted := w.attempted ++ [t.job.id] }
  | .ends remaining =>
      { w with queue := { w.queue with pending := remaining }, lost := w.lost ++ w.queue.pending }

def step : Event → World → World
  | .enqueue job, w => { w with queue := w.queue.enqueue job, enqueued := w.enqueued ++ [job] }
  | .tick nowSecs, w =>
      let w' := { w with queue := { w.queue with pending := [] } }
      w'.goOn (advance nowSecs w.queue.pending [])
  | .settle k s, w =>
      match w.ticks[k]? with
      | none => w
      | some t =>
          let w' := { w with ticks := w.ticks.eraseIdx k }
          match s with
          | .throws => { w' with lost := w.lost ++ t.job :: (t.remaining ++ t.todo) }
          | .result .success =>
              { w' with delivered := w.delivered ++ [t.job] }.goOn (advance t.nowSecs t.todo t.remaining)
          | .result .failure =>
              let (deadLetter, remaining) := afterFailure t.job t.nowSecs w.queue.deadLetter t.remaining
              { w' with queue := { w.queue with deadLetter } }.goOn (advance t.nowSecs t.todo remaining)

/-- The answers of `deliver` over a tick, as the only call in flight gets them. -/
def answers {σ : Type} (deliver : σ → WebhookJob → DeliveryResult × σ) (nowSecs : Nat) :
    List WebhookJob → σ → List Event
  | [], _ => []
  | job :: todo, s =>
      if isJobDue job nowSecs then
        .settle 0 (.result (deliver s job).1) :: answers deliver nowSecs todo (deliver s job).2
      else answers deliver nowSecs todo s

/-- A call alone in flight runs as the loop does. -/
theorem exec_answers {σ : Type} (deliver : σ → WebhookJob → DeliveryResult × σ) (nowSecs : Nat)
    (todo : List WebhookJob) (s : σ) (w : World) (remaining : List WebhookJob) (hw : w.ticks = []) :
    (exec step (answers deliver nowSecs todo s) (w.goOn (advance nowSecs todo remaining))).queue
      = (tickLoop deliver nowSecs todo s w.queue.deadLetter remaining).1 := by
  induction todo generalizing s w remaining with
  | nil => rfl
  | cons job todo ih =>
      rw [answers, advance, tickLoop]
      split
      · next hdue =>
          obtain ⟨r, s'⟩ := deliver s job
          simp only [exec_cons, World.goOn, hw, List.nil_append, step, List.getElem?_cons_zero,
            List.eraseIdx_cons_zero]
          cases r with
          -- a delivery that worked leaves the queue
          | success =>
              have h := ih s' { w with ticks := [], attempted := w.attempted ++ [job.id],
                                       delivered := w.delivered ++ [job] } remaining rfl
              exact h
          -- one that failed goes back, or to the dead letters
          | failure =>
              have h := ih s' { w with ticks := [], attempted := w.attempted ++ [job.id],
                                       queue := { w.queue with deadLetter :=
                (afterFailure job nowSecs w.queue.deadLetter remaining).1 } }
                (afterFailure job nowSecs w.queue.deadLetter remaining).2 rfl
              exact h
      · exact ih s w (remaining ++ [job]) hw

/-- **A TICK ALONE**: started with no call in flight and settled without a call
    in between, it leaves the queue `tick` computes. -/
theorem exec_tick {σ : Type} (deliver : σ → WebhookJob → DeliveryResult × σ) (nowSecs : Nat) (s : σ)
    (w : World) (hw : w.ticks = []) :
    (exec step (.tick nowSecs :: answers deliver nowSecs w.queue.pending s) w).queue
      = (w.queue.tick deliver nowSecs s).1 :=
  exec_answers deliver nowSecs w.queue.pending s { w with queue := { w.queue with pending := [] } } [] hw

/-- A settled delivery that loses nothing: no exception, and a tick that comes
    to its end finds the pending list empty. -/
def Keeps : Event → World → Prop
  | .settle k s, w => ∀ t, w.ticks[k]? = some t →
      s ≠ .throws ∧ ((∀ job ∈ t.todo, isJobDue job t.nowSecs = false) → w.queue.pending = [])
  | _, _ => True

-- ── Sums over the jobs of a world ─────────────────────────────────────────────

/-- The jobs a tick holds. -/
def Tick.load (f : WebhookJob → Nat) (t : Tick) : Nat :=
  f t.job + total f t.remaining + total f t.todo

/-- The jobs a call holds where it goes on. -/
def Progress.load (f : WebhookJob → Nat) : Progress → Nat
  | .awaits t => t.load f
  | .ends remaining => total f remaining

/-- **THE LOOP KEEPS ITS JOBS**: up to its next await, and to its end. -/
theorem advance_load (f : WebhookJob → Nat) (nowSecs : Nat) (todo remaining : List WebhookJob) :
    (advance nowSecs todo remaining).load f = total f remaining + total f todo := by
  induction todo generalizing remaining with
  | nil => rfl
  | cons job todo ih =>
      rw [advance]
      split
      · simp only [Progress.load, Tick.load, total_cons]
        omega
      · rw [ih, total_append, total_cons, total_cons, total_nil]
        omega

/-- The loop ends at once exactly when no job is due. -/
theorem advance_ends_iff (nowSecs : Nat) (todo remaining : List WebhookJob) :
    (∃ rest, advance nowSecs todo remaining = .ends rest)
      ↔ ∀ job ∈ todo, isJobDue job nowSecs = false := by
  induction todo generalizing remaining with
  | nil => simp [advance]
  | cons job todo ih =>
      rw [advance]
      split
      · next hdue => simp [hdue]
      · next hdue => simp [ih, hdue]

-- ── Nothing is lost, nothing is doubled ───────────────────────────────────────

/-- All the jobs a world knows of, wherever they are. -/
def World.holding (f : WebhookJob → Nat) (w : World) : Nat :=
  total f w.delivered + total f w.queue.pending + total f w.queue.deadLetter
    + total (Tick.load f) w.ticks + total f w.lost

theorem goOn_total (f : WebhookJob → Nat) (w : World) (p : Progress) :
    (w.goOn p).holding f = w.holding f + p.load f := by
  cases p with
  | awaits t =>
      simp only [World.goOn, World.holding, Progress.load, total_append, total_cons, total_nil]
      omega
  | ends rest =>
      simp only [World.goOn, World.holding, Progress.load, total_append]
      omega

theorem afterFailure_sum {f : WebhookJob → Nat} (job : WebhookJob) (nowSecs : Nat)
    (deadLetter remaining : List WebhookJob) :
    total f (afterFailure job nowSecs deadLetter remaining).1
        + total f (afterFailure job nowSecs deadLetter remaining).2
      = total f deadLetter + total f remaining + f (recordJobFailure job nowSecs) := by
  simp only [afterFailure]
  split
  · simp only [total_append, total_cons, total_nil]
    omega
  · simp only [total_append, total_cons, total_nil]
    omega

/-- What a step brings in. -/
def Event.entering : Event → List WebhookJob
  | .enqueue job => [job]
  | _ => []

/-- **CONSERVATION, ONE STEP**: a step moves jobs and brings in those enqueued. -/
theorem step_total {f : WebhookJob → Nat} (hf : ∀ job now, f (recordJobFailure job now) = f job)
    (e : Event) (w : World) : (step e w).holding f = w.holding f + total f e.entering := by
  cases e with
  | enqueue job =>
      simp only [step, Event.entering, World.holding, WebhookQueue.enqueue, total_append, total_cons,
        total_nil]
      omega
  | tick nowSecs =>
      simp only [step]
      rw [goOn_total, advance_load]
      simp only [Event.entering, World.holding, total_nil]
      omega
  | settle k s =>
      simp only [step, Event.entering, total_nil, Nat.add_zero]
      cases ht : w.ticks[k]? with
      | none => rfl
      | some t =>
          have hload := total_eraseIdx (Tick.load f) ht
          have htick : t.load f = f t.job + total f t.remaining + total f t.todo := rfl
          cases s with
          -- a delivery that throws ends the pass, with what it still held
          | throws =>
              simp only [World.holding, total_append, total_cons]
              omega
          | result r =>
              cases r with
              | success =>
                  rw [goOn_total, advance_load]
                  simp only [World.holding, total_append, total_cons, total_nil]
                  omega
              | failure =>
                  have hfail := afterFailure_sum (f := f) t.job t.nowSecs w.queue.deadLetter t.remaining
                  rw [hf] at hfail
                  rw [goOn_total, advance_load]
                  simp only [World.holding]
                  omega

theorem step_enqueued (e : Event) (w : World) : (step e w).enqueued = w.enqueued ++ e.entering := by
  have hgo : ∀ (w : World) (p : Progress), (w.goOn p).enqueued = w.enqueued := by
    intro w p
    cases p <;> rfl
  cases e with
  | enqueue job => rfl
  | tick nowSecs => simp [step, hgo, Event.entering]
  | settle k s =>
      simp only [step, Event.entering, List.append_nil]
      cases w.ticks[k]? with
      | none => rfl
      | some t =>
          cases s with
          | throws => rfl
          | result r => cases r <;> simp only [hgo]

/-- **CONSERVATION**: in every run, every job enqueued is in one place. -/
theorem run_total {f : WebhookJob → Nat} (hf : ∀ job now, f (recordJobFailure job now) = f job)
    (es : List Event) :
    (exec step es start).holding f = total f (exec step es start).enqueued := by
  refine exec_invariant_always (I := fun w : World => w.holding f = total f w.enqueued) ?_ rfl es
  intro e w h
  rw [step_total hf, step_enqueued, total_append, h]

-- ── No job is attempted too often ─────────────────────────────────────────────

/-- The attempts a job waiting in a list still has. -/
def worth (x : String) (job : WebhookJob) : Nat :=
  if job.id = x then max 1 (MAX_ATTEMPTS - job.attempts) else 0

/-- The attempts left to a job after the one under way. -/
def left (x : String) (job : WebhookJob) : Nat :=
  if job.id = x then MAX_ATTEMPTS - job.attempts - 1 else 0

theorem worth_eq (x : String) (job : WebhookJob) :
    worth x job = left x job + [job.id].count x := by
  simp only [worth, left, List.count_singleton, beq_iff_eq, MAX_ATTEMPTS]
  split <;> omega

theorem worth_le (x : String) (job : WebhookJob) :
    worth x job ≤ MAX_ATTEMPTS * [job.id].count x := by
  simp only [worth, List.count_singleton, beq_iff_eq, MAX_ATTEMPTS]
  split <;> omega

/-- The attempts made and those left, for one id. -/
def World.credit (x : String) (w : World) : Nat :=
  w.attempted.count x + total (worth x) w.queue.pending
    + total (fun t : Tick => left x t.job + total (worth x) t.remaining + total (worth x) t.todo) w.ticks

theorem goOn_credit (x : String) (w : World) (p : Progress) :
    (w.goOn p).credit x ≤ w.credit x + p.load (worth x) := by
  cases p with
  | awaits t =>
      simp only [World.goOn, World.credit, Progress.load, Tick.load, total_append, total_cons, total_nil, List.count_append,
        worth_eq x t.job]
      omega
  | ends rest =>
      simp only [World.goOn, World.credit, Progress.load]
      omega

/-- A job at or past the limit is past it after one more failure. -/
theorem exhausted_of_le {job : WebhookJob} {now : Nat} (h : MAX_ATTEMPTS ≤ job.attempts + 1) :
    isJobExhausted (recordJobFailure job now) = true := by
  rw [isJobExhausted, decide_eq_true_eq, recordJobFailure_attempts]
  by_cases hsmall : job.attempts + 1 ≤ 2 ^ 53
  · rw [Double.add_of_le hsmall]
    exact h
  · have hround : job.attempts + 1 ≤ 2 * Double.add job.attempts 1 := Double.le_two_mul_round _
    rw [MAX_ATTEMPTS]
    omega

/-- A failure leaves a job that remains one attempt less. -/
theorem afterFailure_worth (x : String) (job : WebhookJob) (now : Nat)
    (deadLetter remaining : List WebhookJob) :
    total (worth x) (afterFailure job now deadLetter remaining).2
      ≤ total (worth x) remaining + left x job := by
  simp only [afterFailure]
  split
  · exact Nat.le_add_right _ _
  · next h =>
      have hlt : job.attempts + 1 < MAX_ATTEMPTS := by
        by_contra hge
        exact h (exhausted_of_le (by omega))
      have hadd : Double.add job.attempts 1 = job.attempts + 1 := by
        refine Double.add_of_le ?_
        rw [MAX_ATTEMPTS] at hlt
        omega
      simp only [total_append, total_cons, total_nil, worth, left, recordJobFailure, hadd]
      split <;> omega

/-- **ATTEMPTS, ONE STEP**: a step spends attempts and brings in those of the
    jobs enqueued. -/
theorem step_credit (x : String) (e : Event) (w : World) :
    (step e w).credit x ≤ w.credit x + MAX_ATTEMPTS * (e.entering.map (·.id)).count x := by
  cases e with
  -- the credit of a job is what it has left of its attempts
  | enqueue job =>
      have h := worth_le x job
      simp only [step, Event.entering, World.credit, WebhookQueue.enqueue, total_append, total_cons,
        total_nil, List.map_cons, List.map_nil]
      omega
  | tick nowSecs =>
      simp only [step]
      refine Nat.le_trans (goOn_credit x _ _) ?_
      rw [advance_load]
      simp only [Event.entering, World.credit, total_nil, List.map_nil, List.count_nil]
      omega
  | settle k s =>
      simp only [step, Event.entering, List.map_nil, List.count_nil, Nat.mul_zero, Nat.add_zero]
      cases ht : w.ticks[k]? with
      | none => exact Nat.le_refl _
      | some t =>
          have hload := total_eraseIdx
            (fun t : Tick => left x t.job + total (worth x) t.remaining + total (worth x) t.todo) ht
          cases s with
          | throws =>
              simp only [World.credit]
              omega
          | result r =>
              cases r with
              -- a failure costs one attempt
              | success =>
                  refine Nat.le_trans (goOn_credit x _ _) ?_
                  rw [advance_load]
                  simp only [World.credit]
                  omega
              | failure =>
                  have hfail := afterFailure_worth x t.job t.nowSecs w.queue.deadLetter t.remaining
                  refine Nat.le_trans (goOn_credit x _ _) ?_
                  rw [advance_load]
                  simp only [World.credit]
                  omega

/-- **FIVE ATTEMPTS**: in every run, the jobs of an id are handed to `deliver` at
    most `MAX_ATTEMPTS` times each. -/
theorem run_attempts (x : String) (es : List Event) :
    (exec step es start).attempted.count x
      ≤ MAX_ATTEMPTS * ((exec step es start).enqueued.map (·.id)).count x := by
  have hcredit := @exec_invariant_always _ _ step
    (fun w : World => w.credit x ≤ MAX_ATTEMPTS * (w.enqueued.map (·.id)).count x) ?_ start
    (Nat.le_refl 0) es
  · simp only [World.credit] at hcredit
    omega
  · intro e w h
    have hstep := step_credit x e w
    rw [step_enqueued, List.map_append, List.count_append, Nat.mul_add]
    omega

-- ── What is lost ──────────────────────────────────────────────────────────────

/-- **WHAT A STEP LOSES**: nothing, exactly when it keeps. -/
theorem step_lost (e : Event) (w : World) :
    ∃ gone, (step e w).lost = w.lost ++ gone ∧ (gone = [] ↔ Keeps e w) := by
  -- a pass ends with nothing lost, or awaits its next delivery
  have hgo : ∀ (w : World) (now : Nat) (todo remaining : List WebhookJob),
      ∃ gone, (w.goOn (advance now todo remaining)).lost = w.lost ++ gone
        ∧ (gone = [] ↔ ((∀ job ∈ todo, isJobDue job now = false) → w.queue.pending = [])) := by
    intro w now todo remaining
    have hends := advance_ends_iff now todo remaining
    cases hp : advance now todo remaining with
    | awaits t =>
        refine ⟨[], by simp [World.goOn], fun _ hall => ?_, fun _ => rfl⟩
        obtain ⟨rest, hrest⟩ := hends.mpr hall
        rw [hp] at hrest
        exact absurd hrest (by simp)
    | ends rest =>
        exact ⟨w.queue.pending, rfl, fun h _ => h, fun h => h (hends.mp ⟨rest, hp⟩)⟩
  cases e with
  | enqueue job => exact ⟨[], by simp [step], fun _ => trivial, fun _ => rfl⟩
  | tick nowSecs =>
      obtain ⟨gone, hlost, hiff⟩ := hgo { w with queue := { w.queue with pending := [] } } nowSecs
        w.queue.pending []
      exact ⟨gone, hlost, fun _ => trivial, fun _ => hiff.mpr fun _ => rfl⟩
  | settle k s =>
      simp only [step, Keeps]
      cases w.ticks[k]? with
      | none => exact ⟨[], by simp, fun _ t ht => absurd ht (by simp), fun _ => rfl⟩
      | some t =>
          cases s with
          | throws =>
              refine ⟨_, rfl, fun h => absurd h (by simp), fun h => absurd rfl (h t rfl).1⟩
          | result r =>
              cases r with
              | success =>
                  obtain ⟨gone, hlost, hiff⟩ := hgo
                    { w with ticks := w.ticks.eraseIdx k, delivered := w.delivered ++ [t.job] }
                    t.nowSecs t.todo t.remaining
                  refine ⟨gone, hlost, fun h u hu => ?_, fun h => hiff.mpr (h t rfl).2⟩
                  obtain rfl := Option.some.inj hu
                  exact ⟨by simp, hiff.mp h⟩
              | failure =>
                  obtain ⟨gone, hlost, hiff⟩ := hgo
                    { w with ticks := w.ticks.eraseIdx k, queue := { w.queue with deadLetter :=
                        (afterFailure t.job t.nowSecs w.queue.deadLetter t.remaining).1 } }
                    t.nowSecs t.todo
                    (afterFailure t.job t.nowSecs w.queue.deadLetter t.remaining).2
                  refine ⟨gone, hlost, fun h u hu => ?_, fun h => hiff.mpr (h t rfl).2⟩
                  obtain rfl := Option.some.inj hu
                  exact ⟨by simp, hiff.mp h⟩

/-- Nothing is lost along a run exactly when every step of it keeps. -/
theorem run_lost_iff (es : List Event) (w : World) (hw : w.lost = []) :
    (exec step es w).lost = [] ↔ Along step Keeps es w := by
  induction es generalizing w with
  | nil => simp [hw]
  | cons e es ih =>
      rw [exec_cons, along_cons]
      obtain ⟨gone, hlost, hiff⟩ := step_lost e w
      rw [hw, List.nil_append] at hlost
      by_cases hgone : gone = []
      · rw [ih (step e w) (hlost.trans hgone)]
        exact ⟨fun h => ⟨hiff.mp hgone, h⟩, fun h => h.2⟩
      · refine ⟨fun h => absurd h ?_, fun h => absurd (hiff.mpr h.1) hgone⟩
        have hmore : ∀ (es : List Event) (w : World), w.lost ≠ [] → (exec step es w).lost ≠ [] := by
          intro es
          induction es with
          | nil => exact fun w h => h
          | cons e es ih =>
              intro w h
              obtain ⟨gone, hlost, -⟩ := step_lost e w
              refine ih (step e w) ?_
              rw [hlost]
              exact fun hnil => h (List.append_eq_nil_iff.mp hnil).1
        exact hmore es (step e w) (by rw [hlost]; exact hgone)

theorem count_total (x : String) (jobs : List WebhookJob) :
    total (fun job => if job.id = x then 1 else 0) jobs = (jobs.map (·.id)).count x := by
  induction jobs with
  | nil => rfl
  | cons job jobs ih =>
      rw [total_cons, ih, List.map_cons, List.count_cons]
      simp only [beq_iff_eq]
      exact Nat.add_comm _ _

/-- **WHEN THE QUEUE LOSES NOTHING**: with no call in flight at the end of a run,
    every job enqueued is in exactly one of the jobs delivered, the pending list
    and the dead letters, none attempted more than `MAX_ATTEMPTS` times, exactly
    when no delivery of the run threw and every tick that came to its end found
    the pending list empty. -/
theorem nothing_lost_iff {es : List Event} (hquiet : (exec step es start).ticks = []) :
    (((exec step es start).enqueued.map (·.id)).Perm
        (((exec step es start).delivered ++ (exec step es start).queue.pending
          ++ (exec step es start).queue.deadLetter).map (·.id))
      ∧ ∀ x, (exec step es start).attempted.count x
          ≤ MAX_ATTEMPTS * ((exec step es start).enqueued.map (·.id)).count x)
      ↔ Along step Keeps es start := by
  rw [← run_lost_iff es start rfl]
  have hcount : ∀ x, ((exec step es start).enqueued.map (·.id)).count x
      = (((exec step es start).delivered ++ (exec step es start).queue.pending
          ++ (exec step es start).queue.deadLetter).map (·.id)).count x
        + ((exec step es start).lost.map (·.id)).count x := by
    -- enqueued, and then delivered, pending, dead or lost
    intro x
    have htotal := run_total (f := fun job => if job.id = x then 1 else 0) (fun _ _ => rfl) es
    rw [World.holding, hquiet, count_total] at htotal
    simp only [count_total, total_nil, Nat.add_zero] at htotal
    rw [← htotal]
    simp only [List.map_append, List.count_append]
  constructor
  · rintro ⟨hperm, -⟩
    cases hlost : (exec step es start).lost with
    | nil => rfl
    | cons job rest =>
        have h := hcount job.id
        rw [hperm.count_eq, hlost, List.map_cons, List.count_cons_self] at h
        omega
  -- with nothing lost all that was enqueued is somewhere
  · intro hlost
    refine ⟨List.perm_iff_count.mpr fun x => ?_, fun x => run_attempts x es⟩
    rw [hcount x, hlost]
    rfl

def fresh (id : String) : WebhookJob :=
  { id, url := "https://example.com/hook", payload := "{}", attempts := 0, nextAttemptAt := 100,
    idempotencyKey := "whk_" ++ id }

/-- One delivery that fails and one that succeeds, ticks apart. -/
theorem nothing_lost_apart :
    Along step Keeps [.enqueue (fresh "a"), .tick 100, .settle 0 (.result .failure), .tick 200,
      .settle 0 (.result .success)] start :=
  (@nothing_lost_iff [.enqueue (fresh "a"), .tick 100, .settle 0 (.result .failure), .tick 200,
    .settle 0 (.result .success)] (by decide +kernel)).mp
    ⟨by decide +kernel, fun x => run_attempts x _⟩

/-- **A JOB LOST**: enqueued while a tick awaits a delivery, `b` is in none of
    the places a job can be in. -/
theorem enqueued_during_tick_lost :
    ∃ es, (exec step es start).ticks = [] ∧ "b" ∈ (exec step es start).enqueued.map (·.id)
      ∧ "b" ∉ ((exec step es start).delivered ++ (exec step es start).queue.pending
          ++ (exec step es start).queue.deadLetter).map (·.id) :=
  ⟨[.enqueue (fresh "a"), .tick 100, .enqueue (fresh "b"), .settle 0 (.result .success)], by decide⟩

end Webhook
