import StellarSave.PoolProofs
import StellarSave.TraceProofs

/-! # The group state cache — invalidation against loads in flight

    `GroupStateCache` (`lib/cache.ts`), for one key.  A load runs a loader,
    stores what it returned and leaves the single-flight map of its process;
    `invalidate` deletes the key and asks nothing of the loads in flight.

    A state is known by when its loader started: after how many invalidations. -/

namespace GroupStateCache

open Trace

/-- Where the promise of a load stands: its loader runs, its `set` is on the
    way, it is about to leave the map, it is settled. -/
inductive LoadPhase where
  | loading
  | setting
  | closing (ok : Bool)
  | settled (ok : Bool)
  deriving DecidableEq, Repr

/-- A load; `began` is how many invalidations there were when its loader started. -/
structure Load where
  process : Nat
  began : Nat
  phase : LoadPhase
  deriving DecidableEq, Repr

/-- Where a call of `get` or `getOrLoad` stands, and what it returned. -/
inductive ReadPhase where
  | getting
  | got (cached : Option Nat)
  | awaiting (load : Nat)
  | returned (state : Option Nat)
  | thrown
  deriving DecidableEq, Repr

/-- A call; `since` is how many invalidations there were when it was made. -/
structure Read where
  process : Nat
  loads : Bool
  since : Nat
  phase : ReadPhase
  deriving DecidableEq, Repr

/-- The key in Redis, the single-flight map of each process, the loads, the
    calls, and how many invalidations there were. -/
structure State where
  cached : Option Nat
  inFlight : Nat → Option Nat
  loads : List Load
  reads : List Read
  invalidations : Nat

def start : State := ⟨none, fun _ => none, [], [], 0⟩

/-- What can happen: a call is made, its `get` reaches Redis, it goes on with the
    answer, its promise settles; a loader ends, its `set` reaches Redis, it leaves
    the map; the key is deleted, or expires. -/
inductive Event where
  | get (process : Nat)
  | getOrLoad (process : Nat)
  | redisGet (k : Nat) (ok : Bool)
  | resume (k : Nat)
  | receive (k : Nat)
  | loaderEnds (l : Nat) (ok : Bool)
  | redisSet (l : Nat) (ok : Bool)
  | settle (l : Nat)
  | invalidate
  | expire
  deriving DecidableEq, Repr

def State.setRead (s : State) (k : Nat) (read : Read) (phase : ReadPhase) : State :=
  { s with reads := s.reads.set k { read with phase := phase } }

def State.setLoad (s : State) (l : Nat) (load : Load) (phase : LoadPhase) : State :=
  { s with loads := s.loads.set l { load with phase := phase } }

/-- `inFlight.set(key, promise)` and `inFlight.delete(key)`. -/
def State.register (s : State) (process : Nat) (promise : Option Nat) : State :=
  { s with inFlight := fun p => if p = process then promise else s.inFlight p }

/-- The loader is called, and its promise is in the map before anything else runs. -/
def State.begin (s : State) (process : Nat) : State :=
  { s.register process (some s.loads.length) with
    loads := s.loads ++ [⟨process, s.invalidations, .loading⟩] }

/-- A miss: the caller joins the load in flight, or starts one. -/
def State.load (s : State) (k : Nat) (read : Read) : State :=
  match s.inFlight read.process with
  | some existing => s.setRead k read (.awaiting existing)
  | none => (s.begin read.process).setRead k read (.awaiting s.loads.length)

def step : Event → State → State
  | .get process, s => { s with reads := s.reads ++ [⟨process, false, s.invalidations, .getting⟩] }
  | .getOrLoad process, s =>
      { s with reads := s.reads ++ [⟨process, true, s.invalidations, .getting⟩] }
  | .redisGet k ok, s =>
      match s.reads[k]? with
      | some ⟨process, loads, since, .getting⟩ =>
          s.setRead k ⟨process, loads, since, .getting⟩ (if ok = true then .got s.cached else .thrown)
      | _ => s
  | .resume k, s =>
      match s.reads[k]? with
      | some ⟨process, loads, since, .got cached⟩ =>
          match cached with
          | some state => s.setRead k ⟨process, loads, since, .got cached⟩ (.returned (some state))
          | none =>
              if loads = true then s.load k ⟨process, loads, since, .got cached⟩
              else s.setRead k ⟨process, loads, since, .got cached⟩ (.returned none)
      | _ => s
  | .receive k, s =>
      match s.reads[k]? with
      | some ⟨process, loads, since, .awaiting l⟩ =>
          match s.loads[l]? with
          | some ⟨_, began, .settled ok⟩ =>
              s.setRead k ⟨process, loads, since, .awaiting l⟩
                (if ok = true then .returned (some began) else .thrown)
          | _ => s
      | _ => s
  | .loaderEnds l ok, s =>
      match s.loads[l]? with
      | some ⟨process, began, .loading⟩ =>
          s.setLoad l ⟨process, began, .loading⟩ (if ok = true then .setting else .closing false)
      | _ => s
  | .redisSet l ok, s =>
      match s.loads[l]? with
      | some ⟨process, began, .setting⟩ =>
          { s with cached := if ok = true then some began else s.cached }.setLoad l
            ⟨process, began, .setting⟩ (.closing ok)
      | _ => s
  | .settle l, s =>
      match s.loads[l]? with
      | some ⟨process, began, .closing ok⟩ =>
          (s.register process none).setLoad l ⟨process, began, .closing ok⟩ (.settled ok)
      | _ => s
  | .invalidate, s => { s with cached := none, invalidations := s.invalidations + 1 }
  | .expire, s => { s with cached := none }

/-! ## What the cache promises -/

/-- No call returns a state whose loader started before an invalidation that was
    over when the call was made. -/
def Fresh (s : State) : Prop :=
  ∀ read ∈ s.reads, ∀ began, read.phase = .returned (some began) → read.since ≤ began

/-- No process runs two loaders. -/
def OneLoader (s : State) : Prop :=
  ∀ (l l' : Nat) (load load' : Load), s.loads[l]? = some load → s.loads[l']? = some load' →
    load.phase = .loading → load'.phase = .loading → load.process = load'.process → l = l'

def LoadPhase.Settled (phase : LoadPhase) : Prop := ∃ ok, phase = .settled ok

/-- No invalidation while a load is in flight. -/
def Quiet (x : Event) (s : State) : Prop :=
  x = .invalidate → ∀ load ∈ s.loads, load.phase.Settled

/-! ## The single-flight map -/

/-- The map has exactly the loads that are not settled. -/
def Registered (s : State) : Prop :=
  ∀ process l, s.inFlight process = some l ↔
    ∃ load, s.loads[l]? = some load ∧ load.process = process ∧ ¬ load.phase.Settled

variable {s : State}

theorem Registered.oneLoader (h : Registered s) : OneLoader s := by
  intro l l' load load' hl hl' hphase hphase' hprocess
  have hfirst := (h load.process l).mpr ⟨load, hl, rfl, fun ⟨_, hok⟩ => by simp [hphase] at hok⟩
  have hsecond := (h load.process l').mpr ⟨load', hl', hprocess.symm, fun ⟨_, hok⟩ => by simp [hphase'] at hok⟩
  exact Option.some.inj (hfirst.symm.trans hsecond)

/-- A load that is in flight before and after stays in the map. -/
theorem Registered.setLoad (h : Registered s) {l : Nat} {load : Load} {phase : LoadPhase}
    (hl : s.loads[l]? = some load) (hbefore : ¬ load.phase.Settled) (hafter : ¬ phase.Settled) :
    Registered (s.setLoad l load phase) := by
  intro process j
  refine (h process j).trans ?_
  have hlt : l < s.loads.length := (List.getElem?_eq_some_iff.mp hl).1
  by_cases hj : l = j
  · subst hj
    constructor
    · rintro ⟨other, hother, hprocess, -⟩
      obtain rfl : load = other := Option.some.inj (hl.symm.trans hother)
      exact ⟨{ load with phase := phase }, List.getElem?_set_self hlt, hprocess, hafter⟩
    · rintro ⟨other, hother, hprocess, -⟩
      obtain rfl : { load with phase := phase } = other :=
        Option.some.inj ((List.getElem?_set_self hlt).symm.trans hother)
      exact ⟨load, hl, hprocess, hbefore⟩
  · show _ ↔ ∃ other, (s.loads.set l { load with phase := phase })[j]? = some other ∧ _
    rw [List.getElem?_set_ne hj]

/-- A load that settles leaves the map, and it alone was the one there. -/
theorem Registered.settle (h : Registered s) {l : Nat} {load : Load} {ok : Bool}
    (hl : s.loads[l]? = some load) (hbefore : ¬ load.phase.Settled) :
    Registered ((s.register load.process none).setLoad l load (.settled ok)) := by
  intro process j
  have hlt : l < s.loads.length := (List.getElem?_eq_some_iff.mp hl).1
  have hthere : s.inFlight load.process = some l := (h _ l).mpr ⟨load, hl, rfl, hbefore⟩
  show (if process = load.process then none else s.inFlight process) = some j ↔
    ∃ other, (s.loads.set l { load with phase := .settled ok })[j]? = some other ∧ _
  -- the load that settles leaves the registry; the others stay where they are
  by_cases hj : l = j
  · subst hj
    constructor
    · intro hmap
      by_cases hprocess : process = load.process
      · simp [hprocess] at hmap
      · rw [if_neg hprocess] at hmap
        obtain ⟨other, hother, hsame, -⟩ := (h process l).mp hmap
        obtain rfl : load = other := Option.some.inj (hl.symm.trans hother)
        exact absurd hsame.symm hprocess
    · rintro ⟨other, hother, -, hopen⟩
      rw [List.getElem?_set_self hlt] at hother
      exact absurd ⟨ok, (Option.some.inj hother) ▸ rfl⟩ hopen
  · rw [List.getElem?_set_ne hj]
    by_cases hprocess : process = load.process
    · rw [if_pos hprocess]
      constructor
      · nofun
      · intro hother
        have hmap := (h process j).mpr hother
        rw [hprocess, hthere] at hmap
        exact absurd (Option.some.inj hmap) hj
    · rw [if_neg hprocess]
      exact h process j

/-- A process with nothing in flight starts a load. -/
theorem Registered.load (h : Registered s) (k : Nat) (read : Read) : Registered (s.load k read) := by
  unfold State.load
  split
  case h_1 => exact h
  case h_2 hnone =>
    intro process j
    show (if process = read.process then some s.loads.length else s.inFlight process) = some j ↔
      ∃ load, (s.loads ++ [⟨read.process, s.invalidations, .loading⟩])[j]? = some load ∧ _
    -- a load that begins is not settled
    have hnew : ¬ LoadPhase.Settled .loading := fun ⟨_, hok⟩ => by cases hok
    constructor
    · intro hmap
      by_cases hprocess : process = read.process
      · rw [if_pos hprocess] at hmap
        obtain rfl := Option.some.inj hmap
        exact ⟨_, List.getElem?_concat_length, hprocess.symm, hnew⟩
      · rw [if_neg hprocess] at hmap
        obtain ⟨load, hload, hrest⟩ := (h process j).mp hmap
        have hlt : j < s.loads.length := (List.getElem?_eq_some_iff.mp hload).1
        exact ⟨load, by rwa [List.getElem?_append_left hlt], hrest⟩
    · rintro ⟨load, hload, hprocess, hopen⟩
      by_cases hlt : j < s.loads.length
      · rw [List.getElem?_append_left hlt] at hload
        have hmap := (h process j).mpr ⟨load, hload, hprocess, hopen⟩
        rw [if_neg]
        · exact hmap
        · rintro rfl
          simp [hnone] at hmap
      · have hj : j = s.loads.length := by
          have hbound := (List.getElem?_eq_some_iff.mp hload).1
          rw [List.length_append, List.length_singleton] at hbound
          omega
        subst hj
        rw [List.getElem?_concat_length] at hload
        obtain rfl := Option.some.inj hload
        rw [if_pos hprocess.symm]

/-- **ONE LOADER**: the map is asked and filled in one go. -/
theorem step_registered (x : Event) (h : Registered s) : Registered (step x s) := by
  cases x with
  | get process => exact h
  | getOrLoad process => exact h
  | redisGet k ok =>
      simp only [step]
      split <;> exact h
  -- a reader that resumes may begin a load, or join one
  | resume k =>
      simp only [step]
      split
      · split
        · exact h
        · split
          · exact h.load k _
          · exact h
      · exact h
  | receive k =>
      simp only [step]
      split
      · split <;> exact h
      · exact h
  -- the result of the loader is not written yet, so the load is still registered
  | loaderEnds l ok =>
      simp only [step]
      split
      case h_1 process began hl =>
        refine h.setLoad hl (fun ⟨_, hok⟩ => by cases hok) fun ⟨done, hdone⟩ => ?_
        cases ok <;> cases hdone
      case h_2 => exact h
  | redisSet l ok =>
      simp only [step]
      split
      case h_1 process began hl =>
        have hset : Registered (s.setLoad l ⟨process, began, .setting⟩ (.closing ok)) :=
          h.setLoad hl (fun ⟨_, hok⟩ => by cases hok) fun ⟨_, hok⟩ => by cases hok
        exact hset
      case h_2 => exact h
  -- the last step of a load takes it out of the registry
  | settle l =>
      simp only [step]
      split
      case h_1 process began ok hl => exact h.settle hl fun ⟨_, hok⟩ => by cases hok
      case h_2 => exact h
  | invalidate => exact h
  | expire => exact h

theorem start_registered : Registered start := by
  intro process l
  simp [start]

/-! ## Quiet runs -/

/-- Everything in the cache or in flight is as new as the last invalidation, and
    a caller awaits or has nothing older than its call. -/
structure Coherent (s : State) : Prop where
  registered : Registered s
  loads : ∀ load ∈ s.loads, ¬ load.phase.Settled → load.began = s.invalidations
  cached : ∀ began, s.cached = some began → began = s.invalidations
  since : ∀ read ∈ s.reads, read.since ≤ s.invalidations
  got : ∀ read ∈ s.reads, ∀ began, read.phase = .got (some began) → read.since ≤ began
  awaiting : ∀ read ∈ s.reads, ∀ l, read.phase = .awaiting l →
    ∃ load, s.loads[l]? = some load ∧ read.since ≤ load.began
  fresh : Fresh s

/-- A call goes on. -/
theorem Coherent.setRead (h : Coherent s) {k : Nat} {read : Read} {phase : ReadPhase}
    (hk : s.reads[k]? = some read)
    (hgot : ∀ began, phase = .got (some began) → read.since ≤ began)
    (hawaiting : ∀ l, phase = .awaiting l → ∃ load, s.loads[l]? = some load ∧ read.since ≤ load.began)
    (hfresh : ∀ began, phase = .returned (some began) → read.since ≤ began) :
    Coherent (s.setRead k read phase) where
  registered := h.registered
  loads := h.loads
  cached := h.cached
  since other hother := by
    obtain rfl | hold := Pool.mem_set hother
    · exact h.since read (List.mem_of_getElem? hk)
    · exact h.since other hold
  got other hother := by
    obtain rfl | hold := Pool.mem_set hother
    · exact hgot
    · exact h.got other hold
  awaiting other hother := by
    obtain rfl | hold := Pool.mem_set hother
    · exact hawaiting
    · exact h.awaiting other hold
  fresh other hother := by
    obtain rfl | hold := Pool.mem_set hother
    · exact hfresh
    · exact h.fresh other hold

/-- A load goes on; when its loader started does not change. -/
theorem Coherent.setLoad (h : Coherent s) {s' : State} {l : Nat} {load : Load} {phase : LoadPhase}
    (hl : s.loads[l]? = some load) (hopen : ¬ load.phase.Settled) (hregistered : Registered s')
    (hloads : s'.loads = s.loads.set l { load with phase := phase }) (hreads : s'.reads = s.reads)
    (hinvalidations : s'.invalidations = s.invalidations)
    (hcached : ∀ began, s'.cached = some began → began = s.invalidations) : Coherent s' where
  registered := hregistered
  loads := by
    rw [hloads, hinvalidations]
    intro other hother hsettled
    obtain rfl | hold := Pool.mem_set hother
    · exact h.loads load (List.mem_of_getElem? hl) hopen
    · exact h.loads other hold hsettled
  cached := hinvalidations ▸ hcached
  since := by
    rw [hreads, hinvalidations]
    exact h.since
  got := hreads ▸ h.got
  awaiting := by
    rw [hreads, hloads]
    intro read hread j hphase
    obtain ⟨other, hother, hle⟩ := h.awaiting read hread j hphase
    have hlt : l < s.loads.length := (List.getElem?_eq_some_iff.mp hl).1
    -- the load that moved began when it did, whatever its phase
    by_cases hj : l = j
    · subst hj
      obtain rfl : load = other := Option.some.inj (hl.symm.trans hother)
      exact ⟨_, List.getElem?_set_self hlt, hle⟩
    · exact ⟨other, by rwa [List.getElem?_set_ne hj], hle⟩
  fresh := by
    rw [Fresh, hreads]
    exact h.fresh

/-- A new call has nothing yet. -/
theorem Coherent.call (h : Coherent s) (process : Nat) (loads : Bool) :
    Coherent { s with reads := s.reads ++ [⟨process, loads, s.invalidations, .getting⟩] } where
  registered := h.registered
  loads := h.loads
  cached := h.cached
  since read hread := by
    obtain hread | rfl := Pool.mem_concat hread
    · exact h.since read hread
    · exact Nat.le_refl _
  got read hread began hphase := by
    obtain hread | rfl := Pool.mem_concat hread
    · exact h.got read hread began hphase
    · cases hphase
  awaiting read hread l hphase := by
    obtain hread | rfl := Pool.mem_concat hread
    · exact h.awaiting read hread l hphase
    · cases hphase
  fresh read hread began hphase := by
    obtain hread | rfl := Pool.mem_concat hread
    · exact h.fresh read hread began hphase
    · cases hphase

/-- **A MISS**: what the caller joins or starts is as new as the cache. -/
theorem Coherent.load (h : Coherent s) {k : Nat} {read : Read} (hk : s.reads[k]? = some read) :
    Coherent (s.load k read) := by
  have hsince := h.since read (List.mem_of_getElem? hk)
  have hregistered := h.registered.load k read
  revert hregistered
  unfold State.load
  split
  -- a load under way is joined: it began after the last invalidation
  case h_1 existing hexisting =>
    intro _
    obtain ⟨load, hload, -, hopen⟩ := (h.registered _ _).mp hexisting
    refine h.setRead hk nofun (fun l hphase => ?_) nofun
    obtain rfl : existing = l := by simpa using hphase
    exact ⟨load, hload, (h.loads load (List.mem_of_getElem? hload) hopen).symm ▸ hsince⟩
  -- no load is under way: one begins now
  case h_2 hnone =>
    intro hregistered
    have hbegun : Coherent (s.begin read.process) := by
      refine ⟨hregistered, fun load hload hopen => ?_, h.cached, h.since, h.got, fun r hr l hphase => ?_,
        h.fresh⟩
      · obtain hload | rfl := Pool.mem_concat hload
        · exact h.loads load hload hopen
        · rfl
      · obtain ⟨load, hload, hle⟩ := h.awaiting r hr l hphase
        have hlt : l < s.loads.length := (List.getElem?_eq_some_iff.mp hload).1
        exact ⟨load, (List.getElem?_append_left hlt).trans hload, hle⟩
    refine hbegun.setRead hk nofun (fun l hphase => ?_) nofun
    obtain rfl : s.loads.length = l := by simpa using hphase
    exact ⟨_, List.getElem?_concat_length, hsince⟩

/-- **ONE STEP**: with no load in flight when the key is deleted, the cache stays
    coherent. -/
theorem step_coherent (x : Event) (hx : Quiet x s) (h : Coherent s) : Coherent (step x s) := by
  have hregistered := step_registered x h.registered
  cases x with
  | get process => exact h.call process false
  | getOrLoad process => exact h.call process true
  | redisGet k ok =>
      simp only [step]
      split
      case h_1 process loads since hk =>
        refine h.setRead hk (fun began hphase => ?_) (fun l hphase => ?_) fun began hphase => ?_
        · cases ok with
          -- a hit is of the last invalidation or later
          | true =>
              obtain hcached : s.cached = some began := by simpa using hphase
              rw [h.cached began hcached]
              exact h.since _ (List.mem_of_getElem? hk)
          | false => cases hphase
        · cases ok <;> cases hphase
        · cases ok <;> cases hphase
      case h_2 => exact h
  | resume k =>
      simp only [step]
      split
      case h_1 process loads since cached hk =>
        split
        case h_1 began =>
          refine h.setRead hk nofun nofun fun began' hphase => ?_
          obtain rfl : began = began' := by simpa using hphase
          exact h.got _ (List.mem_of_getElem? hk) began rfl
        case h_2 =>
          split
          · exact h.load hk
          · exact h.setRead hk nofun nofun nofun
      case h_2 => exact h
  | receive k =>
      simp only [step]
      split
      case h_1 process loads since l hk =>
        split
        case h_1 owner began ok hl =>
          refine h.setRead hk (fun _ hphase => ?_) (fun _ hphase => ?_) fun began' hphase => ?_
          · cases ok <;> cases hphase
          · cases ok <;> cases hphase
          · obtain ⟨load, hload, hle⟩ := h.awaiting _ (List.mem_of_getElem? hk) l rfl
            obtain rfl := Option.some.inj (hl.symm.trans hload)
            cases ok with
            | true =>
                obtain rfl : began = began' := by simpa using hphase
                exact hle
            | false => cases hphase
        case h_2 => exact h
      case h_2 => exact h
  | loaderEnds l ok =>
      simp only [step] at hregistered ⊢
      split
      case h_1 process began hl =>
        simp only [hl] at hregistered
        exact h.setLoad hl (fun ⟨_, hok⟩ => by cases hok) hregistered rfl rfl rfl h.cached
      case h_2 => exact h
  -- a load writes only what it read since the last invalidation
  | redisSet l ok =>
      simp only [step] at hregistered ⊢
      split
      case h_1 process began hl =>
        simp only [hl] at hregistered
        have hopen : ¬ LoadPhase.Settled .setting := fun ⟨_, hok⟩ => by cases hok
        refine h.setLoad hl hopen hregistered rfl rfl rfl fun began' hcached => ?_
        cases ok with
        | true =>
            obtain rfl : began = began' := by simpa [State.setLoad] using hcached
            exact h.loads _ (List.mem_of_getElem? hl) hopen
        | false => exact h.cached began' hcached
      case h_2 => exact h
  | settle l =>
      simp only [step] at hregistered ⊢
      split
      case h_1 process began ok hl =>
        simp only [hl] at hregistered
        exact h.setLoad hl (fun ⟨_, hok⟩ => by cases hok) hregistered rfl rfl rfl h.cached
      case h_2 => exact h
  -- the invalidation finds nothing loading and nothing read, by the condition
  | invalidate =>
      have hsettled := hx rfl
      exact ⟨h.registered, fun load hload hopen => absurd (hsettled load hload) hopen, nofun,
        fun read hread => Nat.le_succ_of_le (h.since read hread), h.got, h.awaiting, h.fresh⟩
  | expire => exact ⟨h.registered, h.loads, nofun, h.since, h.got, h.awaiting, h.fresh⟩

theorem start_coherent : Coherent start where
  registered := start_registered
  loads := fun _ hload => absurd hload List.not_mem_nil
  cached := nofun
  since := fun _ hread => absurd hread List.not_mem_nil
  got := fun _ hread => absurd hread List.not_mem_nil
  awaiting := fun _ hread => absurd hread List.not_mem_nil
  fresh := fun _ hread => absurd hread List.not_mem_nil

/-! ## Every interleaving -/

/-- **INVALIDATION WINS** where it meets no load in flight; that a process runs
    one loader at a time holds in every run. -/
theorem invalidation_wins (xs : List Event) :
    Along step (fun x s => OneLoader (step x s)) xs start ∧
      (Along step Quiet xs start → Along step (fun x s => Fresh (step x s)) xs start) := by
  constructor
  · refine along_of_invariant (I := Registered) (fun x s _ h => ?_) start_registered
      (along_true step xs start)
    exact ⟨(step_registered x h).oneLoader, step_registered x h⟩
  · intro hrun
    refine along_of_invariant (I := Coherent) (fun x s hx h => ?_) start_coherent hrun
    have hnext := step_coherent x hx h
    exact ⟨hnext.fresh, hnext⟩

theorem invalidation_wins_reload : Along step (fun x s => Fresh (step x s))
    [.getOrLoad 0, .redisGet 0 true, .resume 0, .loaderEnds 0 true, .redisSet 0 true, .settle 0,
      .receive 0, .invalidate] start := by
  have quiet (x : Event) (s : State) (hx : x ≠ .invalidate) : Quiet x s := fun h => absurd h hx
  refine (invalidation_wins [.getOrLoad 0, .redisGet 0 true, .resume 0, .loaderEnds 0 true, .redisSet 0 true,
    .settle 0, .receive 0, .invalidate]).2 ?_
  refine ⟨quiet _ _ nofun, quiet _ _ nofun, quiet _ _ nofun, quiet _ _ nofun, quiet _ _ nofun,
    quiet _ _ nofun, quiet _ _ nofun, fun _ load hload => ?_, trivial⟩
  obtain rfl := List.mem_singleton.mp hload
  exact ⟨true, rfl⟩

/-- The key is deleted while a loader runs; its state is stored, and the next
    `get` returns it. -/
theorem stale_read : ¬ ∀ xs : List Event, Along step (fun x s => Fresh (step x s)) xs start := by
  intro h
  have hrun := h (([.getOrLoad 0, .redisGet 0 true, .resume 0, .invalidate, .loaderEnds 0 true,
    .redisSet 0 true, .settle 0, .get 0, .redisGet 1 true] : List Event) ++ [Event.resume 1])
  have hlast := ((along_append step _ _ _ start).mp hrun).2.1
  have hstale := hlast ⟨0, false, 1, .returned (some 0)⟩ (by decide) 0 rfl
  exact absurd hstale (by decide)

end GroupStateCache
