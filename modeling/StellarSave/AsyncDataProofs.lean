import StellarSave.TraceProofs
import StellarSave.UnitsProofs

/-! # Loading data — the last request is the one shown

    A component asks again whenever its inputs change, and answers come back in any order.
    Each run of the effect has its own `cancelled`; the hook's three states are what the next
    render reads. -/

namespace AsyncData

open Units Trace

variable {D T : Type} [DecidableEq D]

/-- How far the chain of a load's promise is: its `then` or `catch` has run with the answer, and
    then its `finally`. -/
inductive Stage (T : Type) where
  | waiting
  | answered (answer : Except JsString T)
  | finished (answer : Except JsString T)

/-- One run of the effect with `enabled`: what it ran for, its closure and its promise. -/
structure Load (D T : Type) where
  tick : Nat
  deps : D
  cancelled : Bool
  stage : Stage T

/-- The hook: the inputs it was last called with, the dependencies its effect last ran with, and
    its states. -/
structure State (D T : Type) where
  enabled : Bool
  deps : D
  tick : Nat
  ran : Option (Bool × Nat × D)
  mounted : Bool
  loads : List (Load D T)
  data : Option T
  isLoading : Bool
  error : Option JsString

/-- The first call. -/
def start (enabled : Bool) (deps : D) : State D T :=
  ⟨enabled, deps, 0, none, true, [], none, enabled, none⟩

inductive Event (D T : Type) where
  | render (enabled : Bool) (deps : D)
  | refetch
  /-- the effects of the last render run -/
  | commit
  | unmount
  | answer (load : Nat) (answer : Except JsString T)
  | finish (load : Nat)

/-- The cleanup of the effects so far: each sets its own `cancelled`. -/
def cleanup (loads : List (Load D T)) : List (Load D T) := loads.map fun l => { l with cancelled := true }

/-- The effect. -/
def effect (s : State D T) : State D T :=
  if s.enabled then
    { s with
      loads := cleanup s.loads ++ [⟨s.tick, s.deps, false, .waiting⟩]
      isLoading := true
      error := none }
  else { s with loads := cleanup s.loads, data := none, isLoading := false, error := none }

/-- What the `then` or the `catch` of a load sets. -/
def settle (answer : Except JsString T) (s : State D T) : State D T :=
  match answer with
  | .ok result => { s with data := some result }
  | .error message => { s with error := some message }

def step : Event D T → State D T → State D T
  | .render enabled deps, s => if s.mounted then { s with enabled := enabled, deps := deps } else s
  | .refetch, s => if s.mounted then { s with tick := s.tick + 1 } else s
  | .commit, s =>
      if s.mounted ∧ s.ran ≠ some (s.enabled, s.tick, s.deps) then
        effect { s with ran := some (s.enabled, s.tick, s.deps) }
      else s
  | .unmount, s => { s with mounted := false, loads := cleanup s.loads }
  | .answer load answer, s =>
      match s.loads[load]? with
      | some ⟨tick, deps, cancelled, .waiting⟩ =>
          let s := { s with loads := s.loads.set load ⟨tick, deps, cancelled, .answered answer⟩ }
          if cancelled then s else settle answer s
      | _ => s
  | .finish load, s =>
      match s.loads[load]? with
      | some ⟨tick, deps, cancelled, .answered answer⟩ =>
          let s := { s with loads := s.loads.set load ⟨tick, deps, cancelled, .finished answer⟩ }
          if cancelled then s else { s with isLoading := false }
      | _ => s

/-! ## What is shown -/

/-- The three states tell how far a load is, and what it answered. -/
def Shows (s : State D T) : Stage T → Prop
  | .waiting => s.isLoading = true ∧ s.error = none
  | .answered (.ok result) => s.isLoading = true ∧ s.data = some result ∧ s.error = none
  | .answered (.error message) => s.isLoading = true ∧ s.error = some message
  | .finished (.ok result) => s.isLoading = false ∧ s.data = some result ∧ s.error = none
  | .finished (.error message) => s.isLoading = false ∧ s.error = some message

/-- Nothing is loaded, nor was. -/
def Blank (s : State D T) : Prop := s.data = none ∧ s.isLoading = false ∧ s.error = none

/-- The last load is the only one not cancelled, it is for the inputs the effect last ran with,
    and it is the one shown. -/
def Latest (s : State D T) (tick : Nat) (deps : D) : Prop :=
  ∃ before stage, s.loads = before ++ [⟨tick, deps, false, stage⟩] ∧
    (∀ l ∈ before, l.cancelled = true) ∧ Shows s stage

structure Inv (s : State D T) : Prop where
  fresh : s.ran = none → s.loads = []
  off : ∀ tick deps, s.ran = some (false, tick, deps) → (∀ l ∈ s.loads, l.cancelled = true) ∧ Blank s
  on : ∀ tick deps, s.ran = some (true, tick, deps) → s.mounted = true → Latest s tick deps
  gone : s.mounted = false → ∀ l ∈ s.loads, l.cancelled = true

section Steps

variable {s : State D T} {before loads : List (Load D T)} {last l : Load D T} {i : Nat}

omit [DecidableEq D]

theorem cancelled_cleanup : ∀ l ∈ cleanup loads, l.cancelled = true := by
  intro l hl
  obtain ⟨l', _, rfl⟩ := List.mem_map.mp hl
  rfl

/-- The one that is not cancelled stands last. -/
theorem index_of_live (hbefore : ∀ l ∈ before, l.cancelled = true) (hget : (before ++ [last])[i]? = some l)
    (hlive : l.cancelled = false) : i = before.length ∧ l = last := by
  rcases Nat.lt_trichotomy i before.length with hlt | rfl | hgt
  · rw [List.getElem?_append_left hlt] at hget
    have hcancelled := hbefore l (List.mem_of_getElem? hget)
    rw [hlive] at hcancelled
    exact absurd hcancelled Bool.false_ne_true
  · rw [List.getElem?_concat_length] at hget
    exact ⟨rfl, (Option.some.inj hget).symm⟩
  · rw [List.getElem?_eq_none (by rw [List.length_append, List.length_singleton]; omega)] at hget
    exact absurd hget.symm (Option.some_ne_none l)

theorem index_of_cancelled (hlast : last.cancelled = false) (hget : (before ++ [last])[i]? = some l)
    (hcancelled : l.cancelled = true) : i < before.length := by
  by_contra hle
  rcases Nat.eq_or_lt_of_le (Nat.not_lt.mp hle) with rfl | hgt
  · rw [List.getElem?_concat_length] at hget
    rw [← Option.some.inj hget, hlast] at hcancelled
    exact absurd hcancelled Bool.false_ne_true
  · rw [List.getElem?_eq_none (by rw [List.length_append, List.length_singleton]; omega)] at hget
    exact absurd hget.symm (Option.some_ne_none l)

theorem cancelled_set (h : ∀ l ∈ loads, l.cancelled = true) (hl : l.cancelled = true) :
    ∀ m ∈ loads.set i l, m.cancelled = true := by
  intro m hm
  rcases List.mem_or_eq_of_mem_set hm with hold | rfl
  · exact h m hold
  · exact hl

/-- A cancelled load moves on unseen. -/
theorem Inv.set_cancelled (h : Inv s) (hget : s.loads[i]? = some l) (hl : l.cancelled = true) (stage : Stage T) :
    Inv { s with loads := s.loads.set i ⟨l.tick, l.deps, l.cancelled, stage⟩ } := by
  refine ⟨?_, ?_, ?_, fun hgone => cancelled_set (h.gone hgone) hl⟩
  · intro hran
    show s.loads.set i _ = []
    rw [h.fresh hran, List.set_nil]
  · intro tick deps hran
    obtain ⟨hall, hblank⟩ := h.off tick deps hran
    exact ⟨cancelled_set hall hl, hblank⟩
  · intro tick deps hran hmounted
    obtain ⟨before, last, hloads, hbefore, hshows⟩ := h.on tick deps hran hmounted
    rw [hloads] at hget
    have hlt := index_of_cancelled rfl hget hl
    refine ⟨before.set i ⟨l.tick, l.deps, l.cancelled, stage⟩, last, ?_, cancelled_set hbefore hl, hshows⟩
    show s.loads.set i _ = _
    rw [hloads, List.set_append_left _ _ hlt]

/-- A load that is not cancelled is the last, of a mounted component, and is shown. -/
theorem Inv.live (h : Inv s) (hget : s.loads[i]? = some l) (hl : l.cancelled = false) :
    ∃ before, s.loads = before ++ [l] ∧ i = before.length ∧ (∀ m ∈ before, m.cancelled = true) ∧
      s.mounted = true ∧ s.ran = some (true, l.tick, l.deps) ∧ Shows s l.stage := by
  have hin := List.mem_of_getElem? hget
  have hmounted : s.mounted = true := by
    cases hm : s.mounted with
    | true => rfl
    | false => exact absurd (hl.symm.trans (h.gone hm l hin)) Bool.false_ne_true
  obtain ⟨tick, deps, hran⟩ : ∃ tick deps, s.ran = some (true, tick, deps) := by
    cases hran : s.ran with
    | none => rw [h.fresh hran] at hin; exact absurd hin List.not_mem_nil
    | some r =>
        obtain ⟨enabled, tick, deps⟩ := r
        cases enabled with
        | true => exact ⟨tick, deps, rfl⟩
        | false => exact absurd (hl.symm.trans ((h.off tick deps hran).1 l hin)) Bool.false_ne_true
  obtain ⟨before, stage, hloads, hbefore, hshows⟩ := h.on tick deps hran hmounted
  rw [hloads] at hget
  obtain ⟨hi, rfl⟩ := index_of_live hbefore hget hl
  exact ⟨before, hloads, hi, hbefore, hmounted, hran, hshows⟩

/-- The last load moves on, and the states with it. -/
theorem Inv.advance (h : Inv s) (hget : s.loads[i]? = some l) (hl : l.cancelled = false) (stage : Stage T)
    {data : Option T} {isLoading : Bool} {error : Option JsString}
    (hshows : Shows { s with data := data, isLoading := isLoading, error := error } stage) :
    Inv { s with
      loads := s.loads.set i ⟨l.tick, l.deps, l.cancelled, stage⟩
      data := data
      isLoading := isLoading
      error := error } := by
  obtain ⟨before, hloads, rfl, hbefore, hmounted, hran, -⟩ := h.live hget hl
  -- the effect that runs is that of the last render
  refine ⟨?_, ?_, ?_, ?_⟩
  · intro hnone
    exact absurd (hran.symm.trans hnone) (Option.some_ne_none _)
  · intro tick deps hoff
    have heq := (Prod.mk.inj (Option.some.inj (hran.symm.trans hoff))).1
    exact absurd heq.symm Bool.false_ne_true
  -- its load is the newest, and every earlier one is cancelled
  · intro tick deps hon _
    obtain ⟨_, heq⟩ := Prod.mk.inj (Option.some.inj (hran.symm.trans hon))
    obtain ⟨rfl, rfl⟩ := Prod.mk.inj heq
    refine ⟨before, stage, ?_, hbefore, ?_⟩
    · show s.loads.set before.length _ = _
      rw [hloads, List.set_append_right _ _ (Nat.le_refl _), Nat.sub_self, hl]
      rfl
    · cases stage with
      | waiting => exact hshows
      | answered answer => cases answer <;> exact hshows
      | finished answer => cases answer <;> exact hshows
  · intro hgone
    exact absurd (hmounted.symm.trans hgone).symm Bool.false_ne_true

end Steps

section Run

variable {s : State D T}

omit [DecidableEq D] in
theorem inv_start (enabled : Bool) (deps : D) : Inv (start (T := T) enabled deps) :=
  ⟨fun _ => rfl, fun _ _ h => absurd h.symm (Option.some_ne_none _), fun _ _ h => absurd h.symm (Option.some_ne_none _),
    fun _ _ hl => absurd hl List.not_mem_nil⟩

omit [DecidableEq D] in
/-- The effect starts a load for its inputs, or none. -/
theorem inv_effect (hmounted : s.mounted = true) :
    Inv (effect { s with ran := some (s.enabled, s.tick, s.deps) }) := by
  rw [AsyncData.effect]
  cases henabled : s.enabled with
  | true =>
      refine ⟨fun hnone => absurd hnone (Option.some_ne_none _), ?_, ?_, ?_⟩
      · intro tick deps hoff
        exact absurd (Prod.mk.inj (Option.some.inj hoff)).1.symm Bool.false_ne_true
      · intro tick deps hon _
        obtain ⟨rfl, rfl⟩ := Prod.mk.inj (Prod.mk.inj (Option.some.inj hon)).2
        exact ⟨cleanup s.loads, .waiting, rfl, cancelled_cleanup, rfl, rfl⟩
      · intro hgone
        exact absurd (hmounted.symm.trans hgone).symm Bool.false_ne_true
  | false =>
      refine ⟨fun hnone => absurd hnone (Option.some_ne_none _), fun _ _ _ => ⟨cancelled_cleanup, rfl, rfl, rfl⟩, ?_,
        fun _ => cancelled_cleanup⟩
      intro tick deps hon
      exact absurd (Prod.mk.inj (Option.some.inj hon)).1 Bool.false_ne_true

theorem Inv.step (h : Inv s) (e : Event D T) : Inv (step e s) := by
  cases e with
  | render enabled deps =>
      -- a render with other inputs cancels the load that runs
      rw [AsyncData.step]
      split_ifs
      · exact ⟨h.fresh, h.off, h.on, h.gone⟩
      · exact h
  | refetch =>
      rw [AsyncData.step]
      split_ifs
      · exact ⟨h.fresh, h.off, h.on, h.gone⟩
      · exact h
  | commit =>
      rw [AsyncData.step]
      by_cases hdue : s.mounted ∧ s.ran ≠ some (s.enabled, s.tick, s.deps)
      · rw [if_pos hdue]
        exact inv_effect hdue.1
      · rw [if_neg hdue]
        exact h
  | unmount =>
      refine ⟨?_, fun tick deps hoff => ⟨cancelled_cleanup, (h.off tick deps hoff).2⟩, ?_, fun _ => cancelled_cleanup⟩
      · intro hran
        show cleanup s.loads = []
        rw [h.fresh hran]
        rfl
      · exact fun _ _ _ hmounted => absurd hmounted Bool.false_ne_true
  | answer load answer =>
      rw [AsyncData.step]
      cases hget : s.loads[load]? with
      | none => exact h
      | some l =>
          obtain ⟨tick, deps, cancelled, stage⟩ := l
          cases stage with
          | waiting =>
              cases cancelled with
              | true => exact h.set_cancelled hget rfl _
              -- the answer of the newest load is shown
              | false =>
                  obtain ⟨_, _, _, _, _, _, hloading, herror⟩ := h.live hget rfl
                  cases answer with
                  | ok result => exact h.advance hget rfl (.answered (.ok result)) ⟨hloading, rfl, herror⟩
                  | error message => exact h.advance hget rfl (.answered (.error message)) ⟨hloading, rfl⟩
          | answered _ => exact h
          | finished _ => exact h
  | finish load =>
      rw [AsyncData.step]
      cases hget : s.loads[load]? with
      | none => exact h
      | some l =>
          obtain ⟨tick, deps, cancelled, stage⟩ := l
          cases stage with
          | waiting => exact h
          | answered answer =>
              cases cancelled with
              | true => exact h.set_cancelled hget rfl _
              | false =>
                  obtain ⟨_, _, _, _, _, _, hshows⟩ := h.live hget rfl
                  cases answer with
                  | ok result => exact h.advance hget rfl (.finished (.ok result)) ⟨rfl, hshows.2.1, hshows.2.2⟩
                  | error message => exact h.advance hget rfl (.finished (.error message)) ⟨rfl, hshows.2⟩
          | finished _ => exact h

end Run

/-- **THE LATEST IS SHOWN**: in every state a run reaches where the effects of the last render
    have run, a disabled hook shows nothing, and an enabled one has one load that is not
    cancelled, for its current inputs, and shows how far that one is and what it answered,
    whatever the loads before it did and whenever they answered. -/
theorem latest_shown (enabled : Bool) (deps : D) (events : List (Event D T))
    (hmounted : (exec step events (start enabled deps)).mounted = true)
    (hran : (exec step events (start enabled deps)).ran = some ((exec step events (start enabled deps)).enabled,
      (exec step events (start enabled deps)).tick, (exec step events (start enabled deps)).deps)) :
    ((exec step events (start enabled deps)).enabled = false → Blank (exec step events (start enabled deps))) ∧
      ((exec step events (start enabled deps)).enabled = true →
        Latest (exec step events (start enabled deps)) (exec step events (start enabled deps)).tick
          (exec step events (start enabled deps)).deps) := by
  have h : Inv (exec step events (start enabled deps)) :=
    exec_invariant_always (fun e _ hs => hs.step e) (inv_start enabled deps) events
  constructor
  · intro hoff
    rw [hoff] at hran
    exact (h.off _ _ hran).2
  · intro hon
    rw [hon] at hran
    exact h.on _ _ hran hmounted

/-- Two loads, the first of which answers last: the second one's answer is shown. -/
theorem latest_shown_second :
    Latest (exec step [.commit, .render true 2, .commit, .answer 1 (.ok 20), .answer 0 (.ok 10), .finish 0, .finish 1]
      (start (T := Nat) true 1)) 0 2 :=
  (latest_shown true 1 [.commit, .render true 2, .commit, .answer 1 (.ok 20), .answer 0 (.ok 10), .finish 0, .finish 1]
    (by decide) (by decide)).2 (by decide)

end AsyncData
