import StellarSave.PoolProofs
import StellarSave.TraceProofs

/-! # Overlap — read, compute, write back

    A call reads the value at its key, computes another from what it has read, and
    writes that one back; other calls take their turns in between.  A value that counts
    the calls counts all of them exactly when no two calls on its key overlap: of two
    that do, the one that writes later has not seen the other. -/

namespace Overlap

open Trace

/-- Where a call stands, with what it has read. -/
inductive Phase (V : Type) where
  | reading
  | writing (existing : V)
  | finished
  deriving DecidableEq

def Phase.isWriting {V : Type} : Phase V → Bool
  | .writing _ => true
  | _ => false

def Phase.isFinished {V : Type} : Phase V → Bool
  | .finished => true
  | _ => false

section Phase

variable {V : Type} (v : V)

/-- What a phase is: about to write, finished, or neither. -/
@[simp] theorem isWriting_reading : (Phase.reading : Phase V).isWriting = false := rfl
@[simp] theorem isWriting_writing : (Phase.writing v).isWriting = true := rfl
@[simp] theorem isWriting_finished : (Phase.finished : Phase V).isWriting = false := rfl
@[simp] theorem isFinished_reading : (Phase.reading : Phase V).isFinished = false := rfl
@[simp] theorem isFinished_writing : (Phase.writing v).isFinished = false := rfl
@[simp] theorem isFinished_finished : (Phase.finished : Phase V).isFinished = true := rfl

end Phase

structure Call (ι V : Type) where
  input : ι
  phase : Phase V
  deriving DecidableEq

structure State (ι κ V : Type) where
  store : κ → V
  calls : List (Call ι V)

inductive Event (ι : Type) where
  | call (i : ι)
  | read (k : Nat)
  | write (k : Nat)

variable {ι κ V : Type} [DecidableEq κ] (key : ι → κ) (update : ι → V → V)

def step : Event ι → State ι κ V → State ι κ V
  | .call i, s => { s with calls := s.calls ++ [⟨i, .reading⟩] }
  | .read k, s =>
      match s.calls[k]? with
      | some ⟨i, .reading⟩ => { s with calls := s.calls.set k ⟨i, .writing (s.store (key i))⟩ }
      | _ => s
  | .write k, s =>
      match s.calls[k]? with
      | some ⟨i, .writing existing⟩ =>
          { store := Function.update s.store (key i) (update i existing)
            calls := s.calls.set k ⟨i, .finished⟩ }
      | _ => s

/-- Between its read and its write, on the key. -/
def Call.inFlight (a : κ) (c : Call ι V) : Bool := decide (key c.input = a) && c.phase.isWriting

/-- The calls of the key in flight. -/
def inFlight (a : κ) (s : State ι κ V) : Nat :=
  Pool.total (fun c => if c.inFlight key a then 1 else 0) s.calls

/-- What the finished calls of the key add up to. -/
def written (w : ι → Nat) (a : κ) (s : State ι κ V) : Nat :=
  Pool.total (fun c => if key c.input = a ∧ c.phase.isFinished = true then w c.input else 0) s.calls

/-- A call of the key reads while no other is in flight. -/
def Alone (a : κ) : Event ι → State ι κ V → Prop
  | .read k, s =>
      match s.calls[k]? with
      | some ⟨i, .reading⟩ => key i = a → inFlight key a s = 0
      | _ => True
  | _, _ => True

instance (a : κ) : ∀ (x : Event ι) (s : State ι κ V), Decidable (Alone key a x s)
  | .read k, s => by
      rw [Alone]
      split <;> infer_instance
  | .call _, _ => isTrue trivial
  | .write _, _ => isTrue trivial

/-- Every call has written. -/
def Finished (s : State ι κ V) : Prop := ∀ c ∈ s.calls, c.phase.isFinished = true

instance (s : State ι κ V) : Decidable (Finished s) :=
  inferInstanceAs (Decidable (∀ c ∈ s.calls, c.phase.isFinished = true))

section Steps

variable {key update} {a : κ} {s : State ι κ V} {w : ι → Nat} {k : Nat} {i : ι} {v : V}

/-- **WHAT A STEP CAN DO**: nothing, add a call, let one read, let one write. -/
theorem step_cases (key : ι → κ) (update : ι → V → V) (x : Event ι) (s : State ι κ V) :
    step key update x s = s ∨
      (∃ i, step key update x s = { s with calls := s.calls ++ [⟨i, .reading⟩] }) ∨
      (∃ k i, x = .read k ∧ s.calls[k]? = some ⟨i, .reading⟩ ∧
        step key update x s = { s with calls := s.calls.set k ⟨i, .writing (s.store (key i))⟩ }) ∨
      ∃ k i existing, x = .write k ∧ s.calls[k]? = some ⟨i, .writing existing⟩ ∧
        step key update x s =
          { store := Function.update s.store (key i) (update i existing)
            calls := s.calls.set k ⟨i, .finished⟩ } := by
  cases x with
  | call i => exact .inr (.inl ⟨i, rfl⟩)
  | read k =>
      rw [step]
      split
      · next i hk => exact .inr (.inr (.inl ⟨k, i, rfl, hk, rfl⟩))
      · exact .inl rfl
  | write k =>
      rw [step]
      split
      · next i existing hk => exact .inr (.inr (.inr ⟨k, i, existing, rfl, hk, rfl⟩))
      · exact .inl rfl

/-- A new call has read nothing that is in flight. -/
theorem inFlight_call (i : ι) :
    inFlight key a { s with calls := s.calls ++ [⟨i, .reading⟩] } = inFlight key a s := by
  show Pool.total _ (s.calls ++ [⟨i, .reading⟩]) = Pool.total _ s.calls
  rw [Pool.total_append, Pool.total_cons, Pool.total_nil]
  simp [Call.inFlight]

/-- A read puts one value in flight. -/
theorem inFlight_read (hk : s.calls[k]? = some ⟨i, .reading⟩) :
    inFlight key a { s with calls := s.calls.set k ⟨i, .writing v⟩ } =
      inFlight key a s + if key i = a then 1 else 0 := by
  have htotal := Pool.total_set (fun c => if c.inFlight key a then 1 else 0) hk ⟨i, .writing v⟩
  simpa [inFlight, Call.inFlight] using htotal

/-- A write takes one out. -/
theorem inFlight_write (key : ι → κ) (a : κ) (store : κ → V) (hk : s.calls[k]? = some ⟨i, .writing v⟩) :
    inFlight key a { store := store, calls := s.calls.set k ⟨i, .finished⟩ } +
      (if key i = a then 1 else 0) = inFlight key a s := by
  have htotal := Pool.total_set (fun c => if c.inFlight key a then 1 else 0) hk ⟨i, .finished⟩
  simpa [inFlight, Call.inFlight] using htotal

/-- A new call has written nothing. -/
theorem written_call (i : ι) :
    written key w a { s with calls := s.calls ++ [⟨i, .reading⟩] } = written key w a s := by
  show Pool.total _ (s.calls ++ [⟨i, .reading⟩]) = Pool.total _ s.calls
  rw [Pool.total_append, Pool.total_cons, Pool.total_nil]
  simp

/-- Nor has a read. -/
theorem written_read (hk : s.calls[k]? = some ⟨i, .reading⟩) :
    written key w a { s with calls := s.calls.set k ⟨i, .writing v⟩ } = written key w a s := by
  have htotal := Pool.total_set
    (fun c : Call ι V => if key c.input = a ∧ c.phase.isFinished = true then w c.input else 0) hk
    ⟨i, .writing v⟩
  simpa [written] using htotal

/-- A write counts, with its weight. -/
theorem written_write (key : ι → κ) (w : ι → Nat) (a : κ) (store : κ → V) (hk : s.calls[k]? = some ⟨i, .writing v⟩) :
    written key w a { store := store, calls := s.calls.set k ⟨i, .finished⟩ } =
      written key w a s + if key i = a then w i else 0 := by
  have htotal := Pool.total_set
    (fun c : Call ι V => if key c.input = a ∧ c.phase.isFinished = true then w c.input else 0) hk
    ⟨i, .finished⟩
  simpa [written] using htotal

/-- A write at the key: the value is the new one, one call more has written, one less is in flight. -/
theorem write_own {t : State ι κ V} (hk : s.calls[k]? = some ⟨i, .writing v⟩) (hi : key i = a)
    (ht : t = ⟨Function.update s.store (key i) (update i v), s.calls.set k ⟨i, .finished⟩⟩) :
    t.store a = update i v ∧ written key w a t = written key w a s + w i ∧ inFlight key a t + 1 = inFlight key a s := by
  have hwritten := written_write key w a (Function.update s.store (key i) (update i v)) hk
  have hflight := inFlight_write key a (Function.update s.store (key i) (update i v)) hk
  rw [if_pos hi] at hwritten hflight
  subst ht
  refine ⟨?_, hwritten, hflight⟩
  show Function.update s.store (key i) (update i v) a = _
  rw [hi, Function.update_self]

/-- A write at another key. -/
theorem write_other {t : State ι κ V} (hk : s.calls[k]? = some ⟨i, .writing v⟩) (hi : key i ≠ a)
    (ht : t = ⟨Function.update s.store (key i) (update i v), s.calls.set k ⟨i, .finished⟩⟩) :
    t.store a = s.store a ∧ written key w a t = written key w a s ∧ inFlight key a t = inFlight key a s := by
  have hwritten := written_write key w a (Function.update s.store (key i) (update i v)) hk
  have hflight := inFlight_write key a (Function.update s.store (key i) (update i v)) hk
  rw [if_neg hi, Nat.add_zero] at hwritten hflight
  subst ht
  exact ⟨Function.update_of_ne (Ne.symm hi) _ _, hwritten, hflight⟩

omit [DecidableEq κ] in
/-- Whoever still writes afterwards did so before. -/
theorem writing_of_write {c : Call ι V} (hc : c ∈ s.calls.set k ⟨i, .finished⟩) (hv : c.phase = .writing v) :
    c ∈ s.calls := by
  rcases Pool.mem_set hc with rfl | hc
  · cases hv
  · exact hc

/-- A key with calls in flight has one of them. -/
theorem exists_inFlight (h : inFlight key a s ≠ 0) :
    ∃ c ∈ s.calls, c.inFlight key a = true := by
  by_contra hnone
  refine h (Pool.total_eq_zero fun c hc => if_neg ?_)
  exact fun hflight => hnone ⟨c, hc, hflight⟩

/-- When all is finished nothing is in flight. -/
theorem inFlight_eq_zero (h : Finished s) : inFlight key a s = 0 := by
  refine Pool.total_eq_zero fun c hc => if_neg ?_
  have hdone := h c hc
  cases hphase : c.phase with
  | finished => simp [Call.inFlight, hphase]
  | reading => rw [hphase] at hdone; cases hdone
  | writing v => rw [hphase] at hdone; cases hdone

end Steps

/-! ## One at a time -/

/-- At most one call of the key is in flight, what it has read is still there, and `ν`
    counts what was written. -/
structure Exact (ν : V → Int) (w : ι → Nat) (a : κ) (base : Int) (s : State ι κ V) : Prop where
  few : inFlight key a s ≤ 1
  fresh : ∀ c ∈ s.calls, key c.input = a → ∀ v, c.phase = .writing v → v = s.store a
  count : ν (s.store a) = base + written key w a s

section Alone

variable {key update} {ν : V → Int} {w : ι → Nat} {a : κ} {base : Int} {s : State ι κ V}

/-- The one call in flight writes. -/
theorem Exact.write {k : Nat} {i : ι} {existing : V} {t : State ι κ V} (hν : ∀ i v, ν (update i v) = ν v + w i)
    (h : Exact key ν w a base s) (hk : s.calls[k]? = some ⟨i, .writing existing⟩)
    (ht : t = ⟨Function.update s.store (key i) (update i existing), s.calls.set k ⟨i, .finished⟩⟩) :
    Exact key ν w a base t := by
  have hcalls : t.calls = s.calls.set k ⟨i, .finished⟩ := congrArg State.calls ht
  -- a write to this key, or to another
  by_cases hi : key i = a
  · obtain ⟨hstore, hwritten, hflight⟩ := write_own hk hi ht
    have hstored : existing = s.store a := h.fresh _ (List.mem_of_getElem? hk) hi existing rfl
    have hfew := h.few
    refine ⟨by omega, fun c hc hkey v hv => ?_, ?_⟩
    · -- the one call in flight has written, so none is left
      have hzero : inFlight key a t = 0 := by omega
      have hle := Pool.le_total (fun c : Call ι V => if c.inFlight key a then 1 else 0) hc
      have hone : c.inFlight key a = true := by
        simp [Call.inFlight, hkey, hv]
      rw [if_pos hone] at hle
      rw [inFlight] at hzero
      omega
    · rw [hstore, hwritten, hν, hstored, h.count]
      push_cast
      exact Int.add_assoc _ _ _
  · obtain ⟨hstore, hwritten, hflight⟩ := write_other hk hi ht
    refine ⟨by rw [hflight]; exact h.few, fun c hc hkey v hv => ?_, by rw [hstore, hwritten, h.count]⟩
    rw [hstore]
    exact h.fresh c (writing_of_write (hcalls ▸ hc) hv) hkey v hv

/-- **ONE STEP** alone. -/
theorem Exact.step (hν : ∀ i v, ν (update i v) = ν v + w i) (x : Event ι)
    (hx : Alone key a x s) (h : Exact key ν w a base s) :
    Exact key ν w a base (step key update x s) := by
  obtain ⟨hfew, hfresh, hcount⟩ := h
  rcases step_cases key update x s with
    he | ⟨i, he⟩ | ⟨k, i, rfl, hk, he⟩ | ⟨k, i, existing, rfl, hk, he⟩
  · rw [he]
    exact ⟨hfew, hfresh, hcount⟩
  · rw [he]
    refine ⟨by rwa [inFlight_call], fun c hc hkey v hv => ?_, by rwa [written_call]⟩
    rcases Pool.mem_concat hc with hc | rfl
    · exact hfresh c hc hkey v hv
    · cases hv
  · rw [he]
    refine ⟨?_, fun c hc hkey v hv => ?_, by rwa [written_read hk]⟩
    · rw [inFlight_read hk]
      split
      · next hi =>
          -- the others are not in flight, by the condition
          rw [Alone, hk] at hx
          rw [hx hi]
      · exact hfew
    · rcases Pool.mem_set hc with rfl | hc
      · obtain rfl := Phase.writing.inj hv
        exact congrArg s.store hkey
      · exact hfresh c hc hkey v hv
  · exact Exact.write hν ⟨hfew, hfresh, hcount⟩ hk he

end Alone

/-! ## Lost -/

/-- The calls written, and what the values that calls have read can know of them. -/
structure Counted (μ : V → Int) (a : κ) (base : Int) (s : State ι κ V) : Prop where
  stored : μ (s.store a) ≤ base + written key (fun _ => 1) a s
  existing : ∀ c ∈ s.calls, key c.input = a → ∀ v, c.phase = .writing v →
    μ v ≤ base + written key (fun _ => 1) a s ∧
      (μ v = base + written key (fun _ => 1) a s → v = s.store a)

/-- A call is lost, or will be: the value stored is behind, or one read is, or two calls
    are in flight. -/
def Lost (μ : V → Int) (a : κ) (base : Int) (s : State ι κ V) : Prop :=
  μ (s.store a) < base + written key (fun _ => 1) a s ∨
    (∃ c ∈ s.calls, key c.input = a ∧ ∃ v, c.phase = .writing v ∧
      μ v < base + written key (fun _ => 1) a s) ∨
    2 ≤ inFlight key a s

section Lost

variable {key update} {μ : V → Int} {a : κ} {base : Int} {s : State ι κ V}

/-- In flight is a call on that key that is about to write. -/
theorem inFlight_iff {c : Call ι V} :
    c.inFlight key a = true ↔ key c.input = a ∧ ∃ v, c.phase = .writing v := by
  cases hphase : c.phase <;> simp [Call.inFlight, hphase]

/-- A write counts one more than it has read. -/
theorem Counted.write {k : Nat} {i : ι} {existing : V} {t : State ι κ V} (hμ : ∀ i v, μ (update i v) = μ v + 1)
    (h : Counted key μ a base s) (hk : s.calls[k]? = some ⟨i, .writing existing⟩)
    (ht : t = ⟨Function.update s.store (key i) (update i existing), s.calls.set k ⟨i, .finished⟩⟩) :
    Counted key μ a base t := by
  have hcalls : t.calls = s.calls.set k ⟨i, .finished⟩ := congrArg State.calls ht
  by_cases hi : key i = a
  · obtain ⟨hstore, hwritten, -⟩ := write_own (w := fun _ => 1) hk hi ht
    obtain ⟨hle, -⟩ := h.existing _ (List.mem_of_getElem? hk) hi existing rfl
    refine ⟨?_, fun c hc hkey v hv => ?_⟩
    · rw [hstore, hwritten, hμ]
      push_cast
      omega
    · -- what the others have read does not count this call
      obtain ⟨hbound, -⟩ := h.existing c (writing_of_write (hcalls ▸ hc) hv) hkey v hv
      rw [hwritten]
      push_cast
      exact ⟨by omega, fun heq => by omega⟩
  · obtain ⟨hstore, hwritten, -⟩ := write_other (w := fun _ => 1) hk hi ht
    refine ⟨by rw [hstore, hwritten]; exact h.stored, fun c hc hkey v hv => ?_⟩
    rw [hstore, hwritten]
    exact h.existing c (writing_of_write (hcalls ▸ hc) hv) hkey v hv

/-- **ONE STEP** loses no more than it has read. -/
theorem Counted.step (hμ : ∀ i v, μ (update i v) = μ v + 1) (x : Event ι)
    (h : Counted key μ a base s) : Counted key μ a base (step key update x s) := by
  obtain ⟨hstored, hexisting⟩ := h
  rcases step_cases key update x s with
    he | ⟨i, he⟩ | ⟨k, i, rfl, hk, he⟩ | ⟨k, i, existing, rfl, hk, he⟩
  · rw [he]
    exact ⟨hstored, hexisting⟩
  · rw [he]
    refine ⟨by rwa [written_call], fun c hc hkey v hv => ?_⟩
    rw [written_call]
    rcases Pool.mem_concat hc with hc | rfl
    · exact hexisting c hc hkey v hv
    · cases hv
  · rw [he]
    refine ⟨by rwa [written_read hk], fun c hc hkey v hv => ?_⟩
    rw [written_read hk]
    rcases Pool.mem_set hc with rfl | hc
    · obtain rfl := Phase.writing.inj hv
      rw [congrArg s.store hkey]
      exact ⟨hstored, fun _ => rfl⟩
    · exact hexisting c hc hkey v hv
  · exact Counted.write hμ ⟨hstored, hexisting⟩ hk he

/-- A write does not make up for what was lost. -/
theorem Lost.write {k : Nat} {i : ι} {existing : V} {t : State ι κ V} (hμ : ∀ i v, μ (update i v) = μ v + 1)
    (hs : Counted key μ a base s) (h : Lost key μ a base s) (hk : s.calls[k]? = some ⟨i, .writing existing⟩)
    (ht : t = ⟨Function.update s.store (key i) (update i existing), s.calls.set k ⟨i, .finished⟩⟩) :
    Lost key μ a base t := by
  have hcalls : t.calls = s.calls.set k ⟨i, .finished⟩ := congrArg State.calls ht
  by_cases hi : key i = a
  · obtain ⟨hstore, hwritten, hflight⟩ := write_own (w := fun _ => 1) hk hi ht
    obtain ⟨hle, hfresh⟩ := hs.existing _ (List.mem_of_getElem? hk) hi existing rfl
    rw [Lost, hstore, hwritten, hμ]
    push_cast
    rcases h with hold | ⟨c, hc, hkey, v, hv, hlt⟩ | htwo
    · -- a value written from one that was behind is behind
      have hbehind : μ existing < base + written key (fun _ => 1) a s := by
        refine lt_of_le_of_ne hle fun heq => ?_
        rw [← hfresh heq] at hold
        omega
      exact .inl (by omega)
    · by_cases hsame : c = ⟨i, .writing existing⟩
      · obtain rfl := Phase.writing.inj ((congrArg Call.phase hsame).symm.trans hv)
        exact .inl (by omega)
      · exact .inr (.inl ⟨c, hcalls ▸ Pool.mem_set_of_ne hk hc hsame, hkey, v, hv, by omega⟩)
    · -- of two in flight the other has not seen this write
      have hother : inFlight key a t ≠ 0 := by omega
      obtain ⟨c, hc, hc'⟩ := exists_inFlight hother
      obtain ⟨hkey, v, hv⟩ := inFlight_iff.mp hc'
      obtain ⟨hbound, -⟩ := hs.existing c (writing_of_write (hcalls ▸ hc) hv) hkey v hv
      exact .inr (.inl ⟨c, hc, hkey, v, hv, by omega⟩)
  · obtain ⟨hstore, hwritten, hflight⟩ := write_other (w := fun _ => 1) hk hi ht
    rw [Lost, hstore, hwritten, hflight]
    rcases h with hold | ⟨c, hc, hkey, v, hv, hlt⟩ | htwo
    · exact .inl hold
    · have hne : c ≠ ⟨i, .writing existing⟩ := by
        rintro rfl
        exact hi hkey
      exact .inr (.inl ⟨c, hcalls ▸ Pool.mem_set_of_ne hk hc hne, hkey, v, hv, hlt⟩)
    · exact .inr (.inr htwo)

/-- **NOTHING LOST IS FOUND AGAIN**. -/
theorem Lost.step (hμ : ∀ i v, μ (update i v) = μ v + 1) (x : Event ι)
    (hs : Counted key μ a base s) (h : Lost key μ a base s) :
    Lost key μ a base (step key update x s) := by
  rcases step_cases key update x s with
    he | ⟨i, he⟩ | ⟨k, i, rfl, hk, he⟩ | ⟨k, i, existing, rfl, hk, he⟩
  · rwa [he]
  · rw [he, Lost, written_call, inFlight_call]
    rcases h with hbehind | ⟨c, hc, hkey, v, hv, hlt⟩ | htwo
    · exact .inl hbehind
    · exact .inr (.inl ⟨c, List.mem_append_left _ hc, hkey, v, hv, hlt⟩)
    · exact .inr (.inr htwo)
  · rw [he, Lost, written_read hk, inFlight_read hk]
    rcases h with hbehind | ⟨c, hc, hkey, v, hv, hlt⟩ | htwo
    · exact .inl hbehind
    · have hne : c ≠ ⟨i, .reading⟩ := by
        rintro rfl
        cases hv
      exact .inr (.inl ⟨c, Pool.mem_set_of_ne hk hc hne, hkey, v, hv, hlt⟩)
    · exact .inr (.inr (Nat.le_add_right_of_le htwo))
  · exact Lost.write hμ hs h hk he

/-- A call that does not read alone is lost, or another. -/
theorem lost_of_not_alone {x : Event ι} (hx : ¬ Alone key a x s) :
    Lost key μ a base (step key update x s) := by
  cases x with
  | call i => exact absurd trivial hx
  | write k => exact absurd trivial hx
  | read k =>
      rw [Alone] at hx
      rw [step]
      split at hx
      · next i hk =>
          rw [Classical.not_imp] at hx
          obtain ⟨hi, hsome⟩ := hx
          refine .inr (.inr ?_)
          show 2 ≤ inFlight key a { s with calls := s.calls.set k ⟨i, .writing (s.store (key i))⟩ }
          rw [inFlight_read hk, if_pos hi]
          omega
      · exact absurd trivial hx

end Lost

/-! ## Runs -/

section Runs

variable {key update} {μ ν : V → Int} {w : ι → Nat} {a : κ} {store : κ → V} {xs : List (Event ι)}

/-- **ALL COUNTED** along a run whose calls of the key read alone. -/
theorem count_of_alone (hν : ∀ i v, ν (update i v) = ν v + w i)
    (hrun : Along (step key update) (Alone key a) xs ⟨store, []⟩) :
    ν ((exec (step key update) xs ⟨store, []⟩).store a) =
      ν (store a) + written key w a (exec (step key update) xs ⟨store, []⟩) := by
  have hstart : Exact key ν w a (ν (store a)) ⟨store, []⟩ := by
    refine ⟨Nat.zero_le 1, fun c hc => ?_, (Int.add_zero _).symm⟩
    cases hc
  exact (exec_invariant (I := Exact key ν w a (ν (store a)))
    (fun x s hx hs => hs.step hν x hx) hstart hrun).count

/-- A run that ends with nothing lost was one of calls that read alone. -/
theorem alone_of_not_lost (hμ : ∀ i v, μ (update i v) = μ v + 1) {base : Int}
    {s : State ι κ V} (hs : Counted key μ a base s)
    (hend : ¬ Lost key μ a base (exec (step key update) xs s)) :
    Along (step key update) (Alone key a) xs s := by
  induction xs generalizing s with
  | nil => trivial
  | cons x xs ih =>
      refine ⟨?_, ih (hs.step hμ x) hend⟩
      by_contra hx
      have hlost : Counted key μ a base (exec (step key update) xs (step key update x s)) ∧
          Lost key μ a base (exec (step key update) xs (step key update x s)) :=
        exec_invariant_always (I := fun t => Counted key μ a base t ∧ Lost key μ a base t)
          (fun y t ht => ⟨ht.1.step hμ y, ht.2.step hμ y ht.1⟩)
          ⟨hs.step hμ x, lost_of_not_alone hx⟩ xs
      exact hend hlost.2

/-- **COUNTED EXACTLY WHEN ALONE**: after a run of calls that have all finished the value
    counts those of the key if and only if no two of them overlapped. -/
theorem count_iff_alone (hμ : ∀ i v, μ (update i v) = μ v + 1)
    (hdone : Finished (exec (step key update) xs ⟨store, []⟩)) :
    μ ((exec (step key update) xs ⟨store, []⟩).store a) =
        μ (store a) + written key (fun _ => 1) a (exec (step key update) xs ⟨store, []⟩) ↔
      Along (step key update) (Alone key a) xs ⟨store, []⟩ := by
  constructor
  · intro hcount
    have hstart : Counted key μ a (μ (store a)) ⟨store, []⟩ := by
      refine ⟨(Int.add_zero _).ge, fun c hc => ?_⟩
      cases hc
    refine alone_of_not_lost hμ hstart ?_
    rintro (hbehind | ⟨c, hc, -, v, hv, -⟩ | htwo)
    · omega
    · have hfinished := hdone c hc
      rw [hv] at hfinished
      cases hfinished
    · rw [inFlight_eq_zero hdone] at htwo
      omega
  · exact fun hrun => count_of_alone (by simpa using hμ) hrun

end Runs

end Overlap
