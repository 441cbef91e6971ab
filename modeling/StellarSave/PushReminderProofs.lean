import StellarSave.OrderedMapProofs
import StellarSave.TraceProofs
import StellarSave.UnitsProofs

/-! # Contribution reminders — timers and the map that remembers them

    Two reminders before a deadline, each a browser timer whose id is kept under
    `groupId:label`.  The clock is the one both `Date.now` and the timers go by; a timer runs
    when the event loop gets to it, never before it is due. -/

namespace PushReminders

open Units Trace OrderedMap

/-- `ContributionReminder`. -/
structure Reminder where
  groupId : JsString
  groupName : JsString
  deadlineTimestamp : Int
  deriving DecidableEq, Repr

/-- The labels of `OFFSETS_MS`. -/
inductive Label where
  | day
  | hour
  deriving DecidableEq, Repr

/-- `label`. -/
def Label.text : Label → JsString
  | .day => lit "24h"
  | .hour => lit "1h"

/-- `ms`. -/
def Label.ms : Label → Int
  | .day => 24 * 60 * 60 * 1000
  | .hour => 60 * 60 * 1000

/-- `OFFSETS_MS`, in its order. -/
def offsets : List Label := [.day, .hour]

/-- What the service worker is sent. -/
structure Message where
  title : JsString
  body : JsString
  groupId : JsString
  deriving DecidableEq, Repr

/-- A timer of the browser's, with what its callback closes over. -/
structure Timer where
  id : Nat
  due : Int
  reminder : Reminder
  label : Label
  deriving DecidableEq, Repr

structure State where
  now : Int
  activeTimeouts : List (JsString × Nat)
  timers : List Timer
  nextId : Nat
  /-- the item of `STORAGE_KEY` -/
  stored : Option (List JsString)
  /-- the messages given to `postToServiceWorker`, with their times; before the worker has
      one it may be held up by the registration, which no cancellation asks about -/
  handed : List (Int × Message)

def start (now : Int) : State := ⟨now, [], [], 1, none, []⟩

/-- The `${groupId}:${label}` of both maps. -/
def keyOf (groupId : JsString) (label : Label) : JsString := groupId ++ unit ':' :: label.text

/-- `setTimeout` takes its delay as a signed integer of 32 bits; a negative one is none. -/
def timeoutOf (delay : Int) : Int := max 0 (delay.bmod (2 ^ 32))

/-- `persistReminders`. -/
def persistReminders (s : State) : State := { s with stored := some (keys s.activeTimeouts) }

/-- `cancelReminder`. -/
def cancelReminder (groupId : JsString) (label : Label) (s : State) : State :=
  match get s.activeTimeouts (keyOf groupId label) with
  | none => s
  | some existing =>
      { s with
        timers := s.timers.filter fun t => decide (t.id ≠ existing)
        activeTimeouts := delete s.activeTimeouts (keyOf groupId label) }

/-- One turn of the loop of `scheduleContributionReminders`. -/
def scheduleOne (reminder : Reminder) (s : State) (label : Label) : State :=
  let fireAt := reminder.deadlineTimestamp - label.ms
  let delay := fireAt - s.now
  if delay ≤ 0 then s
  else
    let s := cancelReminder reminder.groupId label s
    { s with
      timers := s.timers ++ [⟨s.nextId, s.now + timeoutOf delay, reminder, label⟩]
      nextId := s.nextId + 1
      activeTimeouts := set s.activeTimeouts (keyOf reminder.groupId label) s.nextId }

/-- `scheduleContributionReminders`; `permitted` is `canShowNotifications()`. -/
def scheduleContributionReminders (reminder : Reminder) (permitted : Bool) (s : State) : State :=
  if permitted then persistReminders (offsets.foldl (scheduleOne reminder) s) else s

/-- `cancelGroupReminders`. -/
def cancelGroupReminders (groupId : JsString) (s : State) : State :=
  persistReminders (offsets.foldl (fun s label => cancelReminder groupId label s) s)

/-- `cancelAllReminders`. -/
def cancelAllReminders (s : State) : State :=
  { s with
    timers := s.timers.filter fun t => decide (t.id ∉ values s.activeTimeouts)
    activeTimeouts := []
    stored := none }

/-- What `fireReminder` gives to `postToServiceWorker`. -/
def messageOf (reminder : Reminder) (label : Label) : Message where
  title := lit "Contribution Reminder"
  body := if label.text = lit "24h" then
      lit "You have 24 hours to contribute to \"" ++ reminder.groupName ++ lit "\"."
    else lit "Only 1 hour left to contribute to \"" ++ reminder.groupName ++ lit "\"!"
  groupId := reminder.groupId

/-- The callback of a timer. -/
def callback (t : Timer) (s : State) : State :=
  persistReminders { s with
    handed := s.handed ++ [(s.now, messageOf t.reminder t.label)]
    activeTimeouts := delete s.activeTimeouts (keyOf t.reminder.groupId t.label) }

inductive Event where
  | wait (ms : Nat)
  | schedule (reminder : Reminder) (permitted : Bool)
  | cancelGroup (groupId : JsString)
  | cancelAll
  | fire (id : Nat)
  deriving DecidableEq

/-- The event loop runs a timer once it is due. -/
def fire (id : Nat) (s : State) : State :=
  match s.timers.find? fun t => decide (t.id = id ∧ t.due ≤ s.now) with
  | none => s
  | some t => callback t { s with timers := s.timers.filter fun u => decide (u.id ≠ id) }

def step : Event → State → State
  | .wait ms, s => { s with now := s.now + ms }
  | .schedule reminder permitted, s => scheduleContributionReminders reminder permitted s
  | .cancelGroup groupId, s => cancelGroupReminders groupId s
  | .cancelAll, s => cancelAllReminders s
  | .fire id, s => fire id s

/-! ## What it is for -/

/-- One reminder at most for each group and label. -/
@[ext] structure Book where
  now : Int
  next : Nat
  armed : JsString → Label → Option Timer

def Book.clear (b : Book) (groupId : JsString) (label : Label) : Book :=
  { b with armed := fun g l => if g = groupId ∧ l = label then none else b.armed g l }

/-- A reminder armed in place of the one before it, unless its time has passed. -/
def Book.arm (reminder : Reminder) (b : Book) (label : Label) : Book :=
  let delay := reminder.deadlineTimestamp - label.ms - b.now
  if delay ≤ 0 then b
  else
    { b with
      next := b.next + 1
      armed := fun g l => if g = reminder.groupId ∧ l = label then
          some ⟨b.next, b.now + timeoutOf delay, reminder, label⟩ else b.armed g l }

def Book.after : Event → Book → Book
  | .wait ms, b => { b with now := b.now + ms }
  | .schedule reminder permitted, b => if permitted then offsets.foldl (Book.arm reminder) b else b
  | .cancelGroup groupId, b => offsets.foldl (fun b label => b.clear groupId label) b
  | .cancelAll, b => { b with armed := fun _ _ => none }
  | .fire id, b => { b with armed := fun g l => (b.armed g l).filter fun t => decide (¬ (t.id = id ∧ t.due ≤ b.now)) }

def Book.blank (now : Int) : Book := ⟨now, 1, fun _ _ => none⟩

/-! ## The timers are the book's -/

/-- The browser's timers and the map of their ids hold the reminders of the book. -/
structure Keeps (s : State) (b : Book) : Prop where
  now : s.now = b.now
  next : s.nextId = b.next
  timers : ∀ t, t ∈ s.timers ↔ b.armed t.reminder.groupId t.label = some t
  ids : ∀ g l, get s.activeTimeouts (keyOf g l) = (b.armed g l).map Timer.id
  only : ∀ k ∈ keys s.activeTimeouts, ∃ g l, k = keyOf g l
  keys : (keys s.activeTimeouts).Nodup
  own : ∀ g l t, b.armed g l = some t → t.reminder.groupId = g ∧ t.label = l
  old : ∀ g l t, b.armed g l = some t → t.id < b.next
  apart : ∀ g l g' l' t t', b.armed g l = some t → b.armed g' l' = some t' → t.id = t'.id → t = t'

section Steps

variable {s : State} {b : Book} {g : JsString} {l : Label} {t : Timer}

/-- No two groups or labels share a key. -/
theorem keyOf_inj {g' : JsString} {l' : Label} (h : keyOf g l = keyOf g' l') : g = g' ∧ l = l' := by
  cases l <;> cases l'
  · exact ⟨List.append_cancel_right h, rfl⟩
  · exact absurd (congrArg (fun x => x.reverse[1]?) h) (by simp [keyOf, Label.text, lit, unit])
  · exact absurd (congrArg (fun x => x.reverse[1]?) h) (by simp [keyOf, Label.text, lit, unit])
  · exact ⟨List.append_cancel_right h, rfl⟩

/-- A key is of one group and one label. -/
theorem keyOf_eq_iff {g' : JsString} {l' : Label} : keyOf g l = keyOf g' l' ↔ g = g' ∧ l = l' := by
  constructor
  · exact keyOf_inj
  · rintro ⟨rfl, rfl⟩
    rfl

/-- Where no timer runs there is none to clear. -/
theorem clear_of_none (h : b.armed g l = none) : b.clear g l = b := by
  have harmed : (b.clear g l).armed = b.armed := by
    funext g' l'
    show (if g' = g ∧ l' = l then none else b.armed g' l') = b.armed g' l'
    split_ifs with heq
    · rw [heq.1, heq.2, h]
    · rfl
  exact Book.ext rfl rfl harmed

/-- A reminder taken out of the book, its timer and its entry with it. -/
theorem Keeps.remove (h : Keeps s b) (harmed : b.armed g l = some t) (stored : Option (List JsString))
    (handed : List (Int × Message)) :
    Keeps ⟨s.now, delete s.activeTimeouts (keyOf g l), s.timers.filter fun u => decide (u.id ≠ t.id), s.nextId,
      stored, handed⟩ (b.clear g l) := by
  -- a timer that is armed after the removal was armed before
  have hkept : ∀ g' l' u, (b.clear g l).armed g' l' = some u → b.armed g' l' = some u := by
    intro g' l' u hu
    rw [Book.clear] at hu
    dsimp only at hu
    split_ifs at hu
    exact hu
  refine ⟨h.now, h.next, ?_, ?_, ?_, nodup_delete h.keys, ?_, ?_, ?_⟩
  -- the timers of the page are those of the book without the one removed
  · intro u
    show u ∈ s.timers.filter _ ↔ (if u.reminder.groupId = g ∧ u.label = l then none
      else b.armed u.reminder.groupId u.label) = some u
    rw [List.mem_filter, decide_eq_true_iff, h.timers u]
    constructor
    · rintro ⟨hu, hne⟩
      rw [if_neg, hu]
      rintro ⟨hg, hl⟩
      rw [hg, hl, harmed] at hu
      exact hne (congrArg Timer.id (Option.some.inj hu)).symm
    · intro hu
      split_ifs at hu with heq
      refine ⟨hu, fun hid => heq ?_⟩
      rw [h.apart _ _ _ _ u t hu harmed hid]
      exact h.own g l t harmed
  -- so is the table of their ids
  · intro g' l'
    rw [get_delete, h.ids]
    show _ = (if g' = g ∧ l' = l then none else b.armed g' l').map Timer.id
    by_cases heq : g' = g ∧ l' = l
    · rw [if_pos (keyOf_eq_iff.mpr heq), if_pos heq]
      rfl
    · rw [if_neg (fun hk => heq (keyOf_inj hk)), if_neg heq]
  · exact fun k hk => h.only k ((List.filter_sublist.map Prod.fst).mem hk)
  · exact fun g' l' u hu => h.own g' l' u (hkept g' l' u hu)
  · exact fun g' l' u hu => h.old g' l' u (hkept g' l' u hu)
  · exact fun g₁ l₁ g₂ l₂ u u' hu hu' => h.apart g₁ l₁ g₂ l₂ u u' (hkept _ _ u hu) (hkept _ _ u' hu')

/-- To cancel a reminder clears its timer. -/
theorem Keeps.cancelReminder (h : Keeps s b) (g : JsString) (l : Label) :
    Keeps (cancelReminder g l s) (b.clear g l) := by
  have hget := h.ids g l
  rw [PushReminders.cancelReminder]
  cases harmed : b.armed g l with
  | none =>
      rw [harmed] at hget
      rw [hget, clear_of_none harmed]
      exact h
  | some t =>
      rw [harmed] at hget
      rw [hget]
      exact h.remove harmed s.stored s.handed

/-- A reminder put where there is none. -/
theorem Keeps.put (h : Keeps s b) {reminder : Reminder} (hnone : b.armed reminder.groupId l = none) (due : Int) :
    Keeps { s with
        timers := s.timers ++ [⟨s.nextId, due, reminder, l⟩]
        nextId := s.nextId + 1
        activeTimeouts := set s.activeTimeouts (keyOf reminder.groupId l) s.nextId }
      { b with
        next := b.next + 1
        armed := fun g' l' => if g' = reminder.groupId ∧ l' = l then some ⟨b.next, due, reminder, l⟩
          else b.armed g' l' } := by
  -- a timer is the new one, or it was armed before
  have hcases : ∀ g' l' u, (if g' = reminder.groupId ∧ l' = l then some ⟨b.next, due, reminder, l⟩
      else b.armed g' l') = some u → u = ⟨b.next, due, reminder, l⟩ ∧ g' = reminder.groupId ∧ l' = l ∨
        b.armed g' l' = some u := by
    intro g' l' u hu
    split_ifs at hu with heq
    · exact Or.inl ⟨(Option.some.inj hu).symm, heq⟩
    · exact Or.inr hu
  refine ⟨h.now, congrArg (· + 1) h.next, ?_, ?_, ?_, nodup_set h.keys, ?_, ?_, ?_⟩
  -- the timers of the page are those of the book and the new one
  · intro u
    show u ∈ s.timers ++ [⟨s.nextId, due, reminder, l⟩] ↔
      (if u.reminder.groupId = reminder.groupId ∧ u.label = l then some ⟨b.next, due, reminder, l⟩
        else b.armed u.reminder.groupId u.label) = some u
    rw [List.mem_append, List.mem_singleton, h.timers u, h.next]
    constructor
    · rintro (hu | rfl)
      · rw [if_neg, hu]
        rintro ⟨hg, hl⟩
        rw [hg, hl, hnone] at hu
        exact absurd hu.symm (Option.some_ne_none u)
      · rw [if_pos ⟨rfl, rfl⟩]
    · intro hu
      rcases hcases _ _ u hu with ⟨hnew, _⟩ | hbefore
      · exact Or.inr hnew
      · exact Or.inl hbefore
  · intro g' l'
    show get (set s.activeTimeouts (keyOf reminder.groupId l) s.nextId) (keyOf g' l') =
      (if g' = reminder.groupId ∧ l' = l then some ⟨b.next, due, reminder, l⟩ else b.armed g' l').map Timer.id
    rw [get_set, h.ids, h.next]
    by_cases heq : g' = reminder.groupId ∧ l' = l
    · rw [if_pos (keyOf_eq_iff.mpr heq), if_pos heq]
      rfl
    · rw [if_neg (fun hk => heq (keyOf_inj hk)), if_neg heq]
  · intro k hk
    by_cases heq : k = keyOf reminder.groupId l
    · exact ⟨_, _, heq⟩
    · rw [mem_keys_iff, get_set, if_neg heq, ← mem_keys_iff] at hk
      exact h.only k hk
  · intro g' l' u hu
    rcases hcases g' l' u hu with ⟨rfl, hg, hl⟩ | hbefore
    · exact ⟨hg.symm, hl.symm⟩
    · exact h.own g' l' u hbefore
  · intro g' l' u hu
    rcases hcases g' l' u hu with ⟨rfl, _⟩ | hbefore
    · exact Nat.lt_succ_self _
    · exact Nat.lt_succ_of_lt (h.old g' l' u hbefore)
  -- the new id is larger than every old one, so no two share one
  · intro g₁ l₁ g₂ l₂ u u' hu hu' hid
    rcases hcases g₁ l₁ u hu with ⟨rfl, _⟩ | hbefore
    · rcases hcases g₂ l₂ u' hu' with ⟨rfl, _⟩ | hbefore'
      · rfl
      · exact absurd hid.symm (Nat.ne_of_lt (h.old g₂ l₂ u' hbefore'))
    · rcases hcases g₂ l₂ u' hu' with ⟨rfl, _⟩ | hbefore'
      · exact absurd hid (Nat.ne_of_lt (h.old g₁ l₁ u hbefore))
      · exact h.apart g₁ l₁ g₂ l₂ u u' hbefore hbefore' hid

/-- To schedule one arms its timer, or leaves it off if its time has passed. -/
theorem Keeps.scheduleOne (h : Keeps s b) (reminder : Reminder) (l : Label) :
    Keeps (scheduleOne reminder s l) (b.arm reminder l) := by
  rw [PushReminders.scheduleOne, Book.arm]
  dsimp only
  rw [h.now]
  -- a reminder whose time has passed is left out
  by_cases hpast : reminder.deadlineTimestamp - l.ms - b.now ≤ 0
  · rw [if_pos hpast, if_pos hpast]
    exact h
  · rw [if_neg hpast, if_neg hpast]
    -- else the timer of the key, if any, is cleared first
    have hcancelled := h.cancelReminder reminder.groupId l
    have hnone : (b.clear reminder.groupId l).armed reminder.groupId l = none := if_pos ⟨rfl, rfl⟩
    have hput := hcancelled.put hnone (b.now + timeoutOf (reminder.deadlineTimestamp - l.ms - b.now))
    have hbook : (fun g' l' => if g' = reminder.groupId ∧ l' = l then
        some (⟨b.next, b.now + timeoutOf (reminder.deadlineTimestamp - l.ms - b.now), reminder, l⟩ : Timer)
          else (b.clear reminder.groupId l).armed g' l') = fun g' l' => if g' = reminder.groupId ∧ l' = l then
        some ⟨b.next, b.now + timeoutOf (reminder.deadlineTimestamp - l.ms - b.now), reminder, l⟩
          else b.armed g' l' := by
      funext g' l'
      by_cases heq : g' = reminder.groupId ∧ l' = l
      · rw [if_pos heq, if_pos heq]
      · rw [if_neg heq, if_neg heq]
        exact if_neg heq
    have hnext : (b.clear reminder.groupId l).next = b.next := rfl
    have hnow : (PushReminders.cancelReminder reminder.groupId l s).now = b.now := hcancelled.now
    rw [hnext, hbook, hnow] at hput
    rw [hnow]
    exact hput

/-- To store the reminders arms nothing. -/
theorem Keeps.persist (h : Keeps s b) : Keeps (persistReminders s) b :=
  ⟨h.now, h.next, h.timers, h.ids, h.only, h.keys, h.own, h.old, h.apart⟩

/-- To cancel all clears all timers. -/
theorem Keeps.cancelAll (h : Keeps s b) : Keeps (cancelAllReminders s) { b with armed := fun _ _ => none } := by
  have hempty : s.timers.filter (fun t => decide (t.id ∉ values s.activeTimeouts)) = [] := by
    rw [List.filter_eq_nil_iff]
    intro t ht hout
    refine of_decide_eq_true hout ((mem_values_iff h.keys).mpr ⟨keyOf t.reminder.groupId t.label, ?_⟩)
    rw [h.ids, (h.timers t).mp ht]
    rfl
  refine ⟨h.now, h.next, ?_, fun _ _ => rfl, ?_, List.nodup_nil, ?_, ?_, ?_⟩
  · intro t
    show t ∈ s.timers.filter _ ↔ none = some t
    rw [hempty]
    exact ⟨fun ht => absurd ht List.not_mem_nil, fun ht => absurd ht.symm (Option.some_ne_none t)⟩
  · exact fun _ hk => absurd hk List.not_mem_nil
  · exact fun _ _ t ht => absurd ht.symm (Option.some_ne_none t)
  · exact fun _ _ t ht => absurd ht.symm (Option.some_ne_none t)
  · exact fun _ _ _ _ t _ ht _ => absurd ht.symm (Option.some_ne_none t)

/-- The timer the event loop finds is in the book. -/
theorem Keeps.found (h : Keeps s b) {id : Nat}
    (hfind : s.timers.find? (fun t => decide (t.id = id ∧ t.due ≤ s.now)) = some t) :
    b.armed t.reminder.groupId t.label = some t ∧ t.id = id ∧ t.due ≤ s.now := by
  have hdue := List.find?_some hfind
  exact ⟨(h.timers t).mp (List.mem_of_find?_eq_some hfind), of_decide_eq_true hdue⟩

/-- A timer fires once, and is gone. -/
theorem Keeps.fire (h : Keeps s b) (id : Nat) : Keeps (fire id s) (b.after (.fire id)) := by
  rw [PushReminders.fire]
  cases hfind : s.timers.find? (fun t => decide (t.id = id ∧ t.due ≤ s.now)) with
  | none =>
      -- no timer of that number is due, so the book keeps what it has
      have hbook : b.after (.fire id) = b := by
        refine Book.ext rfl rfl ?_
        funext g l
        show (b.armed g l).filter _ = b.armed g l
        cases harmed : b.armed g l with
        | none => rfl
        | some t =>
            have hin : t ∈ s.timers := by
              rw [h.timers, (h.own g l t harmed).1, (h.own g l t harmed).2]
              exact harmed
            have hnot := List.find?_eq_none.mp hfind t hin
            rw [decide_eq_true_iff, h.now] at hnot
            exact if_pos (decide_eq_true hnot)
      rw [hbook]
      exact h
  | some t =>
      obtain ⟨harmed, hid, hdue⟩ := h.found hfind
      have hbook : b.after (.fire id) = b.clear t.reminder.groupId t.label := by
        refine Book.ext rfl rfl ?_
        funext g l
        show (b.armed g l).filter _ = if g = t.reminder.groupId ∧ l = t.label then none else b.armed g l
        cases hother : b.armed g l with
        | none => rw [ite_self]; rfl
        | some u =>
            by_cases heq : g = t.reminder.groupId ∧ l = t.label
            · rw [heq.1, heq.2, harmed] at hother
              obtain rfl := Option.some.inj hother
              rw [if_pos heq, Option.filter_some, if_neg]
              rw [decide_eq_true_iff]
              exact not_not_intro ⟨hid, h.now ▸ hdue⟩
            · rw [if_neg heq, Option.filter_some, if_pos]
              rw [decide_eq_true_iff]
              refine fun hboth => heq ?_
              obtain rfl := h.apart _ _ _ _ u t hother harmed (hboth.1.trans hid.symm)
              obtain ⟨hg, hl⟩ := h.own g l u hother
              exact ⟨hg.symm, hl.symm⟩
      rw [hbook, ← hid]
      exact (h.remove harmed s.stored _).persist

/-- A reminder of the book that is due is handed over when its timer runs. -/
theorem Keeps.fires (h : Keeps s b) (harmed : b.armed g l = some t) (hdue : t.due ≤ s.now) :
    (PushReminders.fire t.id s).handed = s.handed ++ [(s.now, messageOf t.reminder t.label)] := by
  rw [PushReminders.fire]
  cases hfind : s.timers.find? (fun u => decide (u.id = t.id ∧ u.due ≤ s.now)) with
  | none =>
      have hin : t ∈ s.timers := by
        rw [h.timers, (h.own g l t harmed).1, (h.own g l t harmed).2]
        exact harmed
      exact absurd (decide_eq_true ⟨rfl, hdue⟩) (List.find?_eq_none.mp hfind t hin)
  | some u =>
      obtain ⟨hu, hid, _⟩ := h.found hfind
      obtain rfl := h.apart _ _ _ _ u t hu harmed hid
      rfl

/-- One event does the same to the page and to the book. -/
theorem Keeps.step (h : Keeps s b) (x : Event) : Keeps (step x s) (b.after x) := by
  cases x with
  | wait ms =>
      exact ⟨congrArg (· + (ms : Int)) h.now, h.next, h.timers, h.ids, h.only, h.keys, h.own, h.old, h.apart⟩
  | schedule reminder permitted =>
      cases permitted with
      | false => exact h
      | true => exact ((h.scheduleOne reminder .day).scheduleOne reminder .hour).persist
  | cancelGroup g => exact ((h.cancelReminder g .day).cancelReminder g .hour).persist
  | cancelAll => exact h.cancelAll
  | fire id => exact h.fire id

/-- A page that was just opened has armed nothing. -/
theorem keeps_start (now : Int) : Keeps (start now) (Book.blank now) :=
  ⟨rfl, rfl, fun t => ⟨fun ht => absurd ht List.not_mem_nil, fun ht => absurd ht.symm (Option.some_ne_none t)⟩,
    fun _ _ => rfl, fun _ hk => absurd hk List.not_mem_nil, List.nodup_nil,
    fun _ _ t ht => absurd ht.symm (Option.some_ne_none t), fun _ _ t ht => absurd ht.symm (Option.some_ne_none t),
    fun _ _ _ _ t _ ht _ => absurd ht.symm (Option.some_ne_none t)⟩

/-- The page keeps the book along every run. -/
theorem Keeps.exec (h : Keeps s b) (xs : List Event) :
    Keeps (Trace.exec PushReminders.step xs s) (Trace.exec Book.after xs b) := by
  induction xs generalizing s b with
  | nil => exact h
  | cons x xs ih => exact ih (h.step x)

/-- What an event hands over: the message of a timer of the book that is due. -/
theorem Keeps.handed_step (h : Keeps s b) (x : Event) : (PushReminders.step x s).handed = s.handed ∨
    ∃ t, x = .fire t.id ∧ b.armed t.reminder.groupId t.label = some t ∧ t.due ≤ s.now ∧
      (PushReminders.step x s).handed = s.handed ++ [(s.now, messageOf t.reminder t.label)] := by
  have hcancel : ∀ s g l, (PushReminders.cancelReminder g l s).handed = s.handed := by
    intro s g l
    rw [PushReminders.cancelReminder]
    cases get s.activeTimeouts (keyOf g l) <;> rfl
  have hschedule : ∀ s reminder l, (PushReminders.scheduleOne reminder s l).handed = s.handed := by
    intro s reminder l
    rw [PushReminders.scheduleOne]
    dsimp only
    split_ifs
    · rfl
    · exact hcancel s reminder.groupId l
  -- only a timer that fires hands anything over
  cases x with
  | wait ms => exact Or.inl rfl
  | schedule reminder permitted =>
      cases permitted with
      | false => exact Or.inl rfl
      | true => exact Or.inl ((hschedule _ reminder .hour).trans (hschedule s reminder .day))
  | cancelGroup g => exact Or.inl ((hcancel _ g .hour).trans (hcancel s g .day))
  | cancelAll => exact Or.inl rfl
  | fire id =>
      rw [PushReminders.step, PushReminders.fire]
      cases hfind : s.timers.find? (fun t => decide (t.id = id ∧ t.due ≤ s.now)) with
      | none => exact Or.inl rfl
      | some t =>
          obtain ⟨harmed, hid, hdue⟩ := h.found hfind
          exact Or.inr ⟨t, congrArg Event.fire hid.symm, harmed, hdue, rfl⟩

end Steps

/-! ## Runs -/

section Runs

variable {s : State} {b : Book} {g : JsString} {l : Label} {t : Timer} {reminder : Reminder}

/-- `localStorage` has the keys of the map. -/
theorem stored_step (x : Event) (h : s.stored.getD [] = keys s.activeTimeouts) :
    (step x s).stored.getD [] = keys (step x s).activeTimeouts := by
  cases x with
  | wait ms => exact h
  | schedule reminder permitted =>
      cases permitted with
      | false => exact h
      | true => rfl
  | cancelGroup g => rfl
  | cancelAll => rfl
  | fire id =>
      rw [step, fire]
      cases s.timers.find? (fun t => decide (t.id = id ∧ t.due ≤ s.now)) with
      | none => exact h
      | some t => rfl

/-- **ONE TIMER EACH**: after any run the pending timers are exactly the reminders of the book,
    at most one for each group and label; the map has exactly their keys, with their ids, and
    `localStorage` the keys of the map. -/
theorem pending_exact (now : Int) (xs : List Event) :
    (∀ t, t ∈ (exec step xs (start now)).timers ↔
        (exec Book.after xs (Book.blank now)).armed t.reminder.groupId t.label = some t) ∧
      (∀ g l, get (exec step xs (start now)).activeTimeouts (keyOf g l) =
        ((exec Book.after xs (Book.blank now)).armed g l).map Timer.id) ∧
      (∀ k ∈ keys (exec step xs (start now)).activeTimeouts, ∃ t ∈ (exec step xs (start now)).timers,
        k = keyOf t.reminder.groupId t.label) ∧
      (exec step xs (start now)).stored.getD [] = keys (exec step xs (start now)).activeTimeouts := by
  have h := (keeps_start now).exec xs
  refine ⟨h.timers, h.ids, ?_, ?_⟩
  · intro k hk
    obtain ⟨g, l, rfl⟩ := h.only k hk
    rw [mem_keys_iff, h.ids] at hk
    cases harmed : (exec Book.after xs (Book.blank now)).armed g l with
    | none => rw [harmed] at hk; exact absurd hk Bool.false_ne_true
    | some t =>
        obtain ⟨hg, hl⟩ := h.own g l t harmed
        refine ⟨t, ?_, by rw [hg, hl]⟩
        rw [h.timers, hg, hl]
        exact harmed
  · exact exec_invariant (C := fun _ _ => True) (I := fun s => s.stored.getD [] = keys s.activeTimeouts)
      (fun x s _ hs => stored_step x hs) rfl (along_true step xs (start now))

/-- The text says which reminder it is. -/
theorem messageOf_inj {other : Reminder} {l' : Label} (h : messageOf other l' = messageOf reminder l) :
    other.groupId = reminder.groupId ∧ l' = l := by
  refine ⟨congrArg Message.groupId h, ?_⟩
  have hbody := congrArg (fun m : Message => m.body.head?) h
  cases l <;> cases l'
  · rfl
  · exact absurd hbody (by simp [messageOf, Label.text, lit, unit])
  · exact absurd hbody (by simp [messageOf, Label.text, lit, unit])
  · rfl

/-- Only a scheduling arms a reminder. -/
theorem armed_after {x : Event} (hx : ∀ r, r.groupId = g → x ≠ .schedule r true)
    (ht : (b.after x).armed g l = some t) : b.armed g l = some t := by
  have hclear : ∀ (b : Book) (group : JsString) (label : Label), (b.clear group label).armed g l = some t →
      b.armed g l = some t := by
    intro b group label h
    rw [Book.clear] at h
    dsimp only at h
    split_ifs at h
    exact h
  -- a schedule for another group arms nothing here
  have harm : ∀ (b : Book) (r : Reminder) (label : Label), r.groupId ≠ g → (b.arm r label).armed g l = some t →
      b.armed g l = some t := by
    intro b r label hne h
    rw [Book.arm] at h
    split_ifs at h with hpast
    · exact h
    · dsimp only at h
      rwa [if_neg (fun heq => hne heq.1.symm)] at h
  cases x with
  | wait ms => exact ht
  | schedule r permitted =>
      cases permitted with
      | false => exact ht
      -- both labels are armed, one after the other
      | true =>
          have hne : r.groupId ≠ g := fun hg => hx r hg rfl
          exact harm b r .day hne (harm _ r .hour hne ht)
  | cancelGroup group => exact hclear b group .day (hclear _ group .hour ht)
  | cancelAll => exact absurd ht.symm (Option.some_ne_none t)
  | fire id => exact (Option.filter_eq_some_iff.mp ht).1

/-- The messages of one group. -/
def messagesOf (s : State) (g : JsString) : List (Int × Message) :=
  s.handed.filter fun p => decide (p.2.groupId = g)

/-- A group without a reminder gets no message until it is scheduled. -/
theorem Keeps.silent (h : Keeps s b) (hnone : ∀ l, b.armed g l = none) {xs : List Event}
    (hquiet : ∀ r, r.groupId = g → Event.schedule r true ∉ xs) :
    messagesOf (Trace.exec PushReminders.step xs s) g = messagesOf s g := by
  induction xs generalizing s b with
  | nil => rfl
  | cons x xs ih =>
      have hx : ∀ r, r.groupId = g → x ≠ .schedule r true := fun r hr heq => hquiet r hr (heq ▸ List.mem_cons_self)
      have hstill : ∀ l, (b.after x).armed g l = none := by
        intro l
        cases harmed : (b.after x).armed g l with
        | none => rfl
        | some t => exact absurd ((hnone l).symm.trans (armed_after hx harmed)).symm (Option.some_ne_none t)
      rw [Trace.exec_cons, ih (h.step x) hstill fun r hr hin => hquiet r hr (List.mem_cons_of_mem x hin)]
      rcases h.handed_step x with hsame | ⟨t, _, harmed, _, hhanded⟩
      · rw [messagesOf, hsame]
        rfl
      · have hne : ¬ t.reminder.groupId = g := by
          intro hg
          rw [hg, hnone] at harmed
          exact absurd harmed.symm (Option.some_ne_none t)
        rw [messagesOf, hhanded, List.filter_append, List.filter_cons_of_neg, List.filter_nil, List.append_nil]
        · rfl
        · rw [decide_eq_true_iff]
          exact hne

/-- What is handed over from here on of one group and label is what is armed now, once it is due. -/
theorem Keeps.handed_exec (h : Keeps s b) {xs : List Event}
    (hquiet : ∀ r, r.groupId = g → Event.schedule r true ∉ xs) :
    ∃ more, (Trace.exec PushReminders.step xs s).handed = s.handed ++ more ∧
      ∀ p ∈ more, ∀ r, r.groupId = g → p.2 = messageOf r l → ∃ t, b.armed g l = some t ∧ t.due ≤ p.1 := by
  -- each event hands over what is due by then, and arms nothing for this group
  induction xs generalizing s b with
  | nil => exact ⟨[], (List.append_nil _).symm, fun p hp => absurd hp List.not_mem_nil⟩
  | cons x xs ih =>
      have hx : ∀ r, r.groupId = g → x ≠ .schedule r true := fun r hr heq => hquiet r hr (heq ▸ List.mem_cons_self)
      obtain ⟨more, hmore, hdue⟩ := ih (h.step x) fun r hr hin => hquiet r hr (List.mem_cons_of_mem x hin)
      have hlater : ∀ p ∈ more, ∀ r, r.groupId = g → p.2 = messageOf r l →
          ∃ t, b.armed g l = some t ∧ t.due ≤ p.1 := by
        intro p hp r hr hm
        obtain ⟨t, harmed, hle⟩ := hdue p hp r hr hm
        exact ⟨t, armed_after hx harmed, hle⟩
      rw [Trace.exec_cons, hmore]
      rcases h.handed_step x with hsame | ⟨t, _, harmed, hle, hhanded⟩
      · exact ⟨more, by rw [hsame], hlater⟩
      · refine ⟨(s.now, messageOf t.reminder t.label) :: more, ?_, ?_⟩
        · rw [hhanded, List.append_assoc, List.singleton_append]
        · intro p hp r hr hm
          rcases List.mem_cons.mp hp with rfl | hp'
          · obtain ⟨hg, hl⟩ := messageOf_inj hm
            refine ⟨t, ?_, hle⟩
            rw [← hr, ← hg, ← hl]
            exact harmed
          · exact hlater p hp' r hr hm

end Runs

/-- **CANCELLED IS SILENT**: after its reminders are cancelled, or all are, a group gets no
    message until it is scheduled again, whatever else is scheduled, cancelled or fires. -/
theorem silent_after_cancel (now : Int) (pre post : List Event) (cancel : Event) (g : JsString)
    (hcancel : cancel = .cancelGroup g ∨ cancel = .cancelAll)
    (hquiet : ∀ r, r.groupId = g → Event.schedule r true ∉ post) :
    messagesOf (exec step (pre ++ cancel :: post) (start now)) g = messagesOf (exec step pre (start now)) g := by
  have h := (keeps_start now).exec pre
  have hnone : ∀ l, ((exec Book.after pre (Book.blank now)).after cancel).armed g l = none := by
    intro l
    rcases hcancel with rfl | rfl
    · show (if g = g ∧ l = .hour then none else if g = g ∧ l = .day then none else _) = none
      cases l with
      | day => rw [if_neg (fun heq => Label.noConfusion heq.2), if_pos ⟨rfl, rfl⟩]
      | hour => exact if_pos ⟨rfl, rfl⟩
    · rfl
  have hhanded : (step cancel (exec step pre (start now))).handed = (exec step pre (start now)).handed := by
    rcases h.handed_step cancel with hsame | ⟨t, hfire, _⟩
    · exact hsame
    · rcases hcancel with rfl | rfl
      · exact Event.noConfusion hfire
      · exact Event.noConfusion hfire
  rw [exec_append, exec_cons, (h.step cancel).silent hnone hquiet, messagesOf, hhanded]
  rfl

/-- The messages of group `7`, before and after it is cancelled. -/
theorem silent_after_cancel_seven :
    messagesOf (exec step ([.schedule ⟨lit "7", lit "Rent", 90000000⟩ true, .wait 3600000, .fire 1] ++
        .cancelGroup (lit "7") :: [.wait 90000000, .fire 2]) (start 0)) (lit "7") =
      [(3600000, messageOf ⟨lit "7", lit "Rent", 90000000⟩ .day)] :=
  (silent_after_cancel 0 _ [.wait 90000000, .fire 2] (.cancelGroup (lit "7")) (lit "7") (Or.inl rfl)
    (fun _ _ => by simp)).trans (by decide)

/-- A delay of one unit short of `2 ^ 31` is kept; from there on it falls short. -/
theorem timeoutOf_lt_iff {delay : Int} (hpos : 0 < delay) : timeoutOf delay < delay ↔ 2 ^ 31 ≤ delay := by
  rw [timeoutOf, Int.bmod_def]
  omega

section Arming

variable {b : Book} {reminder : Reminder} {l : Label}

/-- To arm a timer takes no time. -/
theorem arm_now (reminder : Reminder) (l : Label) : (b.arm reminder l).now = b.now := by
  rw [Book.arm]
  split_ifs <;> rfl

/-- A timer is armed for its offset before the deadline, if that is still ahead. -/
theorem arm_self (hahead : b.now < reminder.deadlineTimestamp - l.ms) :
    (b.arm reminder l).armed reminder.groupId l =
      some ⟨b.next, b.now + timeoutOf (reminder.deadlineTimestamp - l.ms - b.now), reminder, l⟩ := by
  rw [Book.arm]
  rw [if_neg (by omega)]
  exact if_pos ⟨rfl, rfl⟩

/-- The timers of other labels stay. -/
theorem arm_other {l' : Label} (hne : l' ≠ l) (g : JsString) :
    (b.arm reminder l).armed g l' = b.armed g l' := by
  rw [Book.arm]
  split_ifs
  · rfl
  · exact if_neg fun heq => hne heq.2

/-- What a scheduling arms for an offset that is still ahead. -/
theorem armed_schedule (hahead : b.now < reminder.deadlineTimestamp - l.ms) :
    ∃ id, (b.after (.schedule reminder true)).armed reminder.groupId l =
      some ⟨id, b.now + timeoutOf (reminder.deadlineTimestamp - l.ms - b.now), reminder, l⟩ := by
  show ∃ id, ((b.arm reminder .day).arm reminder .hour).armed reminder.groupId l = _
  cases l with
  | day =>
      rw [arm_other (fun h => Label.noConfusion h)]
      exact ⟨_, arm_self hahead⟩
  | hour =>
      have hnow := arm_now (b := b) reminder .day
      refine ⟨(b.arm reminder .day).next, ?_⟩
      rw [arm_self (hnow.symm ▸ hahead), hnow]

end Arming

/-- **EARLY FROM 2^31 ON**: a reminder whose time is ahead can be handed over before that time, with
    nothing more scheduled for its group, exactly if its time is `2 ^ 31` milliseconds or more
    ahead (24.8 days): then the browser wraps the delay. -/
theorem early_iff (now : Int) (xs : List Event) (reminder : Reminder) (l : Label)
    (hahead : (exec step xs (start now)).now < reminder.deadlineTimestamp - l.ms) :
    (∃ ys more, (∀ r, r.groupId = reminder.groupId → Event.schedule r true ∉ ys) ∧
      (exec step (xs ++ .schedule reminder true :: ys) (start now)).handed =
        (exec step (xs ++ [.schedule reminder true]) (start now)).handed ++ more ∧
      ∃ t, (t, messageOf reminder l) ∈ more ∧ t < reminder.deadlineTimestamp - l.ms) ↔
      2 ^ 31 ≤ reminder.deadlineTimestamp - l.ms - (exec step xs (start now)).now := by
  have h := (keeps_start now).exec xs
  have hscheduled := h.step (.schedule reminder true)
  rw [h.now] at hahead ⊢
  have hpos : 0 < reminder.deadlineTimestamp - l.ms - (exec Book.after xs (Book.blank now)).now := by omega
  obtain ⟨id, harmed⟩ := armed_schedule hahead
  rw [← timeoutOf_lt_iff hpos]
  -- what is handed over early was due by a delay that overflowed
  constructor
  · rintro ⟨ys, more, hquiet, hhanded, t, hin, hearly⟩
    obtain ⟨more', hmore, hdue⟩ := hscheduled.handed_exec (l := l) hquiet
    rw [exec_append, exec_cons, hmore, exec_append, exec_cons, exec_nil] at hhanded
    obtain rfl := List.append_cancel_left hhanded
    obtain ⟨u, hu, hle⟩ := hdue _ hin reminder rfl rfl
    obtain rfl := Option.some.inj (harmed.symm.trans hu)
    dsimp only at hle
    omega
  -- after the shortened delay the timer fires
  · intro hshort
    obtain ⟨ms, hms⟩ := Int.eq_ofNat_of_zero_le
      (le_max_left 0 ((reminder.deadlineTimestamp - l.ms - (exec Book.after xs (Book.blank now)).now).bmod (2 ^ 32)))
    rw [← timeoutOf] at hms
    rw [hms] at harmed hshort
    have hwaited := hscheduled.step (.wait ms)
    have hnow : (step (.wait ms) (step (.schedule reminder true) (exec step xs (start now)))).now =
        (exec Book.after xs (Book.blank now)).now + ms := by
      show (step (.schedule reminder true) (exec step xs (start now))).now + (ms : Int) = _
      rw [hscheduled.now]
      show ((Book.arm reminder (Book.arm reminder _ .day) .hour).now + (ms : Int)) = _
      rw [arm_now, arm_now]
    have hfired := hwaited.fires harmed (Int.le_of_eq hnow.symm)
    rw [hnow] at hfired
    refine ⟨[.wait ms, .fire id], [((exec Book.after xs (Book.blank now)).now + ms, messageOf reminder l)], ?_, ?_,
      (exec Book.after xs (Book.blank now)).now + ms, List.mem_singleton_self _, by omega⟩
    · exact fun _ _ => by simp
    · rw [exec_append, exec_append]
      exact hfired

/-- The day's reminder of a deadline `2 ^ 31` milliseconds and a day away. -/
theorem early_iff_month : ∃ ys more, (∀ r, r.groupId = lit "7" → Event.schedule r true ∉ ys) ∧
    (exec step ([] ++ .schedule ⟨lit "7", lit "Rent", 2233883648⟩ true :: ys) (start 0)).handed =
      (exec step ([] ++ [.schedule ⟨lit "7", lit "Rent", 2233883648⟩ true]) (start 0)).handed ++ more ∧
    ∃ t, (t, messageOf ⟨lit "7", lit "Rent", 2233883648⟩ .day) ∈ more ∧ t < 2233883648 - Label.ms .day :=
  (early_iff 0 [] ⟨lit "7", lit "Rent", 2233883648⟩ .day (by decide)).mpr (by decide)

end PushReminders
