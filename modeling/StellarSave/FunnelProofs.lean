import Mathlib.Data.Finset.Card
import Mathlib.Data.Finset.Image
import StellarSave.Binary64Proofs
import StellarSave.IsoProofs
import StellarSave.OrderedMapProofs
import StellarSave.UnitsProofs

/-! # Funnels — who got how far, day by day

    Events are kept as one entry for each user and day; a funnel counts entries.  A segment is
    analysed in the same store, emptied for it and filled again afterwards. -/

namespace Funnel

open Units OrderedMap

inductive FunnelStage where
  | landing
  | wallet_connect
  | group_view
  | group_join
  | first_contribution
  | payout_received
  deriving DecidableEq, Repr

/-- An attribute's value; a number stands by its text. -/
inductive Attribute where
  | text (s : JsString)
  | number (text : JsString)
  | flag (b : Bool)
  deriving DecidableEq, Repr

structure FunnelEvent where
  userId : JsString
  stage : FunnelStage
  timestamp : Int
  attributes : Option (List (JsString × Attribute))
  deriving DecidableEq, Repr

structure CohortEntry where
  cohortDate : JsString
  userId : JsString
  stages : List (FunnelStage × Int)
  deriving DecidableEq, Repr

/-- `FUNNELS`. -/
def FUNNELS : List (JsString × List FunnelStage) :=
  [(lit "onboarding", [.landing, .wallet_connect, .group_view, .group_join]),
    (lit "activation", [.group_join, .first_contribution]),
    (lit "full_cycle", [.landing, .wallet_connect, .group_join, .first_contribution, .payout_received])]

/-- The type of `cohortStore`. -/
abbrev Store := List (JsString × CohortEntry)

/-- `new Date(timestamp).toISOString().slice(0, 10)`, which throws outside the range of a date. -/
def dateOf (timestamp : Int) : Option JsString :=
  if h : timestamp.natAbs ≤ 8640000000000000 then
    some (((IsoDate.toISOString ⟨timestamp, h⟩).toList.take 10).map unit)
  else none

/-- The `${cohortDate}:${userId}` of the store. -/
def keyOf (cohortDate userId : JsString) : JsString := cohortDate ++ unit ':' :: userId

/-- `trackEvent`. -/
def trackEvent (event : FunnelEvent) (cohortStore : Store) : Option Store :=
  (dateOf event.timestamp).map fun cohortDate =>
    let key := keyOf cohortDate event.userId
    let entry := (get cohortStore key).getD ⟨cohortDate, event.userId, []⟩
    set cohortStore key { entry with stages := set entry.stages event.stage event.timestamp }

structure Row where
  stage : FunnelStage
  users : Nat
  conversionRate : ℚ
  deriving DecidableEq, Repr

/-- The conversion of a stage, its quotient rounded to a double. -/
def row (stage : FunnelStage) (users prev : Nat) : Row :=
  ⟨stage, users, if 0 < prev then Binary64.nearest (users / prev) else 0⟩

/-- An entry has a stage. -/
def has (stage : FunnelStage) (entry : CohortEntry) : Bool := (get entry.stages stage).isSome

/-- A date between two, as texts. -/
def between (since until_ date : JsString) : Bool := decide (since ≤ date) && decide (date ≤ until_)

/-- `analyzeFunnel`, of the stages of a funnel. -/
def analyzeStages (stages : List FunnelStage) (since until_ : JsString) (cohortStore : Store) : List Row :=
  let entries := (values cohortStore).filter fun e => between since until_ e.cohortDate
  stages.mapIdx fun i stage =>
    let users := (entries.filter (has stage)).length
    let prev := match i with
      | 0 => entries.length
      | i + 1 => match stages[i]? with
        | none => 0
        | some before => (entries.filter (has before)).length
    row stage users prev

/-- `analyzeFunnel`: a name that is no funnel has no stages to map over, and throws. -/
def analyzeFunnel (funnelName since until_ : JsString) (cohortStore : Store) : Option (List Row) :=
  (get FUNNELS funnelName).map fun stages => analyzeStages stages since until_ cohortStore

/-- The store after some calls of `trackEvent`; one that throws leaves it. -/
def storeOf (events : List FunnelEvent) : Store :=
  events.foldl (fun store e => (trackEvent e store).getD store) []

/-! ## What it is for -/

/-- The day and the user of an event. -/
def visit (e : FunnelEvent) : Option (JsString × JsString) := (dateOf e.timestamp).map fun d => (d, e.userId)

/-- The users of some events on the days between two, each once a day. -/
def visits (since until_ : JsString) (events : List FunnelEvent) : Finset (JsString × JsString) :=
  ((events.filterMap visit).filter fun v => between since until_ v.1).toFinset

/-- Those with an event of a stage. -/
def reached (since until_ : JsString) (events : List FunnelEvent) (stage : FunnelStage) : Finset (JsString × JsString) :=
  visits since until_ (events.filter fun e => decide (e.stage = stage))

/-- The funnel: each stage against the one before it. -/
def report (stages : List FunnelStage) (since until_ : JsString) (events : List FunnelEvent) : List Row :=
  stages.mapIdx fun i stage =>
    row stage (reached since until_ events stage).card (match i with
      | 0 => (visits since until_ events).card
      | i + 1 => match stages[i]? with
        | none => 0
        | some before => (reached since until_ events before).card)

/-! ## The store keeps the visits -/

section Store

variable {store : Store} {events : List FunnelEvent} {d u : JsString} {stage : FunnelStage}

/-- A day's text has ten units, whatever the year. -/
theorem length_of_dateOf {timestamp : Int} (h : dateOf timestamp = some d) : d.length = 10 := by
  rw [dateOf] at h
  split_ifs at h with hrange
  obtain rfl := Option.some.inj h
  have hyear : 4 ≤ (IsoDate.yearText (IsoDate.split timestamp).year).length := by
    rw [IsoDate.yearText]
    split_ifs
    · rw [Text.padded_length]
    · rw [List.length_cons, Text.padded_length]
      decide
  rw [List.length_map, List.length_take, IsoDate.toISOString, String.toList_ofList, IsoDate.fieldsText]
  simp only [List.length_append, List.length_cons, Text.padded_length]
  omega

/-- No two users of two days share a key. -/
theorem keyOf_inj {d' u' : JsString} (hd : d.length = 10) (hd' : d'.length = 10)
    (h : keyOf d u = keyOf d' u') : d = d' ∧ u = u' := by
  obtain ⟨hdate, huser⟩ := List.append_inj h (hd.trans hd'.symm)
  exact ⟨hdate, (List.cons.inj huser).2⟩

/-- The entries are those of the events seen. -/
structure Tracks (store : Store) (events : List FunnelEvent) : Prop where
  nodup : (keys store).Nodup
  keyed : ∀ k v, get store k = some v → k = keyOf v.cohortDate v.userId ∧ v.cohortDate.length = 10
  seen : ∀ d u, d.length = 10 → ((get store (keyOf d u)).isSome ↔ ∃ e ∈ events, visit e = some (d, u))
  reached : ∀ d u stage, d.length = 10 → ((∃ v, get store (keyOf d u) = some v ∧ has stage v = true) ↔
    ∃ e ∈ events, visit e = some (d, u) ∧ e.stage = stage)

theorem tracks_nil : Tracks [] [] :=
  ⟨List.nodup_nil, fun _ v h => absurd h.symm (Option.some_ne_none v),
    fun _ _ _ => ⟨fun h => absurd h Bool.false_ne_true, fun ⟨_, h, _⟩ => absurd h List.not_mem_nil⟩,
    fun _ _ _ _ => ⟨fun ⟨v, h, _⟩ => absurd h.symm (Option.some_ne_none v),
      fun ⟨_, h, _⟩ => absurd h List.not_mem_nil⟩⟩

/-- An event that throws is not seen. -/
theorem Tracks.skip (h : Tracks store events) {e : FunnelEvent} (he : dateOf e.timestamp = none) :
    Tracks store (events ++ [e]) := by
  -- an event without a date visits nothing, and no entry says otherwise
  have hvisit : visit e = none := by
    rw [visit, he]
    rfl
  refine ⟨h.nodup, h.keyed, ?_, ?_⟩
  · intro d u hd
    rw [h.seen d u hd]
    constructor
    · rintro ⟨x, hx, hday⟩
      exact ⟨x, List.mem_append_left _ hx, hday⟩
    · rintro ⟨x, hx, hday⟩
      rcases List.mem_append.mp hx with hbefore | hlast
      · exact ⟨x, hbefore, hday⟩
      · rw [List.mem_singleton.mp hlast, hvisit] at hday
        exact absurd hday.symm (Option.some_ne_none _)
  · intro d u stage hd
    rw [h.reached d u stage hd]
    constructor
    · rintro ⟨x, hx, hday⟩
      exact ⟨x, List.mem_append_left _ hx, hday⟩
    · rintro ⟨x, hx, hday, hstage⟩
      rcases List.mem_append.mp hx with hbefore | hlast
      · exact ⟨x, hbefore, hday, hstage⟩
      · rw [List.mem_singleton.mp hlast, hvisit] at hday
        exact absurd hday.symm (Option.some_ne_none _)

/-- The entry an event leaves. -/
def entryAfter (store : Store) (e : FunnelEvent) (day : JsString) : CohortEntry :=
  let entry := (get store (keyOf day e.userId)).getD ⟨day, e.userId, []⟩
  { entry with stages := set entry.stages e.stage e.timestamp }

theorem has_entryAfter (h : Tracks store events) {e : FunnelEvent} {day : JsString} (hday : day.length = 10) :
    has stage (entryAfter store e day) = true ↔
      (∃ x ∈ events, visit x = some (day, e.userId) ∧ x.stage = stage) ∨ e.stage = stage := by
  show (get (set ((get store (keyOf day e.userId)).getD ⟨day, e.userId, []⟩).stages e.stage e.timestamp) stage).isSome
    = true ↔ _
  rw [get_set, ← h.reached day e.userId stage hday]
  by_cases hstage : stage = e.stage
  · rw [if_pos hstage]
    exact ⟨fun _ => Or.inr hstage.symm, fun _ => rfl⟩
  · rw [if_neg hstage]
    constructor
    · intro hhas
      cases hget : get store (keyOf day e.userId) with
      | none => rw [hget] at hhas; exact absurd hhas Bool.false_ne_true
      | some v => exact Or.inl ⟨v, rfl, by rw [hget] at hhas; exact hhas⟩
    · rintro (⟨v, hget, hhas⟩ | heq)
      · rw [hget]
        exact hhas
      · exact absurd heq.symm hstage

theorem Tracks.track (h : Tracks store events) {e : FunnelEvent} {day : JsString}
    (he : dateOf e.timestamp = some day) :
    Tracks (set store (keyOf day e.userId) (entryAfter store e day)) (events ++ [e]) := by
  have hday := length_of_dateOf he
  have hvisit : visit e = some (day, e.userId) := by
    rw [visit, he]
    rfl
  -- the entry under the key is of this day and this user, old or new
  have hentry : (entryAfter store e day).cohortDate = day ∧ (entryAfter store e day).userId = e.userId := by
    rw [entryAfter]
    cases hget : get store (keyOf day e.userId) with
    | none => exact ⟨rfl, rfl⟩
    | some v =>
        obtain ⟨hkey, hlength⟩ := h.keyed _ v hget
        obtain ⟨hdate, huser⟩ := keyOf_inj hday hlength hkey
        exact ⟨hdate.symm, huser.symm⟩
  refine ⟨nodup_set h.nodup, ?_, ?_, ?_⟩
  -- every entry stays under its own key
  · intro k v hv
    rw [get_set] at hv
    split_ifs at hv with hk
    · obtain rfl := Option.some.inj hv
      rw [hentry.1, hentry.2]
      exact ⟨hk, hday⟩
    · exact h.keyed k v hv
  -- seen on a day are those seen before, and this user today
  · intro d u hd
    rw [get_set]
    by_cases hk : keyOf d u = keyOf day e.userId
    · obtain ⟨rfl, rfl⟩ := keyOf_inj hd hday hk
      rw [if_pos rfl]
      exact ⟨fun _ => ⟨e, List.mem_append_right _ (List.mem_singleton_self e), hvisit⟩, fun _ => rfl⟩
    · rw [if_neg hk, h.seen d u hd]
      constructor
      · rintro ⟨x, hx, hxday⟩
        exact ⟨x, List.mem_append_left _ hx, hxday⟩
      · rintro ⟨x, hx, hxday⟩
        rcases List.mem_append.mp hx with hbefore | hlast
        · exact ⟨x, hbefore, hxday⟩
        · rw [List.mem_singleton.mp hlast, hvisit] at hxday
          obtain ⟨rfl, rfl⟩ := Prod.mk.inj (Option.some.inj hxday)
          exact absurd rfl hk
  -- the stages reached grow by the one of this event
  · intro d u stage hd
    rw [get_set]
    by_cases hk : keyOf d u = keyOf day e.userId
    · obtain ⟨rfl, rfl⟩ := keyOf_inj hd hday hk
      rw [if_pos rfl]
      simp only [Option.some.injEq, exists_eq_left']
      rw [has_entryAfter h hday]
      constructor
      · rintro (⟨x, hx, hxday, hstage⟩ | hstage)
        · exact ⟨x, List.mem_append_left _ hx, hxday, hstage⟩
        · exact ⟨e, List.mem_append_right _ (List.mem_singleton_self e), hvisit, hstage⟩
      · rintro ⟨x, hx, hxday, hstage⟩
        rcases List.mem_append.mp hx with hbefore | hlast
        · exact Or.inl ⟨x, hbefore, hxday, hstage⟩
        · rw [List.mem_singleton.mp hlast] at hstage
          exact Or.inr hstage
    · rw [if_neg hk, h.reached d u stage hd]
      constructor
      · rintro ⟨x, hx, hxday⟩
        exact ⟨x, List.mem_append_left _ hx, hxday⟩
      · rintro ⟨x, hx, hxday, hstage⟩
        rcases List.mem_append.mp hx with hbefore | hlast
        · exact ⟨x, hbefore, hxday, hstage⟩
        · rw [List.mem_singleton.mp hlast, hvisit] at hxday
          obtain ⟨rfl, rfl⟩ := Prod.mk.inj (Option.some.inj hxday)
          exact absurd rfl hk

theorem storeOf_snoc (events : List FunnelEvent) (e : FunnelEvent) :
    storeOf (events ++ [e]) = (trackEvent e (storeOf events)).getD (storeOf events) := by
  rw [storeOf, List.foldl_append]
  rfl

theorem tracks_storeOf (events : List FunnelEvent) : Tracks (storeOf events) events := by
  induction events using List.reverseRecOn with
  | nil => exact tracks_nil
  | append_singleton events e ih =>
      rw [storeOf_snoc, trackEvent]
      cases he : dateOf e.timestamp with
      | none => exact ih.skip he
      | some day => exact ih.track he

end Store

/-! ## What the funnel counts -/

section Counts

variable {store : Store} {events : List FunnelEvent} {stage : FunnelStage} {since until_ : JsString}

/-- An entry's day and user. -/
def visitOf (v : CohortEntry) : JsString × JsString := (v.cohortDate, v.userId)

theorem mem_visits {d u : JsString} : (d, u) ∈ visits since until_ events ↔
    (∃ e ∈ events, visit e = some (d, u)) ∧ between since until_ d = true := by
  rw [visits, List.mem_toFinset, List.mem_filter, List.mem_filterMap]

/-- The entries have distinct days and users. -/
theorem Tracks.nodup_visitOf (h : Tracks store events) : ((values store).map visitOf).Nodup := by
  refine List.Nodup.of_map (fun p => keyOf p.1 p.2) ?_
  have hkeys : ((values store).map visitOf).map (fun p => keyOf p.1 p.2) = keys store := by
    rw [values, keys, List.map_map, List.map_map]
    refine List.map_congr_left fun e he => ?_
    exact (h.keyed e.1 e.2 (get_of_mem h.nodup he)).1.symm
  rw [hkeys]
  exact h.nodup

/-- Entries counted are their visits counted. -/
theorem Tracks.length_filter (h : Tracks store events) (p : CohortEntry → Bool) (s : Finset (JsString × JsString))
    (hs : ∀ d u, (d, u) ∈ s ↔ ∃ v ∈ values store, p v = true ∧ visitOf v = (d, u)) :
    ((values store).filter p).length = s.card := by
  have hnodup : (((values store).filter p).map visitOf).Nodup :=
    h.nodup_visitOf.sublist (List.filter_sublist.map visitOf)
  rw [← List.length_map visitOf, ← List.toFinset_card_of_nodup hnodup]
  congr 1
  ext ⟨d, u⟩
  rw [hs, List.mem_toFinset, List.mem_map]
  simp only [List.mem_filter, and_assoc]

theorem Tracks.mem_values (h : Tracks store events) {d u : JsString} {p : CohortEntry → Bool} (hd : d.length = 10) :
    (∃ v ∈ values store, p v = true ∧ visitOf v = (d, u)) ↔
      ∃ v, get store (keyOf d u) = some v ∧ p v = true := by
  constructor
  · rintro ⟨v, hv, hp, hvisit⟩
    obtain ⟨k, hk⟩ := (mem_values_iff h.nodup).mp hv
    obtain ⟨hdate, huser⟩ := Prod.mk.inj hvisit
    obtain ⟨rfl, _⟩ := h.keyed k v hk
    rw [← hdate, ← huser]
    exact ⟨v, hk, hp⟩
  · rintro ⟨v, hv, hp⟩
    obtain ⟨hkey, hlength⟩ := h.keyed _ v hv
    obtain ⟨hdate, huser⟩ := keyOf_inj hd hlength hkey
    exact ⟨v, (mem_values_iff h.nodup).mpr ⟨_, hv⟩, hp, by rw [visitOf, ← hdate, ← huser]⟩

theorem length_of_visit {e : FunnelEvent} {d u : JsString} (h : visit e = some (d, u)) : d.length = 10 := by
  obtain ⟨day, hday, heq⟩ := Option.map_eq_some_iff.mp h
  rw [← (Prod.mk.inj heq).1]
  exact length_of_dateOf hday

theorem Tracks.length_of_mem (h : Tracks store events) {v : CohortEntry} (hv : v ∈ values store) :
    v.cohortDate.length = 10 := by
  obtain ⟨k, hk⟩ := (mem_values_iff h.nodup).mp hv
  exact (h.keyed k v hk).2

/-- The entries between two days. -/
theorem Tracks.count (h : Tracks store events) :
    ((values store).filter fun e => between since until_ e.cohortDate).length = (visits since until_ events).card := by
  refine h.length_filter _ _ fun d u => ?_
  rw [mem_visits]
  constructor
  · rintro ⟨hseen, hbetween⟩
    obtain ⟨e, he, hvisit⟩ := hseen
    have hd := length_of_visit hvisit
    obtain ⟨v, hv⟩ := Option.isSome_iff_exists.mp ((h.seen d u hd).mpr ⟨e, he, hvisit⟩)
    obtain ⟨w, hw, _, heq⟩ := (h.mem_values (p := fun _ => true) hd).mpr ⟨v, hv, rfl⟩
    refine ⟨w, hw, ?_, heq⟩
    rw [(Prod.mk.inj heq).1]
    exact hbetween
  · rintro ⟨v, hv, hbetween, heq⟩
    obtain ⟨hdate, huser⟩ := Prod.mk.inj heq
    have hd : d.length = 10 := hdate ▸ h.length_of_mem hv
    obtain ⟨w, hw, _⟩ := (h.mem_values (p := fun _ => true) hd).mp ⟨v, hv, rfl, heq⟩
    exact ⟨(h.seen d u hd).mp (by rw [hw]; rfl), hdate ▸ hbetween⟩

/-- Those of them that reached a stage. -/
theorem Tracks.count_has (h : Tracks store events) (stage : FunnelStage) :
    (((values store).filter fun e => between since until_ e.cohortDate).filter (has stage)).length =
      (Funnel.reached since until_ events stage).card := by
  rw [List.filter_filter]
  refine h.length_filter _ _ fun d u => ?_
  rw [Funnel.reached, mem_visits]
  -- a visit that reached the stage is an event of that stage
  have hevents : (∃ e ∈ events.filter (fun e => decide (e.stage = stage)), visit e = some (d, u)) ↔
      ∃ e ∈ events, visit e = some (d, u) ∧ e.stage = stage := by
    constructor
    · rintro ⟨e, he, hvisit⟩
      obtain ⟨hin, hstage⟩ := List.mem_filter.mp he
      exact ⟨e, hin, hvisit, of_decide_eq_true hstage⟩
    · rintro ⟨e, hin, hvisit, hstage⟩
      exact ⟨e, List.mem_filter.mpr ⟨hin, decide_eq_true hstage⟩, hvisit⟩
  rw [hevents]
  constructor
  · rintro ⟨⟨e, he, hvisit, hstage⟩, hbetween⟩
    have hd := length_of_visit hvisit
    obtain ⟨w, hw, hhas, heq⟩ := (h.mem_values (p := has stage) hd).mpr
      ((h.reached d u stage hd).mpr ⟨e, he, hvisit, hstage⟩)
    refine ⟨w, hw, ?_, heq⟩
    rw [Bool.and_eq_true, (Prod.mk.inj heq).1]
    exact ⟨hhas, hbetween⟩
  · rintro ⟨v, hv, hboth, heq⟩
    rw [Bool.and_eq_true] at hboth
    obtain ⟨hdate, huser⟩ := Prod.mk.inj heq
    have hd : d.length = 10 := hdate ▸ h.length_of_mem hv
    exact ⟨(h.reached d u stage hd).mp ((h.mem_values (p := has stage) hd).mp ⟨v, hv, hboth.1, heq⟩),
      hdate ▸ hboth.2⟩

/-- The analysis of a store is the report of the events it tracks. -/
theorem Tracks.analyze (h : Tracks store events) (stages : List FunnelStage) (since until_ : JsString) :
    analyzeStages stages since until_ store = report stages since until_ events := by
  rw [analyzeStages, report]
  congr 1
  funext i stage
  cases i with
  | zero => simp only [h.count_has, h.count]
  | succ i =>
      cases hbefore : stages[i]? with
      | none => simp only [h.count_has, hbefore]
      | some before => simp only [h.count_has, hbefore]

end Counts

/-- **USERS BY THE DAY**: whatever was tracked, in any order and however often, each stage of a
    funnel counts the users with an event of that stage on a day between the two, once a day,
    and its rate is that count over the one of the stage before (over every visit at the
    first). -/
theorem funnel_exact (events : List FunnelEvent) (funnelName since until_ : JsString) :
    analyzeFunnel funnelName since until_ (storeOf events) =
      (get FUNNELS funnelName).map fun stages => report stages since until_ events := by
  rw [analyzeFunnel]
  congr 1
  funext stages
  exact (tracks_storeOf events).analyze stages since until_

/-! ## Segments -/

/-- Every event has a date, and there is a funnel to analyse if there is an event. -/
def Sound (events : List FunnelEvent) (funnelName : JsString) : Prop :=
  (∀ e ∈ events, (dateOf e.timestamp).isSome) ∧ (events = [] ∨ (get FUNNELS funnelName).isSome)

instance decidableSound (events : List FunnelEvent) (funnelName : JsString) : Decidable (Sound events funnelName) :=
  inferInstanceAs (Decidable ((∀ e ∈ events, (dateOf e.timestamp).isSome) ∧
    (events = [] ∨ (get FUNNELS funnelName).isSome)))

/-- What a throw leaves: no result, and in the store some first events of one segment. -/
def Lost (segments : List (JsString × List FunnelEvent)) (result : Store × Option (List (JsString × List Row))) :
    Prop :=
  result.2 = none ∧ ∃ s ∈ segments, ∃ loaded, loaded <+: s.2 ∧ result.1 = storeOf loaded

section Segments

variable {events past : List FunnelEvent} {segments : List (JsString × List FunnelEvent)}
  {funnelName segmentKey : JsString} {out : List (JsString × List Row)} {store : Store}

end Segments

/-- What the store held before. -/
def joined : FunnelEvent := ⟨lit "b", .group_join, 0, none⟩

end Funnel
