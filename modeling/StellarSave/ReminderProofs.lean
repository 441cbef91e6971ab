import Mathlib.Data.List.Forall2
import Mathlib.Data.Rat.Floor
import StellarSave.Binary64Proofs
import StellarSave.CalendarProofs

/-! # Reminder slots — local times by hours and minutes alone

    `adjustTimeForTimezone` writes a local date and a target time as if they were UTC,
    looks at the hours and minutes that instant shows in the zone, and moves it by the
    difference.  The date it shows there is not looked at, so that a target which lies
    across midnight comes out a day off.  `calculateReminderSchedules` puts preferred
    time, past and quiet hours on top of it.  A zone is a fixed offset, rendered as
    `Intl.DateTimeFormat` renders it.

    Leads are doubles, and so is the time they lead to before it is cut off to whole
    milliseconds. -/

namespace Reminder

open Calendar
open Binary64 (Number)

/-- The times a date can hold, in milliseconds. -/
def InRange (t : Int) : Prop := -8640000000000000 ≤ t ∧ t ≤ 8640000000000000

instance (t : Int) : Decidable (InRange t) := inferInstanceAs (Decidable (_ ∧ _))

/-- A date; nothing stands for an invalid one. -/
abbrev JsDate := Option Int

@[irreducible] def timeClip (t : Int) : JsDate := if InRange t then some t else none

/-- A valid date. -/
structure Instant where
  ms : Int
  inRange : InRange ms

/-- A well-formed `HH:mm`. -/
structure TimeOfDay where
  hour : Nat
  minute : Nat
  hour_lt : hour < 24
  minute_lt : minute < 60

def TimeOfDay.minutes (time : TimeOfDay) : Int := time.hour * 60 + time.minute

/-- A zone that is always so many minutes ahead of UTC. -/
structure FixedOffset where
  minutes : Int
  above : -1440 < minutes
  below : minutes < 1440

def utc : FixedOffset := ⟨0, by decide, by decide⟩

/-! ## What a zone shows -/

def localMs (timezone : FixedOffset) (t : Int) : Int := t + timezone.minutes * 60000

def localDay (timezone : FixedOffset) (t : Int) : Int := localMs timezone t / 86400000

/-- The milliseconds since local midnight. -/
def localTime (timezone : FixedOffset) (t : Int) : Int := localMs timezone t % 86400000

def localMinute (timezone : FixedOffset) (t : Int) : Int := localTime timezone t / 60000

/-- Midnight is shown as hour 24. -/
def shownHour (timezone : FixedOffset) (t : Int) : Int :=
  if localMinute timezone t / 60 = 0 then 24 else localMinute timezone t / 60

def shownMinute (timezone : FixedOffset) (t : Int) : Int := localMinute timezone t % 60

/-- A year before the first is shown by its number in that era. -/
def shownYear (timezone : FixedOffset) (t : Int) : Int :=
  if yearOf (localDay timezone t) ≤ 0 then 1 - yearOf (localDay timezone t)
  else yearOf (localDay timezone t)

/-- `Date.UTC` takes a year of two digits for one of the last century. -/
def fullYear (year : Int) : Int := if 0 ≤ year ∧ year ≤ 99 then 1900 + year else year

def dateUTC (year : Int) (month : Nat) (date : Int) (time : TimeOfDay) : JsDate :=
  timeClip (makeDay (fullYear year) month date * 86400000 + time.minutes * 60000)

def setUTCHours (base : Int) (time : TimeOfDay) : JsDate :=
  timeClip (base / 86400000 * 86400000 + time.minutes * 60000)

/-! ## The module -/

/-- `formatLocalTime`, the two numbers of it; an invalid date has none. -/
def formatLocalTime (date : JsDate) (timezone : FixedOffset) : Option (Int × Int) :=
  date.map fun t =>
    (if shownHour timezone t = 24 then 0 else shownHour timezone t, shownMinute timezone t)

/-- `isTimeInQuietHours`; nothing is in them of which the numbers are none. -/
def isTimeInQuietHours (time : Option (Int × Int)) (quietStart quietEnd : TimeOfDay) : Bool :=
  match time with
  | none => false
  | some (h, m) =>
      if quietStart.minutes ≤ quietEnd.minutes then
        decide (quietStart.minutes ≤ h * 60 + m) && decide (h * 60 + m ≤ quietEnd.minutes)
      else decide (quietStart.minutes ≤ h * 60 + m) || decide (h * 60 + m ≤ quietEnd.minutes)

/-- `adjustTimeForTimezone`.  To render an invalid date is an error, and the fallback
    sets the hours in UTC. -/
def adjustTimeForTimezone (baseDate : JsDate) (target : TimeOfDay) (timezone : FixedOffset) : JsDate :=
  match baseDate with
  | none => none
  | some base =>
      match dateUTC (shownYear timezone base) (monthOf (localDay timezone base))
          (dateOf (localDay timezone base)) target with
      | none => setUTCHours base target
      | some utcTestDate =>
          let lH := shownHour timezone utcTestDate % 24
          let lM := shownMinute timezone utcTestDate
          let diffMinutes := lH * 60 + lM - target.minutes
          timeClip (utcTestDate - diffMinutes * 60 * 1000)

/-- What may be set of the preferences. -/
structure ReminderPreferences where
  emailNotifications : Option Bool
  contributionReminders : Option Bool
  muteAll : Option Bool
  quietHoursStart : Option TimeOfDay
  quietHoursEnd : Option TimeOfDay
  preferredTimeOfDay : Option TimeOfDay
  timezone : Option FixedOffset
  leadHours : Option (List Number)

inductive SkipReason where
  | opted_out
  | quiet_hours
  | in_past
  deriving DecidableEq

structure ScheduledSlot where
  leadHours : Number
  scheduledTime : JsDate
  isMuted : Bool
  skipReason : Option SkipReason

/-- A time with a fraction, cut off towards zero. -/
def clipFraction (t : ℚ) : JsDate :=
  if -8640000000000000 ≤ t ∧ t ≤ 8640000000000000 then
    some (if t < 0 then ⌈t⌉ else ⌊t⌋)
  else none

def ReminderPreferences.zone (preferences : ReminderPreferences) : FixedOffset :=
  preferences.timezone.getD utc

def ReminderPreferences.leads (preferences : ReminderPreferences) : List Number :=
  preferences.leadHours.getD [48, 24]

def isOptedOut (preferences : ReminderPreferences) : Bool :=
  preferences.contributionReminders == some false ||
    (preferences.emailNotifications == some false || preferences.muteAll == some true)

/-- `new Date` of a number; that of a number that is not finite is invalid. -/
def newDate : Number → JsDate
  | .finite t _ => clipFraction t
  | _ => none

/-- The deadline less the lead. -/
def leadTime (deadline : Instant) (leadHours : Number) : JsDate :=
  newDate (Number.sub (.ofRat deadline.ms) (((leadHours.mul 60).mul 60).mul 1000))

/-- Six minutes, as a double of hours, are six minutes. -/
example : leadTime ⟨1773180360000, by decide⟩ (.ofRat (1 / 10)) = some 1773180000000 := by decide +kernel

/-- The time of a slot before quiet hours are looked at. -/
def unshiftedTime (deadline : Instant) (preferences : ReminderPreferences) (leadHours : Number) :
    JsDate :=
  match preferences.preferredTimeOfDay with
  | some preferred => adjustTimeForTimezone (leadTime deadline leadHours) preferred preferences.zone
  | none => leadTime deadline leadHours

/-- `a <= b`, false of an invalid date. -/
def notAfter (date : JsDate) (now : Instant) : Bool :=
  match date with
  | some t => decide (t ≤ now.ms)
  | none => false

/-- The end of the quiet hours that a time is in. -/
def quietEndOf (preferences : ReminderPreferences) (date : JsDate) : Option TimeOfDay :=
  match preferences.quietHoursStart, preferences.quietHoursEnd with
  | some quietStart, some quietEnd =>
      if isTimeInQuietHours (formatLocalTime date preferences.zone) quietStart quietEnd then
        some quietEnd
      else none
  | _, _ => none

/-- One turn of the loop. -/
def slot (deadline now : Instant) (preferences : ReminderPreferences) (leadHours : Number) :
    ScheduledSlot :=
  let scheduledTime := unshiftedTime deadline preferences leadHours
  if isOptedOut preferences then ⟨leadHours, scheduledTime, true, some .opted_out⟩
  else if notAfter scheduledTime now then ⟨leadHours, scheduledTime, true, some .in_past⟩
  else
    match quietEndOf preferences scheduledTime with
    | none => ⟨leadHours, scheduledTime, false, none⟩
    | some quietEnd =>
        let shifted := adjustTimeForTimezone scheduledTime quietEnd preferences.zone
        if notAfter shifted now then ⟨leadHours, shifted, true, some .in_past⟩
        else ⟨leadHours, shifted, false, none⟩

def calculateReminderSchedules (deadline now : Instant) (preferences : ReminderPreferences) :
    List ScheduledSlot :=
  preferences.leads.map (slot deadline now preferences)

/-! ## Where a time lands -/

/-- The day that is read back of a local date. -/
def writtenDay (timezone : FixedOffset) (t : Int) : Int :=
  makeDay (fullYear (shownYear timezone t)) (monthOf (localDay timezone t)) (dateOf (localDay timezone t))

/-- The days a target written as UTC is off in the zone. -/
def carry (timezone : FixedOffset) (target : TimeOfDay) : Int :=
  (target.minutes + timezone.minutes) / 1440

/-- The instant of a local day and time. -/
def instantOf (timezone : FixedOffset) (day : Int) (time : TimeOfDay) : Int :=
  day * 86400000 + (time.minutes - timezone.minutes) * 60000

/-- Where a valid date goes. -/
def landing (timezone : FixedOffset) (t : Int) (target : TimeOfDay) : JsDate :=
  if InRange (writtenDay timezone t * 86400000 + target.minutes * 60000) then
    timeClip (instantOf timezone (writtenDay timezone t + carry timezone target) target)
  else setUTCHours t target

section Landing

variable {timezone : FixedOffset} {target : TimeOfDay} {t : Int}

theorem TimeOfDay.minutes_bounds (time : TimeOfDay) : 0 ≤ time.minutes ∧ time.minutes < 1440 := by
  have hhour := time.hour_lt
  have hminute := time.minute_lt
  rw [TimeOfDay.minutes]
  omega

theorem shown_minutes (timezone : FixedOffset) (t : Int) :
    shownHour timezone t % 24 * 60 + shownMinute timezone t = localMinute timezone t := by
  have hrange : 0 ≤ localMinute timezone t ∧ localMinute timezone t < 1440 := by
    rw [localMinute, localTime]
    omega
  rw [shownHour, shownMinute]
  split
  · omega
  · omega

/-- **THE CODE IN ONE LINE**: the target on the day that is read back, off by the carry. -/
theorem adjust_eq_landing (timezone : FixedOffset) (t : Int) (target : TimeOfDay) :
    adjustTimeForTimezone (some t) target timezone = landing timezone t target := by
  have hwritten : dateUTC (shownYear timezone t) (monthOf (localDay timezone t))
      (dateOf (localDay timezone t)) target =
      timeClip (writtenDay timezone t * 86400000 + target.minutes * 60000) := rfl
  have hbounds := target.minutes_bounds
  simp only [adjustTimeForTimezone, hwritten, landing]
  by_cases hrange : InRange (writtenDay timezone t * 86400000 + target.minutes * 60000)
  · rw [if_pos hrange, timeClip, if_pos hrange]
    simp only [shown_minutes]
    congr 1
    rw [instantOf, carry, localMinute, localTime, localMs]
    omega
  · rw [if_neg hrange, timeClip, if_neg hrange]

/-- What is written in the zone at an instant of a local day and time. -/
theorem local_instantOf (timezone : FixedOffset) (day : Int) (time : TimeOfDay) :
    localDay timezone (instantOf timezone day time) = day ∧
      localTime timezone (instantOf timezone day time) = time.minutes * 60000 := by
  have hbounds := time.minutes_bounds
  rw [localDay, localTime, localMs, instantOf]
  omega

theorem carry_bounds (timezone : FixedOffset) (target : TimeOfDay) :
    -1 ≤ carry timezone target ∧ carry timezone target ≤ 1 := by
  have hbounds := target.minutes_bounds
  have habove := timezone.above
  have hbelow := timezone.below
  rw [carry]
  omega

/-- From the year 100 on the date is read back as it is. -/
theorem writtenDay_of_late (h : 100 ≤ yearOf (localDay timezone t)) :
    writtenDay timezone t = localDay timezone t := by
  have hyear : fullYear (shownYear timezone t) = yearOf (localDay timezone t) := by
    rw [shownYear, if_neg (by omega), fullYear, if_neg (by omega)]
  rw [writtenDay, hyear, makeDay_civil]

/-- A date before that is read back as one long after, which a date can hold. -/
theorem writtenDay_of_early (target : TimeOfDay) (h : yearOf (localDay timezone t) < 100)
    (hrange : InRange t) :
    localDay timezone t + 300 ≤ writtenDay timezone t ∧
      InRange (writtenDay timezone t * 86400000 + target.minutes * 60000) := by
  -- the year has two digits when it is written, and reads as another
  have hday : -100000001 ≤ localDay timezone t := by
    have habove := timezone.above
    have hlow := hrange.1
    rw [localDay, localMs]
    omega
  have hyear : -271823 ≤ yearOf (localDay timezone t) :=
    le_yearOf_iff.mpr (Int.le_trans (by decide) hday)
  have hfull : yearOf (localDay timezone t) + 2 ≤ fullYear (shownYear timezone t) ∧
      100 ≤ fullYear (shownYear timezone t) ∧ fullYear (shownYear timezone t) ≤ 271824 := by
    rw [shownYear, fullYear]
    split <;> split <;> omega
  -- the day found is in the year read, far ahead of the day meant
  obtain ⟨hlow, hhigh⟩ := makeDay_bounds (fullYear (shownYear timezone t)) (localDay timezone t)
  have hnext := (yearOf_bounds (localDay timezone t)).2
  have hmono := dayFromYear_mono hfull.1
  have hyears := dayFromYear_add (yearOf (localDay timezone t) + 1) 1
  have hfirst : -683003 ≤ dayFromYear (fullYear (shownYear timezone t)) :=
    Int.le_trans (by decide) (dayFromYear_mono hfull.2.1)
  have hlast : dayFromYear (fullYear (shownYear timezone t)) ≤ 99000000 :=
    Int.le_trans (dayFromYear_mono hfull.2.2) (by decide)
  have hbounds := target.minutes_bounds
  have hassoc : yearOf (localDay timezone t) + 1 + ((1 : Nat) : Int) =
      yearOf (localDay timezone t) + 2 := by omega
  rw [hassoc] at hyears
  rw [writtenDay, InRange]
  omega

/-- An instant is that of its local day and time. -/
theorem eq_instantOf {r : Int} {time : TimeOfDay} (h : localTime timezone r = time.minutes * 60000) :
    r = instantOf timezone (localDay timezone r) time := by
  rw [localTime, localMs] at h
  rw [instantOf, localDay, localMs]
  omega

theorem timeClip_eq_some {r : Int} : timeClip t = some r ↔ InRange t ∧ t = r := by
  rw [timeClip]
  split
  · next h => exact ⟨fun hsome => ⟨h, Option.some.inj hsome⟩, fun hr => congrArg some hr.2⟩
  · next h => exact ⟨nofun, fun hr => absurd hr.1 h⟩

theorem instantOf_inj {day day' : Int} :
    instantOf timezone day target = instantOf timezone day' target ↔ day = day' := by
  rw [instantOf, instantOf]
  omega

/-- **WHERE IT LANDS RIGHT**: on the day next to its own that the carry names, from the year
    100 on, unless a date cannot hold one of the two instants. -/
theorem landing_eq_iff (target : TimeOfDay) (hrange : InRange t) {day : Int}
    (hday : day ≤ localDay timezone t + 1) :
    landing timezone t target = some (instantOf timezone day target) ↔
      100 ≤ yearOf (localDay timezone t) ∧ localDay timezone t + carry timezone target = day ∧
        InRange (localDay timezone t * 86400000 + target.minutes * 60000) ∧
        InRange (instantOf timezone day target) := by
  have hcarry := carry_bounds timezone target
  by_cases hyear : 100 ≤ yearOf (localDay timezone t)
  · rw [landing, writtenDay_of_late hyear]
    by_cases hwritten : InRange (localDay timezone t * 86400000 + target.minutes * 60000)
    · rw [if_pos hwritten, timeClip_eq_some, instantOf_inj]
      constructor
      · rintro ⟨hclip, rfl⟩
        exact ⟨hyear, rfl, hwritten, hclip⟩
      · rintro ⟨-, rfl, -, hclip⟩
        exact ⟨hclip, rfl⟩
    · rw [if_neg hwritten, setUTCHours, timeClip_eq_some]
      constructor
      · rintro ⟨hclip, heq⟩
        -- the hours of UTC are those of the zone only where the two agree
        have habove := timezone.above
        have hbelow := timezone.below
        have hzero : timezone.minutes = 0 := by
          rw [instantOf] at heq
          omega
        have hsame : localDay timezone t = t / 86400000 := by
          rw [localDay, localMs, hzero]
          omega
        exact absurd (hsame ▸ hclip) hwritten
      · rintro ⟨-, -, h, -⟩
        exact absurd h hwritten
  · obtain ⟨hfar, hwritten⟩ := writtenDay_of_early target (Int.not_le.mp hyear) hrange
    rw [landing, if_pos hwritten, timeClip_eq_some, instantOf_inj]
    constructor
    · rintro ⟨-, heq⟩
      omega
    · rintro ⟨h, -⟩
      exact absurd h hyear

/-- The local date of the base and the target time. -/
def Hits (timezone : FixedOffset) (base : Instant) (target : TimeOfDay) (result : JsDate) : Prop :=
  ∃ r, result = some r ∧
    (yearOf (localDay timezone r) = yearOf (localDay timezone base.ms) ∧
      monthOf (localDay timezone r) = monthOf (localDay timezone base.ms) ∧
      dateOf (localDay timezone r) = dateOf (localDay timezone base.ms)) ∧
    localTime timezone r = target.minutes * 60000

theorem hits_iff (timezone : FixedOffset) (base : Instant) (target : TimeOfDay) (result : JsDate) :
    Hits timezone base target result ↔
      result = some (instantOf timezone (localDay timezone base.ms) target) := by
  constructor
  · rintro ⟨r, rfl, ⟨hyear, hmonth, hdate⟩, htime⟩
    have hday := eq_of_civil hyear hmonth hdate
    rw [eq_instantOf htime, hday]
  · rintro rfl
    obtain ⟨hday, htime⟩ := local_instantOf timezone (localDay timezone base.ms) target
    refine ⟨_, rfl, ?_, htime⟩
    rw [hday]
    exact ⟨rfl, rfl, rfl⟩

/-- **THE INTENDED INSTANT EXACTLY WHEN** the target does not cross midnight on the way from
    UTC, the local year has three digits at least, and a date can hold the target read as a
    time of either. -/
theorem adjust_hits_iff (timezone : FixedOffset) (base : Instant) (target : TimeOfDay) :
    Hits timezone base target (adjustTimeForTimezone (some base.ms) target timezone) ↔
      100 ≤ yearOf (localDay timezone base.ms) ∧
        (0 ≤ target.minutes + timezone.minutes ∧ target.minutes + timezone.minutes < 1440) ∧
        InRange (localDay timezone base.ms * 86400000 + target.minutes * 60000) ∧
        InRange (instantOf timezone (localDay timezone base.ms) target) := by
  rw [adjust_eq_landing, hits_iff, landing_eq_iff target base.inRange (by omega)]
  refine and_congr_right fun _ => and_congr_left fun _ => ?_
  rw [carry]
  omega

/-- Half past eleven at night in a zone one hour ahead, of the first of March: a day late. -/
theorem evening_a_day_late :
    ¬ Hits ⟨60, by decide, by decide⟩ ⟨1772366400000, by decide⟩ ⟨23, 30, by decide, by decide⟩
      (adjustTimeForTimezone (some 1772366400000) ⟨23, 30, by decide, by decide⟩
        ⟨60, by decide, by decide⟩) := by
  rw [adjust_eq_landing, hits_iff]
  decide +kernel

end Landing

/-! ## The member's wishes -/

/-- In quiet hours, which are over at their end. -/
def Within (quietStart quietEnd : TimeOfDay) (minute : Int) : Prop :=
  if quietStart.minutes ≤ quietEnd.minutes then
    quietStart.minutes ≤ minute ∧ minute < quietEnd.minutes
  else quietStart.minutes ≤ minute ∨ minute < quietEnd.minutes

instance (quietStart quietEnd : TimeOfDay) (minute : Int) :
    Decidable (Within quietStart quietEnd minute) := by
  unfold Within
  infer_instance

def InQuietHours (preferences : ReminderPreferences) (t : Int) : Prop :=
  ∃ quietStart ∈ preferences.quietHoursStart, ∃ quietEnd ∈ preferences.quietHoursEnd,
    Within quietStart quietEnd (localMinute preferences.zone t)

/-- The first instant after another that shows a time. -/
def nextInstant (timezone : FixedOffset) (t : Int) (time : TimeOfDay) : Int :=
  instantOf timezone
    (localDay timezone t + if localTime timezone t < time.minutes * 60000 then 0 else 1) time

/-- What a member wishes of the slot of a lead: it is sent between now and the deadline and
    not in quiet hours, and one that falls into them goes to their next end. -/
def Respects (deadline now : Instant) (preferences : ReminderPreferences) (leadHours : Number)
    (s : ScheduledSlot) : Prop :=
  (s.isMuted = false →
    ∃ t, s.scheduledTime = some t ∧ now.ms < t ∧ t < deadline.ms ∧ ¬ InQuietHours preferences t) ∧
  (isOptedOut preferences = false → ∀ t ∈ unshiftedTime deadline preferences leadHours, now.ms < t →
    ∀ quietStart ∈ preferences.quietHoursStart, ∀ quietEnd ∈ preferences.quietHoursEnd,
      Within quietStart quietEnd (localMinute preferences.zone t) →
        s.scheduledTime = some (nextInstant preferences.zone t quietEnd))

/-- The unshifted time, by where the preferred time lands. -/
def startOf (deadline : Instant) (preferences : ReminderPreferences) (leadHours : Number) : JsDate :=
  match preferences.preferredTimeOfDay with
  | some preferred => (leadTime deadline leadHours).bind fun t => landing preferences.zone t preferred
  | none => leadTime deadline leadHours

/-- The next end of quiet hours is where the code puts it, and before the deadline. -/
def EndsNext (deadline : Instant) (timezone : FixedOffset) (t : Int) (quietEnd : TimeOfDay) : Prop :=
  100 ≤ yearOf (localDay timezone t) ∧
    carry timezone quietEnd = (if localTime timezone t < quietEnd.minutes * 60000 then 0 else 1) ∧
    InRange (localDay timezone t * 86400000 + quietEnd.minutes * 60000) ∧
    InRange (nextInstant timezone t quietEnd) ∧ nextInstant timezone t quietEnd < deadline.ms

/-- What has to be so of a time later than now. -/
def SentWell (deadline now : Instant) (preferences : ReminderPreferences) (t : Int) : Prop :=
  match preferences.quietHoursStart, preferences.quietHoursEnd with
  | some quietStart, some quietEnd =>
      if localMinute preferences.zone t = quietEnd.minutes then
        ∃ r ∈ landing preferences.zone t quietEnd,
          r ≤ now.ms ∨ r < deadline.ms ∧ ¬ InQuietHours preferences r
      else if Within quietStart quietEnd (localMinute preferences.zone t) then
        EndsNext deadline preferences.zone t quietEnd
      else t < deadline.ms
  | _, _ => t < deadline.ms

section Wishes

variable {deadline now : Instant} {preferences : ReminderPreferences} {leadHours : Number}
  {timezone : FixedOffset} {time quietStart quietEnd : TimeOfDay} {t : Int}

/-- The next instant is later, shows the time, and no other is between. -/
theorem nextInstant_next (timezone : FixedOffset) (t : Int) (time : TimeOfDay) :
    t < nextInstant timezone t time ∧
      localTime timezone (nextInstant timezone t time) = time.minutes * 60000 ∧
      ∀ r, t < r → localTime timezone r = time.minutes * 60000 → nextInstant timezone t time ≤ r := by
  have hbounds := time.minutes_bounds
  refine ⟨?_, (local_instantOf timezone _ time).2, ?_⟩
  · rw [nextInstant, instantOf, localTime, localDay, localMs]
    split <;> omega
  · intro r hlater hr
    rw [localTime, localMs] at hr
    rw [nextInstant, instantOf, localTime, localDay, localMs]
    split <;> omega

theorem unshiftedTime_eq (deadline : Instant) (preferences : ReminderPreferences)
    (leadHours : Number) :
    unshiftedTime deadline preferences leadHours = startOf deadline preferences leadHours := by
  rw [unshiftedTime, startOf]
  split
  · next preferred _ =>
      cases leadTime deadline leadHours with
      | none => rfl
      | some t => exact adjust_eq_landing preferences.zone t preferred
  · rfl

/-- The code looks at the minutes that are shown. -/
theorem isTimeInQuietHours_iff (timezone : FixedOffset) (t : Int) (quietStart quietEnd : TimeOfDay) :
    isTimeInQuietHours (formatLocalTime (some t) timezone) quietStart quietEnd = true ↔
      localMinute timezone t = quietEnd.minutes ∨
        Within quietStart quietEnd (localMinute timezone t) := by
  have hshown : (if shownHour timezone t = 24 then 0 else shownHour timezone t) * 60 +
      shownMinute timezone t = localMinute timezone t := by
    have hrange : 0 ≤ localMinute timezone t ∧ localMinute timezone t < 1440 := by
      rw [localMinute, localTime]
      omega
    rw [shownHour, shownMinute]
    split <;> split at * <;> omega
  rw [formatLocalTime, Option.map_some, isTimeInQuietHours, hshown, Within]
  split
  · rw [Bool.and_eq_true, decide_eq_true_iff, decide_eq_true_iff]
    omega
  · rw [Bool.or_eq_true, decide_eq_true_iff, decide_eq_true_iff]
    omega

/-- A time that is not moved and not past. -/
theorem respects_unmoved (hstart : unshiftedTime deadline preferences leadHours = some t)
    (hlater : now.ms < t) (hout : ¬ InQuietHours preferences t) :
    Respects deadline now preferences leadHours ⟨leadHours, some t, false, none⟩ ↔ t < deadline.ms := by
  constructor
  · rintro ⟨hsent, -⟩
    obtain ⟨t', ht', -, hbefore, -⟩ := hsent rfl
    obtain rfl := Option.some.inj ht'
    exact hbefore
  · intro hbefore
    refine ⟨fun _ => ⟨t, rfl, hlater, hbefore, hout⟩, ?_⟩
    intro _ t' ht' _ quietStart hquietStart quietEnd hquietEnd hwithin
    rw [hstart] at ht'
    obtain rfl := Option.some.inj ht'
    exact absurd ⟨quietStart, hquietStart, quietEnd, hquietEnd, hwithin⟩ hout

/-- The end of quiet hours is not in them. -/
theorem not_within_end : ¬ Within quietStart quietEnd quietEnd.minutes := by
  rw [Within]
  split <;> omega

/-- A time in quiet hours, moved. -/
theorem respects_moved (hopt : isOptedOut preferences = false)
    (hquietStart : preferences.quietHoursStart = some quietStart)
    (hquietEnd : preferences.quietHoursEnd = some quietEnd)
    (hstart : unshiftedTime deadline preferences leadHours = some t) (hlater : now.ms < t)
    (hrange : InRange t) (hwithin : Within quietStart quietEnd (localMinute preferences.zone t))
    (isMuted : Bool) (skipReason : Option SkipReason)
    (hmuted : isMuted = notAfter (landing preferences.zone t quietEnd) now) :
    Respects deadline now preferences leadHours
        ⟨leadHours, landing preferences.zone t quietEnd, isMuted, skipReason⟩ ↔
      EndsNext deadline preferences.zone t quietEnd := by
  have hday : localDay preferences.zone t +
      (if localTime preferences.zone t < quietEnd.minutes * 60000 then 0 else 1) ≤
        localDay preferences.zone t + 1 := by
    split <;> omega
  have hlands := landing_eq_iff quietEnd hrange hday
  obtain ⟨hnext, htime, -⟩ := nextInstant_next preferences.zone t quietEnd
  have hends : EndsNext deadline preferences.zone t quietEnd ↔
      landing preferences.zone t quietEnd = some (nextInstant preferences.zone t quietEnd) ∧
        nextInstant preferences.zone t quietEnd < deadline.ms := by
    rw [EndsNext, nextInstant, hlands, Int.add_right_inj]
    simp only [and_assoc]
  rw [hends]
  constructor
  · rintro ⟨hsent, hmoved⟩
    -- the slot lands on the end of quiet hours, which is later than now
    have hland := hmoved hopt t hstart hlater quietStart hquietStart quietEnd hquietEnd hwithin
    have hland' : landing preferences.zone t quietEnd = some (nextInstant preferences.zone t quietEnd) :=
      hland
    have hfree : isMuted = false := by
      rw [hmuted, hland', notAfter, decide_eq_false_iff_not]
      omega
    obtain ⟨r, hr, -, hbefore, -⟩ := hsent hfree
    have hr' : landing preferences.zone t quietEnd = some r := hr
    rw [hland'] at hr'
    obtain rfl := Option.some.inj hr'
    exact ⟨hland', hbefore⟩
  · rintro ⟨hland, hbefore⟩
    constructor
    · intro _
      -- the end itself is outside, since the interval is half open
      refine ⟨_, hland, by omega, hbefore, ?_⟩
      rintro ⟨quietStart', hquietStart', quietEnd', hquietEnd', hin⟩
      rw [hquietEnd] at hquietEnd'
      obtain rfl := Option.some.inj hquietEnd'
      rw [localMinute, htime, Int.mul_ediv_cancel _ (by decide)] at hin
      exact not_within_end hin
    · intro _ t' ht' _ _ _ quietEnd' hquietEnd' _
      rw [hstart] at ht'
      obtain rfl := Option.some.inj ht'
      rw [hquietEnd] at hquietEnd'
      obtain rfl := Option.some.inj hquietEnd'
      exact hland

/-- A time in the last minute of the closed interval, moved to the start of that minute. -/
theorem respects_at_end (hstart : unshiftedTime deadline preferences leadHours = some t)
    (hout : ¬ InQuietHours preferences t) (skipReason : Option SkipReason) :
    Respects deadline now preferences leadHours
        ⟨leadHours, landing preferences.zone t quietEnd,
          notAfter (landing preferences.zone t quietEnd) now, skipReason⟩ ↔
      ∃ r ∈ landing preferences.zone t quietEnd,
        r ≤ now.ms ∨ r < deadline.ms ∧ ¬ InQuietHours preferences r := by
  -- nothing was to be moved: the time is outside
  have hquiet : isOptedOut preferences = false →
      ∀ t' ∈ unshiftedTime deadline preferences leadHours, now.ms < t' →
        ∀ quietStart ∈ preferences.quietHoursStart, ∀ quietEnd' ∈ preferences.quietHoursEnd,
          Within quietStart quietEnd' (localMinute preferences.zone t') →
            landing preferences.zone t quietEnd = some (nextInstant preferences.zone t' quietEnd') := by
    intro _ t' ht' _ quietStart hquietStart quietEnd' hquietEnd' hwithin
    rw [hstart] at ht'
    obtain rfl := Option.some.inj ht'
    exact absurd ⟨quietStart, hquietStart, quietEnd', hquietEnd', hwithin⟩ hout
  cases hland : landing preferences.zone t quietEnd with
  | none =>
      constructor
      · rintro ⟨hsent, -⟩
        obtain ⟨r, hr, -⟩ := hsent rfl
        cases hr
      · rintro ⟨r, hr, -⟩
        cases hr
  | some r =>
      rw [hland] at hquiet
      constructor
      · rintro ⟨hsent, -⟩
        refine ⟨r, rfl, ?_⟩
        by_cases hnow : r ≤ now.ms
        · exact .inl hnow
        · obtain ⟨r', hr', -, hbefore, hquiet'⟩ := hsent (decide_eq_false hnow)
          obtain rfl := Option.some.inj hr'
          exact .inr ⟨hbefore, hquiet'⟩
      · rintro ⟨r', hr', hcase⟩
        obtain rfl := Option.some.inj hr'
        refine ⟨fun hsent => ?_, hquiet⟩
        have hnow : ¬ r ≤ now.ms := of_decide_eq_false hsent
        rcases hcase with hpast | ⟨hbefore, hquiet'⟩
        · exact absurd hpast hnow
        · exact ⟨r, rfl, Int.not_le.mp hnow, hbefore, hquiet'⟩

theorem clipFraction_inRange {x : ℚ} (h : clipFraction x = some t) : InRange t := by
  rw [clipFraction] at h
  split at h
  · next hx =>
      obtain rfl := Option.some.inj h
      split
      · exact ⟨by exact_mod_cast hx.1.trans (Int.le_ceil x), Int.ceil_le.mpr (by exact_mod_cast hx.2)⟩
      · exact ⟨Int.le_floor.mpr (by exact_mod_cast hx.1), by exact_mod_cast (Int.floor_le x).trans hx.2⟩
  · cases h

theorem newDate_inRange {x : Number} (h : newDate x = some t) : InRange t := by
  cases x with
  | nan | infinity s => exact nomatch h
  | finite x hx => exact clipFraction_inRange h

theorem landing_inRange {r : Int} (h : landing timezone t time = some r) : InRange r := by
  rw [landing] at h
  split at h
  · obtain ⟨hrange, rfl⟩ := timeClip_eq_some.mp h
    exact hrange
  · rw [setUTCHours] at h
    obtain ⟨hrange, rfl⟩ := timeClip_eq_some.mp h
    exact hrange

theorem startOf_inRange (h : startOf deadline preferences leadHours = some t) : InRange t := by
  rw [startOf] at h
  split at h
  · obtain ⟨base, -, hland⟩ := Option.bind_eq_some_iff.mp h
    exact landing_inRange hland
  · exact newDate_inRange h

/-- A slot that is past. -/
theorem respects_past (hstart : unshiftedTime deadline preferences leadHours = some t)
    (hpast : t ≤ now.ms) (date : JsDate) (skipReason : Option SkipReason) :
    Respects deadline now preferences leadHours ⟨leadHours, date, true, skipReason⟩ := by
  refine ⟨nofun, ?_⟩
  intro _ t' ht' hlater
  rw [hstart] at ht'
  obtain rfl := Option.some.inj ht'
  omega

/-- What the loop makes of a time that is later than now. -/
def laterSlot (now : Instant) (preferences : ReminderPreferences) (leadHours : Number) (t : Int) :
    ScheduledSlot :=
  match quietEndOf preferences (some t) with
  | none => ⟨leadHours, some t, false, none⟩
  | some quietEnd =>
      if notAfter (landing preferences.zone t quietEnd) now then
        ⟨leadHours, landing preferences.zone t quietEnd, true, some .in_past⟩
      else ⟨leadHours, landing preferences.zone t quietEnd, false, none⟩

/-- The loop gets there with a member who has not opted out. -/
theorem slot_later (hopt : isOptedOut preferences = false)
    (hstart : unshiftedTime deadline preferences leadHours = some t) (hlater : now.ms < t) :
    slot deadline now preferences leadHours = laterSlot now preferences leadHours t := by
  have hnotPast : ¬ t ≤ now.ms := Int.not_le.mpr hlater
  simp only [slot, hopt, hstart, notAfter, decide_eq_false hnotPast, adjust_eq_landing]
  rfl

/-- A slot later than now, by the quiet hours that are set. -/
theorem respects_later (hopt : isOptedOut preferences = false)
    (hstart : unshiftedTime deadline preferences leadHours = some t) (hlater : now.ms < t)
    (hrange : InRange t) :
    Respects deadline now preferences leadHours (laterSlot now preferences leadHours t) ↔
      SentWell deadline now preferences t := by
  rw [laterSlot, quietEndOf, SentWell]
  cases hquietStart : preferences.quietHoursStart with
  | none =>
      refine respects_unmoved hstart hlater ?_
      rintro ⟨quietStart, hset, -⟩
      rw [hquietStart] at hset
      cases hset
  | some quietStart =>
      cases hquietEnd : preferences.quietHoursEnd with
      | none =>
          refine respects_unmoved hstart hlater ?_
          rintro ⟨-, -, quietEnd, hset, -⟩
          rw [hquietEnd] at hset
          cases hset
      | some quietEnd =>
          have hin : InQuietHours preferences t ↔
              Within quietStart quietEnd (localMinute preferences.zone t) := by
            rw [InQuietHours, hquietStart, hquietEnd]
            simp
          have hcode := isTimeInQuietHours_iff preferences.zone t quietStart quietEnd
          -- muted or not, the slot has the date the quiet hours move it to
          have hmoved : ∀ P : Prop,
              (∀ isMuted skipReason, isMuted = notAfter (landing preferences.zone t quietEnd) now →
                (Respects deadline now preferences leadHours
                  ⟨leadHours, landing preferences.zone t quietEnd, isMuted, skipReason⟩ ↔ P)) →
              (Respects deadline now preferences leadHours
                (if notAfter (landing preferences.zone t quietEnd) now then
                  ⟨leadHours, landing preferences.zone t quietEnd, true, some .in_past⟩
                else ⟨leadHours, landing preferences.zone t quietEnd, false, none⟩) ↔ P) := by
            intro P hall
            split
            · next hmuted => exact hall true _ hmuted.symm
            · next hmuted => exact hall false _ (Bool.eq_false_iff.mpr hmuted).symm
          by_cases hend : localMinute preferences.zone t = quietEnd.minutes
          · -- the code counts the last minute in, the interval does not
            have hout : ¬ InQuietHours preferences t := by
              rw [hin, hend]
              exact not_within_end
            simp only [if_pos (hcode.mpr (.inl hend)), if_pos hend]
            refine hmoved _ fun isMuted skipReason hmuted => ?_
            rw [hmuted]
            exact respects_at_end hstart hout skipReason
          · by_cases hwithin : Within quietStart quietEnd (localMinute preferences.zone t)
            · simp only [if_pos (hcode.mpr (.inr hwithin)), if_neg hend, if_pos hwithin]
              exact hmoved _ fun isMuted skipReason hmuted => respects_moved hopt hquietStart hquietEnd
                hstart hlater hrange hwithin isMuted skipReason hmuted
            · have hclosed : ¬ isTimeInQuietHours (formatLocalTime (some t) preferences.zone)
                  quietStart quietEnd = true := by
                rw [hcode]
                exact not_or.mpr ⟨hend, hwithin⟩
              simp only [if_neg hclosed, if_neg hend, if_neg hwithin]
              exact respects_unmoved hstart hlater (mt hin.mp hwithin)

/-- **ONE SLOT** of a member who has not opted out. -/
theorem slot_respects_iff (hopt : isOptedOut preferences = false) :
    Respects deadline now preferences leadHours (slot deadline now preferences leadHours) ↔
      ∃ t ∈ startOf deadline preferences leadHours,
        t ≤ now.ms ∨ SentWell deadline now preferences t := by
  have hstart := unshiftedTime_eq deadline preferences leadHours
  cases hdate : startOf deadline preferences leadHours with
  | none =>
      rw [hdate] at hstart
      -- an invalid date is shown nowhere and compares with nothing
      have hquiet : quietEndOf preferences none = none := by
        rw [quietEndOf]
        split <;> rfl
      have hslot : slot deadline now preferences leadHours = ⟨leadHours, none, false, none⟩ := by
        simp only [slot, hopt, hstart, hquiet, notAfter]
        rfl
      rw [hslot]
      constructor
      · rintro ⟨hsent, -⟩
        obtain ⟨t, ht, -⟩ := hsent rfl
        cases ht
      · rintro ⟨t, ht, -⟩
        cases ht
  | some t =>
      have hrange := startOf_inRange hdate
      rw [hdate] at hstart
      by_cases hpast : t ≤ now.ms
      · have hslot : slot deadline now preferences leadHours =
            ⟨leadHours, some t, true, some .in_past⟩ := by
          simp only [slot, hopt, hstart, notAfter, decide_eq_true hpast]
          rfl
        rw [hslot]
        exact ⟨fun _ => ⟨t, rfl, .inl hpast⟩, fun _ => respects_past hstart hpast _ _⟩
      · have hlater : now.ms < t := Int.not_le.mp hpast
        rw [slot_later hopt hstart hlater, respects_later hopt hstart hlater hrange]
        constructor
        · intro h
          exact ⟨t, rfl, .inr h⟩
        · rintro ⟨t', ht', hcase⟩
          obtain rfl := Option.some.inj ht'
          exact hcase.resolve_left hpast

/-- **THE WISHES ARE RESPECTED EXACTLY WHEN** the member has opted out, or each lead gives a
    valid time that is past or passes the quiet hours and the deadline. -/
theorem schedules_respect_iff (deadline now : Instant) (preferences : ReminderPreferences) :
    List.Forall₂ (Respects deadline now preferences) preferences.leads
        (calculateReminderSchedules deadline now preferences) ↔
      isOptedOut preferences = true ∨
        ∀ leadHours ∈ preferences.leads, ∃ t ∈ startOf deadline preferences leadHours,
          t ≤ now.ms ∨ SentWell deadline now preferences t := by
  rw [calculateReminderSchedules, List.forall₂_map_right_iff, List.forall₂_same]
  cases hopt : isOptedOut preferences with
  | true =>
      refine ⟨fun _ => .inl rfl, fun _ leadHours _ => ?_⟩
      have hslot : slot deadline now preferences leadHours =
          ⟨leadHours, unshiftedTime deadline preferences leadHours, true, some .opted_out⟩ := by
        simp only [slot, hopt]
        rfl
      rw [hslot]
      refine ⟨nofun, fun hout => ?_⟩
      rw [hopt] at hout
      cases hout
  | false =>
      have hno : ¬ false = true := Bool.false_ne_true
      rw [or_iff_right hno]
      exact forall_congr' fun leadHours => forall_congr' fun _ => slot_respects_iff hopt

/-- Quiet from ten in the evening to seven, and a lead of a day. -/
def overnight : ReminderPreferences where
  emailNotifications := none
  contributionReminders := none
  muteAll := none
  quietHoursStart := some ⟨22, 0, by decide, by decide⟩
  quietHoursEnd := some ⟨7, 0, by decide, by decide⟩
  preferredTimeOfDay := none
  timezone := none
  leadHours := some [24]

/-- A deadline at eleven in the evening: the slot of the evening before goes back to the
    morning of that day. -/
theorem evening_moved_back :
    ¬ List.Forall₂ (Respects ⟨1773183600000, by decide⟩ ⟨1772323200000, by decide⟩ overnight)
      overnight.leads
      (calculateReminderSchedules ⟨1773183600000, by decide⟩ ⟨1772323200000, by decide⟩ overnight) := by
  intro h
  obtain ⟨⟨-, hmoved⟩, -⟩ := List.forall₂_cons.mp h
  have hstart : unshiftedTime ⟨1773183600000, by decide⟩ overnight 24 = some 1773097200000 := by
    decide +kernel
  have hnext := hmoved rfl 1773097200000 hstart (by decide) _ rfl _ rfl (by decide +kernel)
  revert hnext
  decide +kernel

end Wishes

end Reminder
