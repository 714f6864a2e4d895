import Peinit.Lib.FixedWidth
import Peinit.Lib.Search

/-!
# Calendar schedules

A schedule says which dates it is for and which seconds of those days. The next occurrence is found by
walking over the days from the local date of a moment, for ten years at most. Which date a moment has
in a zone, and which moment a local time is, are parameters.
-/

namespace Peinit

/-- A day of the Gregorian calendar, counted from the first of January 1970. -/
structure Date where
  days : ℤ
  deriving DecidableEq

namespace Date

/-- The day within its cycle of four hundred years, which begins on the first of March. -/
def dayOfEra (date : Date) : ℤ := (date.days + 719468) % 146097

def yearOfEra (date : Date) : ℤ :=
  (date.dayOfEra - date.dayOfEra / 1460 + date.dayOfEra / 36524 - date.dayOfEra / 146096) / 365

/-- The day within its year, which begins on the first of March. -/
def dayOfYear (date : Date) : ℤ :=
  date.dayOfEra - (365 * date.yearOfEra + date.yearOfEra / 4 - date.yearOfEra / 100)

/-- The month within its year, March being the first, from zero. -/
def monthFromMarch (date : Date) : ℤ := (5 * date.dayOfYear + 2) / 153

def day (date : Date) : ℕ := (date.dayOfYear - (153 * date.monthFromMarch + 2) / 5 + 1).toNat

def month (date : Date) : ℕ :=
  (if date.monthFromMarch < 10 then date.monthFromMarch + 3 else date.monthFromMarch - 9).toNat

def year (date : Date) : ℤ :=
  date.yearOfEra + (date.days + 719468) / 146097 * 400 + if date.month ≤ 2 then 1 else 0

def isLeapYear (year : ℤ) : Bool := year % 4 = 0 && (year % 100 ≠ 0 || year % 400 = 0)

def daysInMonth (date : Date) : ℕ :=
  if date.month = 2 then (if isLeapYear date.year then 29 else 28)
  else if date.month ∈ [4, 6, 9, 11] then 30
  else 31

/-- Monday is 1. -/
def weekday (date : Date) : ℕ := ((date.days + 3) % 7 + 1).toNat

/-- The thirty-first of December 9999 has no next day. -/
def tomorrow (date : Date) : Option Date :=
  if date.days < 2932896 then some ⟨date.days + 1⟩ else none

end Date

/-- The values a field of a schedule allows, in order. -/
structure NumberField where
  values : List ℕ
  ascending : values.Pairwise (· < ·) := by decide

def NumberField.only (value : ℕ) : NumberField := ⟨[value], List.pairwise_singleton _ _⟩

def NumberField.contains (field : NumberField) (value : ℕ) : Bool := field.values.contains value

inductive DayField where
  | monthDay (days : NumberField)
  | lastDay (offsets : NumberField)

def DayField.matchesDate (field : DayField) (date : Date) : Bool :=
  match field with
  | .monthDay days => days.contains date.day
  | .lastDay offsets => offsets.contains (date.daysInMonth - date.day + 1)

structure CalendarSchedule where
  weekdays : NumberField
  years : NumberField
  months : NumberField
  days : DayField
  hours : NumberField
  minutes : NumberField
  seconds : NumberField
  timezone : Option String

/-- What a local time is in a zone: skipped by the clocks, a moment in nanoseconds since 1970, or
outside the range of the time zone library. -/
inductive LocalTime where
  | gap
  | moment (nanos : ℤ)
  | outOfRange
  deriving DecidableEq

structure TimeZone where
  dateOf : ℕ → Date
  localTime : Date → ℕ → LocalTime

def utc : TimeZone where
  dateOf ns := ⟨ns / (86400 * nanosPerSec)⟩
  localTime date second := .moment ((date.days * 86400 + second) * nanosPerSec)

/-- The time zone database; no name is the zone of the system. -/
abbrev TimeZones : Type := Option String → Option TimeZone

inductive CalendarNextError where
  | civilTimeOutOfRange
  | timezoneUnavailable (timezone : String)
  | noFutureOccurrence
  deriving DecidableEq

namespace CalendarSchedule

def searchHorizonDays : ℕ := 3653

def resolveTimezone (zones : TimeZones) (schedule : CalendarSchedule) :
    Except CalendarNextError TimeZone :=
  match zones schedule.timezone with
  | some zone => .ok zone
  | none => .error (.timezoneUnavailable (schedule.timezone.getD ""))

def scheduledSecondsOfDay (schedule : CalendarSchedule) : List ℕ :=
  schedule.hours.values.flatMap fun hour =>
    schedule.minutes.values.flatMap fun minute =>
      schedule.seconds.values.map fun second => hour * 3600 + minute * 60 + second

def dateMatches (schedule : CalendarSchedule) (date : Date) : Bool :=
  -- the year is cast to sixteen bits
  schedule.years.contains (date.year % 2 ^ 16).toNat && schedule.months.contains date.month &&
    schedule.days.matchesDate date && schedule.weekdays.contains date.weekday

end CalendarSchedule

def candidateNs (zone : TimeZone) (date : Date) (secondOfDay : ℕ) :
    Except CalendarNextError (Option ℕ) :=
  match zone.localTime date secondOfDay with
  | .gap => .ok none
  | .outOfRange => .error .civilTimeOutOfRange
  | .moment nanos =>
      if 0 ≤ nanos ∧ nanos ≤ u64Max then .ok (some nanos.toNat) else .error .civilTimeOutOfRange

/-- The days of the walk. -/
def datesFrom : ℕ → Date → List Date
  | 0, _ => []
  | count + 1, date =>
      date :: match date.tomorrow with
        | some next => datesFrom count next
        | none => []

/-- Only a moment after `after` will do. -/
def laterCandidate (zone : TimeZone) (after : ℕ) (candidate : Date × ℕ) :
    Except CalendarNextError (Option ℕ) := do
  let found ← candidateNs zone candidate.1 candidate.2
  .ok (found.filter (· > after))

namespace CalendarSchedule

/-- The local times of a date, in the order of the search. -/
def candidatesOn (schedule : CalendarSchedule) (date : Date) : List (Date × ℕ) :=
  if schedule.dateMatches date then schedule.scheduledSecondsOfDay.map fun second => (date, second)
  else []

def nextAfterNs (zones : TimeZones) (schedule : CalendarSchedule) (after : ℕ) :
    Except CalendarNextError ℕ := do
  let zone ← schedule.resolveTimezone zones
  let found ← firstAccepted
    (fun date => firstAccepted (laterCandidate zone after) (schedule.candidatesOn date))
    (datesFrom searchHorizonDays (zone.dateOf after))
  match found with
  | some ns => .ok ns
  | none => .error .noFutureOccurrence

/-! ## Occurrences -/

/-- The local times the search tries, in order. -/
def candidates (zone : TimeZone) (schedule : CalendarSchedule) (after : ℕ) : List (Date × ℕ) :=
  (datesFrom searchHorizonDays (zone.dateOf after)).flatMap schedule.candidatesOn

/-- The schedule has an occurrence after `after`: among the local times of ten years there is one
later than `after`, and those before it are skipped by the clocks or moments from 1970 on. -/
def Occurs (zones : TimeZones) (schedule : CalendarSchedule) (after ns : ℕ) : Prop :=
  ∃ zone, zones schedule.timezone = some zone ∧
    ∃ earlier date second later,
      candidates zone schedule after = earlier ++ (date, second) :: later ∧
      (∀ candidate ∈ earlier, zone.localTime candidate.1 candidate.2 = .gap ∨
        ∃ past ≤ after, past ≤ u64Max ∧ zone.localTime candidate.1 candidate.2 = .moment past) ∧
      after < ns ∧ ns ≤ u64Max ∧ zone.localTime date second = .moment ns

end CalendarSchedule

theorem CalendarSchedule.Occurs.le_u64Max {zones : TimeZones} {sched : CalendarSchedule}
    {after ns : ℕ} (occurs : sched.Occurs zones after ns) : ns ≤ u64Max := by
  obtain ⟨-, -, -, -, -, -, -, -, -, small, -⟩ := occurs
  exact small

theorem candidateNs_eq_ok {zone : TimeZone} {date : Date} {second : ℕ} {out : Option ℕ} :
    candidateNs zone date second = .ok out ↔
      zone.localTime date second = .gap ∧ out = none ∨
        ∃ ns ≤ u64Max, zone.localTime date second = .moment ns ∧ out = some ns := by
  rw [candidateNs]
  cases zone.localTime date second with
  | gap => simp [eq_comm]
  | outOfRange => simp
  | moment nanos =>
    dsimp only
    split_ifs with fits
    · obtain ⟨positive, small⟩ := fits
      obtain ⟨ns, rfl⟩ := Int.eq_ofNat_of_zero_le positive
      simp only [false_and, false_or, LocalTime.moment.injEq, Except.ok.injEq]
      constructor
      · rintro rfl
        exact ⟨ns, by exact_mod_cast small, rfl, by simp⟩
      · rintro ⟨_, -, same, rfl⟩
        rw [same]
        simp
    · refine iff_of_false nofun ?_
      rintro (⟨⟨⟩, -⟩ | ⟨ns, small, same, -⟩)
      obtain rfl := LocalTime.moment.inj same
      exact fits ⟨Int.natCast_nonneg ns, by exact_mod_cast small⟩

theorem laterCandidate_eq_ok {zone : TimeZone} {after : ℕ} {candidate : Date × ℕ} {out : Option ℕ} :
    laterCandidate zone after candidate = .ok out ↔
      ∃ got, candidateNs zone candidate.1 candidate.2 = .ok got ∧ out = got.filter (· > after) := by
  rw [laterCandidate, bind_eq_ok]
  simp only [Except.ok.injEq, eq_comm]

theorem laterCandidate_eq_none {zone : TimeZone} {after : ℕ} {candidate : Date × ℕ} :
    laterCandidate zone after candidate = .ok none ↔
      zone.localTime candidate.1 candidate.2 = .gap ∨
        ∃ past ≤ after, past ≤ u64Max ∧ zone.localTime candidate.1 candidate.2 = .moment past := by
  rw [laterCandidate_eq_ok]
  constructor
  · rintro ⟨got, computed, passed⟩
    rcases candidateNs_eq_ok.mp computed with ⟨gap, rfl⟩ | ⟨ns, small, moment, rfl⟩
    · exact .inl gap
    · refine .inr ⟨ns, ?_, small, moment⟩
      by_contra later
      simp [Option.filter_some, not_le.mp later] at passed
  · rintro (gap | ⟨past, notLater, small, moment⟩)
    · exact ⟨none, candidateNs_eq_ok.mpr (.inl ⟨gap, rfl⟩), rfl⟩
    · exact ⟨some past, candidateNs_eq_ok.mpr (.inr ⟨past, small, moment, rfl⟩), by simp [Option.filter_some, notLater]⟩

theorem laterCandidate_eq_some {zone : TimeZone} {after ns : ℕ} {candidate : Date × ℕ} :
    laterCandidate zone after candidate = .ok (some ns) ↔
      after < ns ∧ ns ≤ u64Max ∧ zone.localTime candidate.1 candidate.2 = .moment ns := by
  rw [laterCandidate_eq_ok]
  constructor
  · rintro ⟨got, computed, accepted⟩
    obtain ⟨rfl, later⟩ := Option.filter_eq_some_iff.mp accepted.symm
    rcases candidateNs_eq_ok.mp computed with ⟨-, ⟨⟩⟩ | ⟨_, small, moment, ⟨⟩⟩
    exact ⟨by simpa using later, small, moment⟩
  · rintro ⟨later, small, moment⟩
    exact ⟨some ns, candidateNs_eq_ok.mpr (.inr ⟨ns, small, moment, rfl⟩), by simp [Option.filter_some, later]⟩

theorem CalendarSchedule.nextAfterNs_eq_ok {zones : TimeZones} {sched : CalendarSchedule}
    {after ns : ℕ} : sched.nextAfterNs zones after = .ok ns ↔ sched.Occurs zones after ns := by
  rw [nextAfterNs, bind_eq_ok]
  constructor
  · rintro ⟨zone, resolved, ran⟩
    have known : zones sched.timezone = some zone := by
      rw [resolveTimezone] at resolved
      cases here : zones sched.timezone with
      | none => simp [here] at resolved
      | some other => simpa [here] using resolved
    obtain ⟨got, searched, out⟩ := bind_eq_ok.mp ran
    cases got with
    | none => cases out
    | some other =>
      cases out
      rw [firstAccepted_flatMap] at searched
      obtain ⟨earlier, ⟨date, second⟩, later, split, passed, accepted⟩ :=
        firstAccepted_eq_some.mp searched
      obtain ⟨after, small, moment⟩ := laterCandidate_eq_some.mp accepted
      exact ⟨zone, known, earlier, date, second, later, split,
        fun candidate mem => laterCandidate_eq_none.mp (passed candidate mem), after, small,
        moment⟩
  · rintro ⟨zone, known, earlier, date, second, later, split, passed, after, small, moment⟩
    refine ⟨zone, by rw [resolveTimezone, known], bind_eq_ok.mpr ⟨some ns, ?_, rfl⟩⟩
    rw [firstAccepted_flatMap]
    exact firstAccepted_eq_some.mpr ⟨earlier, (date, second), later, split,
      fun candidate mem => laterCandidate_eq_none.mpr (passed candidate mem),
      laterCandidate_eq_some.mpr ⟨after, small, moment⟩⟩

theorem laterCandidate_eq_error {zone : TimeZone} {after : ℕ} {candidate : Date × ℕ}
    {error : CalendarNextError} : laterCandidate zone after candidate = .error error ↔
      error = .civilTimeOutOfRange ∧ (zone.localTime candidate.1 candidate.2 = .outOfRange ∨
        ∃ m : ℤ, (m < 0 ∨ u64Max < m) ∧ zone.localTime candidate.1 candidate.2 = .moment m) := by
  rw [laterCandidate, bind_eq_error, candidateNs]
  cases zone.localTime candidate.1 candidate.2 with
  | gap => simp
  | outOfRange => simp [eq_comm]
  | moment m =>
    dsimp only
    split_ifs with fits
    · simp
      omega
    · simp [eq_comm]
      omega

namespace CalendarSchedule

variable {zones : TimeZones} {schedule : CalendarSchedule} {zone : TimeZone} {after : ℕ}

theorem nextAfterNs_resolved (resolved : zones schedule.timezone = some zone) :
    schedule.nextAfterNs zones after = (do
      match ← firstAccepted (laterCandidate zone after) (schedule.candidates zone after) with
      | some ns => .ok ns
      | none => .error .noFutureOccurrence) := by
  rw [nextAfterNs, resolveTimezone, resolved, candidates, ← firstAccepted_flatMap]
  rfl

theorem nextAfterNs_eq_noFutureOccurrence (resolved : zones schedule.timezone = some zone) :
    schedule.nextAfterNs zones after = .error .noFutureOccurrence ↔
      ∀ time ∈ schedule.candidates zone after, laterCandidate zone after time = .ok none := by
  rw [nextAfterNs_resolved resolved, ← firstAccepted_eq_none]
  cases walked : firstAccepted (laterCandidate zone after) (schedule.candidates zone after) with
  | ok got =>
    cases got with
    | none => exact iff_of_true rfl rfl
    | some ns => exact iff_of_false nofun nofun
  | error error =>
    obtain ⟨-, time, -, -, -, failed⟩ := firstAccepted_eq_error walked
    obtain ⟨rfl, -⟩ := laterCandidate_eq_error.mp failed
    exact iff_of_false nofun nofun

end CalendarSchedule

end Peinit
