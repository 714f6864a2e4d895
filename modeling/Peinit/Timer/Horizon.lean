import Peinit.Timer.Occurrence

/-!
# What the search for an occurrence misses

The search gives up after ten years, and it fails at a local time that is no moment of the clock.  Both
are taken to be harmless: that no schedule has a wider gap, and that such times before the start of the
search are passed over.
-/

namespace Peinit

open CalendarText

namespace CalendarSchedule

variable {zones : TimeZones} {schedule : CalendarSchedule} {zone : TimeZone} {after : ℕ}

/-! ## Local times before the epoch -/

/-- The library can say of every local time of the window which moment it is. -/
def Representable (zone : TimeZone) (after : ℕ) : Prop :=
  ∀ time : CivilTime, InWindow zone after time.1 → time.2 < 86400 →
    zone.localTime time.1 time.2 ≠ .outOfRange

/-- An occurrence of the window is found exactly when no local time of the schedule in the window is
before 1970. -/
theorem horizon_occurrence_found_iff_none_before_epoch {zones : TimeZones} {expression : String}
    {schedule : CalendarSchedule} {zone : TimeZone} {after t : ℕ} {time : CivilTime}
    (parsed : parse zones expression = .ok schedule) (resolved : zones schedule.timezone = some zone)
    (ordered : zone.Ordered) (representable : Representable zone after)
    (matched : schedule.Matches time) (window : InWindow zone after time.1)
    (moment : zone.localTime time.1 time.2 = .moment t) (later : after < t) (fits : t ≤ u64Max) :
    (∃ ns, schedule.nextAfterNs zones after = .ok ns) ↔
      ∀ (early : CivilTime) (m : ℤ), schedule.Matches early → InWindow zone after early.1 →
        zone.localTime early.1 early.2 = .moment m → 0 ≤ m := by
  have inRange := inRange_parse parsed
  have fits' : after ≤ u64Max := by omega
  have listed := (mem_candidates inRange ordered fits').mpr ⟨matched, window⟩
  constructor
  · rintro ⟨ns, ran⟩ early m matched' window' moment'
    obtain ⟨zone', known, before, date, second, rest, split, passed, later', -, found⟩ :=
      nextAfterNs_eq_ok.mp ran
    obtain rfl : zone = zone' := Option.some.inj (resolved.symm.trans known)
    have tried := (mem_candidates inRange ordered fits').mpr ⟨matched', window'⟩
    rcases tried_before_or_le inRange ordered fits' split tried found moment' with old | le
    · rcases passed early old with gap | ⟨past, -, -, moment''⟩
      · cases gap.symm.trans moment'
      · cases moment''.symm.trans moment'
        omega
    · omega
  · intro none
    rw [nextAfterNs_resolved resolved]
    cases walked : firstAccepted (laterCandidate zone after) (schedule.candidates zone after) with
    | ok found =>
      cases found with
      | none =>
        have passed := firstAccepted_eq_none.mp walked _ listed
        cases passed.symm.trans (laterCandidate_eq_some.mpr ⟨later, fits, moment⟩)
      | some ns => exact ⟨ns, rfl⟩
    | error error =>
      obtain ⟨before, early, rest, split, passed, failed⟩ := firstAccepted_eq_error walked
      have tried : early ∈ schedule.candidates zone after := by
        rw [split]
        simp
      obtain ⟨matched', window'⟩ := (mem_candidates inRange ordered fits').mp tried
      obtain ⟨-, out | ⟨m, low | high, moment'⟩⟩ := laterCandidate_eq_error.mp failed
      · exact absurd out (representable early window' (matched'.second_lt inRange))
      · have := none early m matched' window' moment'
        omega
      · -- a moment beyond the range of the clock is not before the occurrence
        rcases tried_before_or_le inRange ordered fits' split listed moment' moment with old | le
        · cases (passed time old).symm.trans (laterCandidate_eq_some.mpr ⟨later, fits, moment⟩)
        · omega

/-- Midnight of the second of January 1970 is found in UTC. -/
theorem horizon_occurrence_found_utc :
    ∃ schedule, parse (fun _ => some utc) "1970-*-* 00:00:00 UTC" = .ok schedule ∧
      Representable utc 0 ∧ schedule.Matches (⟨1⟩, 0) ∧ InWindow utc 0 ⟨1⟩ ∧
      ∃ ns, schedule.nextAfterNs (fun _ => some utc) 0 = .ok ns := by
  refine Exists.imp (p := fun schedule => _ ∧ schedule.dateMatches ⟨1⟩ = true ∧
      0 ∈ schedule.scheduledSecondsOfDay) (fun schedule ⟨parsed, tests⟩ => ⟨parsed, ?_⟩) (by decide +kernel)
  have matched : schedule.Matches (⟨1⟩, 0) :=
    (matches_iff (inRange_parse parsed) (by decide) (by decide)).mpr tests
  have window : InWindow utc 0 ⟨1⟩ := by
    unfold InWindow
    decide
  have representable : Representable utc 0 := fun _ _ _ => nofun
  refine ⟨representable, matched, window, ?_⟩
  refine (horizon_occurrence_found_iff_none_before_epoch (t := 86400 * nanosPerSec) parsed rfl
    utc_ordered representable matched window rfl (by decide) (by decide)).mpr ?_
  rintro ⟨⟨days⟩, second⟩ m - ⟨low, -⟩ ⟨⟩
  unfold utc nanosPerSec at low
  unfold nanosPerSec
  dsimp only at low ⊢
  omega

/-- One hour east of Greenwich the first midnight of 1970 is before the epoch, and the search that starts
at the epoch ends there. -/
theorem midnight_before_epoch_ends_search :
    (fixedOffset 3600).Ordered ∧ Representable (fixedOffset 3600) 0 ∧
    ∃ schedule, parse (fun _ => some (fixedOffset 3600)) "1970-*-* 00:00:00" = .ok schedule ∧
      schedule.Matches (⟨1⟩, 0) ∧ InWindow (fixedOffset 3600) 0 ⟨1⟩ ∧
      (fixedOffset 3600).localTime ⟨1⟩ 0 = .moment (82800 * nanosPerSec : ℕ) ∧
      schedule.nextAfterNs (fun _ => some (fixedOffset 3600)) 0 = .error .civilTimeOutOfRange := by
  refine ⟨fixedOffset_ordered (by decide) (by decide), fun _ _ _ => nofun, Exists.imp
    (p := fun schedule => _ ∧ (schedule.dateMatches ⟨1⟩ = true ∧ 0 ∈ schedule.scheduledSecondsOfDay) ∧ _)
    (fun schedule ⟨parsed, tests, failed⟩ => ⟨parsed, ?_, ?_, by decide, failed⟩) (by decide +kernel)⟩
  · exact (matches_iff (inRange_parse parsed) (by decide) (by decide)).mpr tests
  · unfold InWindow
    decide

/-! ## Gaps of more than ten years -/

/-- The months, the days and the weekdays of the schedule meet on the date. -/
structure RecursOn (schedule : CalendarSchedule) (date : Date) : Prop where
  month : date.month ∈ schedule.months.values
  day : schedule.MatchesDay date
  weekday : date.weekday ∈ schedule.weekdays.values

theorem year_of_window {date : Date} (fits : after ≤ u64Max) (window : InWindow utc after date) :
    0 ≤ date.year ∧ date.year ≤ 9999 := by
  obtain ⟨low, high, -⟩ := window
  unfold utc nanosPerSec at low high
  unfold u64Max at fits
  unfold searchHorizonDays at high
  dsimp only at low high
  have ofEra : 0 ≤ date.yearOfEra ∧ date.yearOfEra ≤ 400 := by
    unfold Date.yearOfEra Date.dayOfEra
    omega
  unfold Date.year
  split_ifs <;> omega

/-- A schedule for every year has a next occurrence exactly when its months, days and weekdays meet on a
date of the ten years after the start, and the scheduled second is after the start. -/
theorem recurring_schedule_found_iff_recurs_within_horizon {zones : TimeZones} {expression : String}
    {schedule : CalendarSchedule} {after : ℕ} (parsed : parse zones expression = .ok schedule)
    (everyYear : ∀ year ≤ 9999, year ∈ schedule.years.values)
    (resolved : zones schedule.timezone = some utc) (fits : after ≤ u64Max) :
    schedule.nextAfterNs zones after ≠ .error .noFutureOccurrence ↔
      ∃ date second, InWindow utc after date ∧ schedule.RecursOn date ∧
        second ∈ schedule.scheduledSecondsOfDay ∧
        (after : ℤ) < (date.days * 86400 + second) * nanosPerSec := by
  have inRange := inRange_parse parsed
  rw [Ne, nextAfterNs_eq_noFutureOccurrence resolved]
  push Not
  constructor
  · rintro ⟨⟨date, second⟩, listed, notPassed⟩
    obtain ⟨matched, window⟩ := (mem_candidates inRange utc_ordered fits).mp listed
    refine ⟨date, second, window, ⟨matched.month, matched.day, matched.weekday⟩,
      (mem_scheduledSecondsOfDay inRange).mpr ⟨matched.hour, matched.minute, matched.second⟩, ?_⟩
    by_contra notLater
    apply notPassed
    have positive : 0 ≤ (date.days * 86400 + second) * nanosPerSec := by
      have low := window.1
      unfold utc nanosPerSec at low
      unfold nanosPerSec
      dsimp only at low
      omega
    refine laterCandidate_eq_none.mpr (.inr ⟨((date.days * 86400 + second) * nanosPerSec).toNat, ?_, ?_, ?_⟩)
    · omega
    · omega
    · rw [Int.toNat_of_nonneg positive]
      rfl
  · rintro ⟨date, second, window, recurs, scheduled, later⟩
    obtain ⟨hour, minute, second'⟩ := (mem_scheduledSecondsOfDay inRange).mp scheduled
    obtain ⟨positive, small⟩ := year_of_window fits window
    have year : ∃ year ∈ schedule.years.values, (year : ℤ) = date.year :=
      ⟨date.year.toNat, everyYear _ (by omega), Int.toNat_of_nonneg positive⟩
    refine ⟨(date, second), (mem_candidates inRange utc_ordered fits).mpr
      ⟨⟨year, recurs.month, recurs.day, recurs.weekday, hour, minute, second'⟩, window⟩, ?_⟩
    intro passed
    rcases laterCandidate_eq_none.mp passed with gap | ⟨past, notLater, -, moment⟩
    · cases gap
    · have same := LocalTime.moment.inj moment
      dsimp only at same
      omega

/-! ### A twenty-ninth of February on a Monday -/

def leapMonday : CalendarSchedule where
  weekdays := .only 1
  years := .any 0 9999
  months := .only 2
  days := .monthDay (.only 29)
  hours := .only 0
  minutes := .only 0
  seconds := .only 0
  timezone := some "UTC"

theorem parseDate_leapDay : parseDate ['*', '-', '0', '2', '-', '2', '9'] =
    .ok ⟨.any 0 9999, ⟨[2], by decide⟩, .monthDay ⟨[29], by decide⟩⟩ := by
  rfl

-- the ten thousand years of the field are never computed
theorem parse_leapMonday : parse (fun _ => some utc) "Mon *-02-29 00:00:00 UTC" = .ok leapMonday := by
  have trimmed : trim "Mon *-02-29 00:00:00 UTC".toList = "Mon *-02-29 00:00:00 UTC".toList := by
    decide +kernel
  have noShortcut : expandShortcut "Mon *-02-29 00:00:00 UTC".toList =
      ("Mon *-02-29 00:00:00 UTC".toList, false) := by
    decide +kernel
  have tokens : splitWhitespace "Mon *-02-29 00:00:00 UTC".toList =
      [['M', 'o', 'n'], ['*', '-', '0', '2', '-', '2', '9'],
        ['0', '0', ':', '0', '0', ':', '0', '0'], ['U', 'T', 'C']] := by
    decide +kernel
  have monday : parseWeekdayField ['M', 'o', 'n'] = .ok ⟨[1], by decide⟩ := by rfl
  simp only [parse, trimmed, noShortcut, tokens, reduceCtorEq, if_false, parseTokens]
  rw [takePart_of_looksLike (by decide +kernel) monday]
  simp only [bind, Except.bind]
  rw [takePart_of_looksLike (by decide +kernel) parseDate_leapDay]
  dsimp only
  rfl

theorem leapMonday_everyYear : ∀ year ≤ 9999, year ∈ leapMonday.years.values :=
  fun year small => NumberField.mem_any (by decide) (Nat.zero_le year) small

/-- From 2043 on the twenty-ninth of February 2044, a Monday, is found. -/
theorem recurring_schedule_found_leapMonday :
    parse (fun _ => some utc) "Mon *-02-29 00:00:00 UTC" = .ok leapMonday ∧
    leapMonday.nextAfterNs (fun _ => some utc) (26663 * 86400 * nanosPerSec) ≠
      .error .noFutureOccurrence := by
  refine ⟨parse_leapMonday, ?_⟩
  refine (recurring_schedule_found_iff_recurs_within_horizon parse_leapMonday leapMonday_everyYear rfl
    (by decide)).mpr ⟨⟨27087⟩, 0, ?_, ⟨?_, ?_, ?_⟩, ?_, ?_⟩
  · unfold InWindow
    decide
  · decide
  · decide
  · decide
  · decide
  · decide

/-- From 2026 on it is eighteen years to the next one, and the search gives up. -/
theorem leapMonday_not_found_from_2026 :
    parse (fun _ => some utc) "Mon *-02-29 00:00:00 UTC" = .ok leapMonday ∧
    (∀ year ≤ 9999, year ∈ leapMonday.years.values) ∧
    leapMonday.Matches (⟨27087⟩, 0) ∧ (Date.mk 27087).year = 2044 ∧
    (utc.dateOf (20454 * 86400 * nanosPerSec)).year = 2026 ∧
    leapMonday.nextAfterNs (fun _ => some utc) (20454 * 86400 * nanosPerSec) =
      .error .noFutureOccurrence := by
  have year2044 : (Date.mk 27087).year = 2044 := by decide
  refine ⟨parse_leapMonday, leapMonday_everyYear, ?_, year2044, by decide, ?_⟩
  · have year : ∃ year ∈ leapMonday.years.values, (year : ℤ) = (Date.mk 27087).year :=
      ⟨2044, leapMonday_everyYear 2044 (by decide), year2044.symm⟩
    exact ⟨year, by decide, by decide, by decide, by decide, by decide, by decide⟩
  · have absent : ∀ date ∈ datesFrom searchHorizonDays ⟨20454⟩,
        ¬ (leapMonday.weekdays.contains date.weekday && leapMonday.months.contains date.month &&
          leapMonday.days.matchesDate date) = true := by
      decide +kernel
    apply (nextAfterNs_eq_noFutureOccurrence rfl).mpr
    intro time tried
    obtain ⟨date, walked, tried⟩ := List.mem_flatMap.mp tried
    unfold candidatesOn at tried
    split_ifs at tried with matched
    · simp only [dateMatches, Bool.and_eq_true] at matched
      refine absurd ?_ (absent date walked)
      simp only [Bool.and_eq_true]
      exact ⟨⟨matched.2, matched.1.1.2⟩, matched.1.2⟩
    · cases tried

end CalendarSchedule

end Peinit
