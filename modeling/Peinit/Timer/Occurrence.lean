import Peinit.Timer.Parse

/-!
# The next occurrence of a schedule

The search walks over the local times of a schedule in their order. That it finds the least occurrence
rests on the time zone database: the later of two local times is the later moment, and a local time of
an earlier day than a moment's local date is before that moment.
-/

namespace Peinit

open List List.Pairwise

/-! ## Local times of a schedule -/

/-- A date and a second of that day. -/
abbrev CivilTime : Type := Date × ℕ

def CivilTime.Before (a b : CivilTime) : Prop :=
  a.1.days < b.1.days ∨ a.1.days = b.1.days ∧ a.2 < b.2

namespace CalendarSchedule

/-- The schedule allows the day of the month, or its distance from the last one. -/
def MatchesDay (schedule : CalendarSchedule) (date : Date) : Prop :=
  match schedule.days with
  | .monthDay days => date.day ∈ days.values
  | .lastDay offsets => date.daysInMonth - date.day + 1 ∈ offsets.values

/-- Every field of the local time belongs to its field of the schedule. -/
structure Matches (schedule : CalendarSchedule) (time : CivilTime) : Prop where
  year : ∃ year ∈ schedule.years.values, (year : ℤ) = time.1.year
  month : time.1.month ∈ schedule.months.values
  day : schedule.MatchesDay time.1
  weekday : time.1.weekday ∈ schedule.weekdays.values
  hour : time.2 / 3600 ∈ schedule.hours.values
  minute : time.2 % 3600 / 60 ∈ schedule.minutes.values
  second : time.2 % 60 ∈ schedule.seconds.values

end CalendarSchedule

theorem Date.year_bounds {date : Date} (low : -4371587 ≤ date.days) (high : date.days ≤ 2932896) :
    -10000 ≤ date.year ∧ date.year ≤ 10001 := by
  have ofEra : 0 ≤ date.yearOfEra ∧ date.yearOfEra ≤ 400 := by
    unfold yearOfEra dayOfEra
    omega
  unfold year
  split_ifs <;> omega

namespace CalendarSchedule

variable {schedule : CalendarSchedule} {date : Date} {second : ℕ}

theorem matchesDate_iff : schedule.days.matchesDate date = true ↔ schedule.MatchesDay date := by
  unfold DayField.matchesDate MatchesDay
  cases schedule.days <;> simp [NumberField.contains]

instance : Decidable (schedule.MatchesDay date) := decidable_of_iff _ matchesDate_iff

theorem dateMatches_iff (years : schedule.years.Within 0 9999) (low : -4371587 ≤ date.days)
    (high : date.days ≤ 2932896) : schedule.dateMatches date = true ↔
      (∃ year ∈ schedule.years.values, (year : ℤ) = date.year) ∧
      date.month ∈ schedule.months.values ∧ schedule.MatchesDay date ∧
      date.weekday ∈ schedule.weekdays.values := by
  -- a year of the field is below 10000, so the cast to sixteen bits is no other year
  have cast : (date.year % 2 ^ 16).toNat ∈ schedule.years.values ↔
      ∃ year ∈ schedule.years.values, (year : ℤ) = date.year := by
    obtain ⟨above, below⟩ := Date.year_bounds low high
    constructor
    · intro mem
      have small := (years.bounds _ mem).2
      exact ⟨_, mem, by omega⟩
    · rintro ⟨year, mem, same⟩
      rw [← same]
      have back : ((year : ℤ) % 2 ^ 16).toNat = year := by omega
      rwa [back]
  unfold dateMatches
  simp only [Bool.and_eq_true, matchesDate_iff, NumberField.contains, contains_eq_mem, decide_eq_true_eq, cast,
    and_assoc]

theorem mem_scheduledSecondsOfDay (inRange : schedule.InRange) :
    second ∈ schedule.scheduledSecondsOfDay ↔ second / 3600 ∈ schedule.hours.values ∧
      second % 3600 / 60 ∈ schedule.minutes.values ∧ second % 60 ∈ schedule.seconds.values := by
  unfold scheduledSecondsOfDay
  simp only [mem_flatMap, mem_map]
  constructor
  · rintro ⟨hour, hours, minute, minutes, s, seconds, rfl⟩
    have m := (inRange.minutes.bounds minute minutes).2
    have b := (inRange.seconds.bounds s seconds).2
    have hour' : (hour * 3600 + minute * 60 + s) / 3600 = hour := by omega
    have minute' : (hour * 3600 + minute * 60 + s) % 3600 / 60 = minute := by omega
    have second' : (hour * 3600 + minute * 60 + s) % 60 = s := by omega
    rw [hour', minute', second']
    exact ⟨hours, minutes, seconds⟩
  · rintro ⟨hours, minutes, seconds⟩
    exact ⟨_, hours, _, minutes, _, seconds, by omega⟩

theorem scheduledSecondsOfDay_ascending (inRange : schedule.InRange) :
    schedule.scheduledSecondsOfDay.Pairwise (· < ·) := by
  have minutes : ∀ hour minute, minute ∈ schedule.minutes.values → ∀ x,
      x ∈ schedule.seconds.values.map (fun second => hour * 3600 + minute * 60 + second) →
        hour * 3600 + minute * 60 ≤ x ∧ x < hour * 3600 + (minute + 1) * 60 := by
    rintro hour minute - x mem
    obtain ⟨second, seconds, rfl⟩ := mem_map.mp mem
    have b := (inRange.seconds.bounds second seconds).2
    omega
  apply pairwise_flatMap.mpr
  constructor
  · intro hour _
    apply pairwise_flatMap.mpr
    constructor
    · intro minute _
      apply map _ _ schedule.seconds.ascending
      omega
    · refine imp_of_mem ?_ schedule.minutes.ascending
      intro a b listedA listedB less x mx y my
      have hx := (minutes hour a listedA x mx).2
      have hy := (minutes hour b listedB y my).1
      omega
  · refine imp_of_mem ?_ schedule.hours.ascending
    intro a b listedA listedB less x mx y my
    obtain ⟨m, listedM, mx⟩ := mem_flatMap.mp mx
    obtain ⟨n, listedN, my⟩ := mem_flatMap.mp my
    have hx := (minutes a m listedM x mx).2
    have hy := (minutes b n listedN y my).1
    have sixty := (inRange.minutes.bounds m listedM).2
    omega

end CalendarSchedule

/-! ## The walk -/

/-- The last day of the calendar. -/
def lastDay : ℤ := 2932896

theorem mem_datesFrom {count : ℕ} {start date : Date} (inside : start.days ≤ lastDay) :
    date ∈ datesFrom count start ↔
      start.days ≤ date.days ∧ date.days < start.days + count ∧ date.days ≤ lastDay := by
  induction count generalizing start with
  | zero =>
    simp only [datesFrom, not_mem_nil, false_iff]
    omega
  | succ count ih =>
    have here : date = start ↔ date.days = start.days := by
      cases date
      cases start
      simp
    rw [datesFrom, mem_cons, here]
    unfold Date.tomorrow
    split_ifs with more
    · rw [ih (by unfold lastDay; dsimp only; omega)]
      push_cast
      constructor
      · rintro (same | ⟨low, high, last⟩)
        · exact ⟨by omega, by omega, by omega⟩
        · exact ⟨by omega, by omega, last⟩
      · rintro ⟨low, high, last⟩
        by_cases same : date.days = start.days
        · exact .inl same
        · exact .inr ⟨by omega, by omega, last⟩
    · simp only [not_mem_nil, or_false]
      unfold lastDay at inside ⊢
      omega

theorem datesFrom_ascending (count : ℕ) (start : Date) :
    (datesFrom count start).Pairwise (fun a b => a.days < b.days) := by
  induction count generalizing start with
  | zero => exact nil
  | succ count ih =>
    rw [datesFrom]
    unfold Date.tomorrow
    split_ifs with more
    · refine pairwise_cons.mpr ⟨fun date mem => ?_, ih _⟩
      have above := ((mem_datesFrom (by unfold lastDay; dsimp only; omega)).mp mem).1
      dsimp only at above
      omega
    · exact pairwise_singleton _ _

/-- What the time zone database guarantees of a zone: of two local times that are not skipped the later
one is the later moment, a local time of a day before the local date of a moment is before that moment,
and local dates are dates of its calendar. -/
structure TimeZone.Ordered (zone : TimeZone) : Prop where
  later : ∀ a b : CivilTime, a.2 < 86400 → b.2 < 86400 → a.Before b → ∀ m n,
    zone.localTime a.1 a.2 = .moment m → zone.localTime b.1 b.2 = .moment n → m < n
  earlier : ∀ (after : ℕ) (date : Date) (second : ℕ) (m : ℤ), second < 86400 →
    date.days < (zone.dateOf after).days → zone.localTime date second = .moment m → m < after
  dates : ∀ after ≤ u64Max, -4371587 ≤ (zone.dateOf after).days ∧ (zone.dateOf after).days ≤ lastDay

namespace CalendarSchedule

variable {sched : CalendarSchedule} {zone : TimeZone} {after : ℕ} {time : CivilTime}

theorem Matches.second_lt (inRange : sched.InRange) (matched : sched.Matches time) : time.2 < 86400 := by
  have hour := (inRange.hours.bounds _ matched.hour).2
  omega

/-- The dates that are walked over. -/
def InWindow (zone : TimeZone) (after : ℕ) (date : Date) : Prop := (zone.dateOf after).days ≤ date.days ∧
    date.days < (zone.dateOf after).days + searchHorizonDays ∧ date.days ≤ lastDay

theorem matches_iff (inRange : sched.InRange) (low : -4371587 ≤ time.1.days)
    (high : time.1.days ≤ lastDay) : sched.Matches time ↔
      sched.dateMatches time.1 = true ∧ time.2 ∈ sched.scheduledSecondsOfDay := by
  rw [dateMatches_iff inRange.years low high, mem_scheduledSecondsOfDay inRange]
  constructor
  · intro matched
    exact ⟨⟨matched.year, matched.month, matched.day, matched.weekday⟩, matched.hour, matched.minute,
      matched.second⟩
  · rintro ⟨⟨year, month, day, weekday⟩, hour, minute, second⟩
    exact ⟨year, month, day, weekday, hour, minute, second⟩

theorem mem_candidates (inRange : sched.InRange) (ordered : zone.Ordered) (fits : after ≤ u64Max) :
    time ∈ sched.candidates zone after ↔ sched.Matches time ∧ InWindow zone after time.1 := by
  obtain ⟨low, high⟩ := ordered.dates after fits
  have mem : time ∈ sched.candidates zone after ↔
      InWindow zone after time.1 ∧ sched.dateMatches time.1 = true ∧
        time.2 ∈ sched.scheduledSecondsOfDay := by
    unfold candidates candidatesOn
    rw [mem_flatMap]
    constructor
    · rintro ⟨other, walked, tried⟩
      split_ifs at tried with matched
      · obtain ⟨_, seconds, same⟩ := mem_map.mp tried
        cases same
        exact ⟨(mem_datesFrom high).mp walked, matched, seconds⟩
      · cases tried
    · rintro ⟨walked, matched, seconds⟩
      refine ⟨time.1, (mem_datesFrom high).mpr walked, ?_⟩
      rw [if_pos matched]
      exact mem_map_of_mem seconds
  rw [mem, and_comm]
  refine and_congr_left fun window => ?_
  exact (matches_iff inRange (low.trans window.1) window.2.2).symm

theorem candidates_ascending (inRange : sched.InRange) (zone : TimeZone) (after : ℕ) :
    (sched.candidates zone after).Pairwise CivilTime.Before := by
  have on : ∀ date, ∀ time ∈ sched.candidatesOn date, time.1 = date := by
    intro date time tried
    unfold candidatesOn at tried
    split_ifs at tried
    · obtain ⟨second, -, rfl⟩ := mem_map.mp tried
      rfl
    · cases tried
  apply pairwise_flatMap.mpr
  constructor
  · intro date _
    unfold candidatesOn
    split_ifs
    · apply map _ _ (scheduledSecondsOfDay_ascending inRange)
      intro a b less
      exact .inr ⟨rfl, less⟩
    · exact nil
  · refine imp ?_ (datesFrom_ascending _ _)
    intro a b less x onA y onB
    left
    rw [on a x onA, on b y onB]
    exact less

/-! ## The least occurrence -/

/-- `t` is the first moment at which the clock of the zone shows some local time of the schedule. -/
def OccursAt (schedule : CalendarSchedule) (zone : TimeZone) (t : ℤ) : Prop :=
  ∃ time, schedule.Matches time ∧ zone.localTime time.1 time.2 = .moment t

theorem before_trichotomy (a b : CivilTime) : a.Before b ∨ a = b ∨ b.Before a := by
  obtain ⟨⟨days⟩, second⟩ := a
  obtain ⟨⟨days'⟩, second'⟩ := b
  unfold CivilTime.Before
  simp only [Prod.mk.injEq, Date.mk.injEq]
  omega

theorem Occurs.later {zones : TimeZones} {t : ℕ} (occurs : sched.Occurs zones after t) : after < t := by
  obtain ⟨-, -, -, -, -, -, -, -, later, -, -⟩ := occurs
  exact later

theorem tried_before_or_le {before rest : List CivilTime} {reached : CivilTime} {m n : ℤ}
    (inRange : sched.InRange) (ordered : zone.Ordered) (fits : after ≤ u64Max)
    (split : sched.candidates zone after = before ++ reached :: rest)
    (mem : time ∈ sched.candidates zone after)
    (atReached : zone.localTime reached.1 reached.2 = .moment m)
    (atTime : zone.localTime time.1 time.2 = .moment n) : time ∈ before ∨ m ≤ n := by
  have order := candidates_ascending inRange zone after
  have first : reached ∈ sched.candidates zone after := by
    rw [split]
    simp
  have reachedMatches := ((mem_candidates inRange ordered fits).mp first).1
  have matched := ((mem_candidates inRange ordered fits).mp mem).1
  rw [split] at mem order
  rcases mem_append.mp mem with old | new
  · exact .inl old
  right
  rcases mem_cons.mp new with rfl | new
  · cases atReached.symm.trans atTime
    exact le_rfl
  · have less := rel_of_pairwise_cons (pairwise_append.mp order).2.1 new
    exact (ordered.later _ _ (reachedMatches.second_lt inRange) (matched.second_lt inRange) less _ _
      atReached atTime).le

/-- What the walk has passed over is not after its start, and what it has not come to is later. -/
theorem Occurs.least {zones : TimeZones} {t : ℕ} (inRange : sched.InRange)
    (resolved : zones sched.timezone = some zone) (ordered : zone.Ordered)
    (occurs : sched.Occurs zones after t) :
    sched.OccursAt zone t ∧ ∀ t', sched.OccursAt zone t' → after < t' → t ≤ t' := by
  obtain ⟨zone', known, before, date, second, rest, split, passed, later, small, moment⟩ := occurs
  obtain rfl : zone = zone' := Option.some.inj (resolved.symm.trans known)
  have fits : after ≤ u64Max := by omega
  have got : (date, second) ∈ sched.candidates zone after := by
    rw [split]
    simp
  obtain ⟨matched, window⟩ := (mem_candidates inRange ordered fits).mp got
  refine ⟨⟨_, matched, moment⟩, ?_⟩
  rintro t' ⟨time, matches', moment'⟩ after'
  rcases before_trichotomy time (date, second) with less | rfl | less
  · -- the local time was tried before, or is of a day before the walk
    by_cases early : time.1.days < (zone.dateOf after).days
    · have := ordered.earlier after time.1 time.2 t' (matches'.second_lt inRange) early moment'
      omega
    have tried : time ∈ sched.candidates zone after := by
      refine (mem_candidates inRange ordered fits).mpr ⟨matches', not_lt.mp early, ?_⟩
      obtain ⟨-, high, last⟩ := window
      unfold CivilTime.Before at less
      omega
    rcases tried_before_or_le inRange ordered fits split tried moment moment' with old | le
    · rcases passed time old with gap | ⟨past, notLater, -, moment''⟩
      · cases gap.symm.trans moment'
      · cases moment''.symm.trans moment'
        omega
    · exact le
  · cases moment.symm.trans moment'
    exact le_rfl
  · exact (ordered.later _ _ (matched.second_lt inRange) (matches'.second_lt inRange) less _ _ moment
      moment').le

/-- The search returns the first moment after `after` at which the clock of the zone shows a local time
of the schedule. -/
theorem next_occurrence_is_least {zones : TimeZones} {expression : String}
    {schedule : CalendarSchedule} {zone : TimeZone} {after t : ℕ}
    (parsed : parse zones expression = .ok schedule) (resolved : zones schedule.timezone = some zone)
    (ordered : zone.Ordered) (ran : schedule.nextAfterNs zones after = .ok t) :
    after < t ∧ schedule.OccursAt zone t ∧ ∀ t', schedule.OccursAt zone t' → ¬ (after < t' ∧ t' < t) := by
  have occurs := nextAfterNs_eq_ok.mp ran
  obtain ⟨here, least⟩ := occurs.least (inRange_parse parsed) resolved ordered
  refine ⟨occurs.later, here, ?_⟩
  rintro t' occurs' ⟨later, sooner⟩
  exact absurd (least t' occurs' later) (not_le.mpr sooner)

end CalendarSchedule

/-- A zone whose clocks are always the same number of seconds ahead. -/
def fixedOffset (seconds : ℤ) : TimeZone where
  dateOf ns := ⟨(ns + seconds * nanosPerSec) / (86400 * nanosPerSec)⟩
  localTime date second := .moment ((date.days * 86400 + second - seconds) * nanosPerSec)

theorem fixedOffset_ordered {seconds : ℤ} (low : -86400 ≤ seconds) (high : seconds ≤ 86400) :
    (fixedOffset seconds).Ordered where
  later := by
    rintro ⟨⟨days⟩, second⟩ ⟨⟨days'⟩, second'⟩ inDay inDay' before m n ⟨⟩ ⟨⟩
    unfold CivilTime.Before at before
    unfold nanosPerSec
    omega
  earlier := by
    rintro after ⟨days⟩ second m inDay before ⟨⟩
    unfold fixedOffset at before
    unfold nanosPerSec at before ⊢
    dsimp only at before ⊢
    omega
  dates := by
    intro after small
    unfold fixedOffset nanosPerSec lastDay
    unfold u64Max at small
    dsimp only
    omega

theorem utc_ordered : utc.Ordered := by
  rw [show utc = fixedOffset 0 by simp [utc, fixedOffset]]
  exact fixedOffset_ordered (by decide) (by decide)

namespace CalendarSchedule

/-- The first midnight after the epoch. -/
theorem next_occurrence_is_least_daily :
    ∃ schedule, parse (fun _ => some utc) "1970-01-* 00:00:00 UTC" = .ok schedule ∧
      schedule.nextAfterNs (fun _ => some utc) 0 = .ok (86400 * nanosPerSec) ∧
      schedule.OccursAt utc (86400 * nanosPerSec : ℕ) ∧
      ∀ t', schedule.OccursAt utc t' → ¬ ((0 : ℕ) < t' ∧ t' < (86400 * nanosPerSec : ℕ)) := by
  refine Exists.imp (p := fun _ => _ ∧ _) (fun schedule ⟨parsed, next⟩ =>
    ⟨parsed, next, (next_occurrence_is_least parsed rfl utc_ordered next).2⟩) ?_
  decide +kernel

end CalendarSchedule

end Peinit
