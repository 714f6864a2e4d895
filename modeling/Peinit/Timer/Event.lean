import Peinit.Service.Definition
import Peinit.Timer.Occurrence

/-!
# Firing and arming again

A calendar timer that has fired is armed for the next occurrence of its schedule, delayed by a random
number of seconds. The search starts at the occurrence that fired, not at the clock. The world is in
`TimerEnvironment`.
-/

namespace Peinit

inductive LinuxTimerFdRead where
  | wouldBlock
  | expired (expirations : ℕ)
  | canceled
  deriving DecidableEq

inductive TimerJitterError where
  | random
  | jitterWindowOverflow (jitterSecs : ℕ)
  | deadlineOverflow (scheduledNs delaySecs : ℕ)
  deriving DecidableEq

inductive LinuxCalendarTimerError where
  | clock
  | arm
  | read
  | supervisor
  | unknownTimer (fd : ℤ)
  | next (error : CalendarNextError)
  | jitter (error : TimerJitterError)
  deriving DecidableEq

/-- What a firing for a service in the table comes to. -/
inductive TimerFiringAction where
  | start
  | pendingOneshot
  | simpleNoop
  | stateNoop
  | disabled
  deriving DecidableEq

inductive SupervisorTimerAction where
  | shutdownInProgress
  | serviceGone
  | fired (action : TimerFiringAction)
  deriving DecidableEq

structure LinuxCalendarTimerEntry where
  service : String
  schedule : String
  persistent : Bool
  calendar : CalendarSchedule
  nextScheduledNs : ℕ
  armedDeadlineNs : ℕ
  jitterSecs : ℕ
  lastFiredNs : Option ℕ

abbrev LinuxCalendarTimerTable : Type := OrdMap ℤ LinuxCalendarTimerEntry

structure TimerEnvironment where
  zones : TimeZones
  readExpirations : Except Unit LinuxTimerFdRead
  realtimeNs : Except Unit ℕ
  monotonicNs : Except Unit ℕ
  /-- The first number the random source gives that is below the acceptance zone of the range. -/
  randomU64 : ℕ → Except Unit ℕ
  armRealtimeAbsoluteNs : ℕ → Except Unit Unit
  shutdown : Bool
  services : ServiceTable
  /-- What the supervisor does for a service in the table. -/
  react : String → String → ℕ → Except Unit TimerFiringAction

structure RuntimeCalendarTimerTurn where
  read : LinuxTimerFdRead
  supervisor : Option SupervisorTimerAction
  lastRunWrite : Bool
  nextScheduledNs : Option ℕ
  deriving DecidableEq

namespace TimerEnvironment

variable (env : TimerEnvironment)

def handleTimerFiring (service schedule : String) (observedAtNs : ℕ) :
    Except Unit SupervisorTimerAction :=
  if env.shutdown then .ok .shutdownInProgress
  else if (env.services.get service).isNone then .ok .serviceGone
  else (env.react service schedule observedAtNs).map .fired

def timerJitterDelaySecs (jitterSecs : ℕ) : Except TimerJitterError ℕ :=
  if jitterSecs = 0 then .ok 0
  else if jitterSecs + 1 > u64Max then .error (.jitterWindowOverflow jitterSecs)
  else match env.randomU64 (jitterSecs + 1) with
    | .ok sample => .ok (sample % (jitterSecs + 1))
    | .error () => .error .random

/-- The moment the descriptor is armed for. -/
def applyTimerJitter (scheduledNs jitterSecs : ℕ) : Except TimerJitterError ℕ := do
  let delaySecs ← env.timerJitterDelaySecs jitterSecs
  if delaySecs * nanosPerSec > u64Max then .error (.deadlineOverflow scheduledNs delaySecs)
  else if scheduledNs + delaySecs * nanosPerSec > u64Max then
    .error (.deadlineOverflow scheduledNs delaySecs)
  else .ok (scheduledNs + delaySecs * nanosPerSec)

end TimerEnvironment

/-- Where the search for the occurrence after a firing starts. -/
def rearmAnchorNs (firedScheduledNs jitterSecs realtimeNowNs : ℕ) : ℕ :=
  max firedScheduledNs (realtimeNowNs - saturatingMul jitterSecs nanosPerSec)

namespace LinuxCalendarTimerTable

variable (env : TimerEnvironment) (table : LinuxCalendarTimerTable)

def entry (fd : ℤ) : Except LinuxCalendarTimerError LinuxCalendarTimerEntry :=
  match table[fd]? with
  | some entry => .ok entry
  | none => .error (.unknownTimer fd)

/-- Arm the first occurrence after `afterRealtimeNs`. -/
def rearmAfter (fd : ℤ) (afterRealtimeNs : ℕ) :
    Except LinuxCalendarTimerError (LinuxCalendarTimerTable × ℕ) := do
  let entry ← table.entry fd
  let nextScheduledNs ← (entry.calendar.nextAfterNs env.zones afterRealtimeNs).mapError .next
  let armedDeadlineNs ← (env.applyTimerJitter nextScheduledNs entry.jitterSecs).mapError .jitter
  (env.armRealtimeAbsoluteNs armedDeadlineNs).mapError fun _ => .arm
  .ok (table.insert fd { entry with nextScheduledNs, armedDeadlineNs }, nextScheduledNs)

/-- Whether the firing is of a service with no key to record it in. -/
def definitionRemoved (service : String) : Bool := (env.services.get service).any (·.definitionRemoved)

def fireAndRearmWithRealtime (fd : ℤ) (read : LinuxTimerFdRead) (realtimeNowNs : ℕ) :
    Except LinuxCalendarTimerError (LinuxCalendarTimerTable × RuntimeCalendarTimerTurn) := do
  let entry ← table.entry fd
  let anchorNs := rearmAnchorNs entry.nextScheduledNs entry.jitterSecs realtimeNowNs
  let monotonicNowNs ← env.monotonicNs.mapError fun _ => .clock
  let dispatch ← (env.handleTimerFiring entry.service entry.schedule monotonicNowNs).mapError
    fun _ => .supervisor
  if dispatch = .serviceGone then
    .ok (table, { read, supervisor := some dispatch, lastRunWrite := false, nextScheduledNs := none })
  else
    let lastRunWrite := entry.persistent && !definitionRemoved env entry.service
    let fired : LinuxCalendarTimerTable :=
      table.insert fd { entry with lastFiredNs := some realtimeNowNs }
    let (after, nextScheduledNs) ← fired.rearmAfter env fd anchorNs
    .ok (after, { read, supervisor := some dispatch, lastRunWrite, nextScheduledNs })

def processTimerEvent (fd : ℤ) :
    Except LinuxCalendarTimerError (LinuxCalendarTimerTable × RuntimeCalendarTimerTurn) := do
  let entry ← table.entry fd
  let read ← env.readExpirations.mapError fun _ => .read
  match read with
  | .wouldBlock =>
      .ok (table, { read, supervisor := none, lastRunWrite := false, nextScheduledNs := none })
  | .expired _ => do
      let realtimeNowNs ← env.realtimeNs.mapError fun _ => .clock
      table.fireAndRearmWithRealtime env fd read realtimeNowNs
  | .canceled => do
      let realtimeNowNs ← env.realtimeNs.mapError fun _ => .clock
      if entry.nextScheduledNs ≤ realtimeNowNs then
        table.fireAndRearmWithRealtime env fd read realtimeNowNs
      else do
        let (after, nextScheduledNs) ← table.rearmAfter env fd realtimeNowNs
        .ok (after, { read, supervisor := none, lastRunWrite := false, nextScheduledNs })

end LinuxCalendarTimerTable

/-! ## When a firing can be armed again -/

namespace TimerEnvironment

/-- The descriptor, the clocks, the random source and the supervisor do what they are asked for. -/
structure Succeeds (env : TimerEnvironment) : Prop where
  monotonic : ∃ now, env.monotonicNs = .ok now
  random : ∀ range, ∃ sample, env.randomU64 range = .ok sample
  arm : ∀ deadline, env.armRealtimeAbsoluteNs deadline = .ok ()
  react : ∀ service schedule now, ∃ action, env.react service schedule now = .ok action

/-- The delay drawn for an occurrence at `scheduledNs` leaves it a moment the descriptor can hold. -/
def JitterFits (env : TimerEnvironment) (scheduledNs jitterSecs : ℕ) : Prop :=
  jitterSecs = 0 ∨ jitterSecs < u64Max ∧ ∀ sample, env.randomU64 (jitterSecs + 1) = .ok sample →
    scheduledNs + sample % (jitterSecs + 1) * nanosPerSec ≤ u64Max

theorem timerJitterDelaySecs_eq_ok {env : TimerEnvironment} {jitterSecs delaySecs : ℕ} :
    env.timerJitterDelaySecs jitterSecs = .ok delaySecs ↔ jitterSecs = 0 ∧ delaySecs = 0 ∨
      0 < jitterSecs ∧ jitterSecs < u64Max ∧ ∃ sample, env.randomU64 (jitterSecs + 1) = .ok sample ∧
        delaySecs = sample % (jitterSecs + 1) := by
  rw [timerJitterDelaySecs]
  split_ifs with none wide
  · simp [none, eq_comm]
  · simp only [none, false_and, false_iff]
    rintro ⟨-, narrow, -⟩
    exact absurd wide (by omega)
  · have positive : 0 < jitterSecs := Nat.pos_of_ne_zero none
    have narrow : jitterSecs < u64Max := by omega
    cases env.randomU64 (jitterSecs + 1) with
    | error failed => simp [none]
    | ok sample => simp [none, positive, narrow, eq_comm]

theorem applyTimerJitter_eq_ok {env : TimerEnvironment} {scheduledNs jitterSecs armedNs : ℕ} :
    env.applyTimerJitter scheduledNs jitterSecs = .ok armedNs ↔
      ∃ delaySecs, env.timerJitterDelaySecs jitterSecs = .ok delaySecs ∧
        scheduledNs + delaySecs * nanosPerSec ≤ u64Max ∧
        armedNs = scheduledNs + delaySecs * nanosPerSec := by
  rw [applyTimerJitter, bind_eq_ok]
  refine exists_congr fun delaySecs => and_congr_right fun _ => ?_
  split_ifs with long late
  · simp only [false_iff]
    omega
  · simp only [false_iff]
    omega
  · simp [not_lt.mp late, eq_comm]

theorem Succeeds.applyTimerJitter_iff {env : TimerEnvironment} (works : env.Succeeds)
    {scheduledNs jitterSecs : ℕ} (inRange : scheduledNs ≤ u64Max) :
    (∃ armedNs, env.applyTimerJitter scheduledNs jitterSecs = .ok armedNs) ↔
      env.JitterFits scheduledNs jitterSecs := by
  simp only [applyTimerJitter_eq_ok, timerJitterDelaySecs_eq_ok]
  constructor
  · rintro ⟨_, _, ⟨rfl, -⟩ | ⟨-, narrow, sample, drawn, rfl⟩, fits, -⟩
    · exact .inl rfl
    · refine .inr ⟨narrow, fun other redrawn => ?_⟩
      obtain rfl : sample = other := Except.ok.inj (drawn.symm.trans redrawn)
      exact fits
  · rintro (rfl | ⟨narrow, fits⟩)
    · exact ⟨scheduledNs, 0, .inl ⟨rfl, rfl⟩, by simpa using inRange, by simp⟩
    · rcases Nat.eq_zero_or_pos jitterSecs with rfl | positive
      · exact ⟨scheduledNs, 0, .inl ⟨rfl, rfl⟩, by simpa using inRange, by simp⟩
      · obtain ⟨sample, drawn⟩ := works.random (jitterSecs + 1)
        exact ⟨_, _, .inr ⟨positive, narrow, sample, drawn, rfl⟩, fits sample drawn, rfl⟩

theorem Succeeds.handleTimerFiring {env : TimerEnvironment} (works : env.Succeeds)
    {svc : String} (known : (env.services.get svc).isSome) (sched : String)
    (atNs : ℕ) : ∃ action, env.handleTimerFiring svc sched atNs = .ok action ∧ action ≠ .serviceGone := by
  rw [TimerEnvironment.handleTimerFiring]
  split_ifs with closing gone
  · exact ⟨.shutdownInProgress, rfl, nofun⟩
  · simp [Option.isNone_iff_eq_none.mp gone] at known
  · obtain ⟨action, reacted⟩ := works.react svc sched atNs
    exact ⟨.fired action, by rw [reacted]; rfl, nofun⟩

end TimerEnvironment

namespace LinuxCalendarTimerTable

variable {env : TimerEnvironment} {table : LinuxCalendarTimerTable} {fd : ℤ}
  {entry : LinuxCalendarTimerEntry}

theorem entry_eq_ok : table.entry fd = .ok entry ↔ table[fd]? = some entry := by
  rw [LinuxCalendarTimerTable.entry]
  cases table[fd]? <;> simp

theorem rearmAfter_iff (works : env.Succeeds) (armed : table[fd]? = some entry) (after : ℕ) :
    (∃ out, table.rearmAfter env fd after = .ok out) ↔
      ∃ ns, entry.calendar.Occurs env.zones after ns ∧ env.JitterFits ns entry.jitterSecs := by
  have got := entry_eq_ok.mpr armed
  constructor
  · rintro ⟨out, ran⟩
    simp only [rearmAfter, got, bind_eq_ok, Except.ok.injEq, exists_eq_left', mapError_eq_ok] at ran
    obtain ⟨ns, next, armedNs, jittered, -⟩ := ran
    have occurs := CalendarSchedule.nextAfterNs_eq_ok.mp next
    exact ⟨ns, occurs, (works.applyTimerJitter_iff occurs.le_u64Max).mp ⟨armedNs, jittered⟩⟩
  · rintro ⟨ns, occurs, fits⟩
    obtain ⟨armedNs, jittered⟩ := (works.applyTimerJitter_iff occurs.le_u64Max).mpr fits
    refine ⟨(table.insert fd { entry with nextScheduledNs := ns, armedDeadlineNs := armedNs }, ns), ?_⟩
    rw [rearmAfter, got]
    simp only [bind_eq_ok, Except.ok.injEq, exists_eq_left', mapError_eq_ok]
    exact ⟨ns, CalendarSchedule.nextAfterNs_eq_ok.mpr occurs, armedNs, jittered, (), works.arm armedNs,
      rfl⟩

theorem insert_armed (table : LinuxCalendarTimerTable) (fd : ℤ) (entry : LinuxCalendarTimerEntry) :
    (table.insert fd entry)[fd]? = some entry := by
  rw [OrdMap.get_insert, if_pos rfl]

theorem fireAndRearmWithRealtime_iff (works : env.Succeeds) (armed : table[fd]? = some entry)
    (known : (env.services.get entry.service).isSome) (read : LinuxTimerFdRead) (now : ℕ) :
    (∃ out, table.fireAndRearmWithRealtime env fd read now = .ok out) ↔
      ∃ ns, entry.calendar.Occurs env.zones
          (rearmAnchorNs entry.nextScheduledNs entry.jitterSecs now) ns ∧
        env.JitterFits ns entry.jitterSecs := by
  obtain ⟨monotonicNow, monotonic⟩ := works.monotonic
  obtain ⟨action, handled, present⟩ := works.handleTimerFiring known entry.schedule monotonicNow
  have stamped := insert_armed table fd { entry with lastFiredNs := some now }
  -- a firing writes nothing into the entry that the search for the next occurrence reads
  rw [← rearmAfter_iff works stamped, fireAndRearmWithRealtime, entry_eq_ok.mpr armed, monotonic]
  simp only [bind_eq_ok, mapError_eq_ok, Except.ok.injEq, exists_eq_left', handled, if_neg present]
  constructor
  · rintro ⟨out, rearmed, ran, -⟩
    exact ⟨rearmed, ran⟩
  · rintro ⟨rearmed, ran⟩
    exact ⟨_, rearmed, ran, rfl⟩

theorem processTimerEvent_error {count now : ℕ} {error : CalendarNextError} (works : env.Succeeds)
    (armed : table[fd]? = some entry) (known : (env.services.get entry.service).isSome)
    (readable : env.readExpirations = .ok (.expired count)) (clock : env.realtimeNs = .ok now)
    (failed : entry.calendar.nextAfterNs env.zones
      (rearmAnchorNs entry.nextScheduledNs entry.jitterSecs now) = .error error) :
    table.processTimerEvent env fd = .error (.next error) := by
  obtain ⟨monotonicNow, monotonic⟩ := works.monotonic
  obtain ⟨action, handled, present⟩ := works.handleTimerFiring known entry.schedule monotonicNow
  have stamped := entry_eq_ok.mpr (insert_armed table fd { entry with lastFiredNs := some now })
  rw [processTimerEvent, entry_eq_ok.mpr armed, readable]
  simp only [bind, Except.bind, Except.mapError, clock, fireAndRearmWithRealtime, rearmAfter, stamped,
    entry_eq_ok.mpr armed, monotonic, handled, if_neg present, failed]

end LinuxCalendarTimerTable

/-- A firing of a service in the table is handled without an error exactly when its schedule has an
occurrence left for the timer to be armed for. -/
theorem timer_firing_handled_iff_occurrence_left {env : TimerEnvironment}
    {table : LinuxCalendarTimerTable} {fd : ℤ} {entry : LinuxCalendarTimerEntry}
    {read : LinuxTimerFdRead} {now : ℕ} (works : env.Succeeds) (armed : table[fd]? = some entry)
    (known : (env.services.get entry.service).isSome) (readable : env.readExpirations = .ok read)
    (fired : read ≠ .wouldBlock) (clock : env.realtimeNs = .ok now)
    (due : entry.nextScheduledNs ≤ now) :
    (∃ out, table.processTimerEvent env fd = .ok out) ↔
      ∃ ns, entry.calendar.Occurs env.zones
          (rearmAnchorNs entry.nextScheduledNs entry.jitterSecs now) ns ∧
        env.JitterFits ns entry.jitterSecs := by
  rw [← LinuxCalendarTimerTable.fireAndRearmWithRealtime_iff works armed known read now,
    LinuxCalendarTimerTable.processTimerEvent, LinuxCalendarTimerTable.entry_eq_ok.mpr armed,
    readable]
  cases read with
  | wouldBlock => exact absurd rfl fired
  | expired expirations =>
    simp only [bind_eq_ok, mapError_eq_ok, Except.ok.injEq, exists_eq_left', clock]
  | canceled =>
    simp only [bind_eq_ok, mapError_eq_ok, Except.ok.injEq, exists_eq_left', clock, if_pos due]

/-! ## A schedule with a last occurrence -/

/-- Midnight in a zone without a daylight saving time, on the days `days` allows. -/
def midnight (years : NumberField) (months : NumberField) (days : DayField) : CalendarSchedule where
  weekdays := ⟨[1, 2, 3, 4, 5, 6, 7], by decide⟩
  years
  months
  days
  hours := ⟨[0], by decide⟩
  minutes := ⟨[0], by decide⟩
  seconds := ⟨[0], by decide⟩
  timezone := some "UTC"

/-- The first of January 2027. -/
def newYearNs : ℕ := 1798761600 * nanosPerSec

/-- The clock shows New Year, the descriptor has expired, and `backup` is in the table. -/
def newYear : TimerEnvironment where
  zones _ := some utc
  readExpirations := .ok (.expired 1)
  realtimeNs := .ok newYearNs
  monotonicNs := .ok 0
  randomU64 _ := .ok 0
  armRealtimeAbsoluteNs _ := .ok ()
  shutdown := false
  services := ⟨(∅ : OrdMap String ServiceEntry).insert "backup"
    { definition := { name := "backup" }, runtime := {} }⟩
  react _ _ _ := .ok .start

theorem newYear_succeeds : newYear.Succeeds where
  monotonic := ⟨0, rfl⟩
  random _ := ⟨0, rfl⟩
  arm _ := rfl
  react _ _ _ := ⟨.start, rfl⟩

def backupTimer (schedule : String) (calendar : CalendarSchedule) : LinuxCalendarTimerEntry where
  service := "backup"
  schedule
  persistent := true
  calendar
  nextScheduledNs := newYearNs
  armedDeadlineNs := newYearNs
  jitterSecs := 0
  lastFiredNs := none

def onNewYear2027 : LinuxCalendarTimerEntry :=
  backupTimer "2027-01-01 00:00:00 UTC"
    (midnight ⟨[2027], by decide⟩ ⟨[1], by decide⟩ (.monthDay ⟨[1], by decide⟩))

def onFirstOfMonth : LinuxCalendarTimerEntry :=
  backupTimer "2027,2028-*-01 00:00:00 UTC" (midnight ⟨[2027, 2028], by decide⟩
    ⟨[1, 2, 3, 4, 5, 6, 7, 8, 9, 10, 11, 12], by decide⟩ (.monthDay ⟨[1], by decide⟩))

def onlyTimer (entry : LinuxCalendarTimerEntry) : LinuxCalendarTimerTable :=
  (∅ : OrdMap ℤ LinuxCalendarTimerEntry).insert 7 entry

theorem onlyTimer_armed (entry : LinuxCalendarTimerEntry) : (onlyTimer entry)[(7 : ℤ)]? = some entry :=
  LinuxCalendarTimerTable.insert_armed ∅ 7 entry

theorem Date.days_of_newYear2027 {date : Date} (year : date.year = 2027) (month : date.month = 1)
    (day : date.day = 1) : date.days = 20819 := by
  have ofEra : 0 ≤ date.yearOfEra ∧ date.yearOfEra < 400 := by
    unfold yearOfEra dayOfEra
    omega
  obtain ⟨inEra, era⟩ : date.yearOfEra = 26 ∧ (date.days + 719468) / 146097 = 5 := by
    rw [Date.year, if_pos (by omega)] at year
    omega
  have begun : date.dayOfEra = (date.days + 719468) % 146097 := rfl
  unfold Date.month monthFromMarch dayOfYear at month
  unfold Date.day monthFromMarch dayOfYear at day
  rw [inEra] at month day
  unfold yearOfEra at inEra
  split_ifs at month <;> omega

/-- From its one occurrence on, a fixed date has none left. -/
theorem nextAfterNs_newYear2027 {after : ℕ} (late : newYearNs ≤ after) (fits : after ≤ u64Max) :
    (midnight ⟨[2027], by decide⟩ ⟨[1], by decide⟩ (.monthDay ⟨[1], by decide⟩)).nextAfterNs
      (fun _ => some utc) after = .error .noFutureOccurrence := by
  rw [CalendarSchedule.nextAfterNs_eq_noFutureOccurrence rfl]
  intro time tried
  obtain ⟨⟨year, month, day, -, hour, minute, second⟩, -⟩ := (CalendarSchedule.mem_candidates
    (by constructor <;> constructor <;> decide) utc_ordered fits).mp tried
  simp only [midnight, CalendarSchedule.MatchesDay, List.mem_singleton, exists_eq_left] at *
  have here := Date.days_of_newYear2027 year.symm month day
  refine laterCandidate_eq_none.mpr (.inr ⟨newYearNs, late, by decide, congrArg LocalTime.moment ?_⟩)
  unfold newYearNs nanosPerSec
  omega

/-- The next firing is on the first of February. -/
theorem timer_firing_handled_monthly :
    ∃ out, (onlyTimer onFirstOfMonth).processTimerEvent newYear 7 = .ok out := by
  refine (timer_firing_handled_iff_occurrence_left newYear_succeeds (onlyTimer_armed onFirstOfMonth)
    (by decide +kernel) rfl nofun rfl (le_refl newYearNs)).mpr ?_
  exact ⟨1801440000 * nanosPerSec, CalendarSchedule.nextAfterNs_eq_ok.mp (by decide +kernel), .inl rfl⟩

/-- The last occurrence of a fixed date has fired, and the firing is an error. -/
theorem timer_firing_fails_after_fixed_date :
    newYear.Succeeds ∧ (onlyTimer onNewYear2027)[(7 : ℤ)]? = some onNewYear2027 ∧
    (newYear.services.get onNewYear2027.service).isSome ∧
    newYear.readExpirations = .ok (.expired 1) ∧
    newYear.realtimeNs = .ok onNewYear2027.nextScheduledNs ∧
    (onlyTimer onNewYear2027).processTimerEvent newYear 7 = .error (.next .noFutureOccurrence) := by
  have known : (newYear.services.get onNewYear2027.service).isSome := by decide +kernel
  refine ⟨newYear_succeeds, onlyTimer_armed _, known, rfl, rfl, ?_⟩
  exact LinuxCalendarTimerTable.processTimerEvent_error newYear_succeeds (onlyTimer_armed _) known rfl
    rfl (nextAfterNs_newYear2027 (le_refl newYearNs) (by decide))

end Peinit
