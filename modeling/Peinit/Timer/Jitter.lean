import Peinit.Timer.Boot
import Peinit.Timer.Event

/-!
# Runs of one timer

A timer may fire when the next occurrence is already past. The search starts at the one that fired, or
one jitter window before the clock if that is later. No occurrence is armed twice, and none is passed
over while its window is open.
-/

namespace Peinit

open TimerEnvironment

variable {env : TimerEnvironment} {jitterSecs now : ℕ}
  {out : LinuxCalendarTimerTable × RuntimeCalendarTimerTurn} {table : LinuxCalendarTimerTable} {fd : ℤ}
  {entry : LinuxCalendarTimerEntry} {registration : TimerBootRegistration}

inductive TimerRegistrationError where
  | parse (service schedule : String) (source : CalendarParseError)
  | timer (source : LinuxCalendarTimerError)
  deriving DecidableEq

/-- The entry of a trigger that is registered: armed with a delay, like any other. -/
def registerCalendarTimer (env : TimerEnvironment) (registration : TimerBootRegistration) :
    Except TimerRegistrationError LinuxCalendarTimerEntry := do
  let calendar ← (CalendarSchedule.parse env.zones registration.schedule).mapError
    (.parse registration.service registration.schedule)
  let armedDeadlineNs ←
    (env.applyTimerJitter registration.nextScheduledNs registration.jitterSecs).mapError
      fun source => .timer (.jitter source)
  (env.armRealtimeAbsoluteNs armedDeadlineNs).mapError fun _ => .timer .arm
  let entry : LinuxCalendarTimerEntry :=
    { service := registration.service
      schedule := registration.schedule
      persistent := registration.persistent
      calendar
      nextScheduledNs := registration.nextScheduledNs
      armedDeadlineNs
      jitterSecs := registration.jitterSecs
      lastFiredNs := registration.lastRunNs }
  .ok entry

/-! ## One firing -/

/-- The entry is armed for its occurrence or at most the jitter window after it. -/
structure LinuxCalendarTimerEntry.WithinWindow (entry : LinuxCalendarTimerEntry) : Prop where
  notEarly : entry.nextScheduledNs ≤ entry.armedDeadlineNs
  inWindow : entry.armedDeadlineNs ≤ entry.nextScheduledNs + entry.jitterSecs * nanosPerSec

theorem TimerEnvironment.applyTimerJitter_within {scheduledNs armedNs : ℕ}
    (jittered : env.applyTimerJitter scheduledNs jitterSecs = .ok armedNs) :
    scheduledNs ≤ armedNs ∧ armedNs ≤ scheduledNs + jitterSecs * nanosPerSec := by
  obtain ⟨delaySecs, drawn, -, rfl⟩ := applyTimerJitter_eq_ok.mp jittered
  have short : delaySecs ≤ jitterSecs := by
    rcases timerJitterDelaySecs_eq_ok.mp drawn with ⟨-, rfl⟩ | ⟨-, -, sample, -, rfl⟩
    · exact Nat.zero_le _
    · exact Nat.le_of_lt_succ (Nat.mod_lt _ (Nat.succ_pos _))
  exact ⟨Nat.le_add_right .., Nat.add_le_add_left (Nat.mul_le_mul_right _ short) _⟩

theorem registerCalendarTimer_ok
    (registered : registerCalendarTimer env registration = .ok entry) :
    CalendarSchedule.parse env.zones registration.schedule = .ok entry.calendar ∧ entry.WithinWindow := by
  obtain ⟨calendar, parsed, rest⟩ := bind_eq_ok.mp registered
  obtain ⟨armedNs, jittered, rest⟩ := bind_eq_ok.mp rest
  obtain ⟨-, -, made⟩ := bind_eq_ok.mp rest
  cases made
  obtain ⟨notEarly, inWindow⟩ := applyTimerJitter_within (mapError_eq_ok.mp jittered)
  exact ⟨mapError_eq_ok.mp parsed, notEarly, inWindow⟩

namespace LinuxCalendarTimerTable

/-- `entry` is armed again after it was handled at `now`: the search starts at `after`. -/
structure Rearmed (zones : TimeZones) (entry armed : LinuxCalendarTimerEntry) (after : ℕ) : Prop where
  occurs : entry.calendar.Occurs zones after armed.nextScheduledNs
  within : armed.WithinWindow
  calendar : armed.calendar = entry.calendar
  jitterSecs : armed.jitterSecs = entry.jitterSecs

theorem rearmAfter_rearmed {after : ℕ} {out : LinuxCalendarTimerTable × ℕ}
    (armed : table[fd]? = some entry) (ran : table.rearmAfter env fd after = .ok out) :
    ∃ armed, out.1[fd]? = some armed ∧ Rearmed env.zones entry armed after := by
  obtain ⟨_, got, rest⟩ := bind_eq_ok.mp ran
  cases got.symm.trans (entry_eq_ok.mpr armed)
  obtain ⟨next, searched, rest⟩ := bind_eq_ok.mp rest
  obtain ⟨armedNs, jittered, rest⟩ := bind_eq_ok.mp rest
  obtain ⟨-, -, made⟩ := bind_eq_ok.mp rest
  cases made
  obtain ⟨notEarly, inWindow⟩ := applyTimerJitter_within (mapError_eq_ok.mp jittered)
  have there : (table.insert fd { entry with nextScheduledNs := next, armedDeadlineNs := armedNs })[fd]? =
      some { entry with nextScheduledNs := next, armedDeadlineNs := armedNs } := by
    rw [OrdMap.get_insert, if_pos rfl]
  have occurs := CalendarSchedule.nextAfterNs_eq_ok.mp (mapError_eq_ok.mp searched)
  exact ⟨_, there, occurs, ⟨notEarly, inWindow⟩, rfl, rfl⟩

theorem fireAndRearmWithRealtime_rearmed {read : LinuxTimerFdRead} (armed : table[fd]? = some entry)
    (ran : table.fireAndRearmWithRealtime env fd read now = .ok out)
    (present : out.2.supervisor ≠ some .serviceGone) :
    ∃ armed, out.1[fd]? = some armed ∧ Rearmed env.zones entry armed
      (rearmAnchorNs entry.nextScheduledNs entry.jitterSecs now) := by
  obtain ⟨_, got, rest⟩ := bind_eq_ok.mp ran
  cases got.symm.trans (entry_eq_ok.mpr armed)
  obtain ⟨monotonicNow, -, rest⟩ := bind_eq_ok.mp rest
  obtain ⟨dispatch, -, rest⟩ := bind_eq_ok.mp rest
  split_ifs at rest with gone
  · cases rest
    exact absurd (congrArg some gone) present
  · obtain ⟨⟨after, next⟩, rearmed, made⟩ := bind_eq_ok.mp rest
    cases made
    have stamped : (table.insert fd { entry with lastFiredNs := some now })[fd]? =
        some { entry with lastFiredNs := some now } := by
      rw [OrdMap.get_insert, if_pos rfl]
    obtain ⟨armed, there, rearmed⟩ := rearmAfter_rearmed stamped rearmed
    exact ⟨armed, there, rearmed.occurs, rearmed.within, rearmed.calendar, rearmed.jitterSecs⟩

end LinuxCalendarTimerTable

/-! ## A run of firings -/

/-- A firing: the entry that fired, when that was handled, and the entry that was armed. -/
structure Firing where
  fired : LinuxCalendarTimerEntry
  handledAtNs : ℕ
  armed : LinuxCalendarTimerEntry

/-- Successive firings of the timer `fd`, each of a service that is in the table. -/
inductive FiringRun (zones : TimeZones) (fd : ℤ) : LinuxCalendarTimerTable → List Firing → Prop where
  | nil (table : LinuxCalendarTimerTable) : FiringRun zones fd table []
  | cons {env : TimerEnvironment} {table after : LinuxCalendarTimerTable} {firing : Firing}
      {rest : List Firing} {turn : RuntimeCalendarTimerTurn} {expirations : ℕ}
      (database : env.zones = zones) (fired : table[fd]? = some firing.fired)
      (expired : env.readExpirations = .ok (.expired expirations))
      (clock : env.realtimeNs = .ok firing.handledAtNs) (machine : firing.handledAtNs ≤ u64Max)
      (handled : table.processTimerEvent env fd = .ok (after, turn))
      (present : turn.supervisor ≠ some .serviceGone) (armed : after[fd]? = some firing.armed)
      (run : FiringRun zones fd after rest) : FiringRun zones fd table (firing :: rest)

def CalendarSchedule.Follows (calendar : CalendarSchedule) (zone : TimeZone) (scheduled : ℕ)
    (next : ℤ) : Prop :=
  calendar.OccursAt zone next ∧ scheduled < next ∧
    ∀ t, calendar.OccursAt zone t → scheduled < t → next ≤ t

/-- What holds of one firing of a timer. -/
structure Firing.Keeps (firing : Firing) (zone : TimeZone) : Prop where
  firedWithin : firing.fired.WithinWindow
  armedWithin : firing.armed.WithinWindow
  later : firing.fired.nextScheduledNs < firing.armed.nextScheduledNs
  /-- Until the window of the following occurrence closes, that occurrence is the one armed. -/
  follows : ∀ next, firing.fired.calendar.Follows zone firing.fired.nextScheduledNs next →
    firing.handledAtNs < next + firing.fired.jitterSecs * nanosPerSec →
      firing.armed.nextScheduledNs = next

theorem rearmAnchorNs_lt {fired : ℕ} {next : ℤ} (machine : now ≤ u64Max)
    (later : fired < next) (early : now < next + jitterSecs * nanosPerSec) :
    rearmAnchorNs fired jitterSecs now < next := by
  unfold rearmAnchorNs saturatingMul nanosPerSec
  unfold nanosPerSec at early
  omega

section Runs

variable {zones : TimeZones} {zone : TimeZone} {firings : List Firing}

theorem Firing.keeps_of_rearmed {firing : Firing} (inRange : firing.fired.calendar.InRange)
    (resolved : zones firing.fired.calendar.timezone = some zone) (ordered : zone.Ordered)
    (machine : firing.handledAtNs ≤ u64Max) (within : firing.fired.WithinWindow)
    (rearmed : LinuxCalendarTimerTable.Rearmed zones firing.fired firing.armed
      (rearmAnchorNs firing.fired.nextScheduledNs firing.fired.jitterSecs firing.handledAtNs)) :
    firing.Keeps zone := by
  have anchored : firing.fired.nextScheduledNs ≤
      rearmAnchorNs firing.fired.nextScheduledNs firing.fired.jitterSecs firing.handledAtNs :=
    le_max_left ..
  have later := anchored.trans_lt rearmed.occurs.later
  obtain ⟨here, least⟩ := rearmed.occurs.least inRange resolved ordered
  refine ⟨within, rearmed.within, later, ?_⟩
  rintro next ⟨occurs, after, first⟩ early
  -- the occurrence found is the first after the start of the search, and `next` is the first after the
  -- occurrence that fired, which is not later
  have le := least next occurs (rearmAnchorNs_lt machine after early)
  have ge := first _ here (by omega)
  omega

theorem FiringRun.keeps (inRange : entry.calendar.InRange)
    (resolved : zones entry.calendar.timezone = some zone) (ordered : zone.Ordered)
    (run : FiringRun zones fd table firings) (armed : table[fd]? = some entry)
    (within : entry.WithinWindow) :
    (∀ firing ∈ firings, entry.nextScheduledNs ≤ firing.fired.nextScheduledNs) ∧
    firings.Pairwise (fun a b => a.fired.nextScheduledNs < b.fired.nextScheduledNs) ∧
    ∀ firing ∈ firings, firing.fired.calendar = entry.calendar ∧
      firing.fired.jitterSecs = entry.jitterSecs ∧ firing.Keeps zone := by
  induction run generalizing entry with
  | nil => simp
  | @cons env table after firing rest turn expirations database fired expired clock machine handled
      present armed' run ih =>
    obtain rfl : firing.fired = entry := Option.some.inj (fired.symm.trans armed)
    rw [LinuxCalendarTimerTable.processTimerEvent, LinuxCalendarTimerTable.entry_eq_ok.mpr fired, expired,
      clock] at handled
    obtain ⟨rearmed, there, again⟩ :=
      LinuxCalendarTimerTable.fireAndRearmWithRealtime_rearmed fired handled present
    obtain rfl : firing.armed = rearmed := Option.some.inj (armed'.symm.trans there)
    rw [database] at again
    have keeps := Firing.keeps_of_rearmed inRange resolved ordered machine within again
    obtain ⟨later, ascending, others⟩ := ih (by rwa [again.calendar]) (by rwa [again.calendar]) armed'
      again.within
    refine ⟨?_, ?_, ?_⟩
    · rintro other (_ | ⟨_, mem⟩)
      · exact le_rfl
      · exact keeps.later.le.trans (later other mem)
    · exact List.pairwise_cons.mpr ⟨fun other mem => keeps.later.trans_le (later other mem), ascending⟩
    · rintro other (_ | ⟨_, mem⟩)
      · exact ⟨rfl, rfl, keeps⟩
      · obtain ⟨calendar, jitterSecs, keeps'⟩ := others other mem
        exact ⟨calendar.trans again.calendar, jitterSecs.trans again.jitterSecs, keeps'⟩

end Runs

/-- In every run of a registered timer the occurrences that fire are later and later ones, each deadline
is within the jitter window of its occurrence, and an occurrence whose window is open is not passed
over. -/
theorem jitter_passes_over_no_open_occurrence {env : TimerEnvironment}
    {zone : TimeZone} {fd : ℤ}
    {table : LinuxCalendarTimerTable} {firings : List Firing}
    (registered : registerCalendarTimer env registration = .ok entry)
    (armed : table[fd]? = some entry) (resolved : env.zones entry.calendar.timezone = some zone)
    (ordered : zone.Ordered) (run : FiringRun env.zones fd table firings) :
    firings.Pairwise (fun a b => a.fired.nextScheduledNs < b.fired.nextScheduledNs) ∧
    ∀ firing ∈ firings, firing.fired.calendar = entry.calendar ∧
      firing.fired.jitterSecs = entry.jitterSecs ∧ firing.Keeps zone := by
  obtain ⟨parsed, within⟩ := registerCalendarTimer_ok registered
  exact (run.keeps (CalendarSchedule.inRange_parse parsed) resolved ordered armed within).2

/-! ### A delay longer than the period -/

/-- Midnight of every day, with up to twenty-five hours of delay. -/
def delayedDaily : TimerBootRegistration where
  service := "backup"
  schedule := "1970-01-* 00:00:00 UTC"
  storage := .singleTimer
  persistent := true
  jitterSecs := 90000
  missedFiring := false
  nextScheduledNs := 86400 * nanosPerSec
  lastRunNs := none

/-- The descriptor has expired at `now`, and the longest delay is drawn. -/
def expiredAt (now : ℕ) (services : ServiceTable) : TimerEnvironment where
  zones _ := some utc
  readExpirations := .ok (.expired 1)
  realtimeNs := .ok now
  monotonicNs := .ok 0
  randomU64 _ := .ok 90000
  armRealtimeAbsoluteNs _ := .ok ()
  shutdown := false
  services
  react _ _ _ := .ok .start

/-- The first firing is an hour after the second midnight, and the second midnight is armed all the
same. -/
theorem jitter_passes_over_no_occurrence_daily :
    ∃ entry firing, registerCalendarTimer (expiredAt 0 ⟨∅⟩) delayedDaily = .ok entry ∧
      FiringRun (fun _ => some utc) 7 (onlyTimer entry) [firing] ∧
      firing.handledAtNs = 176400 * nanosPerSec ∧ firing.armed.nextScheduledNs = 172800 * nanosPerSec ∧
      firing.Keeps utc := by
  let env := expiredAt (176400 * nanosPerSec) newYear.services
  obtain ⟨entry, registered, after, turn, handled, fired, armed, there, next⟩ : ∃ entry,
      registerCalendarTimer (expiredAt 0 ⟨∅⟩) delayedDaily = .ok entry ∧
      ∃ after turn, (onlyTimer entry).processTimerEvent env 7 = .ok (after, turn) ∧
        turn.supervisor = some (.fired .start) ∧
        ∃ armed, after[(7 : ℤ)]? = some armed ∧ armed.nextScheduledNs = 172800 * nanosPerSec := by
    decide +kernel
  have present : turn.supervisor ≠ some .serviceGone := by
    rw [fired]
    nofun
  have machine : 176400 * nanosPerSec ≤ u64Max := by decide
  have database : env.zones = fun _ => some utc := rfl
  have run : FiringRun (fun _ => some utc) 7 (onlyTimer entry)
      [⟨entry, 176400 * nanosPerSec, armed⟩] :=
    .cons database (onlyTimer_armed entry) rfl rfl machine handled present there (.nil _)
  have keeps := (jitter_passes_over_no_open_occurrence registered (onlyTimer_armed entry) rfl utc_ordered
    run).2 _ (List.mem_singleton.mpr rfl)
  exact ⟨entry, _, registered, run, rfl, next, keeps.2.2⟩

/-- The timer of a service that is gone is not armed again, though the second midnight is next. -/
theorem timer_of_gone_service_not_armed :
    ∃ entry turn, registerCalendarTimer (expiredAt 0 ⟨∅⟩) delayedDaily = .ok entry ∧
      entry.calendar.Follows utc entry.nextScheduledNs (172800 * nanosPerSec : ℕ) ∧
      (onlyTimer entry).processTimerEvent (expiredAt (86400 * nanosPerSec) ⟨∅⟩) 7 =
        .ok (onlyTimer entry, turn) ∧ turn.nextScheduledNs = none := by
  obtain ⟨entry, registered, scheduled, next⟩ : ∃ entry,
      registerCalendarTimer (expiredAt 0 ⟨∅⟩) delayedDaily = .ok entry ∧
      entry.nextScheduledNs = 86400 * nanosPerSec ∧
      entry.calendar.nextAfterNs (fun _ => some utc) (86400 * nanosPerSec) =
        .ok (172800 * nanosPerSec) := by
    decide +kernel
  obtain ⟨here, least⟩ := (CalendarSchedule.nextAfterNs_eq_ok.mp next).least
    (CalendarSchedule.inRange_parse (registerCalendarTimer_ok registered).1) rfl utc_ordered
  refine ⟨entry, ⟨.expired 1, some .serviceGone, false, none⟩, registered, ?_, ?_, rfl⟩
  · rw [scheduled]
    exact ⟨here, by decide, least⟩
  · have gone : (expiredAt (86400 * nanosPerSec) ⟨∅⟩).handleTimerFiring entry.service entry.schedule 0 =
        .ok .serviceGone := by
      simp [TimerEnvironment.handleTimerFiring, expiredAt, ServiceTable.get]
    have there := LinuxCalendarTimerTable.entry_eq_ok.mpr (onlyTimer_armed entry)
    refine bind_eq_ok.mpr ⟨entry, there, bind_eq_ok.mpr ⟨.expired 1, rfl, ?_⟩⟩
    refine bind_eq_ok.mpr ⟨86400 * nanosPerSec, rfl, ?_⟩
    refine bind_eq_ok.mpr ⟨entry, there, bind_eq_ok.mpr ⟨0, rfl, ?_⟩⟩
    exact bind_eq_ok.mpr ⟨.serviceGone, by rw [gone]; rfl, rfl⟩

end Peinit
