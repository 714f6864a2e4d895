import Peinit.Timer.Event

/-!
# Timers at boot

Every timer trigger of an enabled service is planned on its own. One that persists is caught up once if
its recorded last run says that a firing was missed. One without a next occurrence is rejected; only a
failure to read the registry ends the planning.
-/

namespace Peinit

open CalendarSchedule

variable {service : ServiceDefinition} {schedule svc : String} {calendar : CalendarSchedule}
  {lastRun : Option ℕ} {next now : ℕ} {plan : TimerBootPlan} {registration : TimerBootRegistration}
  {storage : TimerLastRunStorage} {zones : TimeZones}
  {readTimerLastRun : String → String → TimerLastRunStorage → Except Unit (Option ℕ)}

inductive TimerLastRunStorage where
  | singleTimer
  | perTrigger
  deriving DecidableEq

structure TimerBootRegistration where
  service : String
  schedule : String
  storage : TimerLastRunStorage
  persistent : Bool
  jitterSecs : ℕ
  missedFiring : Bool
  nextScheduledNs : ℕ
  lastRunNs : Option ℕ
  deriving DecidableEq

inductive TimerBootPlanError where
  | registry (service schedule : String)
  | parseSchedule (service schedule : String) (source : CalendarParseError)
  | computeNext (service schedule : String) (source : CalendarNextError)
  deriving DecidableEq

structure TimerBootPlan where
  registrations : List TimerBootRegistration := []
  rejected : List TimerBootPlanError := []
  deriving DecidableEq

def timerSchedules (service : ServiceDefinition) : List String :=
  service.triggers.filterMap fun
    | .timer schedule => some schedule
    | _ => none

/-- A service with one timer keeps its last run beside its definition. -/
def timerLastRunStorage (service : ServiceDefinition) : TimerLastRunStorage :=
  if (timerSchedules service).length = 1 then .singleTimer else .perTrigger

section Planning

variable (zones : TimeZones)

def nextAfter (service schedule : String) (calendar : CalendarSchedule) (afterRealtimeNs : ℕ) :
    Except TimerBootPlanError ℕ :=
  (calendar.nextAfterNs zones afterRealtimeNs).mapError (.computeNext service schedule)

/-- The recorded run, whether a firing was missed, and the next occurrence. -/
def persistentBootDecision (service schedule : String) (calendar : CalendarSchedule)
    (lastRunNs : Option ℕ) (nowRealtimeNs : ℕ) :
    Except TimerBootPlanError (Option ℕ × Bool × ℕ) :=
  match lastRunNs with
  | none => do
      let next ← nextAfter zones service schedule calendar nowRealtimeNs
      .ok (none, true, next)
  | some lastRun =>
      if lastRun > nowRealtimeNs then do
        let next ← nextAfter zones service schedule calendar nowRealtimeNs
        .ok (some lastRun, true, next)
      else do
        let nextAfterLastRun ← nextAfter zones service schedule calendar lastRun
        if nextAfterLastRun ≤ nowRealtimeNs then do
          let next ← nextAfter zones service schedule calendar nowRealtimeNs
          .ok (some lastRun, true, next)
        else .ok (some lastRun, false, nextAfterLastRun)

variable (readTimerLastRun : String → String → TimerLastRunStorage → Except Unit (Option ℕ))

/-- The registry is read only for a trigger that persists. -/
def bootDecision (service : ServiceDefinition) (schedule : String) (storage : TimerLastRunStorage)
    (calendar : CalendarSchedule) (nowRealtimeNs : ℕ) :
    Except TimerBootPlanError (Option ℕ × Bool × ℕ) :=
  if service.timerPersistent then do
    let lastRunNs ← (readTimerLastRun service.name schedule storage).mapError
      fun _ => .registry service.name schedule
    persistentBootDecision zones service.name schedule calendar lastRunNs nowRealtimeNs
  else do
    let next ← nextAfter zones service.name schedule calendar nowRealtimeNs
    .ok (none, false, next)

def planTimerTrigger (service : ServiceDefinition) (schedule : String)
    (storage : TimerLastRunStorage) (nowRealtimeNs : ℕ) :
    Except TimerBootPlanError TimerBootRegistration := do
  let calendar ← (parse zones schedule).mapError (.parseSchedule service.name schedule)
  let (lastRunNs, missedFiring, nextScheduledNs) ←
    bootDecision zones readTimerLastRun service schedule storage calendar nowRealtimeNs
  return {
    service := service.name
    schedule
    storage
    persistent := service.timerPersistent
    jitterSecs := service.timerJitterSecs
    missedFiring
    nextScheduledNs
    lastRunNs }

/-- Plan one trigger; only a failure of the registry is passed on. -/
def planSchedule (service : ServiceDefinition) (nowRealtimeNs : ℕ) (plan : TimerBootPlan)
    (schedule : String) : Except TimerBootPlanError TimerBootPlan :=
  match planTimerTrigger zones readTimerLastRun service schedule (timerLastRunStorage service)
      nowRealtimeNs with
  | .ok registration => .ok { plan with registrations := plan.registrations ++ [registration] }
  | .error (.registry name schedule) => .error (.registry name schedule)
  | .error error => .ok { plan with rejected := plan.rejected ++ [error] }

def planTimerBoot (services : List ServiceDefinition) (nowRealtimeNs : ℕ) :
    Except TimerBootPlanError TimerBootPlan :=
  (services.filter fun service => !service.disabled).foldlM (fun plan service =>
    (timerSchedules service).foldlM (planSchedule zones readTimerLastRun service nowRealtimeNs) plan) {}

end Planning

/-! ## What is planned -/

section Planned

variable {zones : TimeZones} {svcs : List ServiceDefinition}
  {readTimerLastRun : String → String → TimerLastRunStorage → Except Unit (Option ℕ)}

theorem mem_timerSchedules :
    schedule ∈ timerSchedules service ↔ ServiceTrigger.timer schedule ∈ service.triggers := by
  unfold timerSchedules
  rw [List.mem_filterMap]
  constructor
  · rintro ⟨trigger, mem, same⟩
    cases trigger with
    | timer other =>
      cases same
      exact mem
    | _ => cases same
  · intro mem
    exact ⟨_, mem, rfl⟩

theorem mem_registrations
    (ran : planTimerBoot zones readTimerLastRun svcs now = .ok plan) :
    registration ∈ plan.registrations ↔ ∃ service ∈ svcs, service.disabled = false ∧
      ∃ schedule ∈ timerSchedules service, planTimerTrigger zones readTimerLastRun service schedule
        (timerLastRunStorage service) now = .ok registration := by
  have one : ∀ (service : ServiceDefinition) (schedule : String) (before after : TimerBootPlan),
      planSchedule zones readTimerLastRun service now before schedule = .ok after →
        (registration ∈ after.registrations ↔ registration ∈ before.registrations ∨
          planTimerTrigger zones readTimerLastRun service schedule (timerLastRunStorage service) now =
            .ok registration) := by
    intro service schedule before after step
    unfold planSchedule at step
    split at step
    case h_1 planned same =>
      cases step
      simp [same, eq_comm]
    case h_2 => cases step
    case h_3 _ failed =>
      cases step
      simp [failed]
  have each : ∀ (service : ServiceDefinition) (before after : TimerBootPlan),
      (timerSchedules service).foldlM (planSchedule zones readTimerLastRun service now) before =
        .ok after → (registration ∈ after.registrations ↔ registration ∈ before.registrations ∨
          ∃ schedule ∈ timerSchedules service, planTimerTrigger zones readTimerLastRun service schedule
            (timerLastRunStorage service) now = .ok registration) := by
    intro service before after
    exact foldlM_collects (fun plan : TimerBootPlan => registration ∈ plan.registrations) _ (one service)
  rw [foldlM_collects (fun plan : TimerBootPlan => registration ∈ plan.registrations) _ each ran]
  simp only [List.not_mem_nil, false_or, List.mem_filter, Bool.not_eq_true', and_assoc]

theorem nextAfter_eq_ok {after ns : ℕ} :
    nextAfter zones svc schedule calendar after = .ok ns ↔ calendar.nextAfterNs zones after = .ok ns := by
  rw [nextAfter, mapError_eq_ok]

theorem persistentBootDecision_eq_ok {out : Option ℕ × Bool × ℕ} :
    persistentBootDecision zones svc schedule calendar lastRun now = .ok out ↔
      ((∀ run, lastRun = some run → now < run) ∧
        ∃ next, calendar.nextAfterNs zones now = .ok next ∧ out = (lastRun, true, next)) ∨
      ∃ run ≤ now, lastRun = some run ∧ ∃ after, calendar.nextAfterNs zones run = .ok after ∧
        (after ≤ now ∧ (∃ next, calendar.nextAfterNs zones now = .ok next ∧ out = (lastRun, true, next)) ∨
          now < after ∧ out = (lastRun, false, after)) := by
  have future : ∀ recorded : Option ℕ, (do
      let next ← nextAfter zones svc schedule calendar now
      Except.ok (recorded, true, next)) = .ok out ↔
        ∃ next, calendar.nextAfterNs zones now = .ok next ∧ out = (recorded, true, next) := by
    intro recorded
    simp only [bind_eq_ok, nextAfter_eq_ok, Except.ok.injEq, @eq_comm _ out]
  unfold persistentBootDecision
  cases lastRun with
  | none => simp [future none]
  | some run =>
    by_cases ahead : run > now
    · simp [ahead, future (some run)]
    · dsimp only
      rw [if_neg ahead, bind_eq_ok]
      simp only [nextAfter_eq_ok, Option.some.injEq, forall_eq', ahead, false_and, false_or]
      constructor
      · rintro ⟨after, got, decided⟩
        refine ⟨run, not_lt.mp ahead, rfl, after, got, ?_⟩
        split_ifs at decided with missed
        · exact .inl ⟨missed, (future (some run)).mp decided⟩
        · cases decided
          exact .inr ⟨not_le.mp missed, rfl⟩
      · rintro ⟨_, -, rfl, after, got, ⟨missed, decided⟩ | ⟨ahead', rfl⟩⟩
        · refine ⟨after, got, ?_⟩
          rw [if_pos missed]
          exact (future (some run)).mpr decided
        · exact ⟨after, got, by rw [if_neg (not_le.mpr ahead')]⟩

theorem planTimerTrigger_persistent
    (persistent : service.timerPersistent = true)
    (parsed : parse zones schedule = .ok calendar)
    (recorded : readTimerLastRun service.name schedule storage = .ok lastRun) :
    planTimerTrigger zones readTimerLastRun service schedule storage now = .ok registration ↔
      ∃ missed next, persistentBootDecision zones service.name schedule calendar lastRun now =
        .ok (lastRun, missed, next) ∧ registration =
          { service := service.name, schedule, storage, persistent := true,
            jitterSecs := service.timerJitterSecs, missedFiring := missed, nextScheduledNs := next,
            lastRunNs := lastRun } := by
  have decided : ∀ out, persistentBootDecision zones service.name schedule calendar lastRun now =
      .ok out → out.1 = lastRun := by
    intro out decided
    rcases persistentBootDecision_eq_ok.mp decided with
      ⟨-, _, -, rfl⟩ | ⟨_, -, -, _, -, ⟨-, _, -, rfl⟩ | ⟨-, rfl⟩⟩ <;> rfl
  unfold planTimerTrigger bootDecision
  simp only [parsed, recorded, persistent, if_true, Except.mapError, bind_eq_ok, Except.ok.injEq,
    exists_eq_left']
  constructor
  · rintro ⟨⟨recorded', missed, next⟩, decision, planned⟩
    obtain rfl : recorded' = lastRun := decided _ decision
    cases planned
    exact ⟨missed, next, decision, rfl⟩
  · rintro ⟨missed, next, decision, rfl⟩
    exact ⟨_, decision, rfl⟩

end Planned

theorem planTimerTrigger_names
   
    (planned : planTimerTrigger zones readTimerLastRun service schedule storage now = .ok registration) :
    registration.service = service.name ∧ registration.schedule = schedule := by
  obtain ⟨calendar, -, rest⟩ := bind_eq_ok.mp planned
  obtain ⟨⟨lastRun, missed, next⟩, -, made⟩ := bind_eq_ok.mp rest
  cases made
  exact ⟨rfl, rfl⟩

/-! ## Catching up -/

/-- By the recorded run a firing was missed: there is no run, the run is in the future, or an occurrence
lies between it and now. -/
def CalendarSchedule.Missed (calendar : CalendarSchedule) (zone : TimeZone) (lastRun : Option ℕ)
    (now : ℕ) : Prop :=
  lastRun = none ∨ ∃ run, lastRun = some run ∧
    (now < run ∨ ∃ t : ℤ, calendar.OccursAt zone t ∧ run < t ∧ t ≤ now)

section Decision

variable {zones : TimeZones} {zone : TimeZone} {svc sched : String}

theorem persistentBootDecision_exact (inRange : calendar.InRange)
    (resolved : zones calendar.timezone = some zone) (ordered : zone.Ordered)
    (searched : ∀ run, lastRun = some run → run ≤ now →
      ∃ after, calendar.nextAfterNs zones run = .ok after)
    (left : calendar.nextAfterNs zones now = .ok next) :
    ∃ missed, persistentBootDecision zones svc sched calendar lastRun now =
      .ok (lastRun, missed, next) ∧ (missed = true ↔ calendar.Missed zone lastRun now) := by
  by_cases ahead : ∀ run, lastRun = some run → now < run
  · refine ⟨true, persistentBootDecision_eq_ok.mpr (.inl ⟨ahead, next, left, rfl⟩), ?_⟩
    refine iff_of_true rfl ?_
    cases lastRun with
    | none => exact .inl rfl
    | some run => exact .inr ⟨run, rfl, .inl (ahead run rfl)⟩
  push Not at ahead
  obtain ⟨run, rfl, past⟩ := ahead
  obtain ⟨after, got⟩ := searched run rfl past
  have occurs := nextAfterNs_eq_ok.mp got
  obtain ⟨here, least⟩ := occurs.least inRange resolved ordered
  by_cases missed : after ≤ now
  · refine ⟨true, persistentBootDecision_eq_ok.mpr
      (.inr ⟨run, past, rfl, after, got, .inl ⟨missed, next, left, rfl⟩⟩), iff_of_true rfl ?_⟩
    have later := occurs.later
    exact .inr ⟨run, rfl, .inr ⟨after, here, by omega, by omega⟩⟩
  · -- the first occurrence after the run is the first one after now
    have left' := nextAfterNs_eq_ok.mp left
    obtain ⟨here', least'⟩ := left'.least inRange resolved ordered
    have later := left'.later
    have le := least next here' (by omega)
    have ge := least' after here (by omega)
    obtain rfl : after = next := by omega
    refine ⟨false, persistentBootDecision_eq_ok.mpr
      (.inr ⟨run, past, rfl, after, got, .inr ⟨not_le.mp missed, rfl⟩⟩), iff_of_false nofun ?_⟩
    rintro (none | ⟨_, ⟨⟩, future | ⟨t, occurs', after', notLater⟩⟩)
    · cases none
    · omega
    · have := least t occurs' after'
      omega

theorem left_of_persistentBootDecision {recorded : Option ℕ}
    (decided : persistentBootDecision zones svc sched calendar lastRun now =
      .ok (recorded, true, next)) : ∃ left, calendar.nextAfterNs zones now = .ok left := by
  rcases persistentBootDecision_eq_ok.mp decided with
    ⟨-, left, got, -⟩ | ⟨_, -, -, _, -, ⟨-, left, got, -⟩ | ⟨-, ⟨⟩⟩⟩
  · exact ⟨left, got⟩
  · exact ⟨left, got⟩

end Decision

/-- The plan has a catch-up firing for the trigger. -/
def TimerBootPlan.CatchesUp (plan : TimerBootPlan) (service schedule : String) : Prop :=
  ∃ registration ∈ plan.registrations, registration.service = service ∧
    registration.schedule = schedule ∧ registration.missedFiring = true

/-- The trigger is in the plan, with `next` as its next occurrence and no other. -/
def TimerBootPlan.RegisteredFor (plan : TimerBootPlan) (service schedule : String) (next : ℕ) : Prop :=
  (∃ registration ∈ plan.registrations, registration.service = service ∧
    registration.schedule = schedule) ∧
  ∀ registration ∈ plan.registrations, registration.service = service →
    registration.schedule = schedule → registration.nextScheduledNs = next

/-- A trigger that still has an occurrence is registered for it, and it is caught up exactly when there
is no recorded run, the recorded run is in the future, or an occurrence lies between the run and now. -/
theorem boot_catch_up_iff_missed {zones : TimeZones} {services : List ServiceDefinition} {now : ℕ}
    {readTimerLastRun : String → String → TimerLastRunStorage → Except Unit (Option ℕ)}
    {plan : TimerBootPlan} {service : ServiceDefinition} {schedule : String}
    {calendar : CalendarSchedule} {zone : TimeZone} {lastRun : Option ℕ}
    (ran : planTimerBoot zones readTimerLastRun services now = .ok plan)
    (names : (services.map (·.name)).Nodup) (listed : service ∈ services)
    (enabled : service.disabled = false) (trigger : .timer schedule ∈ service.triggers)
    (persistent : service.timerPersistent = true)
    (parsed : parse zones schedule = .ok calendar)
    (resolved : zones calendar.timezone = some zone) (ordered : zone.Ordered)
    (recorded : readTimerLastRun service.name schedule (timerLastRunStorage service) = .ok lastRun)
    (searched : ∀ run next, lastRun = some run → run ≤ now →
      calendar.nextAfterNs zones now = .ok next → ∃ after, calendar.nextAfterNs zones run = .ok after) :
    (plan.CatchesUp service.name schedule ↔
      (∃ next, calendar.nextAfterNs zones now = .ok next) ∧ calendar.Missed zone lastRun now) ∧
    ∀ next, calendar.nextAfterNs zones now = .ok next →
      plan.RegisteredFor service.name schedule next := by
  have inRange := inRange_parse parsed
  have exactly : ∀ next, calendar.nextAfterNs zones now = .ok next →
      ∃ missed, persistentBootDecision zones service.name schedule calendar lastRun now =
        .ok (lastRun, missed, next) ∧ (missed = true ↔ calendar.Missed zone lastRun now) := by
    intro next left
    exact persistentBootDecision_exact inRange resolved ordered
      (fun run same past => searched run next same past left) left
  -- the registrations with the names of the trigger are what its recorded run decides
  have mine : ∀ registration, (registration ∈ plan.registrations ∧
      registration.service = service.name ∧ registration.schedule = schedule) ↔
        ∃ missed next, persistentBootDecision zones service.name schedule calendar lastRun now =
          .ok (lastRun, missed, next) ∧ registration =
            { service := service.name, schedule, storage := timerLastRunStorage service,
              persistent := true, jitterSecs := service.timerJitterSecs, missedFiring := missed,
              nextScheduledNs := next, lastRunNs := lastRun } := by
    intro registration
    rw [← planTimerTrigger_persistent persistent parsed recorded, mem_registrations ran]
    constructor
    · rintro ⟨⟨other, listed', -, schedule', -, planned⟩, sameService, sameSchedule⟩
      obtain ⟨service', schedule''⟩ := planTimerTrigger_names planned
      obtain rfl : other = service :=
        List.inj_on_of_nodup_map names listed' listed (service'.symm.trans sameService)
      obtain rfl : schedule' = schedule := schedule''.symm.trans sameSchedule
      exact planned
    · intro planned
      exact ⟨⟨service, listed, enabled, schedule, mem_timerSchedules.mpr trigger, planned⟩,
        planTimerTrigger_names planned⟩
  refine ⟨⟨?_, ?_⟩, ?_⟩
  · rintro ⟨registration, planned, sameService, sameSchedule, missed⟩
    obtain ⟨missed', next, decided, rfl⟩ := (mine registration).mp ⟨planned, sameService, sameSchedule⟩
    obtain rfl : missed' = true := missed
    obtain ⟨left, found⟩ := left_of_persistentBootDecision decided
    obtain ⟨missed', decided', iff⟩ := exactly left found
    cases decided.symm.trans decided'
    exact ⟨⟨next, found⟩, iff.mp rfl⟩
  · rintro ⟨⟨next, found⟩, missed⟩
    obtain ⟨missed', decided, iff⟩ := exactly next found
    obtain rfl := iff.mpr missed
    obtain ⟨planned, sameService, sameSchedule⟩ := (mine _).mpr ⟨true, next, decided, rfl⟩
    exact ⟨_, planned, sameService, sameSchedule, rfl⟩
  · intro next found
    obtain ⟨missed, decided, -⟩ := exactly next found
    constructor
    · obtain ⟨planned, sameService, sameSchedule⟩ := (mine _).mpr ⟨missed, next, decided, rfl⟩
      exact ⟨_, planned, sameService, sameSchedule⟩
    · intro registration planned sameService sameSchedule
      obtain ⟨missed', next', decided', rfl⟩ :=
        (mine registration).mp ⟨planned, sameService, sameSchedule⟩
      cases decided.symm.trans decided'
      rfl

/-- A service that is started by one timer. -/
def timedService (schedule : String) : ServiceDefinition :=
  { name := "backup", triggers := [.timer schedule] }

/-- The firing of the second of January was missed, and the next one is on the fourth. -/
theorem boot_catch_up_after_two_days :
    ∃ plan, planTimerBoot (fun _ => some utc) (fun _ _ _ => .ok (some 0))
        [timedService "1970-01-* 00:00:00 UTC"] (216000 * nanosPerSec) = .ok plan ∧
      plan.CatchesUp "backup" "1970-01-* 00:00:00 UTC" ∧
      plan.RegisteredFor "backup" "1970-01-* 00:00:00 UTC" (259200 * nanosPerSec) := by
  refine Exists.imp (p := fun _ => _) (fun plan ran => ⟨ran, ?_⟩) (by decide +kernel)
  obtain ⟨calendar, parsed, fromRun, fromNow⟩ : ∃ calendar,
      parse (fun _ => some utc) "1970-01-* 00:00:00 UTC" = .ok calendar ∧
      calendar.nextAfterNs (fun _ => some utc) 0 = .ok (86400 * nanosPerSec) ∧
      calendar.nextAfterNs (fun _ => some utc) (216000 * nanosPerSec) = .ok (259200 * nanosPerSec) := by
    decide +kernel
  obtain ⟨caught, registered⟩ := boot_catch_up_iff_missed ran (by decide) (List.mem_singleton.mpr rfl) rfl
    (List.mem_singleton.mpr rfl) rfl parsed rfl utc_ordered rfl
    (by rintro _ _ ⟨⟩ _ _; exact ⟨_, fromRun⟩)
  refine ⟨caught.mpr ⟨⟨_, fromNow⟩, .inr ⟨0, rfl, .inr ?_⟩⟩, registered _ fromNow⟩
  obtain ⟨here, -⟩ := (nextAfterNs_eq_ok.mp fromRun).least
    (inRange_parse parsed) rfl utc_ordered
  exact ⟨_, here, by decide, by decide⟩

theorem planTimerBoot_rejects
    {error : CalendarNextError} (parsed : parse zones schedule = .ok calendar)
    (failed : calendar.nextAfterNs zones now = .error error) :
    planTimerBoot zones (fun _ _ _ => .ok none) [timedService schedule] now =
      .ok { rejected := [.computeNext "backup" schedule error] } := by
  simp [planTimerBoot, timerSchedules, planSchedule, planTimerTrigger, parsed, bootDecision,
    persistentBootDecision, nextAfter, failed, timedService, Except.mapError, bind, Except.bind]
  rfl

/-- The only firing of the schedule was missed and there is no other: the trigger is rejected. -/
theorem missed_last_occurrence_not_caught_up :
    ∃ calendar, parse (fun _ => some utc) "2027-01-01 00:00:00 UTC" = .ok calendar ∧
      calendar.Missed utc none (1798848000 * nanosPerSec) ∧
      planTimerBoot (fun _ => some utc) (fun _ _ _ => .ok none)
        [timedService "2027-01-01 00:00:00 UTC"] (1798848000 * nanosPerSec) = .ok
          { registrations := []
            rejected := [.computeNext "backup" "2027-01-01 00:00:00 UTC" .noFutureOccurrence] } := by
  have parsed : parse (fun _ => some utc) "2027-01-01 00:00:00 UTC" =
      .ok (midnight ⟨[2027], by decide⟩ ⟨[1], by decide⟩ (.monthDay ⟨[1], by decide⟩)) := rfl
  exact ⟨_, parsed, .inl rfl,
    planTimerBoot_rejects parsed (nextAfterNs_newYear2027 (by decide) (by decide))⟩

end Peinit
