import Peinit.Health.Intervals

/-!
# Checks do not overlap and do not run without a timeout

Unless a record is dropped or renewed over a live check, as a reload does: the record of the next
activation does not know of the check.
-/

namespace Peinit

open ServiceTable JobStore List

variable {jobs : JobStore} {services : ServiceTable} {moves : List (String × ServiceTransition)}
  {service cause : String} {atNs nowNs : ℕ} {jobId : Option JobId}

namespace HealthWork

variable {work after : HealthWork}

/-! ## Moves of services -/

/-- Move the services one after the other; a move that is refused refuses all. -/
def transitionAll (services : ServiceTable) (moves : List (String × ServiceTransition)) :
    Except ServiceTableError (ServiceTable × List ServiceTableTransition) :=
  moves.foldlM (fun state move => do
    let out ← state.1.transitionService move.1 move.2
    return (out.1, state.2 ++ [out.2])) (services, [])

theorem transitionAll_ok {out : ServiceTable × List ServiceTableTransition} (keyed : services.Keyed)
    (idle : ∀ move ∈ moves, move.2.target = .active → jobs.NoCheck move.1)
    (ran : transitionAll services moves = .ok out) :
    out.1.Keyed ∧
    (∀ done ∈ out.2, done.event.target = .active → jobs.NoCheck done.event.service) ∧
    ∀ service entry, out.1.get service = some entry → entry.runtime.state = .active →
      jobs.NoCheck service ∨ (services.get service = some entry ∧
        ∀ done ∈ out.2, done.event.service ≠ service) := by
  refine foldlM_invariant (fun state : ServiceTable × List ServiceTableTransition =>
    state.1.Keyed ∧
    (∀ done ∈ state.2, done.event.target = .active → jobs.NoCheck done.event.service) ∧
    ∀ service entry, state.1.get service = some entry → entry.runtime.state = .active →
      jobs.NoCheck service ∨ (services.get service = some entry ∧
        ∀ done ∈ state.2, done.event.service ≠ service)) ?_
    ⟨keyed, by simp, fun service entry got _ => .inr ⟨got, by simp⟩⟩ ran
  rintro move mem state next ⟨keyed, targets, active⟩ ran
  obtain ⟨moved, first, rest⟩ := bind_eq_ok.mp ran
  cases rest
  obtain ⟨service, target⟩ := event_of_transition first
  refine ⟨keyed.moved first, ?_, ?_⟩
  · intro done among
    rcases mem_append.mp among with before | last
    · exact targets done before
    · rw [mem_singleton.mp last, service, target]
      exact idle move mem
  · intro other entry got up
    by_cases here : other = move.1
    · subst here
      exact .inl (idle move mem ((state_of_transition first got).symm.trans up))
    · rw [get_of_transition_ne first here] at got
      refine (active other entry got up).imp_right fun ⟨before, unmoved⟩ => ⟨before, ?_⟩
      intro done among
      rcases mem_append.mp among with earlier | last
      · exact unmoved done earlier
      · rw [mem_singleton.mp last, service]
        exact Ne.symm here

theorem Consistent.scheduleActiveServiceHealth {gen : ℕ}
    (sound : work.Consistent) (idle : work.services.IsActive service → work.jobs.NoCheck service) :
    (work.scheduleActiveServiceHealth service gen atNs).Consistent := by
  unfold HealthWork.scheduleActiveServiceHealth
  split
  · exact sound
  · split_ifs
    · exact ⟨sound.services, sound.checks.schedule fun active live => absurd (idle active) live⟩
    · exact sound.cancelService idle

theorem Consistent.applyHealthSchedulingAfterTransitions
    {transitions : List ServiceTableTransition} {work : HealthWork} (sound : work.Consistent)
    (idle : ∀ done ∈ transitions, work.services.IsActive done.event.service →
      work.jobs.NoCheck done.event.service) :
    (work.applyHealthSchedulingAfterTransitions transitions atNs).Consistent := by
  induction transitions generalizing work with
  | nil => exact sound
  | cons done rest ih =>
    have quiet := idle done (by simp)
    have first : (work.applyHealthSchedulingAfterTransition done.event atNs).Consistent ∧
        (work.applyHealthSchedulingAfterTransition done.event atNs).services = work.services ∧
        (work.applyHealthSchedulingAfterTransition done.event atNs).jobs = work.jobs := by
      unfold applyHealthSchedulingAfterTransition
      split_ifs
      · refine ⟨sound.scheduleActiveServiceHealth quiet, ?_⟩
        unfold HealthWork.scheduleActiveServiceHealth
        split
        · exact ⟨rfl, rfl⟩
        · split_ifs <;> exact ⟨rfl, rfl⟩
      · exact ⟨sound.cancelService quiet, rfl, rfl⟩
      · exact ⟨sound, rfl, rfl⟩
    obtain ⟨sound, services, jobs⟩ := first
    apply ih sound
    intro other mem
    rw [services, jobs]
    exact idle other (mem_cons_of_mem _ mem)

/-! ## Internal errors -/

theorem Consistent.retireJob {jobId : JobId} (sound : work.Consistent) :
    (work.retireJob jobId nowNs cause).Consistent := by
  unfold HealthWork.retireJob
  split
  · exact sound
  · dsimp only
    split
    · next out ended =>
      refine sound.jobs_ended rfl ?_ rfl
      split at ended
      · obtain ⟨job, ended⟩ := failJobBeforeStart_ok ended
        exact ended.toFinished.checksEnded
      · obtain ⟨job, ended⟩ := failRunningJob_ok ended
        exact ended.toFinished.checksEnded
    · exact ⟨sound.services, sound.checks⟩

theorem Consistent.retire (sound : work.Consistent) : (work.retire jobId nowNs cause).Consistent := by
  cases jobId with
  | none => exact sound
  | some jobId => exact sound.retireJob

theorem not_isActive_of_failService (refused : work.failService service = none) :
    ¬ work.services.IsActive service := by
  rintro ⟨entry, got, active⟩
  have allowed : isAllowedTransition entry.runtime.state .failed .internalError = true := by
    rw [active]
    decide
  obtain ⟨tr, moves⟩ :
      ∃ tr, work.services.transitionService service ⟨.failed, .internalError⟩ =
        .ok (work.services.moveEntry service entry ⟨.failed, .internalError⟩, tr) :=
    transitionService_ok got allowed
  have runtime : work.services.runtime service = some entry.runtime := by
    unfold runtime
    rw [got]
    rfl
  unfold failService at refused
  rw [runtime] at refused
  dsimp only at refused
  rw [active, moves] at refused
  cases refused

theorem Consistent.failServiceAfterInternalError
    (sound : work.Consistent) : (work.failServiceAfterInternalError service nowNs).Consistent := by
  unfold HealthWork.failServiceAfterInternalError
  cases failed : work.failService service with
  | none =>
    exact sound.cancelService fun active => absurd active (not_isActive_of_failService failed)
  | some out =>
    obtain ⟨services, tr⟩ := out
    have ran : work.services.transitionService service ⟨.failed, .internalError⟩ =
        .ok (services, tr) := by
      unfold failService at failed
      split at failed
      · cases failed
      · split_ifs at failed
        exact toOption_eq_some.mp failed
    have down : ¬ services.IsActive service := fun ⟨entry, got, active⟩ => by
      cases (state_of_transition ran got).symm.trans active
    have moved : (({ work with services } : HealthWork).cancelService service).Consistent :=
      (sound.transition ran (fun active => by cases active)).cancelService
        fun active => absurd active down
    apply Consistent.applyHealthSchedulingAfterTransitions ⟨moved.services, moved.checks⟩
    intro done mem active
    rw [mem_singleton.mp mem, (event_of_transition ran).1] at active
    exact absurd active down

theorem Consistent.failAfterInternalError {svc : Option String} (sound : work.Consistent) :
    (work.failAfterInternalError jobId svc nowNs cause).Consistent := by
  unfold HealthWork.failAfterInternalError
  dsimp only
  split
  · exact sound.retire
  · exact sound.retire.retire.failServiceAfterInternalError

/-! ## Runs -/

/-- What can happen to the checks, and to the services and jobs around them. -/
inductive HealthMove where
  | intervals (commandError : String → Option String)
      (allocate : String → Except IdAllocationError JobId) (nowNs : ℕ)
  | launch (answer : LaunchAnswer) (nowNs : ℕ)
  | setup (kills : String → Bool) (setupStatusFd : ℤ) (execSucceeded : Bool) (nowNs : ℕ)
  | completed (kills : String → Bool) (jobId : JobId) (endedAtNs : ℕ) (exitCode : ℤ)
  | failedRunning (kills : String → Bool) (jobId : JobId) (endedAtNs : ℕ) (exit : Option JobExit)
      (failureCause : String)
  | timeouts (kills : String → Bool) (nowNs : ℕ)
  /-- Services move, for whatever reason; not all who move them see to the checks. -/
  | moved (moves : List (String × ServiceTransition)) (schedules : Bool) (nowNs : ℕ)
  /-- The last post-start hook of a service has ended. -/
  | postStart (service : String) (nowNs : ℕ)
  | internalError (jobId : Option JobId) (service : Option String) (nowNs : ℕ) (cause : String)
  | reloadConfig (read : ServiceDefinitionsRead) (frozen : List String)
  /-- Something else about a service changes. -/
  | runtime (service : String) (f : ServiceRuntimeSnapshot → ServiceRuntimeSnapshot)
  /-- A job is created or started that is no check, or any job ends. -/
  | job (call : JobCall)

/-- Whether the call creates or starts a check. -/
def startsCheck (jobs : JobStore) : JobCall → Bool
  | .create job => job.jobType = .healthCheck
  | .start id .. | .startWithTokenSummary id .. =>
    (jobs.get id).any fun job => job.jobType = .healthCheck
  | _ => false

def otherJobCall (work : HealthWork) (call : JobCall) : HealthWork :=
  if startsCheck work.jobs call then work
  else { work with jobs := (JobHistory.perform { store := work.jobs } call).store }

/-- A new activation starts with nothing known about its health. -/
def forgetHealth (snapshots : OrdMap String ServiceHealthSnapshot)
    (moves : List (String × ServiceTransition)) : OrdMap String ServiceHealthSnapshot :=
  moves.foldl (fun snapshots move =>
    if move.2.target = .starting then snapshots.erase move.1 else snapshots) snapshots

def moveServices (work : HealthWork) (moves : List (String × ServiceTransition)) (schedules : Bool)
    (nowNs : ℕ) : Except ServiceTableError HealthWork := do
  let out ← transitionAll work.services moves
  let moved : HealthWork :=
    { work with services := out.1, snapshots := forgetHealth work.snapshots moves }
  return if schedules then moved.applyHealthSchedulingAfterTransitions out.2 nowNs else moved

/-- The runtime with `f` applied, but for the state and the activation. -/
def changeRuntime (work : HealthWork) (service : String)
    (f : ServiceRuntimeSnapshot → ServiceRuntimeSnapshot) : Except ServiceTableError HealthWork := do
  let services ← work.services.updateRuntime service fun runtime =>
    { f runtime with state := runtime.state, generation := runtime.generation }
  return { work with services }

/-- The state after a move; one that fails changes nothing but the queue it has looked through. -/
def perform (work : HealthWork) : HealthMove → HealthWork
  | .intervals commandError allocate nowNs =>
    (work.processDueHealthCheckIntervals commandError allocate nowNs).toOption.getD work
  | .launch answer nowNs => (work.launchNextPendingHealthCheckJob answer nowNs).toOption.getD
    { work with pendingHealthLaunches := work.nextLiveFront }
  | .setup kills setupStatusFd execSucceeded nowNs =>
    (work.processPendingProcessSetupStatus kills setupStatusFd execSucceeded nowNs).toOption.getD work
  | .completed kills jobId endedAtNs exitCode =>
    (work.completeHealthCheckJob kills jobId endedAtNs exitCode).toOption.getD work
  | .failedRunning kills jobId endedAtNs exit failureCause =>
    (work.failRunningHealthCheckJob kills jobId endedAtNs exit failureCause).toOption.getD work
  | .timeouts kills nowNs => (work.processDueHealthCheckTimeouts kills nowNs).toOption.getD work
  | .moved moves schedules nowNs => (work.moveServices moves schedules nowNs).toOption.getD work
  | .postStart service nowNs => work.applyHealthSchedulingAfterPostStart service nowNs
  | .internalError jobId service nowNs cause =>
    work.failAfterInternalError jobId service nowNs cause
  | .reloadConfig read frozen =>
    { work with services := work.services.perform (.reload read frozen) }
  | .runtime service f => (work.changeRuntime service f).toOption.getD work
  | .job call => work.otherJobCall call

/-- A move that drops or renews no record over a live check: no service becomes active while one of
its checks is live, and where a record is renewed for an active service it keeps the check. -/
def KeepsSight (work : HealthWork) : HealthMove → Prop
  | .intervals _ allocate nowNs => work.IntervalsMild allocate nowNs
  | .moved moves _ _ => ∀ move ∈ moves, move.2.target = .active → work.jobs.NoCheck move.1
  | .postStart service _ => ∀ entry, work.services.get service = some entry →
    entry.runtime.state = .active → work.jobs.NoCheck service ∨
      healthEnabled entry.definition = true ∧ ∀ record : HealthCheckRecord,
        work.health.records[service]? = some record →
        record.cgroupGeneration = entry.runtime.cgroupGeneration
  | _ => True

theorem Consistent.getD {ε : Type} {result : Except ε HealthWork} (sound : work.Consistent)
    (step : ∀ after, result = .ok after → after.Consistent) :
    (result.toOption.getD work).Consistent := by
  cases result with
  | error => exact sound
  | ok after => exact step after rfl

theorem Consistent.moveServices {schedules : Bool} (sound : work.Consistent)
    (idle : ∀ move ∈ moves, move.2.target = .active → work.jobs.NoCheck move.1)
    (ran : work.moveServices moves schedules nowNs = .ok after) : after.Consistent := by
  obtain ⟨out, first, rest⟩ := bind_eq_ok.mp ran
  obtain ⟨keyed, targets, active⟩ := transitionAll_ok sound.services idle first
  have checks : HealthInv out.1 work.jobs work.health := by
    apply sound.checks.services_moved
    intro service entry got up
    exact (active service entry got up).imp_right fun ⟨before, _⟩ => ⟨entry, before, up, rfl⟩
  cases rest
  split_ifs
  · refine Consistent.applyHealthSchedulingAfterTransitions ⟨keyed, checks⟩ ?_
    rintro done mem ⟨entry, got, up⟩
    exact (active _ entry got up).resolve_right fun ⟨_, unmoved⟩ => unmoved done mem rfl
  · exact ⟨keyed, checks⟩

theorem Consistent.applyHealthSchedulingAfterPostStart
    (sound : work.Consistent) (keeps : work.KeepsSight (.postStart service nowNs)) :
    (work.applyHealthSchedulingAfterPostStart service nowNs).Consistent := by
  unfold HealthWork.applyHealthSchedulingAfterPostStart
  cases known : work.services.get service with
  | none =>
    rw [runtime, known]
    exact sound
  | some entry =>
    rw [runtime, known]
    dsimp only [Option.map_some]
    split_ifs with up
    · exact sound
    rcases keeps entry known (not_not.mp up) with none | ⟨enabled, tree⟩
    · exact sound.scheduleActiveServiceHealth fun _ => none
    · unfold HealthWork.scheduleActiveServiceHealth
      rw [known]
      dsimp only
      rw [if_pos enabled]
      refine ⟨sound.services, sound.checks.schedule fun _ live record there => ⟨?_, tree record there⟩⟩
      obtain ⟨id, job, got, type, own⟩ := not_forall_not.mp live
      obtain ⟨record', -, there', current, -⟩ :=
        (sound.checks.tied service).recorded id job entry got type own known (not_not.mp up)
      cases there.symm.trans there'
      exact current

theorem Consistent.reloadConfig {read : ServiceDefinitionsRead} {frozen : List String}
    (sound : work.Consistent) :
    Consistent { work with services := work.services.perform (.reload read frozen) } := by
  refine ⟨sound.services.perform _, sound.checks.services_moved fun service entry got active => ?_⟩
  right
  have step := perform_cases work.services (.reload read frozen) service
  rw [got] at step
  generalize before : work.services.get service = old at step
  cases step with
  | rejected => exact ⟨entry, rfl, active, rfl⟩
  | reloaded _ _ _ _ _ _ change =>
    cases change with
    | added defn defined => cases active
    | deferred old defn defined held => exact ⟨old, rfl, active, rfl⟩
    | updated old defn defined free =>
      rw [ServiceEntry.applyReloadedDefinition_runtime] at active ⊢
      exact ⟨old, rfl, active, rfl⟩
    | marked old undefined unnamed free read up => exact ⟨old, rfl, active, rfl⟩
    | refusedUp old undefined named free up => exact ⟨old, rfl, active, rfl⟩
    | refused before message undefined named free down => cases active
    | _ => exact ⟨entry, rfl, active, rfl⟩

theorem Consistent.changeRuntime
    {f : ServiceRuntimeSnapshot → ServiceRuntimeSnapshot} (sound : work.Consistent)
    (ran : work.changeRuntime service f = .ok after) : after.Consistent := by
  obtain ⟨services, first, rest⟩ := bind_eq_ok.mp ran
  cases rest
  obtain ⟨entry, got, rfl⟩ := updateRuntime_eq_ok.mp first
  refine ⟨fun other entry' there => ?_, sound.checks.services_moved fun other entry' there active => ?_⟩
  · rw [get_set] at there
    split_ifs at there with here
    · cases there
      exact sound.services other entry (here ▸ got)
    · exact sound.services other entry' there
  · rw [get_set] at there
    split_ifs at there with here
    · cases there
      exact .inr ⟨entry, here ▸ got, active, rfl⟩
    · exact .inr ⟨entry', there, active, rfl⟩

theorem checksEnded_start {h : JobHistory} {id : JobId} {pid startNs : ℕ} {pidfd : ℤ}
    (ended : work.jobs.ChecksEnded h.store)
    (other : ∀ job, h.store.get id = some job → job.jobType ≠ .healthCheck) :
    work.jobs.ChecksEnded (h.start id pid pidfd startNs).store := by
  intro id' job' got type
  unfold JobHistory.start at got
  split at got
  · next store started =>
    obtain ⟨job, next, known, -, same, records, -⟩ := startJob_ok started
    rw [records] at got
    split_ifs at got
    · cases got
      exact absurd (same.symm.trans type) (other job known)
    · exact ended id' job' got type
  · exact ended id' job' got type

theorem Consistent.otherJobCall {call : JobCall} (sound : work.Consistent) :
    (work.otherJobCall call).Consistent := by
  unfold HealthWork.otherJobCall
  split_ifs with starts
  · exact sound
  refine sound.jobs_ended rfl ?_ rfl
  have ended : ∀ id (result : Except JobStoreError (JobStore × JobRecord)),
      (∀ out, result = .ok out → work.jobs.ChecksEnded out.1) →
      work.jobs.ChecksEnded (({ store := work.jobs } : JobHistory).endRunning id result).store := by
    intro id result ends
    cases result with
    | error => exact fun _ _ got _ => got
    | ok out => exact ends out rfl
  cases call with
  | create job =>
    intro id job' got type
    dsimp only [JobHistory.perform] at got
    split at got
    · next store created =>
      obtain ⟨-, -, records, -⟩ := createJob_ok created
      rw [records] at got
      split_ifs at got
      · cases got
        exact absurd type (by simpa [startsCheck] using starts)
      · exact got
    · exact got
  | start =>
    refine checksEnded_start (fun _ _ got _ => got) fun job known => ?_
    simpa [startsCheck, known] using starts
  | startWithTokenSummary id pid pidfd tokenSummary =>
    have other job (known : work.jobs.get id = some job) : job.jobType ≠ .healthCheck := by
      simpa [startsCheck, known] using starts
    dsimp only [JobHistory.perform]
    obtain same | ⟨job, known, records, -⟩ := work.jobs.setTokenSummary_cases id tokenSummary
    · rw [same]
      exact checksEnded_start (fun _ _ got _ => got) other
    refine checksEnded_start (fun id' job' got type => ?_) fun job' got => ?_
    · rw [records] at got
      split_ifs at got
      · cases got
        exact absurd type (other job known)
      · exact got
    · rw [records, if_pos rfl] at got
      cases got
      exact other job known
  | complete id endNs exitCode =>
    refine ended id _ fun out ran => ?_
    obtain ⟨job, ended⟩ := completeJob_ok ran
    exact ended.toFinished.checksEnded
  | failBeforeStart id endNs failureCause =>
    intro other job' got type
    dsimp only [JobHistory.perform] at got
    split at got
    · next store last ran =>
      obtain ⟨job, ended⟩ := failJobBeforeStart_ok ran
      exact ended.toFinished.checksEnded other job' got type
    · exact got
  | failRunning id endNs exit failureCause =>
    refine ended id _ fun out ran => ?_
    obtain ⟨job, ended⟩ := failRunningJob_ok ran
    exact ended.toFinished.checksEnded
  | abandon id endNs failureCause =>
    refine ended id _ fun out ran => ?_
    obtain ⟨job, ended⟩ := abandonJob_ok ran
    exact ended.toFinished.checksEnded
  | takeReleased => exact fun _ _ got _ => got

theorem Consistent.perform (work : HealthWork) (move : HealthMove) (sound : work.Consistent)
    (keeps : work.KeepsSight move) : (work.perform move).Consistent := by
  cases move with
  | intervals => exact sound.getD fun _ ran => sound.processDueHealthCheckIntervals keeps ran
  | launch answer nowNs =>
    refine Consistent.getD ⟨sound.services, sound.checks⟩ fun _ ran => ?_
    exact sound.launchNextPendingHealthCheckJob ran
  | setup => exact sound.getD fun _ ran => sound.processPendingProcessSetupStatus ran
  | completed => exact sound.getD fun _ ran =>
    sound.applyHealthCheckTerminalJobEvent (keepsIdentity_complete _ _) ran
  | failedRunning => exact sound.getD fun _ ran =>
    sound.applyHealthCheckTerminalJobEvent (keepsIdentity_failRunning _ _ _) ran
  | timeouts => exact sound.getD fun _ ran => sound.processDueHealthCheckTimeouts ran
  | moved => exact sound.getD fun _ ran => sound.moveServices keeps ran
  | postStart => exact sound.applyHealthSchedulingAfterPostStart keeps
  | internalError => exact sound.failAfterInternalError
  | reloadConfig => exact sound.reloadConfig
  | runtime => exact sound.getD fun _ ran => sound.changeRuntime ran
  | job => exact sound.otherJobCall

/-- Checks neither overlap nor run without a timeout. -/
structure ChecksBounded (work : HealthWork) : Prop where
  /-- A service has one live check of its activation at most. -/
  apart : ∀ service entry id id', work.services.get service = some entry →
    work.jobs.IsCheckOf id service → work.jobs.IsCheckOf id' service →
    work.specs[id]?.map (·.activationGeneration) = some entry.runtime.generation →
    work.specs[id']?.map (·.activationGeneration) = some entry.runtime.generation → id = id'
  /-- A running check of an active service has a timeout. -/
  timed : ∀ service id job, work.services.IsActive service → work.jobs.get id = some job →
    job.jobType = .healthCheck → job.service = some service → job.state = .running →
    ∃ deadline ∈ work.health.timeoutDeadlines, deadline.jobId = id

theorem Consistent.checksBounded (sound : work.Consistent) : work.ChecksBounded where
  apart service entry id id' _ first second _ _ := (sound.checks.tied service).one id id' first second
  timed := by
    rintro service id job ⟨entry, known, active⟩ got type own running
    obtain ⟨record, invocation, there, -, held, represents⟩ :=
      (sound.checks.tied service).recorded id job entry got type own known active
    rw [running] at represents
    cases invocation with
    | pending => exact represents.elim
    | running check =>
      obtain ⟨due, mem, same⟩ := HealthCheckStore.mem_timeoutDeadlines there held
      exact ⟨due, mem, same.trans represents⟩

theorem consistent_new (keyed : services.Keyed) : Consistent { services, jobs := .new } := by
  have empty : ∀ id, new.get id = none := fun id => OrdMap.get_empty id
  refine ⟨keyed, fun id _ got => ?_, fun service => ⟨fun id _ live => ?_, fun id _ _ got => ?_,
    fun _ holds => ?_, fun record there => ?_⟩⟩
  · cases (empty id).symm.trans got
  · obtain ⟨job, got, -⟩ := live
    cases (empty id).symm.trans got
  · cases (empty id).symm.trans got
  · obtain ⟨record, there, -⟩ := holds
    cases (OrdMap.get_empty service).symm.trans there
  · cases (OrdMap.get_empty service).symm.trans there

/-- In every run from a boot that loses sight of no check, checks neither overlap nor run without a
timeout. -/
theorem health_checks_bounded {definitions : List ServiceDefinition} {services : ServiceTable}
    (booted : fromBootSnapshot definitions = .ok services) (moves : List HealthMove)
    (keeps : Admissible perform KeepsSight { services, jobs := .new } moves) :
    (runCalls perform { services, jobs := .new } moves).ChecksBounded := by
  have start := consistent_new (keyed_fromBootSnapshot booted)
  exact (invariant_of_step Consistent Consistent.perform moves start keeps).checksBounded

/-! ### A check that runs, and a reload -/

def checkedWeb : ServiceDefinition where
  name := "web"
  healthCheck := some "/bin/check"

def firstCheck : JobId := ⟨1#128⟩

def secondCheck : JobId := ⟨2#128⟩

/-- The service is started and its first check is running. -/
def checkRunning : List HealthMove := [.moved [("web", ⟨.starting, .explicitStart⟩)] true 0,
    .moved [("web", ⟨.active, .explicitStart⟩)] true 0,
    .intervals (fun _ => none) (fun _ => .ok firstCheck) 30000000000,
    .launch (.started 7 3) 30000000000]

/-- Then it is reloaded, and the next interval is due. -/
def reloadedWhileChecked : List HealthMove := checkRunning ++
  [.moved [("web", ⟨.reloading, .explicitReload⟩)] true 31000000000,
    .moved [("web", ⟨.active, .explicitReload⟩)] true 32000000000,
    .intervals (fun _ => none) (fun _ => .ok secondCheck) 62000000000]

/-- What the check of `service` in the store is, as a test. -/
def checkAt (work : HealthWork) (service : String) (id : JobId) (state : JobState) : Bool :=
  (work.jobs.get id).any fun job =>
    job.jobType = .healthCheck ∧ job.service = some service ∧ job.state = state

theorem noCheck_of_all
    (none : jobs.records.toList.all (fun record => record.2.jobType ≠ .healthCheck) = true) :
    jobs.NoCheck service := by
  rintro id ⟨job, got, type, -⟩
  have other := all_eq_true.mp none (id, job) ((OrdMap.mem_toList _ _ _).mpr got)
  exact of_decide_eq_true other type

theorem not_holds_of_all {health : HealthCheckStore} {check : HealthCheckInvocation}
    (empty : health.records.toList.all (fun record => record.2.invocation = none) = true) :
    ¬ health.Holds service check := by
  rintro ⟨record, got, held⟩
  have other := all_eq_true.mp empty (service, record) ((OrdMap.mem_toList _ _ _).mpr got)
  rw [of_decide_eq_true other] at held
  cases held

theorem health_checks_bounded_checkRunning : ∃ services,
    fromBootSnapshot [checkedWeb] = .ok services ∧
    (runCalls perform { services, jobs := .new } checkRunning).checkAt "web" firstCheck .running = true ∧
    (runCalls perform { services, jobs := .new } checkRunning).ChecksBounded := by
  refine Exists.imp (p := fun services =>
      let after (moves : ℕ) := runCalls perform { services, jobs := .new } (checkRunning.take moves)
      let noCheck (work : HealthWork) :=
        work.jobs.records.toList.all (fun record => record.2.jobType ≠ .healthCheck) = true
      _ ∧ _ ∧ noCheck (after 1) ∧ noCheck (after 2) ∧
        (after 2).health.records.toList.all (fun record => record.2.invocation = none) = true)
    (fun services ⟨booted, running, before, idle, empty⟩ => ⟨booted, running,
      health_checks_bounded booted checkRunning ⟨?_, ?_, ⟨?_, ?_⟩, trivial, trivial⟩⟩)
    (by decide +kernel)
  · intro move listed active
    rw [mem_singleton.mp listed] at active
    cases active
  · intro move listed active
    exact noCheck_of_all before
  · intro deadline listed entry known active disabled
    exact noCheck_of_all idle
  · intro service id allocated other invocation holds
    exact absurd holds (not_holds_of_all empty)

/-- A reload takes a running check out of sight: it has no timeout any more, and the next interval
starts another one beside it. -/
theorem reload_loses_health_check : ∃ services,
    fromBootSnapshot [checkedWeb] = .ok services ∧
    let work := runCalls perform { services, jobs := .new } reloadedWhileChecked
    work.checkAt "web" firstCheck .running = true ∧ work.checkAt "web" secondCheck .created = true ∧
      ¬ work.ChecksBounded := by
  refine Exists.imp (p := fun services =>
      let work := runCalls perform { services, jobs := .new } reloadedWhileChecked
      _ ∧ _ ∧ _ ∧ (∃ entry, work.services.get "web" = some entry ∧ entry.runtime.state = .active) ∧
        work.health.timeoutDeadlines.length = 0)
    (fun services ⟨booted, running, second, active, untimed⟩ =>
      ⟨booted, running, second, fun bounded => ?_⟩) (by decide +kernel)
  unfold checkAt at running
  rw [Option.any_eq_true] at running
  simp only [decide_eq_true_eq] at running
  obtain ⟨job, found, type, own, state⟩ := running
  obtain ⟨deadline, listed, -⟩ := bounded.timed "web" firstCheck job active found type own state
  rw [length_eq_zero_iff.mp untimed] at listed
  cases listed

end HealthWork

end Peinit
