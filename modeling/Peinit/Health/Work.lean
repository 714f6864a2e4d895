import Peinit.Health.Store
import Peinit.Ids
import Peinit.Job.Index
import Peinit.Service.Restart

/-!
# Running health checks

A check is created when its interval is due, launched, and ended by its exit or its timeout; a failure
too many restarts the service. Checks are scheduled when a service becomes active or its post-start
hooks are done, and its record is dropped when it leaves the active state. A function that fails
changes nothing. The generations of a job and the last outcomes are kept here, as nothing else reads
them.
-/

namespace Peinit

inductive HealthCheckError where
  | missingService (jobId : JobId)
  | unknownService (service : String)
  | missingMainJob (service : String)
  | invalidCommand (service command message : String)
  | jobIdAllocation (error : IdAllocationError)
  | jobStore (error : JobStoreError)
  | serviceTable (error : ServiceTableError)
  | boundary (cgroupId : String)
  | notHealthCheckJob (jobId : JobId) (jobType : JobType)
  | notTerminalJobEvent (jobId : JobId) (state : JobState)
  deriving DecidableEq

structure HealthCheckJobSpec where
  activationGeneration : ℕ
  cgroupGeneration : ℕ
  deriving DecidableEq

inductive ServiceHealthStatus where
  | unknown | healthy | unhealthy
  deriving DecidableEq

structure ServiceHealthSnapshot where
  status : ServiceHealthStatus := .unknown
  consecutiveFailures : ℕ := 0
  lastCheckedAtNs : Option ℕ := none
  deriving DecidableEq

structure HealthWork where
  services : ServiceTable
  jobs : JobStore
  health : HealthCheckStore := {}
  /-- The checks waiting for their launch, in order. -/
  pendingHealthLaunches : List JobId := []
  /-- The launched processes that have not told yet whether they could be set up, by the descriptor they
  tell it on. -/
  pendingProcessSetups : OrdMap ℤ PendingLaunchSetup := ∅
  specs : OrdMap JobId HealthCheckJobSpec := ∅
  snapshots : OrdMap String ServiceHealthSnapshot := ∅

def healthEnabled (definition : ServiceDefinition) : Bool :=
  definition.serviceType = .simple && definition.healthCheck.isSome

namespace HealthWork

variable (work : HealthWork)

/-! ## Scheduling -/

def cancelService (service : String) : HealthWork :=
  { work with health := work.health.cancelService service }

def scheduleActiveServiceHealth (service : String) (generation observedAtNs : ℕ) : HealthWork :=
  match work.services.get service with
  | none => work
  | some entry =>
    if healthEnabled entry.definition then
      { work with
        health := work.health.scheduleInterval service generation entry.runtime.cgroupGeneration
          (deadlineNs observedAtNs entry.definition.healthCheckIntervalSecs) }
    else work.cancelService service

def applyHealthSchedulingAfterTransition (event : ServiceTransitionEvent) (observedAtNs : ℕ) :
    HealthWork :=
  if event.target = .active then
    work.scheduleActiveServiceHealth event.service event.generation observedAtNs
  else if event.origin = .active then work.cancelService event.service
  else work

def applyHealthSchedulingAfterTransitions (transitions : List ServiceTableTransition)
    (observedAtNs : ℕ) : HealthWork :=
  transitions.foldl (fun work transition =>
    work.applyHealthSchedulingAfterTransition transition.event observedAtNs) work

def applyHealthSchedulingAfterPostStart (service : String) (observedAtNs : ℕ) : HealthWork :=
  match work.services.runtime service with
  | none => work
  | some runtime =>
    if runtime.state ≠ .active then work
    else work.scheduleActiveServiceHealth service runtime.generation observedAtNs

/-! ## Intervals -/

section Interval

variable (commandError : String → Option String) (allocate : String → Except IdAllocationError JobId)

def createHealthCheckJob (definition : ServiceDefinition)
    (activationGeneration cgroupGeneration nowNs : ℕ) : Except HealthCheckError HealthWork :=
  match definition.healthCheck with
  | none => .error (.unknownService definition.name)
  | some command =>
    match commandError command with
    | some message => .error (.invalidCommand definition.name command message)
    | none => do
      let jobId ← (allocate definition.name).mapError .jobIdAllocation
      let cgroupId := serviceJobCgroupPath definition.name cgroupGeneration .health
      let jobs ← (work.jobs.createJob
        { id := jobId, service := some definition.name, jobType := .healthCheck,
          createdAtNs := nowNs, cgroupId }).mapError .jobStore
      return { work with
        jobs
        specs := work.specs.insert jobId { activationGeneration, cgroupGeneration }
        health := work.health.recordPendingInvocation definition.name activationGeneration jobId cgroupId
        pendingHealthLaunches := work.pendingHealthLaunches ++ [jobId] }

def processDueHealthCheckInterval (nowNs : ℕ) (work : HealthWork)
    (deadline : HealthCheckIntervalDeadline) : Except HealthCheckError HealthWork :=
  match work.services.get deadline.service with
  | none => .ok (work.cancelService deadline.service)
  | some entry =>
    if entry.runtime.generation ≠ deadline.activationGeneration ∨ entry.runtime.state ≠ .active then
      .ok (work.cancelService deadline.service)
    else if !healthEnabled entry.definition then .ok (work.cancelService deadline.service)
    else
      let work := { work with
        health := work.health.scheduleInterval deadline.service deadline.activationGeneration
          deadline.cgroupGeneration (deadlineNs nowNs entry.definition.healthCheckIntervalSecs) }
      if work.health.hasInvocation deadline.service deadline.activationGeneration then .ok work
      else work.createHealthCheckJob commandError allocate entry.definition
        deadline.activationGeneration deadline.cgroupGeneration nowNs

def processDueHealthCheckIntervals (nowNs : ℕ) : Except HealthCheckError HealthWork :=
  (work.health.dueIntervalDeadlines nowNs).foldlM
    (processDueHealthCheckInterval commandError allocate nowNs) work

end Interval

/-! ## The end of a check -/

inductive Outcome where
  | stale | healthy | unhealthy | restartScheduled | failed | notLaunched
  deriving DecidableEq

def recordHealth (service : String) (snapshot : ServiceHealthSnapshot) : HealthWork :=
  { work with snapshots := work.snapshots.insert service snapshot }

def applyHealthCheckFailure (service : String) (entry : ServiceEntry) (observedAtNs : ℕ) :
    Except HealthCheckError (HealthWork × Outcome) :=
  let snapshot := work.snapshots.getD service {}
  let consecutiveFailures := min (snapshot.consecutiveFailures + 1) u32Max
  let work := work.recordHealth service
    { status := .unhealthy, consecutiveFailures, lastCheckedAtNs := some observedAtNs }
  if consecutiveFailures < entry.definition.healthCheckRetries then .ok (work, .unhealthy)
  else match evaluateRestartAfterFailure entry.definition .healthCheckFailure none
      entry.runtime.consecutiveRestartFailures with
    | .backoff cause delaySecs _ => do
      let (services, _) ← (work.services.transitionServiceToRestartBackoff service cause
        (deadlineNs observedAtNs delaySecs)).mapError .serviceTable
      return ({ work.cancelService service with services }, .restartScheduled)
    | .fail cause state => do
      let (services, _) ← (work.services.transitionService service ⟨state, cause⟩).mapError .serviceTable
      return ({ work.cancelService service with services }, .failed)

def applyHealthCheckTerminalInWork (ended : JobRecord) (observedAtNs : ℕ) :
    Except HealthCheckError (HealthWork × Outcome) :=
  if ended.jobType ≠ .healthCheck then .error (.notHealthCheckJob ended.id ended.jobType)
  else if ended.state = .created ∨ ended.state = .running then
    .error (.notTerminalJobEvent ended.id ended.state)
  else match ended.service with
    | none => .error (.missingService ended.id)
    | some service =>
      let removed := work.health.removeInvocation ended.id
      let work := { work with health := removed.1 }
      if !removed.2 then .ok (work, .stale)
      else match work.services.get service with
        | none => .ok (work, .stale)
        | some entry =>
          if entry.runtime.state ≠ .active then .ok (work, .stale)
          else if ended.exitCode = some 0 ∧ ended.exitSignal = none ∧ ended.failureCause = none then
            .ok (work.recordHealth service
              { status := .healthy, lastCheckedAtNs := some observedAtNs }, .healthy)
          else work.applyHealthCheckFailure service entry observedAtNs

/-- A service that is restarted or failed loses its processes. -/
def terminateServiceAfterHealthEscalation (kills : String → Bool) (outcome : Outcome)
    (service : String) (cgroupGeneration nowNs : ℕ) : Except HealthCheckError HealthWork :=
  if outcome ≠ .restartScheduled ∧ outcome ≠ .failed then .ok work
  else if !kills (serviceCgroupRootPath service cgroupGeneration) then
    .error (.boundary (serviceCgroupRootPath service cgroupGeneration))
  else match work.jobs.currentServiceMainJob service with
    | none => .error (.missingMainJob service)
    | some jobId =>
      match work.jobs.get jobId with
      | none => .error (.jobStore (.unknownJob jobId))
      | some job =>
        if job.jobType ≠ .serviceMain ∨ job.state ≠ .running then .error (.missingMainJob service)
        else do
          let (jobs, _) ← (work.jobs.failRunningJob jobId nowNs (some (.signal 9))
            "health check failed").mapError .jobStore
          return { work with jobs }

/-- What follows from the end of a check. -/
def applyEndedHealthCheck (kills : String → Bool) (ended : JobRecord)
    (cgroupGeneration observedAtNs : ℕ) : Except HealthCheckError HealthWork := do
  let out ← work.applyHealthCheckTerminalInWork ended observedAtNs
  match ended.service with
  | none => .ok out.1
  | some service =>
    out.1.terminateServiceAfterHealthEscalation kills out.2 service cgroupGeneration observedAtNs

def cgroupGenerationOf (jobId : JobId) : ℕ := (work.specs[jobId]?.map (·.cgroupGeneration)).getD 0

def finishHealthCheck (kills : String → Bool) (jobId : JobId)
    (finish : JobRecord → Except JobTransitionError JobRecord) (cgroupGeneration observedAtNs : ℕ) :
    Except HealthCheckError HealthWork := do
  let out ← (work.jobs.finishJob jobId finish).mapError .jobStore
  ({ work with jobs := out.1 } : HealthWork).applyEndedHealthCheck kills out.2 cgroupGeneration
    observedAtNs

/-- A check has exited; what it has left behind is killed. -/
def applyHealthCheckTerminalJobEvent (kills : String → Bool) (jobId : JobId)
    (finish : JobRecord → Except JobTransitionError JobRecord) (observedAtNs : ℕ) :
    Except HealthCheckError HealthWork :=
  match work.jobs.get jobId with
  | none => .error (.jobStore (.unknownJob jobId))
  | some job =>
    if !kills job.cgroupId then .error (.boundary job.cgroupId)
    else work.finishHealthCheck kills jobId finish (work.cgroupGenerationOf jobId) observedAtNs

def completeHealthCheckJob (kills : String → Bool) (jobId : JobId) (endedAtNs : ℕ) (exitCode : ℤ) :
    Except HealthCheckError HealthWork :=
  work.applyHealthCheckTerminalJobEvent kills jobId (·.complete endedAtNs exitCode) endedAtNs

def failRunningHealthCheckJob (kills : String → Bool) (jobId : JobId) (endedAtNs : ℕ)
    (exit : Option JobExit) (failureCause : String) : Except HealthCheckError HealthWork :=
  work.applyHealthCheckTerminalJobEvent kills jobId (·.failRunning endedAtNs exit failureCause) endedAtNs

/-- How a check that has timed out ends. -/
def failTimedOut (nowNs : ℕ) (job : JobRecord) : Except JobTransitionError JobRecord :=
  if job.state = .created then job.failBeforeStart nowNs "health check timed out before launch"
  else job.failRunning nowNs (some (.signal 9)) "health check timed out"

def processDueHealthCheckTimeouts (kills : String → Bool) (nowNs : ℕ) :
    Except HealthCheckError HealthWork :=
  (work.health.dueTimeoutDeadlines nowNs).foldlM (fun work deadline =>
    if !kills deadline.healthCgroupId then .error (.boundary deadline.healthCgroupId)
    else work.finishHealthCheck kills deadline.jobId (failTimedOut nowNs) deadline.cgroupGeneration
      nowNs) work

/-! ## Launching -/

/-- What becomes of a launch. -/
inductive LaunchAnswer where
  | started (pid : ℕ) (pidfd : ℤ)
  | pendingSetup (setupStatusFd : ℤ) (pid : ℕ) (pidfd : ℤ)
  | refused
  deriving DecidableEq

/-- The activation of the check is over, or its record was dropped. -/
def stalePendingHealthCheck (jobId : JobId) : Bool :=
  match work.jobs.get jobId with
  | none => true
  | some job => match job.service with
    | none => true
    | some service =>
      !(work.services.runtime service).any (·.state = .active) ||
        !(work.specs[jobId]?).any fun spec =>
          work.health.hasInvocation service spec.activationGeneration

def markHealthInvocationRunning (jobId : JobId) (launchedAtNs : ℕ) :
    Except HealthCheckError HealthWork :=
  match ((work.jobs.get jobId).bind (·.service)).bind work.services.definition with
  | none => .error (.jobStore (.unknownJob jobId))
  | some definition => .ok { work with
      health := work.health.markInvocationRunning jobId
        (deadlineNs launchedAtNs definition.healthCheckTimeoutSecs) }

/-- A check that could not be launched says nothing about the service. -/
def failLaunchedHealthCheckInWork (jobId : JobId) (failedAtNs : ℕ) :
    Except HealthCheckError HealthWork := do
  let (jobs, _) ← (work.jobs.failJobBeforeStart jobId failedAtNs "health check launch failed").mapError
    .jobStore
  return { work with jobs, health := (work.health.removeInvocation jobId).1 }

/-- Launch the check at the front. -/
def launchHealthCheckJob (answer : LaunchAnswer) (launchedAtNs : ℕ) (jobId : JobId) (job : JobRecord) :
    Except HealthCheckError HealthWork :=
  if job.jobType ≠ .healthCheck ∨ job.state ≠ .created ∨ launchedAtNs < job.createdAtNs then
    work.failLaunchedHealthCheckInWork jobId launchedAtNs
  else match answer with
    | .refused => work.failLaunchedHealthCheckInWork jobId launchedAtNs
    | .pendingSetup setupStatusFd pid pidfd => .ok { work with
        pendingProcessSetups := work.pendingProcessSetups.insert setupStatusFd
          { jobId, pid, pidfd, launchedAtNs } }
    | .started pid pidfd =>
      match work.jobs.startJob jobId pid pidfd launchedAtNs with
      | .error _ => work.failLaunchedHealthCheckInWork jobId launchedAtNs
      | .ok jobs => ({ work with jobs } : HealthWork).markHealthInvocationRunning jobId launchedAtNs

/-- The queue from the first job on that still has a record. -/
def nextLiveFront : List JobId := work.pendingHealthLaunches.dropWhile fun id => (work.jobs.get id).isNone

def launchNextPendingHealthCheckJob (answer : LaunchAnswer) (launchedAtNs : ℕ) :
    Except HealthCheckError HealthWork :=
  match work.nextLiveFront with
  | [] => .ok { work with pendingHealthLaunches := [] }
  | jobId :: rest =>
    let work := { work with pendingHealthLaunches := rest }
    if work.stalePendingHealthCheck jobId then do
      let (jobs, _) ← (work.jobs.failJobBeforeStart jobId launchedAtNs
        "health check cancelled").mapError .jobStore
      return { work with jobs }
    else match work.jobs.get jobId with
      | none => .ok work
      | some job => work.launchHealthCheckJob answer launchedAtNs jobId job

/-- The process of a check has told whether it could be set up. -/
def processPendingProcessSetupStatus (kills : String → Bool) (setupStatusFd : ℤ)
    (execSucceeded : Bool) (observedAtNs : ℕ) : Except HealthCheckError HealthWork :=
  match work.pendingProcessSetups[setupStatusFd]? with
  | none => .ok work
  | some setup =>
    let work := { work with pendingProcessSetups := work.pendingProcessSetups.erase setupStatusFd }
    match work.jobs.get setup.jobId with
    | none => .error (.jobStore (.unknownJob setup.jobId))
    | some job =>
      if job.jobType ≠ .healthCheck then .error (.notHealthCheckJob job.id job.jobType)
      else if execSucceeded then do
        let jobs ← (work.jobs.startJob setup.jobId setup.pid setup.pidfd setup.launchedAtNs).mapError
          .jobStore
        ({ work with jobs } : HealthWork).markHealthInvocationRunning setup.jobId setup.launchedAtNs
      else if !kills job.cgroupId then .error (.boundary job.cgroupId)
      else work.finishHealthCheck kills setup.jobId
        (·.failBeforeStart observedAtNs "health check launch failed")
        (work.cgroupGenerationOf setup.jobId) observedAtNs

/-! ## Internal errors -/

/-- End the job, whichever state it is in; the setup that is pending for it is dropped. -/
def retireJob (jobId : JobId) (nowNs : ℕ) (cause : String) : HealthWork :=
  match work.jobs.get jobId with
  | none => work
  | some job =>
    let work := { work with
      pendingProcessSetups := work.pendingProcessSetups.filter fun _ setup => setup.jobId ≠ jobId }
    let ended := match job.state with
      | .created => work.jobs.failJobBeforeStart jobId nowNs cause
      | _ => work.jobs.failRunningJob jobId nowNs none cause
    match ended with
    | .ok out => { work with jobs := out.1 }
    | .error _ => work

def retire (jobId : Option JobId) (nowNs : ℕ) (cause : String) : HealthWork :=
  match jobId with
  | none => work
  | some jobId => work.retireJob jobId nowNs cause

/-- Whether an internal error fails a service in this state. -/
def canFail : ServiceState → Bool
  | .starting | .active | .reloading | .stopping | .backoff => true
  | _ => false

def failService (service : String) : Option (ServiceTable × ServiceTableTransition) :=
  match work.services.runtime service with
  | none => none
  | some runtime =>
    if canFail runtime.state then
      (work.services.transitionService service ⟨.failed, .internalError⟩).toOption
    else none

/-- An internal error fails the service, and its checks are no longer scheduled. -/
def failServiceAfterInternalError (service : String) (nowNs : ℕ) : HealthWork :=
  match work.failService service with
  | none => work.cancelService service
  | some (services, transition) =>
    ({ work.cancelService service with services } : HealthWork).applyHealthSchedulingAfterTransitions
      [transition] nowNs

/-- Contain an internal error to the job and the service it is about. -/
def failAfterInternalError (jobId : Option JobId) (service : Option String) (nowNs : ℕ)
    (cause : String) : HealthWork :=
  let service := service.or ((jobId.bind work.jobs.get).bind (·.service))
  let work := work.retire jobId nowNs cause
  match service with
  | none => work
  | some service =>
    let main := (work.jobs.currentServiceMainJob service).filter fun main => some main ≠ jobId
    (work.retire main nowNs cause).failServiceAfterInternalError service nowNs

end HealthWork

end Peinit
