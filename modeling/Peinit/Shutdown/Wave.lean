import Peinit.Shutdown.Work

/-!
# Stopping a wave

Each participant of a wave that is not down is asked to stop and given a deadline.  One that was
already stopping keeps the deadline of that stop, or is due at once if none is recorded.  When everyone
in a wave is down, the next wave that has anything to stop is begun.
-/

namespace Peinit

def serviceDoneForShutdown : ServiceState → Bool
  | .inactive | .failed | .abandoned | .skipped => true
  | _ => false

def serviceRootCgroupId (services : ServiceTable) (service : String) : Except ShutdownError String :=
  match services.runtime service with
  | none => .error (.plan (.missingRuntime service))
  | some runtime => .ok (serviceCgroupRootPath service runtime.cgroupGeneration)

structure ProcessTarget where
  service : String
  pid : ℕ
  pidfd : ℤ
  cgroupId : String
  deriving DecidableEq

def processTarget (jobs : JobStore) (service : String) : Except ShutdownError ProcessTarget :=
  match jobs.currentServiceMainJob service with
  | none => .error (.missingRunningService service)
  | some id => match jobs.get id with
    | none => .error (.missingJobRecord id)
    | some job =>
      if job.state ≠ .running then .error (.jobNotRunning id)
      else match job.pid, job.pidfd with
        | some pid, some pidfd => .ok { service, pid, pidfd, cgroupId := job.cgroupId }
        | _, _ => .error (.missingProcessHandle id)

def retainedStopCause : TransitionCause → Bool
  | .explicitStop | .shutdownWave | .conflictEviction | .bindsToPropagation => true
  | _ => false

namespace ShutdownWork

variable (work : ShutdownWork)

def participantDone (service : String) : Bool :=
  (work.services.stateOf service).all serviceDoneForShutdown

/-- The deadline of a stop that was in progress before the shutdown, and why it had to be made up if
it was. -/
def retainedStopDeadline (service : String) (wave nowNs : ℕ) :
    Except ShutdownError (ShutdownStopDeadline × Option String) := do
  let cgroupId ← serviceRootCgroupId work.services service
  let substitute (reason : String) : ShutdownStopDeadline × Option String :=
    ({ service, cgroupId, startedAtNs := nowNs, dueAtNs := nowNs, wave, operationId := none },
      some reason)
  let inFlight := (work.operations.currentForService service).filter fun operation =>
    operation.state = .running ∧ (operation.operationType = .stop ∨ operation.operationType = .restart)
  match inFlight with
  | some operation =>
    match work.stopTimeouts[operation.id]?, operation.startedAtNs with
    | none, _ => return substitute "no retained timeout for the in-flight stop operation"
    | some _, none => return substitute "the in-flight stop operation records no start time"
    | some dueAtNs, some startedAtNs =>
      return ({ service, cgroupId, startedAtNs, dueAtNs, wave, operationId := some operation.id },
        none)
  | none =>
    match work.services.runtime service with
    | none => .error (.plan (.missingRuntime service))
    | some runtime =>
      match runtime.stoppingTimeout with
      | none => return substitute "no retained stopping timeout"
      | some retained =>
        if runtime.state ≠ .stopping then
          return substitute "retained timeout but the service is not Stopping"
        else if runtime.cause ≠ some retained.cause then
          return substitute "retained timeout's cause does not match the service's"
        else if !retainedStopCause retained.cause then
          return substitute "retained timeout's cause is not a stop cause"
        else if retained.dueAtNs < retained.startedAtNs then
          return substitute "retained timeout is due before it started"
        else
          return ({ service, cgroupId, startedAtNs := retained.startedAtNs,
                    dueAtNs := retained.dueAtNs, wave, operationId := none }, none)

def stopDeadlineNs (services : ServiceTable) (service : String) (startedAtNs : ℕ) :
    Except ShutdownError ℕ :=
  match services.definition service with
  | none => .error (.plan (.missingDefinition service))
  | some definition => .ok (deadlineNs startedAtNs definition.stopTimeoutSecs)

/-- Note that the stop of a participant begins. -/
def signal (wave : ℕ) (service : String) : ShutdownWork :=
  { work with signals := work.signals ++ [⟨wave, service, work.services⟩] }

/-- Take over the stop of a participant that was already stopping. -/
def retainStop (wave nowNs : ℕ) (service : String) :
    Except ShutdownError (ShutdownWork × ShutdownStopDeadline) := do
  let (deadline, _) ← work.retainedStopDeadline service wave nowNs
  let work ← (work.signal wave service).startStop service nowNs
  return (work, deadline)

/-- Ask a running participant to stop. -/
def requestStop (wave nowNs : ℕ) (service : String) :
    Except ShutdownError (ShutdownWork × ShutdownStopDeadline) := do
  let _ ← processTarget work.jobs service
  let work := work.signal wave service
  let work ← work.moveService service ⟨.stopping, .shutdownWave⟩
  let dueAtNs ← stopDeadlineNs work.services service nowNs
  let services ← (work.services.recordStoppingTimeout service
    { startedAtNs := nowNs, dueAtNs, cause := .shutdownWave }).mapError ShutdownError.serviceTable
  let work ← { work with services }.startStop service nowNs
  let cgroupId ← serviceRootCgroupId work.services service
  return (work, { service, cgroupId, startedAtNs := nowNs, dueAtNs, wave,
                  operationId := work.activeStop service })

def beginParticipantStop (wave nowNs : ℕ) (participant : ShutdownStopParticipant) :
    Except ShutdownError (ShutdownWork × ShutdownStopDeadline) :=
  if participant.alreadyStopping then work.retainStop wave nowNs participant.service
  else work.requestStop wave nowNs participant.service

/-- A participant that is down is passed over. -/
def stopParticipant (wave nowNs : ℕ) (state : ShutdownWork × List ShutdownStopDeadline)
    (participant : ShutdownStopParticipant) :
    Except ShutdownError (ShutdownWork × List ShutdownStopDeadline) :=
  if state.1.participantDone participant.service then .ok state
  else do
    let (work, deadline) ← state.1.beginParticipantStop wave nowNs participant
    return (work, state.2 ++ [deadline])

def beginStopWave (plan : ShutdownPlan) (wave nowNs : ℕ) (stopDeadlines : List ShutdownStopDeadline) :
    Except ShutdownError (ShutdownWork × List ShutdownStopDeadline) :=
  match plan.stopWaves[wave]? with
  | none => .ok (work, stopDeadlines)
  | some participants => participants.services.foldlM (stopParticipant wave nowNs) (work, stopDeadlines)

/-! ## Progress -/

def liveSubmittedJobsRemain : Bool := !work.submitted.liveIds.isEmpty

/-- Nothing is pending that the shutdown would have to wait for after its last wave. -/
def nothingPending (shutdown : ShutdownRuntime) : Bool :=
  shutdown.stopDeadlines.isEmpty && shutdown.postKillDeadlines.isEmpty && !work.liveSubmittedJobsRemain

def waveComplete (shutdown : ShutdownRuntime) (wave : ℕ) : Bool :=
  match shutdown.plan.stopWaves[wave]? with
  | none => work.nothingPending shutdown
  | some participants => participants.services.all fun participant =>
    work.participantDone participant.service

/-- Begin the waves whose turn it is.  Every round goes on to a later wave, so the number of waves and
one more is enough fuel. -/
def advanceWaves (nowNs : ℕ) : ℕ → ShutdownWork → ShutdownRuntime →
    Except ShutdownError (ShutdownWork × ShutdownRuntime)
  | 0, work, shutdown => .ok (work, shutdown)
  | fuel + 1, work, shutdown =>
    if !work.waveComplete shutdown shutdown.currentWave then .ok (work, shutdown)
    else
      let next := shutdown.currentWave + 1
      if shutdown.plan.stopWaves.length ≤ next then
        -- only a shutdown that still waits for its services becomes ready
        .ok (work, if work.nothingPending shutdown ∧ shutdown.finalization = .waitingForServices
          then { shutdown with finalization := .ready } else shutdown)
      else
        let shutdown := { shutdown with currentWave := next }
        if work.waveComplete shutdown next then advanceWaves nowNs fuel work shutdown
        else do
          let (work, stopDeadlines) ←
            work.beginStopWave shutdown.plan next nowNs shutdown.stopDeadlines
          advanceWaves nowNs fuel work { shutdown with stopDeadlines }

def advanceShutdownProgress (nowNs : ℕ) : Except ShutdownError ShutdownWork := do
  let work ← work.settleStopped nowNs
  match work.shutdown with
  | none => .error .noShutdownInProgress
  | some shutdown =>
    let (work, shutdown) ←
      advanceWaves nowNs (shutdown.plan.stopWaves.length + 1) work shutdown
    return { work with shutdown := some shutdown }

end ShutdownWork

end Peinit
