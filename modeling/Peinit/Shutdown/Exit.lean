import Peinit.Service.Restart
import Peinit.Shutdown.Wave

/-!
# The end of a service's job during a shutdown

Once a shutdown has begun, every child that is reaped for a service takes the service down, whichever of
its jobs it was. Outside a shutdown the job's type decides.
-/

namespace Peinit

inductive ChildExitStatus where
  | exited (code : ℤ)
  | signaled (signal : ℤ) (coreDumped : Bool)
  deriving DecidableEq

def signalFailureCause (signal : ℤ) (coreDumped : Bool) : String :=
  "ProcessCrash: signal " ++ toString signal ++ (if coreDumped then " (core dumped)" else "")

/-- The state a stopping service ends in. -/
def stoppedState : Option TransitionCause → ServiceState
  | some .conflictEviction | some .bindsToPropagation => .failed
  | _ => .inactive

def stoppedCause : Option TransitionCause → TransitionCause
  | some .conflictEviction => .conflictEviction
  | some .bindsToPropagation => .bindsToPropagation
  | some .shutdownWave => .shutdownWave
  | _ => .explicitStop

namespace ShutdownWork

variable (work : ShutdownWork)

def withoutDeadlines (shutdown : ShutdownRuntime) (service : String) : ShutdownRuntime :=
  { shutdown with
    stopDeadlines := shutdown.stopDeadlines.filter (·.service ≠ service)
    postKillDeadlines := shutdown.postKillDeadlines.filter (·.service ≠ service) }

/-- The operations whose stop timeouts go with the deadlines of `service`. -/
def timedOperations (shutdown : ShutdownRuntime) (service : String) : List OperationId :=
  (shutdown.stopDeadlines.filter (·.service = service)).filterMap (·.operationId)

def removeShutdownDeadlinesForService (service : String) : Except ShutdownError ShutdownWork :=
  match work.shutdown with
  | none => .error .noShutdownInProgress
  | some shutdown => .ok
    { work with
      shutdown := some (withoutDeadlines shutdown service)
      stopTimeouts := (timedOperations shutdown service).foldl (·.erase ·) work.stopTimeouts }

def shutdownJobSucceeded (service : String) (ended : JobRecord) : Except ShutdownError Bool :=
  match work.services.definition service with
  | none => .error (.plan (.missingDefinition service))
  | some definition => .ok (ended.exitSignal.isNone && ended.failureCause.isNone &&
    ended.exitCode.any (isSuccessExitCode definition))

def applyShutdownActiveExit (service : String) (ended : JobRecord) :
    Except ShutdownError ShutdownWork := do
  if ← work.shutdownJobSucceeded service ended then
    work.moveService service ⟨.inactive, .cleanExit⟩
  else work.moveService service ⟨.failed, .processCrash⟩

/-- The service of the job goes down, whatever the job was for it. -/
def applyShutdownJobExit (ended : JobRecord) : Except ShutdownError ShutdownWork :=
  match ended.service with
  | none => .ok work
  | some service => do
    let work ← work.removeShutdownDeadlinesForService service
    match work.services.runtime service with
    | none => return work
    | some runtime =>
      match runtime.state with
      | .active => work.applyShutdownActiveExit service ended
      | .reloading => work.moveService service ⟨.failed, .processCrash⟩
      | .starting => work.moveService service ⟨.failed, .shutdownWave⟩
      | .stopping =>
        work.moveService service ⟨stoppedState runtime.cause, stoppedCause runtime.cause⟩
      | _ => return work

def finishShutdownTerminalJob (ended : JobRecord) (endedAtNs : ℕ) :
    Except SupervisorError ShutdownWork :=
  ((work.applyShutdownJobExit ended).bind (·.advanceShutdownProgress endedAtNs)).mapError .shutdown

def ensureShutdown : Except SupervisorError Unit :=
  if work.shutdown.isSome then .ok () else .error (.shutdown .noShutdownInProgress)

/-- End a job of a service by `finish`, and the service with it. -/
def endShutdownJob (finish : JobStore → Except JobStoreError (JobStore × JobRecord)) (endedAtNs : ℕ) :
    Except SupervisorError ShutdownWork := do
  work.ensureShutdown
  let (jobs, ended) ← (finish work.jobs).mapError SupervisorError.jobStore
  { work with jobs }.finishShutdownTerminalJob ended endedAtNs

def completeShutdownJob (id : JobId) (endedAtNs : ℕ) (exitCode : ℤ) :
    Except SupervisorError ShutdownWork :=
  work.endShutdownJob (·.completeJob id endedAtNs exitCode) endedAtNs

def failRunningShutdownJob (id : JobId) (endedAtNs : ℕ) (exit : Option JobExit)
    (failureCause : String) : Except SupervisorError ShutdownWork :=
  work.endShutdownJob (·.failRunningJob id endedAtNs exit failureCause) endedAtNs

end ShutdownWork

end Peinit
