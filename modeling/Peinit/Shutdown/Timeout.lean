import Peinit.Submitted.Stop

/-!
# Shutdown timeouts

A service that does not stop in time is killed and given a last deadline, and abandoned if its cgroup
is still populated then.  The global timeout, which fires once, kills everyone the plan still has to
stop, and every live submitted job.
-/

namespace Peinit

namespace ShutdownWork

variable (work : ShutdownWork)

def shutdownGlobalTimeoutDue (nowNs : ℕ) : Bool :=
  work.shutdown.any fun shutdown => !shutdown.globalTimeoutFired &&
    shutdown.finalization = .waitingForServices && shutdown.globalDeadlineNs ≤ nowNs

def modifyShutdown (f : ShutdownRuntime → ShutdownRuntime) : ShutdownWork :=
  { work with shutdown := work.shutdown.map f }

/-- A service has one post-kill deadline at most. -/
def recordPostKillDeadline (nowNs postKillTimeoutSecs : ℕ) (service cgroupId : String) :
    Except ShutdownError ShutdownWork :=
  match work.shutdown with
  | none => .error .noShutdownInProgress
  | some shutdown => .ok
    (if shutdown.postKillDeadlines.any (·.service = service) then work
    else { work with
      shutdown := some { shutdown with
        postKillDeadlines := shutdown.postKillDeadlines ++
          [{ service, cgroupId, dueAtNs := deadlineNs nowNs postKillTimeoutSecs }] } })

/-! ## Stop deadlines -/

def processStopDeadline (nowNs postKillTimeoutSecs : ℕ) (deadline : ShutdownStopDeadline) :
    Except ShutdownError ShutdownWork :=
  { work with
    stopTimeouts := match deadline.operationId with
      | some operationId => work.stopTimeouts.erase operationId
      | none => work.stopTimeouts }.recordPostKillDeadline nowNs postKillTimeoutSecs
        deadline.service deadline.cgroupId

/-- Kill the services whose stop deadline is due, and say which. -/
def processDueStopDeadlines (nowNs postKillTimeoutSecs : ℕ) :
    Except ShutdownError (ShutdownWork × List String) :=
  match work.shutdown with
  | none => .error .noShutdownInProgress
  | some shutdown => do
    let (due, pending) := shutdown.stopDeadlines.partition (·.dueAtNs ≤ nowNs)
    let work ← due.foldlM
      (fun (work : ShutdownWork) => work.processStopDeadline nowNs postKillTimeoutSecs)
      { work with shutdown := some { shutdown with stopDeadlines := pending } }
    return (work, due.map (·.service))

/-- The participants, in whatever wave, that are in the table and not down. -/
def remainingShutdownServices : List String :=
  match work.shutdown with
  | none => []
  | some shutdown => (shutdown.plan.participants.filter fun participant =>
    (work.services.stateOf participant.service).any fun state => !serviceDoneForShutdown state).map
      (·.service)

/-- A service that was not asked to stop yet is stopping from now on. -/
def stopRunning (service : String) : Except ShutdownError ShutdownWork :=
  match work.services.stateOf service with
  | some .active | some .reloading => work.moveService service ⟨.stopping, .shutdownWave⟩
  | _ => .ok work

def killRemainingService (nowNs postKillTimeoutSecs : ℕ) (service : String) :
    Except ShutdownError ShutdownWork := do
  let cgroupId ← serviceRootCgroupId work.services service
  let work ← work.stopRunning service
  work.recordPostKillDeadline nowNs postKillTimeoutSecs service cgroupId

def killAllRemainingServices (nowNs postKillTimeoutSecs : ℕ) :
    Except ShutdownError (ShutdownWork × List String) := do
  let remaining := work.remainingShutdownServices
  let work ← remaining.foldlM
    (fun (work : ShutdownWork) => work.killRemainingService nowNs postKillTimeoutSecs)
    (work.modifyShutdown fun shutdown => { shutdown with stopDeadlines := [] })
  return (work, remaining)

/-! ## Post-kill deadlines -/

def endRunningJobs (service : String)
    (finish : JobStore → JobId → Except JobStoreError (JobStore × JobRecord)) :
    Except ShutdownError ShutdownWork := do
  let ids ← work.activeJobsInState service .running
  ids.foldlM (fun (work : ShutdownWork) id => work.finishJob (finish · id)) work

/-- The kill did not empty the cgroup: the service is abandoned, and the cgroup with it. -/
def abandonService (nowNs : ℕ) (deadline : ShutdownPostKillDeadline) :
    Except ShutdownError ShutdownWork := do
  let state := work.services.stateOf deadline.service
  let work ← work.endRunningJobs deadline.service
    (·.abandonJob · nowNs "process survived SIGKILL")
  let services ← (work.services.recordLeakedCgroup deadline.service deadline.cgroupId .serviceTree
    nowNs).mapError ShutdownError.serviceTable
  let work := { work with services }
  if state = some .abandoned then return work
  else work.moveService deadline.service ⟨.abandoned, .processUnkillable⟩

/-- The kill emptied the cgroup, though no exit was seen. -/
def settleKilledService (nowNs : ℕ) (deadline : ShutdownPostKillDeadline) :
    Except ShutdownError ShutdownWork := do
  let state := work.services.stateOf deadline.service
  let work ← work.endRunningJobs deadline.service
    (·.failRunningJob · nowNs none "service cgroup emptied after SIGKILL before exit status was observed")
  if state = some .stopping then
    let cause := (work.services.runtime deadline.service).bind (·.cause)
    work.moveService deadline.service ⟨stoppedState cause, stoppedCause cause⟩
  else return work

def processPostKillDeadline (answers : ProcessAnswers) (nowNs : ℕ)
    (deadline : ShutdownPostKillDeadline) : Except ShutdownError ShutdownWork :=
  if answers.cgroupPopulated deadline.cgroupId then work.abandonService nowNs deadline
  else work.settleKilledService nowNs deadline

/-- Look at the services whose post-kill deadline is due, and say how many there were. -/
def processDuePostKillDeadlines (answers : ProcessAnswers) (nowNs : ℕ) :
    Except ShutdownError (ShutdownWork × ℕ) :=
  match work.shutdown with
  | none => .error .noShutdownInProgress
  | some shutdown => do
    let (due, pending) := shutdown.postKillDeadlines.partition (·.dueAtNs ≤ nowNs)
    let work ← due.foldlM
      (fun (work : ShutdownWork) => work.processPostKillDeadline answers nowNs)
      { work with shutdown := some { shutdown with postKillDeadlines := pending } }
    return (work, due.length)

/-! ## All of them -/

def fireGlobalTimeout (settings : ShutdownSettings) (nowNs : ℕ) :
    Except SupervisorError (ShutdownWork × List String) := do
  let work := work.modifyShutdown fun shutdown => { shutdown with globalTimeoutFired := true }
  let work ← work.killAllLiveSubmittedJobs nowNs settings.postKillTimeoutSecs
  (work.killAllRemainingServices nowNs settings.postKillTimeoutSecs).mapError .shutdown

/-- Act on a due deadline of a submitted job; the flag says that something came of one so far. -/
def actOnSubmittedDeadline (answers : ProcessAnswers) (nowNs postKillTimeoutSecs : ℕ)
    (state : ShutdownWork × Bool) (deadline : SubmittedJobDeadline) :
    Except SupervisorError (ShutdownWork × Bool) := do
  let (work, acted) ← state.1.processSubmittedDeadline answers deadline.jobId deadline.kind nowNs
    postKillTimeoutSecs
  return (work, state.2 || acted)

def timeoutReason (globalTimeout : Bool) : String :=
  if globalTimeout then "shutdown global timeout" else "operation_timeout: StopTimeout expired"

/-- Kill whom the global timeout or a stop deadline says to, and say whom. -/
def killDueServices (settings : ShutdownSettings) (nowNs : ℕ) :
    Except SupervisorError (ShutdownWork × List String) :=
  if work.shutdownGlobalTimeoutDue nowNs then work.fireGlobalTimeout settings nowNs
  else (work.processDueStopDeadlines nowNs settings.postKillTimeoutSecs).mapError .shutdown

/-- Everything that is due at `nowNs`; the work is kept only if something was. -/
def processDueShutdownTimeouts (settings : ShutdownSettings) (answers : ProcessAnswers) (nowNs : ℕ) :
    Except SupervisorError ShutdownWork := do
  work.ensureShutdown
  let globalTimeout := work.shutdownGlobalTimeoutDue nowNs
  let (next, kills) ← work.killDueServices settings nowNs
  let next ← (kills.foldlM
    (fun (work : ShutdownWork) => work.failStop nowNs (timeoutReason globalTimeout)) next).mapError
      SupervisorError.shutdown
  let (next, processed) ← (next.processDuePostKillDeadlines answers nowNs).mapError
    SupervisorError.shutdown
  let (next, submitted) ← (work.dueSubmittedJobDeadlines nowNs).foldlM
    (actOnSubmittedDeadline answers nowNs settings.postKillTimeoutSecs) (next, false)
  if kills = [] ∧ submitted = false ∧ globalTimeout = false ∧ processed = 0 then return work
  else (next.advanceShutdownProgress nowNs).mapError .shutdown

end ShutdownWork

end Peinit
