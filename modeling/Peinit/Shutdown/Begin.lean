import Peinit.Shutdown.Timeout

/-!
# Beginning a shutdown

What has completed is cleared, what is starting is killed, the first wave is asked to stop, and so is
every submitted job.
-/

namespace Peinit

namespace ShutdownWork

variable (work : ShutdownWork)

def clearCompletedServices (plan : ShutdownPlan) : Except ShutdownError ShutdownWork :=
  plan.completedToClear.foldlM
    (fun (work : ShutdownWork) service => work.moveService service ⟨.inactive, .shutdownWave⟩) work

/-- The operation that a service is being started by fails. -/
def failStartingOperation (nowNs : ℕ) (service : String) : Except ShutdownError ShutdownWork :=
  match work.operations.currentForService service with
  | some operation =>
    work.onOperations (OperationStore.failOperation operation.id nowNs "startup killed by shutdown")
  | none => .ok work

/-- Jobs that have not started never will; their setups go with them. -/
def failUnforkedStartupJobs (nowNs : ℕ) (service : String) : Except ShutdownError ShutdownWork := do
  let created ← work.activeJobsInState service .created
  let work := { work with
    pendingProcessSetups := work.pendingProcessSetups.filter fun _ setup =>
      !created.contains setup.jobId }
  created.foldlM (fun (work : ShutdownWork) id => work.finishJob
    (·.failJobBeforeStart id nowNs "startup cancelled by shutdown")) work

/-- Kill a starting service.  A process that it has keeps a post-kill deadline under its name, while
the move to failed may discard its entry. -/
def killStartingService (nowNs postKillTimeoutSecs : ℕ)
    (state : ShutdownWork × List ShutdownPostKillDeadline) (service : String) :
    Except ShutdownError (ShutdownWork × List ShutdownPostKillDeadline) := do
  let work ← state.1.failStartingOperation nowNs service
  let work ← work.failUnforkedStartupJobs nowNs service
  let running ← work.activeJobsInState service .running
  let cgroupId ← serviceRootCgroupId work.services service
  let deadlines := if running.isEmpty then state.2
    else state.2 ++ [{ service, cgroupId, dueAtNs := deadlineNs nowNs postKillTimeoutSecs }]
  let work ← work.moveService service ⟨.failed, .shutdownWave⟩
  return (work, deadlines)

def killStartingServices (plan : ShutdownPlan) (nowNs postKillTimeoutSecs : ℕ) :
    Except ShutdownError (ShutdownWork × List ShutdownPostKillDeadline) :=
  plan.startingToKill.foldlM (killStartingService nowNs postKillTimeoutSecs) (work, [])

def beginShutdown (settings : ShutdownSettings) (answers : ProcessAnswers) (kind : ShutdownKind)
    (nowNs : ℕ) : Except SupervisorError ShutdownWork :=
  match work.shutdown with
  | some shutdown => .error (.shutdown (.alreadyInProgress shutdown.kind))
  | none => do
    let plan ← ((planGracefulShutdown work.services).mapError ShutdownError.plan).mapError
      SupervisorError.shutdown
    let work ← work.requestStops plan nowNs
    let work ← (work.clearCompletedServices plan).mapError SupervisorError.shutdown
    let (work, postKillDeadlines) ←
      (work.killStartingServices plan nowNs settings.postKillTimeoutSecs).mapError
        SupervisorError.shutdown
    let (work, stopDeadlines) ← (work.beginStopWave plan 0 nowNs []).mapError
      SupervisorError.shutdown
    let work ← work.stopSubmittedJobsForShutdown answers nowNs settings.postKillTimeoutSecs
    let finalization : ShutdownFinalizationState :=
      if plan.stopWaves.isEmpty && postKillDeadlines.isEmpty && !work.liveSubmittedJobsRemain
      then .ready else .waitingForServices
    return { work with
      shutdown := some
        { kind, initiatedAtNs := nowNs,
          globalDeadlineNs := deadlineNs nowNs settings.globalTimeoutSecs
          globalTimeoutFired := false, plan, currentWave := 0, stopDeadlines, postKillDeadlines
          finalization } }

end ShutdownWork

end Peinit
