import Peinit.Shutdown.Exit

/-!
# Stopping submitted jobs

When a shutdown begins, every live submitted job is stopped, in no order; the shutdown is not over
while one of them is live.  A job that was not launched yet ends at once.
-/

namespace Peinit

namespace ShutdownWork

variable (work : ShutdownWork)

def onSubmitted (m : SubmittedJobStore → Except SubmittedJobStoreError SubmittedJobStore) :
    Except SupervisorError ShutdownWork :=
  match m work.submitted with
  | .ok submitted => .ok { work with submitted }
  | .error e => .error (.submitted e)

/-- Remove the cgroup of a job that has ended; a busy one is tried once more later. -/
def releaseJobCgroup (answers : ProcessAnswers) (id : JobId) (cgroupId : String)
    (nowNs postKillTimeoutSecs : ℕ) : ShutdownWork :=
  { work with
    submitted := work.submitted.modify id fun entry =>
      { entry with
        cgroupCleanupDueAtNs := if answers.cgroupBusy cgroupId
          then some (deadlineNs nowNs postKillTimeoutSecs) else none } }

/-- A submitted job that never ran has ended. -/
def applySubmittedSetupFailure (answers : ProcessAnswers) (id : JobId) (failedAtNs : ℕ)
    (cause : SubmittedJobCause) (failureCause : String) (postKillTimeoutSecs : ℕ) :
    Except SupervisorError ShutdownWork := do
  let work := { work with
    submitted := work.submitted.modify id fun entry => { entry with cause := some cause } }
  let (jobs, ended) ← (work.jobs.failJobBeforeStart id failedAtNs failureCause).mapError
    SupervisorError.jobStore
  let work ← { work with jobs }.onSubmitted
    (·.recordTerminal ended defaultSubmittedJobRetentionNs)
  let cgroupId := ((work.submitted.get id).map (·.cgroupId)).getD ""
  return work.releaseJobCgroup answers id cgroupId failedAtNs postKillTimeoutSecs

/-- Begin to stop a submitted job; the flag says that a stop is in progress now. -/
def beginSubmittedStop (answers : ProcessAnswers) (id : JobId) (cause : SubmittedJobCause)
    (nowNs postKillTimeoutSecs : ℕ) : Except SupervisorError (ShutdownWork × Bool) :=
  match work.submitted.get id, work.jobs.get id with
  | none, _ | some _, none => .ok (work, false)
  | some entry, some record =>
    if entry.outcome.isSome || entry.stop.isSome then .ok (work, false)
    else if record.state = .created then
      if id ∈ work.pendingSubmittedLaunches then do
        let work := { work with pendingSubmittedLaunches := work.pendingSubmittedLaunches.erase id }
        let work ← work.applySubmittedSetupFailure answers id nowNs cause
          (cause.wire ++ ": stopped before launch") postKillTimeoutSecs
        return (work, false)
      else do
        let work ← work.onSubmitted (·.beginStop id cause nowNs)
        return (work, true)
    else do
      let work ← work.onSubmitted (·.beginStop id cause nowNs)
      -- the signal needs a target, unless the job has said that it is going down
      if !entry.stoppingAcknowledged && (record.pid.isNone || record.pidfd.isNone) then
        .error (.submitted (.notTerminal record.id))
      else return (work, true)

def stopSubmittedJobsForShutdown (answers : ProcessAnswers) (nowNs postKillTimeoutSecs : ℕ) :
    Except SupervisorError ShutdownWork :=
  work.submitted.liveIds.foldlM (fun (work : ShutdownWork) id => do
    let (work, _) ← work.beginSubmittedStop answers id .shutdown nowNs postKillTimeoutSecs
    return work) work

/-- Make sure that a job is being stopped. -/
def ensureStopBegun (nowNs : ℕ) (id : JobId) (entry : SubmittedJobEntry) :
    Except SupervisorError ShutdownWork :=
  if entry.stop.isNone then work.onSubmitted (·.beginStop id .shutdown nowNs) else .ok work

/-- Kill one live job, whatever phase its stop was in. -/
def killLiveSubmittedJob (nowNs postKillTimeoutSecs : ℕ) (id : JobId) :
    Except SupervisorError ShutdownWork :=
  match work.submitted.get id with
  | none => .ok work
  | some entry => do
    let work ← work.ensureStopBegun nowNs id entry
    work.onSubmitted (·.recordKill id nowNs postKillTimeoutSecs)

def killAllLiveSubmittedJobs (nowNs postKillTimeoutSecs : ℕ) : Except SupervisorError ShutdownWork :=
  work.submitted.liveIds.foldlM
    (fun (work : ShutdownWork) => work.killLiveSubmittedJob nowNs postKillTimeoutSecs) work

/-! ## Deadlines -/

/-- Act on the post-kill deadline of a job; the flag says that something came of it. -/
def processSubmittedPostKill (answers : ProcessAnswers) (id : JobId) (cgroupId : String)
    (nowNs postKillTimeoutSecs : ℕ) : Except SupervisorError (ShutdownWork × Bool) :=
  if !(work.jobs.get id).any fun record => record.state = .running then .ok (work, false)
  else if answers.cgroupPopulated cgroupId then do
    let work := { work with
      submitted := work.submitted.modify id fun entry =>
        { entry with cause := some .processUnkillable } }
    let (jobs, ended) ← (work.jobs.abandonJob id nowNs "process survived SIGKILL").mapError
      SupervisorError.jobStore
    let work ← { work with jobs }.onSubmitted
      (·.recordTerminal ended defaultSubmittedJobRetentionNs)
    return (work, true)
  else do
    -- empty but not reaped yet: look again after another grace
    let work ← work.onSubmitted (·.recordKill id nowNs postKillTimeoutSecs)
    return (work, false)

/-- Act on a deadline of a submitted job; the flag says that something came of it. -/
def processSubmittedDeadline (answers : ProcessAnswers) (id : JobId) (kind : SubmittedJobDeadlineKind)
    (nowNs postKillTimeoutSecs : ℕ) : Except SupervisorError (ShutdownWork × Bool) :=
  match kind with
  | .timeout => work.beginSubmittedStop answers id .timeout nowNs postKillTimeoutSecs
  | .readinessTimeout =>
    work.beginSubmittedStop answers id .readinessTimeout nowNs postKillTimeoutSecs
  | .stopKill =>
    match work.submitted.get id with
    | none => .ok (work, false)
    | some _ => do
      let work ← work.onSubmitted (·.recordKill id nowNs postKillTimeoutSecs)
      return (work, true)
  | .postKill =>
    match work.submitted.get id with
    | none => .ok (work, false)
    | some entry =>
      work.processSubmittedPostKill answers id entry.cgroupId nowNs postKillTimeoutSecs
  | .cgroupCleanup =>
    match work.submitted.get id with
    | none => .ok (work, false)
    | some _ => .ok
      ({ work with
          submitted := work.submitted.modify id fun entry =>
            { entry with cgroupCleanupDueAtNs := none } }, true)

def dueSubmittedJobDeadlines (nowNs : ℕ) : List SubmittedJobDeadline :=
  work.submitted.dueDeadlines nowNs fun id => (work.jobs.get id).bind (·.startedAtNs)

/-! ## The end of a submitted job -/

/-- End the record of a job whose process was reaped; the job's own definition says what success is. -/
def endSubmittedJob (id : JobId) (status : ChildExitStatus) (endedAtNs : ℕ) :
    Except JobStoreError (JobStore × JobRecord) :=
  match status with
  | .exited code =>
    if (work.submitted.get id).any (·.definition.isSuccessExitCode code) then
      work.jobs.completeJob id endedAtNs code
    else work.jobs.failRunningJob id endedAtNs (some (.exitCode code))
      ("ProcessExit: code " ++ toString code)
  | .signaled signal coreDumped =>
    work.jobs.failRunningJob id endedAtNs (some (.signal signal)) (signalFailureCause signal coreDumped)

/-- The process of a submitted job was reaped. -/
def applySubmittedTerminal (answers : ProcessAnswers) (id : JobId) (status : ChildExitStatus)
    (endedAtNs postKillTimeoutSecs : ℕ) : Except SupervisorError ShutdownWork := do
  let (jobs, ended) ← (work.endSubmittedJob id status endedAtNs).mapError SupervisorError.jobStore
  match work.submitted.get id with
  | none => .error (.submitted (.unknownJob id))
  | some entry =>
    let work ← { work with jobs }.onSubmitted
      (·.recordTerminal ended defaultSubmittedJobRetentionNs)
    return work.releaseJobCgroup answers id entry.cgroupId endedAtNs postKillTimeoutSecs

end ShutdownWork

end Peinit
