import Peinit.Lib.Run
import Peinit.Shutdown.Begin

/-!
# Steps of a shutdown

A shutdown goes on with the children that are reaped, the timeouts that fall due, what becomes of the
submitted jobs that are being set up, and the notifications that move a stop deadline. A step is a
transaction, or two in a row: a submitted job's end is kept even if the shutdown cannot go on after it.
-/

namespace Peinit

open Fallible

namespace ShutdownWork

abbrev Transaction : Type := Fallible ShutdownWork SupervisorError Unit

/-- Work on a copy, and keep it if it came to an end. -/
def transaction (f : ShutdownWork → Except SupervisorError ShutdownWork) : Transaction where
  run work := match f work with
    | .ok next => (.ok (), next)
    | .error e => (.error e, work)

def reapServiceJob (work : ShutdownWork) (id : JobId) (status : ChildExitStatus) (endedAtNs : ℕ) :
    Except SupervisorError ShutdownWork :=
  match status with
  | .exited code => work.completeShutdownJob id endedAtNs code
  | .signaled signal coreDumped =>
    work.failRunningShutdownJob id endedAtNs (some (.signal signal))
      (signalFailureCause signal coreDumped)

/-- A child was reaped while a shutdown is in progress.  A pid that no job carries is kept for the job
that is being set up under it, or forgotten. -/
def applyReapedChild (settings : ShutdownSettings) (answers : ProcessAnswers) (pid : ℕ)
    (status : ChildExitStatus) (endedAtNs : ℕ) : Transaction := do
  let work ← fetch
  match work.jobs.activeJobByPid pid with
  | none => pure ()
  | some id => match work.jobs.get id with
    | none => raise (.jobStore (.unknownJob id))
    | some job =>
      if job.jobType = .submitted then do
        transaction (·.applySubmittedTerminal answers id status endedAtNs settings.postKillTimeoutSecs)
        transaction fun work => (work.advanceShutdownProgress endedAtNs).mapError .shutdown
      else transaction (·.reapServiceJob id status endedAtNs)

/-- The process of a submitted job was set up. -/
def submittedSetupSucceeded (work : ShutdownWork) (setupStatusFd : ℤ) :
    Except SupervisorError ShutdownWork :=
  match work.pendingProcessSetups[setupStatusFd]? with
  | none => .ok work
  | some setup =>
    match work.jobs.startJob setup.jobId setup.pid setup.pidfd setup.launchedAtNs,
      work.submitted.get setup.jobId with
    | .error e, _ => .error (.jobStore e)
    | .ok _, none => .error (.submitted (.unknownJob setup.jobId))
    | .ok jobs, some _ => .ok { work with
      jobs, pendingProcessSetups := work.pendingProcessSetups.erase setupStatusFd }

/-- The process of a submitted job could not be set up.  The job has ended, and the shutdown is not
asked whether it can go on. -/
def submittedSetupFailed (work : ShutdownWork) (settings : ShutdownSettings) (answers : ProcessAnswers)
    (setupStatusFd : ℤ) (error : String) (observedAtNs : ℕ) : Except SupervisorError ShutdownWork :=
  match work.pendingProcessSetups[setupStatusFd]? with
  | none => .ok work
  | some setup =>
    { work with pendingProcessSetups := work.pendingProcessSetups.erase setupStatusFd
        }.applySubmittedSetupFailure answers setup.jobId observedAtNs .preExecFailure
          ("PreExecFailure: " ++ error) settings.postKillTimeoutSecs

/-- Move the first stop deadline of `service`. -/
def extendFirst (service : String) (dueAtNs : ℕ) :
    List ShutdownStopDeadline → List ShutdownStopDeadline
  | [] => []
  | deadline :: deadlines =>
    if deadline.service = service then { deadline with dueAtNs } :: deadlines
    else deadline :: extendFirst service dueAtNs deadlines

def extendStopDeadline (work : ShutdownWork) (service : String) (dueAtNs : ℕ) : ShutdownWork :=
  work.modifyShutdown fun shutdown =>
    { shutdown with stopDeadlines := extendFirst service dueAtNs shutdown.stopDeadlines }

/-! ## The final action

When a shutdown is ready the machine is brought down; if that fails it is tried again, a second later
at the earliest.  What is done before, the random seed, the mounts and the sync, decides nothing about
it and is left out. -/

variable (work : ShutdownWork)

def finalActionRetryIntervalNs : ℕ := 1000000000

/-- The final action returns only if it failed, or if nothing was to be done. -/
def finalizationAfterRebootResult (failure : Option String) (attemptedAtNs : ℕ) :
    ShutdownFinalizationState :=
  match failure with
  | none => .completed
  | some message => .failed message (saturatingAdd attemptedAtNs finalActionRetryIntervalNs)

def timeAfterAttempt (afterNs : Option ℕ) (nowNs : ℕ) : ℕ := (afterNs.map (max · nowNs)).getD nowNs

def shutdownFinalizationDue (nowNs : ℕ) : Bool :=
  work.shutdown.any fun shutdown => match shutdown.finalization with
    | .ready => true
    | .failed _ nextRetryAtNs => nextRetryAtNs ≤ nowNs
    | _ => false

/-- Run the final action if it is due; `failure` and `afterNs` are what came of it. -/
def finalizeDueShutdown (failure : Option String) (afterNs : Option ℕ) (nowNs : ℕ) : ShutdownWork :=
  if work.shutdownFinalizationDue nowNs then
    work.modifyShutdown fun shutdown => { shutdown with
      finalization := finalizationAfterRebootResult failure (timeAfterAttempt afterNs nowNs) }
  else work

end ShutdownWork

/-! ## Steps -/

/-- What can happen to a shutdown in progress. -/
inductive ShutdownEvent where
  | reaped (pid : ℕ) (status : ChildExitStatus)
  | timeouts
  | submittedSetupSucceeded (setupStatusFd : ℤ)
  | submittedSetupFailed (setupStatusFd : ℤ) (error : String)
  | stopExtended (service : String) (dueAtNs : ℕ)
  | finalAction (failure : Option String) (afterNs : Option ℕ)
  deriving DecidableEq

structure ShutdownStep where
  nowNs : ℕ
  answers : ProcessAnswers
  event : ShutdownEvent

namespace ShutdownStep

open ShutdownWork

def run (settings : ShutdownSettings) (step : ShutdownStep) : Transaction :=
  match step.event with
  | .reaped pid status => applyReapedChild settings step.answers pid status step.nowNs
  | .timeouts => transaction (·.processDueShutdownTimeouts settings step.answers step.nowNs)
  | .submittedSetupSucceeded setupStatusFd => transaction (·.submittedSetupSucceeded setupStatusFd)
  | .submittedSetupFailed setupStatusFd error =>
    transaction (·.submittedSetupFailed settings step.answers setupStatusFd error step.nowNs)
  | .stopExtended service dueAtNs => update (·.extendStopDeadline service dueAtNs)
  | .finalAction failure afterNs => update (·.finalizeDueShutdown failure afterNs step.nowNs)

def perform (settings : ShutdownSettings) (work : ShutdownWork) (step : ShutdownStep) : ShutdownWork :=
  ((step.run settings).run work).2

end ShutdownStep

end Peinit
