import Peinit.Job.Store
import Peinit.Lib.FixedWidth
import Peinit.Service.Definition

/-!
# Submitted jobs

Next to the record of its process, a submitted job has an entry that says what was asked for, whether
it is being stopped, and its outcome, which a live job has not. Submitter, identity, open descriptors,
status and progress are left out.
-/

namespace Peinit

inductive JobReadiness where
  | none | notify
  deriving DecidableEq

structure SubmittedJobDefinition where
  imagePath : String := ""
  arguments : List String := []
  environment : List ServiceEnvironmentVariable := []
  workingDirectory : String := "/"
  description : String := ""
  /-- Zero is no limit. -/
  timeoutSecs : ℕ := 0
  stopTimeoutSecs : ℕ := 10
  readiness : JobReadiness := .none
  readinessTimeoutSecs : ℕ := 30
  successExitCodes : List ℤ := []
  descriptorNames : List String := []
  output : Bool := false
  securityDescriptorSddl : Option String := none
  deriving DecidableEq

def SubmittedJobDefinition.isSuccessExitCode (definition : SubmittedJobDefinition) (code : ℤ) : Bool :=
  code = 0 || definition.successExitCodes.contains code

inductive SubmittedJobCause where
  | parentSetupFailure | preExecFailure | readinessTimeout | timeout | explicitStop | shutdown
  | processUnkillable
  deriving DecidableEq

def SubmittedJobCause.wire : SubmittedJobCause → String
  | .parentSetupFailure => "parent_setup_failure"
  | .preExecFailure => "pre_exec_failure"
  | .readinessTimeout => "readiness_timeout"
  | .timeout => "timeout"
  | .explicitStop => "explicit_stop"
  | .shutdown => "shutdown"
  | .processUnkillable => "process_unkillable"

inductive SubmittedJobStopPhase where
  | terminating | killed
  deriving DecidableEq

structure SubmittedJobStop where
  cause : SubmittedJobCause
  requestedAtNs : ℕ
  phase : SubmittedJobStopPhase
  dueAtNs : ℕ
  deriving DecidableEq

structure SubmittedJobOutcome where
  state : JobState
  pid : Option ℕ
  startedAtNs : Option ℕ
  endedAtNs : ℕ
  exitCode : Option ℤ
  exitSignal : Option ℤ
  failureCause : Option String
  retainedUntilNs : ℕ
  deriving DecidableEq

structure SubmittedJobEntry where
  jobId : JobId
  definition : SubmittedJobDefinition := {}
  /-- False while a job that is to report readiness has not. -/
  ready : Option Bool := none
  stoppingAcknowledged : Bool := false
  cause : Option SubmittedJobCause := none
  stop : Option SubmittedJobStop := none
  outcome : Option SubmittedJobOutcome := none
  cgroupId : String := ""
  cgroupCleanupDueAtNs : Option ℕ := none
  deriving DecidableEq

def SubmittedJobEntry.isLive (entry : SubmittedJobEntry) : Bool := entry.outcome.isNone

inductive SubmittedJobStoreError where
  | duplicateJobId (id : JobId)
  | unknownJob (id : JobId)
  | alreadyTerminal (id : JobId)
  | notTerminal (id : JobId)
  deriving DecidableEq

inductive SubmittedJobDeadlineKind where
  | timeout | readinessTimeout | stopKill | postKill | cgroupCleanup
  deriving DecidableEq

structure SubmittedJobDeadline where
  jobId : JobId
  kind : SubmittedJobDeadlineKind
  dueAtNs : ℕ
  deriving DecidableEq

def defaultSubmittedJobRetentionNs : ℕ := 60000000000

/-- Why a job that peinit did not end itself has ended, as its record tells. -/
def causeFromTerminalRecord (state : JobState) (failureCause : Option String) :
    Option SubmittedJobCause :=
  match state with
  | .abandoned => some .processUnkillable
  | .failed => failureCause.bind fun cause =>
    if "ParentSetupFailure".toList.isPrefixOf cause.toList then some .parentSetupFailure
    else if "PreExecFailure".toList.isPrefixOf cause.toList then some .preExecFailure
    else none
  | .created | .running | .completed => none

/-- The deadlines of an entry: a job that is being stopped has no other than that of its stop. -/
def entryDeadlines (entry : SubmittedJobEntry) (startedAtNs : Option ℕ) : List SubmittedJobDeadline :=
  (entry.cgroupCleanupDueAtNs.map (⟨entry.jobId, .cgroupCleanup, ·⟩)).toList ++
    if entry.outcome.isSome then []
    else match entry.stop, startedAtNs with
      | some stop, _ =>
        [⟨entry.jobId, match stop.phase with
          | .terminating => .stopKill
          | .killed => .postKill, stop.dueAtNs⟩]
      | none, none => []
      | none, some startedAtNs =>
        (if 0 < entry.definition.timeoutSecs then
          [⟨entry.jobId, .timeout,
            saturatingAdd startedAtNs (wrappingMul entry.definition.timeoutSecs nanosPerSec)⟩]
        else []) ++
        if entry.definition.readiness = .notify ∧ entry.ready = some false then
          [⟨entry.jobId, .readinessTimeout,
            saturatingAdd startedAtNs (wrappingMul entry.definition.readinessTimeoutSecs nanosPerSec)⟩]
        else []

structure SubmittedJobStore where
  entries : OrdMap JobId SubmittedJobEntry

namespace SubmittedJobStore

def new : SubmittedJobStore := ⟨∅⟩

variable (submitted : SubmittedJobStore)

def get (id : JobId) : Option SubmittedJobEntry := submitted.entries[id]?

def liveIds : List JobId := (submitted.entries.values.filter (·.isLive)).map (·.jobId)

def modify (id : JobId) (f : SubmittedJobEntry → SubmittedJobEntry) : SubmittedJobStore :=
  match submitted.get id with
  | none => submitted
  | some entry => ⟨submitted.entries.insert id (f entry)⟩

def recordTerminal (ended : JobRecord) (retentionNs : ℕ) :
    Except SubmittedJobStoreError SubmittedJobStore :=
  match submitted.get ended.id with
  | none => .error (.unknownJob ended.id)
  | some entry =>
    if entry.outcome.isSome then .error (.alreadyTerminal ended.id)
    else match ended.endedAtNs with
      | none => .error (.notTerminal ended.id)
      | some endedAtNs => .ok ⟨submitted.entries.insert ended.id
        { entry with
          cause := entry.cause.orElse fun _ => causeFromTerminalRecord ended.state ended.failureCause
          stop := none
          outcome := some
            { state := ended.state, pid := ended.pid, startedAtNs := ended.startedAtNs, endedAtNs,
              exitCode := ended.exitCode, exitSignal := ended.exitSignal,
              failureCause := ended.failureCause,
              retainedUntilNs := saturatingAdd endedAtNs retentionNs } }⟩

/-- A stop that is in progress is left alone. -/
def beginStop (id : JobId) (cause : SubmittedJobCause) (nowNs : ℕ) :
    Except SubmittedJobStoreError SubmittedJobStore :=
  match submitted.get id with
  | none => .error (.unknownJob id)
  | some entry =>
    if entry.outcome.isSome || entry.stop.isSome then .ok submitted
    else .ok ⟨submitted.entries.insert id
      { entry with
        cause := some cause
        stop := some
          { cause, requestedAtNs := nowNs, phase := .terminating,
            dueAtNs := saturatingAdd nowNs (wrappingMul entry.definition.stopTimeoutSecs nanosPerSec) } }⟩

def recordKill (id : JobId) (nowNs postKillTimeoutSecs : ℕ) :
    Except SubmittedJobStoreError SubmittedJobStore :=
  match submitted.get id with
  | none => .error (.unknownJob id)
  | some entry => .ok ⟨submitted.entries.insert id
    { entry with
      stop := entry.stop.map fun stop =>
        { stop with
          phase := .killed
          dueAtNs := saturatingAdd nowNs (wrappingMul postKillTimeoutSecs nanosPerSec) } }⟩

/-- The deadlines that are due, earliest first, then by job. -/
def dueDeadlines (nowNs : ℕ) (startedAtByJob : JobId → Option ℕ) : List SubmittedJobDeadline :=
  ((submitted.entries.values.flatMap fun entry => entryDeadlines entry (startedAtByJob entry.jobId))
    |>.filter (·.dueAtNs ≤ nowNs)).mergeSort fun a b =>
      a.dueAtNs < b.dueAtNs ∨ a.dueAtNs = b.dueAtNs ∧ a.jobId.uuid ≤ b.jobId.uuid

end SubmittedJobStore

end Peinit
