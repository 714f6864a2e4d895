import Peinit.Ids

/-!
# Jobs

A job is one process that was or is to be started for a service, or for a submitter. The store keeps
the records of the jobs that have not ended, and for each service the list of its own. The descriptor
of a process is the store's from the job's start, and is handed back for closing after its end.
Identity, command line and limits are left out.
-/

namespace Peinit

inductive JobType where
  | serviceMain | preExecHook | postExecHook | reloadHook | healthCheck | submitted
  deriving DecidableEq

inductive JobState where
  | created | running | completed | failed | abandoned
  deriving DecidableEq

inductive JobExit where
  | exitCode (code : ℤ)
  | signal (signal : ℤ)
  deriving DecidableEq

structure JobRecord where
  id : JobId
  service : Option String
  jobType : JobType
  state : JobState := .created
  pid : Option ℕ := none
  pidfd : Option ℤ := none
  createdAtNs : ℕ
  startedAtNs : Option ℕ := none
  endedAtNs : Option ℕ := none
  exitCode : Option ℤ := none
  exitSignal : Option ℤ := none
  failureCause : Option String := none
  cgroupId : String := ""
  tokenSummary : TokenSummary := ⟨"", "", [], [], []⟩
  deriving DecidableEq

inductive JobTransitionAction where
  | start | complete | failBeforeStart | failRunning | abandon
  deriving DecidableEq

inductive JobTransitionError where
  | invalidTransition (id : JobId) (origin : JobState) (action : JobTransitionAction)
  | startBeforeCreation (id : JobId) (createdAtNs startedAtNs : ℕ)
  | endBeforeCreation (id : JobId) (createdAtNs endedAtNs : ℕ)
  | endBeforeStart (id : JobId) (startedAtNs endedAtNs : ℕ)
  deriving DecidableEq

inductive JobStoreError where
  | duplicateJobId (id : JobId)
  | unknownJob (id : JobId)
  | invalidInitialState (id : JobId) (state : JobState)
  | serviceMainAlreadyActive (service : String) (activeJobId : JobId)
  | invalidEventRecord (id : JobId) (state : JobState) (reason : String)
  | transition (error : JobTransitionError)
  deriving DecidableEq

namespace JobRecord

variable (job : JobRecord)

def start (pid : ℕ) (pidfd : ℤ) (startedAtNs : ℕ) : Except JobTransitionError JobRecord :=
  if job.state ≠ .created then .error (.invalidTransition job.id job.state .start)
  else if startedAtNs < job.createdAtNs then
    .error (.startBeforeCreation job.id job.createdAtNs startedAtNs)
  else .ok { job with
    state := .running, pid := some pid, pidfd := some pidfd, startedAtNs := some startedAtNs }

/-- End the job, which has to be in `expected`, in the state and with the result that `finished` gives
it. -/
def finish (expected : JobState) (action : JobTransitionAction) (endedAtNs : ℕ)
    (finished : JobRecord → JobRecord) : Except JobTransitionError JobRecord :=
  if job.state ≠ expected then .error (.invalidTransition job.id job.state action)
  else if endedAtNs < job.createdAtNs then
    .error (.endBeforeCreation job.id job.createdAtNs endedAtNs)
  else match job.startedAtNs with
    | some startedAtNs =>
      if endedAtNs < startedAtNs then .error (.endBeforeStart job.id startedAtNs endedAtNs)
      else .ok (finished { job with endedAtNs := some endedAtNs })
    | none => .ok (finished { job with endedAtNs := some endedAtNs })

def complete (endedAtNs : ℕ) (exitCode : ℤ) : Except JobTransitionError JobRecord :=
  job.finish .running .complete endedAtNs fun job =>
    { job with state := .completed, exitCode := some exitCode }

def failBeforeStart (endedAtNs : ℕ) (failureCause : String) : Except JobTransitionError JobRecord :=
  job.finish .created .failBeforeStart endedAtNs fun job =>
    { job with state := .failed, failureCause := some failureCause }

def failRunning (endedAtNs : ℕ) (exit : Option JobExit) (failureCause : String) :
    Except JobTransitionError JobRecord :=
  job.finish .running .failRunning endedAtNs fun job =>
    { job with
      state := .failed
      failureCause := some failureCause
      exitCode := match exit with
        | some (.exitCode code) => some code
        | _ => job.exitCode
      exitSignal := match exit with
        | some (.signal signal) => some signal
        | _ => job.exitSignal }

def abandon (endedAtNs : ℕ) (failureCause : String) : Except JobTransitionError JobRecord :=
  job.finish .running .abandon endedAtNs fun job =>
    { job with state := .abandoned, failureCause := some failureCause }

end JobRecord

/-- A process that was launched for a job and has not told yet whether it could be set up. -/
structure PendingLaunchSetup where
  jobId : JobId
  pid : ℕ
  pidfd : ℤ
  launchedAtNs : ℕ
  deriving DecidableEq

structure JobStore where
  records : OrdMap JobId JobRecord
  activeByService : OrdMap String (List JobId)
  /-- Descriptors of jobs that have left the store, which are still to be closed. -/
  releasedPidfds : List ℤ := []

namespace JobStore

def new : JobStore := { records := ∅, activeByService := ∅ }

variable (jobs : JobStore)

def get (id : JobId) : Option JobRecord := jobs.records[id]?

def activeForService (service : String) : List JobId := (jobs.activeByService[service]?).getD []

def currentServiceMainJob (service : String) : Option JobId :=
  (jobs.activeForService service).find? fun id =>
    (jobs.get id).any fun record => record.jobType = .serviceMain

/-- The first job, in the order of the ids, with the process id. -/
def activeJobByPid (pid : ℕ) : Option JobId :=
  (jobs.records.toList.find? fun entry => entry.2.pid = some pid).map (·.1)

def removeActive (service : String) (id : JobId) : JobStore :=
  match jobs.activeByService[service]? with
  | none => jobs
  | some active =>
    let rest := active.filter (· ≠ id)
    { jobs with
      activeByService := if rest = [] then jobs.activeByService.erase service
        else jobs.activeByService.insert service rest }

def createJob (job : JobRecord) : Except JobStoreError JobStore :=
  if job.id ∈ jobs.records then .error (.duplicateJobId job.id)
  else if job.state ≠ .created then .error (.invalidInitialState job.id job.state)
  else match job.service with
    | none => .ok { jobs with records := jobs.records.insert job.id job }
    | some service =>
      match if job.jobType = .serviceMain then jobs.currentServiceMainJob service else none with
      | some activeJobId => .error (.serviceMainAlreadyActive service activeJobId)
      | none => .ok
        { jobs with
          records := jobs.records.insert job.id job
          activeByService :=
            jobs.activeByService.insert service (jobs.activeForService service ++ [job.id]) }

/-- What a start that brings the summary of the token writes before the job is asked whether it can
start. -/
def setTokenSummary (id : JobId) (tokenSummary : TokenSummary) : JobStore :=
  match jobs.get id with
  | none => jobs
  | some job => { jobs with records := jobs.records.insert id { job with tokenSummary } }

def startJob (id : JobId) (pid : ℕ) (pidfd : ℤ) (startedAtNs : ℕ) : Except JobStoreError JobStore :=
  match jobs.get id with
  | none => .error (.unknownJob id)
  | some record =>
    match record.start pid pidfd startedAtNs with
    | .error e => .error (.transition e)
    | .ok record => .ok { jobs with records := jobs.records.insert id record }

/-- The released descriptors, each of which is handed out once. -/
def takeReleasedPidfds : List ℤ × JobStore := (jobs.releasedPidfds, { jobs with releasedPidfds := [] })

/-- End a job and drop it; the ended record is what the event reports. -/
def finishJob (id : JobId) (finish : JobRecord → Except JobTransitionError JobRecord) :
    Except JobStoreError (JobStore × JobRecord) :=
  match jobs.get id with
  | none => .error (.unknownJob id)
  | some record =>
    match finish record with
    | .error e => .error (.transition e)
    | .ok ended =>
      let jobs := { jobs with
        records := jobs.records.erase id
        releasedPidfds := jobs.releasedPidfds ++ ended.pidfd.toList }
      .ok (match ended.service with
        | some service => (jobs.removeActive service id, ended)
        | none => (jobs, ended))

def completeJob (id : JobId) (endedAtNs : ℕ) (exitCode : ℤ) :
    Except JobStoreError (JobStore × JobRecord) :=
  jobs.finishJob id (·.complete endedAtNs exitCode)

def failJobBeforeStart (id : JobId) (endedAtNs : ℕ) (failureCause : String) :
    Except JobStoreError (JobStore × JobRecord) :=
  jobs.finishJob id (·.failBeforeStart endedAtNs failureCause)

def failRunningJob (id : JobId) (endedAtNs : ℕ) (exit : Option JobExit) (failureCause : String) :
    Except JobStoreError (JobStore × JobRecord) :=
  jobs.finishJob id (·.failRunning endedAtNs exit failureCause)

def abandonJob (id : JobId) (endedAtNs : ℕ) (failureCause : String) :
    Except JobStoreError (JobStore × JobRecord) :=
  jobs.finishJob id (·.abandon endedAtNs failureCause)

end JobStore

end Peinit
