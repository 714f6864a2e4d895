import Peinit.Job.Ownership
import Peinit.Shutdown.Cases

/-!
# The life of submitted jobs

A job is submitted, launched and set up, may report, be stopped and miss its deadlines, ends, and is
forgotten after a while. Each of these is a transaction, and the clock does not go back.
-/

namespace Peinit

namespace SubmittedJobStore

variable (submitted : SubmittedJobStore)

def insert (entry : SubmittedJobEntry) : Except SubmittedJobStoreError SubmittedJobStore :=
  if entry.jobId ∈ submitted.entries then .error (.duplicateJobId entry.jobId)
  else .ok ⟨submitted.entries.insert entry.jobId entry⟩

/-- Forget the jobs that have ended long enough ago and whose cgroup needs no attention. -/
def purgeRetainedUntil (nowNs : ℕ) : SubmittedJobStore :=
  ⟨submitted.entries.filter fun _ entry => !(entry.outcome.any (·.retainedUntilNs ≤ nowNs) &&
    entry.cgroupCleanupDueAtNs.isNone)⟩

end SubmittedJobStore

/-- The fields of a notification that a deadline of a submitted job depends on. -/
inductive SubmittedReport where
  | ready | stopping
  deriving DecidableEq

/-- What comes of the launch of a submitted job. -/
inductive SubmittedLaunch where
  | pendingSetup (setupStatusFd : ℤ) (pid : ℕ) (pidfd : ℤ)
  | started (pid : ℕ) (pidfd : ℤ)
  | failed (error : String)
  deriving DecidableEq

def SubmittedJobEntry.report (entry : SubmittedJobEntry) : SubmittedReport → SubmittedJobEntry
  | .ready =>
    if entry.definition.readiness = .notify ∧ entry.ready = some false
    then { entry with ready := some true } else entry
  | .stopping => { entry with stoppingAcknowledged := true }

namespace ShutdownWork

variable (work : ShutdownWork)

/-- The record, then the entry, then the launch queue. -/
def submitJob (id : JobId) (definition : SubmittedJobDefinition) (nowNs : ℕ) :
    Except SupervisorError ShutdownWork := do
  let cgroupId := submittedJobCgroupPath id
  let jobs ← (work.jobs.createJob
    { id, service := none, jobType := .submitted, createdAtNs := nowNs, cgroupId }).mapError
      SupervisorError.jobStore
  let submitted ← (work.submitted.insert
    { jobId := id, definition, cgroupId
      ready := if definition.readiness = .notify then some false else none }).mapError
        SupervisorError.submitted
  return { work with
    jobs, submitted, pendingSubmittedLaunches := work.pendingSubmittedLaunches ++ [id] }

/-- The launch queue without the leading jobs that are gone. -/
def liveLaunches : List JobId :=
  work.pendingSubmittedLaunches.dropWhile fun id => (work.jobs.get id).isNone

def applySubmittedLaunch (answers : ProcessAnswers) (id : JobId) (launchedAtNs : ℕ)
    (postKillTimeoutSecs : ℕ) : SubmittedLaunch → Except SupervisorError ShutdownWork
  | .pendingSetup setupStatusFd pid pidfd => .ok { work with
    pendingProcessSetups :=
      work.pendingProcessSetups.insert setupStatusFd ⟨id, pid, pidfd, launchedAtNs⟩ }
  | .started pid pidfd =>
    match work.jobs.startJob id pid pidfd launchedAtNs with
    | .error e => .error (.jobStore e)
    | .ok jobs => .ok { work with jobs }
  | .failed error => work.applySubmittedSetupFailure answers id launchedAtNs .parentSetupFailure
    ("ParentSetupFailure: " ++ error) postKillTimeoutSecs

def launchNextPendingSubmittedJob (answers : ProcessAnswers) (launchedAtNs postKillTimeoutSecs : ℕ)
    (launched : SubmittedLaunch) : Except SupervisorError ShutdownWork :=
  match work.liveLaunches with
  | [] => .ok { work with pendingSubmittedLaunches := [] }
  | id :: rest =>
    match work.submitted.get id with
    | none => .error (.submitted (.unknownJob id))
    | some _ => { work with pendingSubmittedLaunches := rest }.applySubmittedLaunch answers id
      launchedAtNs postKillTimeoutSecs launched

def applySubmittedNotify (id : JobId) (report : SubmittedReport) : Except SupervisorError ShutdownWork :=
  match work.submitted.get id with
  | none => .error (.submitted (.unknownJob id))
  | some entry => .ok { work with
    submitted := ⟨work.submitted.entries.insert id (entry.report report)⟩ }

/-- A child was reaped.  A pid that no submitted job carries is none of theirs. -/
def applySubmittedReap (answers : ProcessAnswers) (pid : ℕ) (status : ChildExitStatus)
    (endedAtNs postKillTimeoutSecs : ℕ) : Except SupervisorError ShutdownWork :=
  match work.jobs.activeJobByPid pid with
  | none => .ok work
  | some id =>
    if (work.jobs.get id).any fun job => job.jobType = .submitted then
      work.applySubmittedTerminal answers id status endedAtNs postKillTimeoutSecs
    else .ok work

end ShutdownWork

/-! ## Runs -/

inductive SubmittedEvent where
  | submit (id : JobId) (definition : SubmittedJobDefinition)
  | launch (launched : SubmittedLaunch)
  | setupSucceeded (setupStatusFd : ℤ)
  | setupFailed (setupStatusFd : ℤ) (error : String)
  | notify (id : JobId) (report : SubmittedReport)
  | stop (id : JobId)
  | deadline (id : JobId) (kind : SubmittedJobDeadlineKind)
  | reaped (pid : ℕ) (status : ChildExitStatus)
  | shutdownBegun
  | shutdownTimeout
  | purge
  deriving DecidableEq

/-- An event, and how long it came after the last one. -/
structure SubmittedMove where
  elapsedNs : ℕ
  answers : ProcessAnswers
  event : SubmittedEvent

structure SubmittedLife where
  work : ShutdownWork
  nowNs : ℕ := 0

namespace SubmittedLife

open ShutdownWork

def start : SubmittedLife where
  work := { services := ⟨∅⟩, operations := .new, jobs := .new }

def act (settings : ShutdownSettings) (answers : ProcessAnswers) (nowNs : ℕ) (work : ShutdownWork) :
    SubmittedEvent → Except SupervisorError ShutdownWork
  | .submit id definition => work.submitJob id definition nowNs
  | .launch launched =>
    work.launchNextPendingSubmittedJob answers nowNs settings.postKillTimeoutSecs launched
  | .setupSucceeded setupStatusFd => work.submittedSetupSucceeded setupStatusFd
  | .setupFailed setupStatusFd error =>
    work.submittedSetupFailed settings answers setupStatusFd error nowNs
  | .notify id report => work.applySubmittedNotify id report
  | .stop id => do
    let (work, _) ← work.beginSubmittedStop answers id .explicitStop nowNs settings.postKillTimeoutSecs
    return work
  | .deadline id kind => do
    let (work, _) ← work.processSubmittedDeadline answers id kind nowNs settings.postKillTimeoutSecs
    return work
  | .reaped pid status => work.applySubmittedReap answers pid status nowNs settings.postKillTimeoutSecs
  | .shutdownBegun =>
    work.stopSubmittedJobsForShutdown answers nowNs settings.postKillTimeoutSecs
  | .shutdownTimeout => work.killAllLiveSubmittedJobs nowNs settings.postKillTimeoutSecs
  | .purge => .ok { work with submitted := work.submitted.purgeRetainedUntil nowNs }

/-- A failed event changes nothing but the time. -/
def perform (settings : ShutdownSettings) (life : SubmittedLife) (move : SubmittedMove) :
    SubmittedLife where
  nowNs := life.nowNs + move.elapsedNs
  work := match act settings move.answers (life.nowNs + move.elapsedNs) life.work move.event with
    | .ok next => next
    | .error _ => life.work

/-! ## What holds in every run -/

/-- What is recorded to have happened to the job is not in the future, and a submitted job is no
service's. -/
structure JobFits (nowNs : ℕ) (submitted : SubmittedJobStore) (id : JobId) (job : JobRecord) : Prop where
  created : job.createdAtNs ≤ nowNs
  started : ∀ startedAtNs ∈ job.startedAtNs, job.state = .running ∧ startedAtNs ≤ nowNs
  service : ∀ entry, submitted.get id = some entry → job.service = none

/-- Entries are kept under their ids, and the records are those of live jobs. -/
structure Sound (nowNs : ℕ) (work : ShutdownWork) : Prop where
  keyed : ∀ {id : JobId} {entry : SubmittedJobEntry}, work.submitted.get id = some entry →
    entry.jobId = id
  live : work.jobs.Live
  fits : ∀ id job, work.jobs.get id = some job → JobFits nowNs work.submitted id job
  setups : ∀ (setupStatusFd : ℤ) (setup : PendingLaunchSetup),
    work.pendingProcessSetups[setupStatusFd]? = some setup → setup.launchedAtNs ≤ nowNs
  indexed : work.jobs.Indexed

variable {nowNs : ℕ} {w next : ShutdownWork}

theorem sound_start : Sound 0 start.work where
  keyed := by simp [start, SubmittedJobStore.new, SubmittedJobStore.get]
  live := JobStore.live_new
  fits := by simp [start, JobStore.new, JobStore.get]
  setups := by simp [start]
  indexed := JobStore.indexed_new

theorem Sound.later {laterNs : ℕ} (sound : Sound nowNs w) (later : nowNs ≤ laterNs) :
    Sound laterNs w where
  keyed := sound.keyed
  live := sound.live
  fits id job got := by
    have fits := sound.fits id job got
    exact ⟨fits.created.trans later,
      fun since is => (fits.started since is).imp_right (·.trans later), fits.service⟩
  setups fd setup pending := (sound.setups fd setup pending).trans later
  indexed := sound.indexed

theorem Sound.only (sound : Sound nowNs w) (only : SubmittedOnly w next) : Sound nowNs next where
  keyed {id entry} got := by
    obtain ⟨old, found', same, -⟩ := only.live id entry got
    exact same.symm.trans (sound.keyed found')
  live := sound.live.ended only.ended
  fits id job known := by
    have fits := sound.fits id job (only.ended.sub known)
    refine ⟨fits.created, fits.started, fun entry got => ?_⟩
    obtain ⟨old, there, -⟩ := only.live id entry got
    exact fits.service old there
  setups fd setup pending := sound.setups fd setup (only.setups fd setup pending)
  indexed := only.ended.indexed sound.indexed

theorem Sound.startJob {id : JobId} {pid : ℕ} {pidfd : ℤ} {startNs : ℕ} {jobs : JobStore}
    {setups : OrdMap ℤ PendingLaunchSetup} (sound : Sound nowNs w) (past : startNs ≤ nowNs)
    (ran : w.jobs.startJob id pid pidfd startNs = .ok jobs)
    (fewer : ∀ (setupStatusFd : ℤ) (setup : PendingLaunchSetup), setups[setupStatusFd]? = some setup →
      w.pendingProcessSetups[setupStatusFd]? = some setup) :
    Sound nowNs { w with jobs, pendingProcessSetups := setups } := by
  obtain ⟨job, started, known, own, -, records, -, -, -, rfl, -⟩ := JobStore.startJob_ok ran
  refine ⟨sound.keyed, sound.live.started ran, fun other job' got => ?_,
    fun fd setup pending => sound.setups fd setup (fewer fd setup pending), sound.indexed.started ran⟩
  rw [records] at got
  split_ifs at got with here
  · cases got
    have fits := sound.fits id job known
    refine ⟨fits.created, ?_, fun entry there => own.trans (fits.service entry (here ▸ there))⟩
    rintro since ⟨⟩
    exact ⟨rfl, past⟩
  · exact sound.fits other job' got

theorem Sound.submitJob {id : JobId} {defn : SubmittedJobDefinition} (sound : Sound nowNs w)
    (ran : w.submitJob id defn nowNs = .ok next) : Sound nowNs next := by
  obtain ⟨jobs, create, rest⟩ := bind_eq_ok.mp ran
  obtain ⟨submitted, insert, last⟩ := bind_eq_ok.mp rest
  cases last
  have create' := mapError_eq_ok.mp create
  obtain ⟨-, -, records, -⟩ := JobStore.createJob_ok create'
  obtain ⟨-, inserted⟩ := if_error_eq_ok.mp (mapError_eq_ok.mp insert)
  cases inserted
  refine ⟨fun {other entry} got => ?_, sound.live.created create', fun other job got => ?_, sound.setups,
    sound.indexed.created create'⟩
  · rw [SubmittedJobStore.get_insert_entry] at got
    by_cases here : id = other
    · rw [if_pos here] at got
      cases got
      exact here
    · rw [if_neg here] at got
      exact sound.keyed got
  · rw [records] at got
    by_cases here : id = other
    · rw [if_pos here] at got
      cases got
      exact ⟨le_rfl, nofun, fun _ _ => rfl⟩
    · rw [if_neg here] at got
      have fits := sound.fits other job got
      refine ⟨fits.created, fits.started, fun entry there => ?_⟩
      rw [SubmittedJobStore.get_insert_entry, if_neg here] at there
      exact fits.service entry there

theorem Sound.launches {launches : List JobId} (sound : Sound nowNs w) :
    Sound nowNs { w with pendingSubmittedLaunches := launches } :=
  ⟨sound.keyed, sound.live, sound.fits, sound.setups, sound.indexed⟩

theorem Sound.launched {answers : ProcessAnswers} {id : JobId} {killSecs : ℕ}
    {launched : SubmittedLaunch} (sound : Sound nowNs w)
    (ran : w.applySubmittedLaunch answers id nowNs killSecs launched = .ok next) :
    Sound nowNs next := by
  cases launched with
  | pendingSetup setupStatusFd pid pidfd =>
    cases ran
    refine ⟨sound.keyed, sound.live, sound.fits, fun fd setup pending => ?_, sound.indexed⟩
    rw [OrdMap.get_insert] at pending
    split_ifs at pending
    · cases pending
      exact le_rfl
    · exact sound.setups fd setup pending
  | started pid pidfd =>
    simp only [applySubmittedLaunch] at ran
    split at ran
    · cases ran
    · next jobs start =>
      cases ran
      exact sound.startJob le_rfl start fun _ _ pending => pending
  | failed error => exact sound.only (applySubmittedSetupFailure_ok ran).toSubmittedOnly

theorem Sound.report {id : JobId} {report : SubmittedReport} (sound : Sound nowNs w)
    (ran : w.applySubmittedNotify id report = .ok next) : Sound nowNs next := by
  unfold applySubmittedNotify at ran
  split at ran
  · cases ran
  · next entry got =>
    cases ran
    refine sound.only ⟨rfl, rfl, rfl, rfl, rfl, fun _ _ pending => pending,
      (SubmittedJobStore.edits_insert got ?_ ?_).live, .refl _⟩
    · unfold SubmittedJobEntry.report
      split
      · split_ifs <;> rfl
      · rfl
    · unfold SubmittedJobEntry.report
      split
      · split_ifs <;> exact fun live => live
      · exact fun live => live

theorem Sound.act {cfg : ShutdownSettings} {answers : ProcessAnswers} {event : SubmittedEvent}
    (sound : Sound nowNs w) (ran : act cfg answers nowNs w event = .ok next) :
    Sound nowNs next := by
  cases event with
  | submit id defn => exact sound.submitJob ran
  | launch launched =>
    change w.launchNextPendingSubmittedJob _ _ _ _ = _ at ran
    unfold launchNextPendingSubmittedJob at ran
    split at ran
    · cases ran
      exact sound.launches
    · split at ran
      · cases ran
      · exact sound.launches.launched ran
  | setupSucceeded setupStatusFd =>
    rcases submittedSetupSucceeded_ok ran with rfl | ⟨setup, jobs, rfl, pending, started⟩
    · exact sound
    · refine sound.startJob (sound.setups setupStatusFd setup pending) started fun fd other left => ?_
      exact (OrdMap.get_erase_eq_some.mp left).2
  | setupFailed setupStatusFd error =>
    rcases submittedSetupFailed_ok ran with rfl | ⟨setup, dead, -, only, -⟩
    · exact sound
    · exact sound.only only
  | notify id report => exact sound.report ran
  | stop id =>
    obtain ⟨out, stopped, last⟩ := bind_eq_ok.mp ran
    cases last
    exact sound.only (beginSubmittedStop_ok stopped).toSubmittedOnly
  | deadline id kind =>
    obtain ⟨out, processed, last⟩ := bind_eq_ok.mp ran
    cases last
    exact sound.only (processSubmittedDeadline_ok processed).toSubmittedOnly
  | reaped pid status =>
    change w.applySubmittedReap _ _ _ _ _ = _ at ran
    unfold applySubmittedReap at ran
    split at ran
    · cases ran
      exact sound
    · split_ifs at ran
      · exact sound.only (applySubmittedTerminal_ok ran)
      · cases ran
        exact sound
  | shutdownBegun => exact sound.only (stopSubmittedJobsForShutdown_ok ran)
  | shutdownTimeout => exact sound.only (killAllLiveSubmittedJobs_ok ran)
  | purge =>
    cases ran
    refine sound.only ⟨rfl, rfl, rfl, rfl, rfl, fun _ _ pending => pending, fun id entry got => ?_,
      .refl _⟩
    exact ⟨entry, (OrdMap.get_filter_eq_some.mp got).1, rfl, fun live => live⟩

theorem sound_run (cfg : ShutdownSettings) (moves : List SubmittedMove) :
    Sound (runCalls (perform cfg) start moves).nowNs (runCalls (perform cfg) start moves).work := by
  refine invariant_of_calls (fun life : SubmittedLife => Sound life.nowNs life.work)
    (fun life move sound => ?_) moves sound_start
  have later : Sound (life.nowNs + move.elapsedNs) life.work := sound.later (Nat.le_add_right _ _)
  unfold perform
  split
  · next next ran => exact later.act ran
  · exact later

end SubmittedLife

end Peinit
