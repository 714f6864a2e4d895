import Peinit.Job.Ownership

/-!
# Refused calls of the job store

The methods of the store as they write, which shows what stays written when a call is refused:
nothing, except that a start that brings the summary of the job's token writes it before the job is
asked whether it can start.
-/

namespace Peinit

open Fallible JobRecord OrdMap

variable {jobs : JobStore} {job : JobRecord} {id : JobId} {pid startedAtNs endedAtNs : ℕ} {pidfd : ℤ}
  {expected : JobState} {action : JobTransitionAction} {finished : JobRecord → JobRecord}
  {tokenSummary : TokenSummary}

namespace JobRecord

/-- A method that borrows a record mutably. -/
abbrev Transition : Type := Fallible JobRecord JobTransitionError Unit

def ensureState (expected : JobState) (action : JobTransitionAction) : Transition := do
  let job ← fetch
  if job.state = expected then pure ()
  else raise (.invalidTransition job.id job.state action)

def ensureEndedAt (endedAtNs : ℕ) : Transition := do
  let job ← fetch
  if endedAtNs < job.createdAtNs then raise (.endBeforeCreation job.id job.createdAtNs endedAtNs)
  else match job.startedAtNs with
    | some startedAtNs =>
      if endedAtNs < startedAtNs then raise (.endBeforeStart job.id startedAtNs endedAtNs)
      else pure ()
    | none => pure ()

def startMut (pid : ℕ) (pidfd : ℤ) (startedAtNs : ℕ) : Transition := do
  ensureState .created .start
  let job ← fetch
  if startedAtNs < job.createdAtNs then
    raise (.startBeforeCreation job.id job.createdAtNs startedAtNs)
  else update fun job => { job with
    state := .running, pid := some pid, pidfd := some pidfd, startedAtNs := some startedAtNs }

def finishMut (expected : JobState) (action : JobTransitionAction) (endedAtNs : ℕ)
    (finished : JobRecord → JobRecord) : Transition := do
  ensureState expected action
  ensureEndedAt endedAtNs
  update fun job => finished { job with endedAtNs := some endedAtNs }

def completeMut (endedAtNs : ℕ) (exitCode : ℤ) : Transition :=
  finishMut .running .complete endedAtNs fun job =>
    { job with state := .completed, exitCode := some exitCode }

def failBeforeStartMut (endedAtNs : ℕ) (failureCause : String) : Transition :=
  finishMut .created .failBeforeStart endedAtNs fun job =>
    { job with state := .failed, failureCause := some failureCause }

def failRunningMut (endedAtNs : ℕ) (exit : Option JobExit) (failureCause : String) : Transition :=
  finishMut .running .failRunning endedAtNs fun job =>
    { job with
      state := .failed
      failureCause := some failureCause
      exitCode := match exit with
        | some (.exitCode code) => some code
        | _ => job.exitCode
      exitSignal := match exit with
        | some (.signal signal) => some signal
        | _ => job.exitSignal }

def abandonMut (endedAtNs : ℕ) (failureCause : String) : Transition :=
  finishMut .running .abandon endedAtNs fun job =>
    { job with state := .abandoned, failureCause := some failureCause }

def durationNs (job : JobRecord) : Option ℕ := job.endedAtNs.map (· - job.createdAtNs)

theorem startMut_commits :
    Commits (startMut pid pidfd startedAtNs) job (job.start pid pidfd startedAtNs) := by
  unfold start
  split_ifs with state early
  · simp [Commits, startMut, ensureState, run_bind, state]
  · simp [Commits, startMut, ensureState, not_not.mp state, early]
  · simp [Commits, startMut, ensureState, not_not.mp state, early]

theorem finishMut_commits : Commits (finishMut expected action endedAtNs finished) job
    (job.finish expected action endedAtNs finished) := by
  unfold finish
  split_ifs with state early
  · simp [Commits, finishMut, ensureState, run_bind, state]
  · simp [Commits, finishMut, ensureState, ensureEndedAt, run_bind, not_not.mp state, early]
  · cases started : job.startedAtNs with
    | none =>
      simp [Commits, finishMut, ensureState, ensureEndedAt, not_not.mp state, early, started]
    | some startedAtNs =>
      dsimp only
      split_ifs with reversed
      · simp [Commits, finishMut, ensureState, ensureEndedAt, run_bind, not_not.mp state, early,
          started, reversed]
      · simp [Commits, finishMut, ensureState, ensureEndedAt, run_bind, not_not.mp state, early,
          started, reversed]

end JobRecord

/-! ## Events -/

inductive JobEventDetail where
  | created
  | started (startedAtNs pid : ℕ) (cgroupId : String)
  | ended (endedAtNs durationNs : ℕ) (exitCode exitSignal : Option ℤ) (failureCause : Option String)
  deriving DecidableEq

/-- An event copies the record it is about. -/
structure JobEvent where
  record : JobRecord
  detail : JobEventDetail
  deriving DecidableEq

namespace JobEvent

def created (job : JobRecord) : JobEvent := ⟨job, .created⟩

def invalidRecord (job : JobRecord) (reason : String) : JobStoreError :=
  .invalidEventRecord job.id job.state reason

def started (job : JobRecord) : Except JobStoreError JobEvent :=
  match job.startedAtNs, job.pid with
  | none, _ => .error (invalidRecord job "started job has start timestamp")
  | _, none => .error (invalidRecord job "started job has pid")
  | some startedAtNs, some pid => .ok ⟨job, .started startedAtNs pid job.cgroupId⟩

def ended (job : JobRecord) : Except JobStoreError JobEvent :=
  match job.endedAtNs, job.durationNs with
  | none, _ => .error (invalidRecord job "ended job has end timestamp")
  | _, none => .error (invalidRecord job "ended job has duration")
  | some endedAtNs, some durationNs =>
    .ok ⟨job, .ended endedAtNs durationNs job.exitCode job.exitSignal job.failureCause⟩

end JobEvent

/-! ## The methods of the store -/

namespace JobStore

/-- A method that borrows the store mutably. -/
abbrev Mutator (α : Type) : Type := Fallible JobStore JobStoreError α

/-- Borrow the record of `id` mutably; what the borrower wrote stays, also if it failed. -/
def onRecord {α : Type} (id : JobId) (m : Fallible JobRecord JobStoreError α) : Mutator α where
  run jobs := match jobs.get id with
    | none => (.error (.unknownJob id), jobs)
    | some job =>
      let (result, job) := m.run job
      (result, { jobs with records := jobs.records.insert id job })

def createJobMut (job : JobRecord) : Mutator JobEvent := do
  let jobs ← fetch
  let after ← ofExcept (jobs.createJob job)
  update fun _ => after
  return .created job

def startJobWithTokenSummary (id : JobId) (pid : ℕ) (pidfd : ℤ) (tokenSummary : TokenSummary)
    (startedAtNs : ℕ) : Mutator JobEvent :=
  onRecord id do
    update ({ · with tokenSummary })
    mapError .transition (JobRecord.startMut pid pidfd startedAtNs)
    let job ← fetch
    ofExcept (JobEvent.started job)

def startJobMut (id : JobId) (pid : ℕ) (pidfd : ℤ) (startedAtNs : ℕ) : Mutator JobEvent := do
  let jobs ← fetch
  match jobs.get id with
  | none => raise (.unknownJob id)
  | some job => startJobWithTokenSummary id pid pidfd job.tokenSummary startedAtNs

def finishJobMut (id : JobId) (finish : JobRecord.Transition) : Mutator JobEvent := do
  let event ← onRecord id do
    mapError .transition finish
    let job ← fetch
    ofExcept (JobEvent.ended job)
  update fun jobs => { jobs with
    records := jobs.records.erase id
    releasedPidfds := jobs.releasedPidfds ++ ((jobs.get id).bind (·.pidfd)).toList }
  match event.record.service with
  | some service => update (·.removeActive service id)
  | none => pure ()
  return event

/-- The record has the summary by the time its job can refuse to start. -/
theorem run_startJobWithTokenSummary (known : jobs.get id = some job) :
    (startJobWithTokenSummary id pid pidfd tokenSummary startedAtNs).run jobs =
      match { job with tokenSummary }.start pid pidfd startedAtNs with
      | .error e => (.error (.transition e),
        { jobs with records := jobs.records.insert id { job with tokenSummary } })
      | .ok started => (.ok ⟨started, .started startedAtNs pid job.cgroupId⟩,
        { jobs with records := jobs.records.insert id started }) := by
  have commits := @startMut_commits { job with tokenSummary } pid startedAtNs pidfd
  unfold startJobWithTokenSummary onRecord
  cases result : { job with tokenSummary }.start pid pidfd startedAtNs with
  | error e =>
    rw [result] at commits
    simp only [known, run_bind, run_update]
    rw [run_mapError_of_error commits]
  | ok started =>
    rw [result] at commits
    obtain ⟨_, ran⟩ := commits
    simp only [known, run_bind, run_update]
    rw [run_mapError_of_ok ran]
    unfold start at result
    split_ifs at result
    cases result
    rfl

theorem startJobMut_commits : Commits (startJobMut id pid pidfd startedAtNs) jobs
    (jobs.startJob id pid pidfd startedAtNs) := by
  unfold startJob startJobMut Commits
  cases known : jobs.get id with
  | none => simp [known]
  | some job =>
    have ran := @run_startJobWithTokenSummary jobs job id pid startedAtNs pidfd job.tokenSummary known
    simp only [run_fetch_bind, known]
    cases result : job.start pid pidfd startedAtNs with
    | error e =>
      rw [show { job with tokenSummary := job.tokenSummary } = job from rfl, result,
        insert_of_get known] at ran
      exact ran
    | ok started =>
      rw [result] at ran
      exact ⟨_, ran⟩

/-- A start that brings the summary writes it and is a start from there on. -/
theorem run_startJobWithTokenSummary_eq (jobs : JobStore) :
    (startJobWithTokenSummary id pid pidfd tokenSummary startedAtNs).run jobs =
      (startJobMut id pid pidfd startedAtNs).run (jobs.setTokenSummary id tokenSummary) := by
  unfold startJobMut setTokenSummary
  cases known : jobs.get id with
  | none => simp [startJobWithTokenSummary, onRecord, known]
  | some job =>
    have summarised : get { jobs with records := jobs.records.insert id { job with tokenSummary } } id =
        some { job with tokenSummary } := by
      rw [get, get_insert, if_pos rfl]
    simp only [run_fetch_bind, summarised]
    rw [run_startJobWithTokenSummary known, run_startJobWithTokenSummary summarised]
    simp only [insert_insert]

theorem setTokenSummary_eq_self : jobs.setTokenSummary id tokenSummary = jobs ↔
    ∀ job, jobs.get id = some job → job.tokenSummary = tokenSummary := by
  unfold setTokenSummary
  cases known : jobs.get id with
  | none => simp
  | some job =>
    constructor
    · rintro same _ ⟨⟩
      have again := congrArg (get · id) same
      simp only [get, get_insert] at again
      exact congrArg JobRecord.tokenSummary (Option.some.inj (again.trans known)).symm
    · intro same
      rw [← same job rfl]
      exact congrArg (fun records => { jobs with records }) (insert_of_get known)

theorem createJobMut_commits : Commits (createJobMut job) jobs (jobs.createJob job) := by
  unfold Commits createJobMut
  cases result : jobs.createJob job with
  | error e => simp [run_bind, result]
  | ok after => exact ⟨.created job, by rw [run_fetch_bind, result]; rfl⟩

theorem finishJobMut_commits (keeps : ∀ job, (finished job).endedAtNs = job.endedAtNs) :
    Commits (finishJobMut id (finishMut expected action endedAtNs finished)) jobs
      ((jobs.finishJob id (·.finish expected action endedAtNs finished)).map (·.1)) := by
  unfold finishJob finishJobMut onRecord Commits
  cases known : jobs.get id with
  | none => simp [run_bind, known, Except.map]
  | some job =>
    have commits := @finishMut_commits job endedAtNs expected action finished
    simp only [run_bind, known]
    cases result : job.finish expected action endedAtNs finished with
    | error e =>
      rw [result] at commits
      dsimp only [Except.map]
      rw [run_mapError_of_error commits]
      rw [insert_of_get known]
    | ok ended =>
      rw [result] at commits
      obtain ⟨_, ran⟩ := commits
      obtain ⟨-, is⟩ := finish_ok result
      have has : ended.endedAtNs = some endedAtNs := by rw [is, keeps]
      obtain ⟨detail, event⟩ : ∃ detail, JobEvent.ended ended = .ok ⟨ended, detail⟩ := by
        simp [JobEvent.ended, durationNs, has]
      have gone : (jobs.records.insert id ended).erase id = jobs.records.erase id := by
        refine Std.ExtTreeMap.ext_getElem? fun other => ?_
        rw [get_erase, get_erase, get_insert]
        split_ifs <;> rfl
      rw [run_mapError_of_ok ran]
      simp only [run_fetch, run_ofExcept, event, get, get_insert, if_true, gone, run_update,
        Option.bind_some]
      cases ended.service <;> exact ⟨_, rfl⟩

end JobStore

/-! ## Calls -/

namespace JobCall

open JobStore

def mutator : JobCall → Mutator (Option JobEvent)
  | .create job => some <$> createJobMut job
  | .start id pid pidfd startedAtNs => some <$> startJobMut id pid pidfd startedAtNs
  | .startWithTokenSummary id pid pidfd tokenSummary startedAtNs =>
    some <$> startJobWithTokenSummary id pid pidfd tokenSummary startedAtNs
  | .complete id endedAtNs exitCode =>
    some <$> finishJobMut id (JobRecord.completeMut endedAtNs exitCode)
  | .failBeforeStart id endedAtNs failureCause =>
    some <$> finishJobMut id (JobRecord.failBeforeStartMut endedAtNs failureCause)
  | .failRunning id endedAtNs exit failureCause =>
    some <$> finishJobMut id (JobRecord.failRunningMut endedAtNs exit failureCause)
  | .abandon id endedAtNs failureCause =>
    some <$> finishJobMut id (JobRecord.abandonMut endedAtNs failureCause)
  | .takeReleased => do
    update (·.takeReleasedPidfds.2)
    return none

/-- The store with what the call writes before it can be refused. -/
def prepare (jobs : JobStore) : JobCall → JobStore
  | .startWithTokenSummary id _ _ tokenSummary _ => jobs.setTokenSummary id tokenSummary
  | _ => jobs

/-- The summary that the call brings, if it brings one, is that of the job's record. -/
def BringsKnownSummary (jobs : JobStore) : JobCall → Prop
  | .startWithTokenSummary id _ _ tokenSummary _ =>
    ∀ job, jobs.get id = some job → job.tokenSummary = tokenSummary
  | _ => True

theorem prepare_eq_self (call : JobCall) : call.prepare jobs = jobs ↔ call.BringsKnownSummary jobs := by
  cases call with
  | startWithTokenSummary => exact setTokenSummary_eq_self
  | _ => exact iff_of_true rfl trivial

def result (jobs : JobStore) : JobCall → Except JobStoreError JobStore
  | .create job => jobs.createJob job
  | .start id pid pidfd startedAtNs => jobs.startJob id pid pidfd startedAtNs
  | .startWithTokenSummary id pid pidfd tokenSummary startedAtNs =>
    (jobs.setTokenSummary id tokenSummary).startJob id pid pidfd startedAtNs
  | .complete id endedAtNs exitCode => (jobs.completeJob id endedAtNs exitCode).map (·.1)
  | .failBeforeStart id endedAtNs failureCause =>
    (jobs.failJobBeforeStart id endedAtNs failureCause).map (·.1)
  | .failRunning id endedAtNs exit failureCause =>
    (jobs.failRunningJob id endedAtNs exit failureCause).map (·.1)
  | .abandon id endedAtNs failureCause => (jobs.abandonJob id endedAtNs failureCause).map (·.1)
  | .takeReleased => .ok jobs.takeReleasedPidfds.2

/-- From what it wrote before, a call does all or nothing. -/
theorem mutator_commits (call : JobCall) (jobs : JobStore) : ∃ m : Mutator (Option JobEvent),
    call.mutator.run jobs = m.run (call.prepare jobs) ∧
      Commits m (call.prepare jobs) (call.result jobs) := by
  cases call with
  | create => exact ⟨_, rfl, createJobMut_commits.map some⟩
  | start => exact ⟨_, rfl, startJobMut_commits.map some⟩
  | startWithTokenSummary =>
    refine ⟨_, ?_, startJobMut_commits.map some⟩
    rw [mutator, run_map, run_map, run_startJobWithTokenSummary_eq]
    rfl
  | complete | failBeforeStart | failRunning | abandon =>
    refine ⟨_, rfl, Commits.map (finishJobMut_commits ?_) some⟩
    exact fun _ => rfl
  | takeReleased => exact ⟨_, rfl, none, rfl⟩

/-- The runs of the store are those of its methods. -/
theorem perform_store (h : JobHistory) (call : JobCall) :
    (h.perform call).store = (call.mutator.run h.store).2 := by
  obtain ⟨m, same, commits⟩ := call.mutator_commits h.store
  have performed : (h.perform call).store =
      (call.result h.store).toOption.getD (call.prepare h.store) := by
    cases call <;> simp only [JobHistory.perform, JobHistory.start, JobHistory.endRunning, result, prepare]
    case takeReleased => rfl
    all_goals split <;> simp_all [Except.map, Except.toOption]
  rw [performed, same]
  cases returned : call.result h.store with
  | ok store =>
    rw [returned] at commits
    obtain ⟨_, ran⟩ := commits
    rw [ran]
    rfl
  | error e =>
    rw [returned] at commits
    rw [commits]
    rfl

end JobCall

/-- A call that is refused leaves the store as it was, unless it is a start that brings a summary of the
token and the record of the job has another. -/
theorem refused_leaves_store_iff (jobs after : JobStore) (error : JobStoreError) :
    ∀ call : JobCall, call.mutator.run jobs = (.error error, after) →
      (after = jobs ↔ call.BringsKnownSummary jobs) := by
  intro call refused
  obtain ⟨m, same, commits⟩ := call.mutator_commits jobs
  rw [same] at refused
  rw [commits.unchanged refused]
  exact call.prepare_eq_self

def createdAtFive : JobStore :=
  let job : JobRecord :=
    { id := ⟨1⟩, service := some "web", jobType := .serviceMain, createdAtNs := 5 }
  (runCalls JobHistory.perform {} [.create job]).store

theorem refused_leaves_store_iff_createdAtFive : ∃ error after,
    (JobCall.startWithTokenSummary ⟨1⟩ 7 9 ⟨"", "", [], [], []⟩ 3).mutator.run createdAtFive =
      (.error error, after) ∧ after = createdAtFive := by
  have refused : ((JobCall.startWithTokenSummary ⟨1⟩ 7 9 ⟨"", "", [], [], []⟩ 3).mutator.run
      createdAtFive).1 = .error (.transition (.startBeforeCreation ⟨1⟩ 5 3)) := by
    decide +kernel
  have known : ∀ job, createdAtFive.get ⟨1⟩ = some job →
      job.tokenSummary = ⟨"", "", [], [], []⟩ := by
    decide +kernel
  exact ⟨_, _, Prod.ext refused rfl,
    (refused_leaves_store_iff _ _ _ _ (Prod.ext refused rfl)).mpr known⟩

/-- The clock was set back, and the record keeps the summary of a token that no process of the job has
got. -/
theorem startJobWithTokenSummary_not_atomic : ¬ ∀ error after,
    (JobStore.startJobWithTokenSummary ⟨1⟩ 7 9 ⟨"web", "S-1-5-18", [], [], []⟩ 3).run createdAtFive =
      (.error error, after) → after = createdAtFive := by
  intro atomic
  have refused : ((JobStore.startJobWithTokenSummary ⟨1⟩ 7 9 ⟨"web", "S-1-5-18", [], [], []⟩ 3).run
      createdAtFive).1 = .error (.transition (.startBeforeCreation ⟨1⟩ 5 3)) := by
    decide +kernel
  have same := atomic _ _ (Prod.ext refused rfl)
  have summary := congrArg (fun jobs => (jobs.get ⟨1⟩).map (·.tokenSummary.identity)) same
  revert summary
  decide +kernel

end Peinit
