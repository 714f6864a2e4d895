import Peinit.Job.Index
import Peinit.Lib.Run

/-!
# Whole runs of the job store

After any calls the records are those of live jobs, the index is exact, and a process descriptor that
the store was given is in the record of its job until the job ends, and then among the released ones.
-/

namespace Peinit

open JobStore

variable {pid startedAtNs : ℕ} {pidfd : ℤ} {jobs store : JobStore} {id : JobId} {job : JobRecord}

namespace JobStore

variable {after : JobStore}

theorem finishJob_of_state {expected : JobState} {action : JobTransitionAction} {endNs : ℕ}
    {finished : JobRecord → JobRecord} (known : jobs.get id = some job) (state : job.state = expected)
    (created : job.createdAtNs ≤ endNs)
    (started : ∀ startedAtNs, job.startedAtNs = some startedAtNs → startedAtNs ≤ endNs) :
    ∃ out, jobs.finishJob id (·.finish expected action endNs finished) = .ok out := by
  unfold finishJob
  rw [known]
  dsimp only
  rw [JobRecord.finish_of_state state created started]
  exact ⟨_, rfl⟩

/-! ## What holds of the records -/

/-- The record of a job that has not ended, kept under its id; a running job has a process. -/
structure LiveUnder (id : JobId) (job : JobRecord) : Prop where
  keyed : job.id = id
  state : job.state = .created ∨ job.state = .running
  process : job.state = .running → job.pid.isSome ∧ job.pidfd.isSome ∧ job.startedAtNs.isSome

def Live (jobs : JobStore) : Prop := ∀ id job, jobs.get id = some job → LiveUnder id job

theorem live_new : Live new := by simp [Live, new, get]

theorem Live.created (live : Live jobs) (ran : jobs.createJob job = .ok after) : Live after := by
  obtain ⟨-, created, records, -⟩ := createJob_ok ran
  intro id job' got
  rw [records] at got
  split_ifs at got with here
  · cases got
    exact ⟨here, .inl created, fun running => by cases created.symm.trans running⟩
  · exact live _ _ got

theorem Live.started (live : Live jobs)
    (ran : jobs.startJob id pid pidfd startedAtNs = .ok after) : Live after := by
  obtain ⟨job, started, known, -, -, records, -, -, -, rfl, -⟩ := startJob_ok ran
  intro other job' got
  rw [records] at got
  split_ifs at got with here
  · cases got
    exact ⟨(live id job known).keyed.trans here, .inr rfl, fun _ => ⟨rfl, rfl, rfl⟩⟩
  · exact live _ _ got

theorem Live.ended (live : Live jobs) (ended : Ended jobs after) : Live after :=
  fun _ _ got => live _ _ (ended.sub got)

end JobStore

/-! ## Calls -/

/-- A call of a method of the store. -/
inductive JobCall where
  | create (job : JobRecord)
  | start (id : JobId) (pid : ℕ) (pidfd : ℤ) (startedAtNs : ℕ)
  | startWithTokenSummary (id : JobId) (pid : ℕ) (pidfd : ℤ) (tokenSummary : TokenSummary)
      (startedAtNs : ℕ)
  | complete (id : JobId) (endedAtNs : ℕ) (exitCode : ℤ)
  | failBeforeStart (id : JobId) (endedAtNs : ℕ) (failureCause : String)
  | failRunning (id : JobId) (endedAtNs : ℕ) (exit : Option JobExit) (failureCause : String)
  | abandon (id : JobId) (endedAtNs : ℕ) (failureCause : String)
  | takeReleased
  deriving DecidableEq

/-- The store, and what has become of the descriptors so far. -/
structure JobHistory where
  store : JobStore := .new
  /-- What each successful start was given, in order. -/
  handed : List (JobId × ℤ) := []
  /-- The descriptors of the running jobs that have ended, in order. -/
  removed : List (JobId × ℤ) := []
  /-- The descriptors of jobs that have ended without a start.  The records that peinit makes for new
  jobs come without one. -/
  unstarted : List ℤ := []
  /-- What was taken from the store. -/
  taken : List ℤ := []

namespace JobHistory

variable (h : JobHistory)

def start (id : JobId) (pid : ℕ) (pidfd : ℤ) (startedAtNs : ℕ) : JobHistory :=
  match h.store.startJob id pid pidfd startedAtNs with
  | .ok store => { h with store, handed := h.handed ++ [(id, pidfd)] }
  | .error _ => h

/-- A job that ran has ended. -/
def endRunning (id : JobId) (result : Except JobStoreError (JobStore × JobRecord)) : JobHistory :=
  match result with
  | .ok (store, ended) => { h with
    store, removed := h.removed ++ (ended.pidfd.map (id, ·)).toList }
  | .error _ => h

/-- The history after one more call; a call that fails changes nothing but the summary of a token. -/
def perform : JobCall → JobHistory
  | .create job => match h.store.createJob job with
    | .ok store => { h with store }
    | .error _ => h
  | .start id pid pidfd startedAtNs => h.start id pid pidfd startedAtNs
  | .startWithTokenSummary id pid pidfd tokenSummary startedAtNs =>
    { h with store := h.store.setTokenSummary id tokenSummary }.start id pid pidfd startedAtNs
  | .complete id endedAtNs exitCode => h.endRunning id (h.store.completeJob id endedAtNs exitCode)
  | .failBeforeStart id endedAtNs failureCause =>
    match h.store.failJobBeforeStart id endedAtNs failureCause with
    | .ok (store, ended) => { h with store, unstarted := h.unstarted ++ ended.pidfd.toList }
    | .error _ => h
  | .failRunning id endedAtNs exit failureCause =>
    h.endRunning id (h.store.failRunningJob id endedAtNs exit failureCause)
  | .abandon id endedAtNs failureCause =>
    h.endRunning id (h.store.abandonJob id endedAtNs failureCause)
  | .takeReleased => { h with
    store := h.store.takeReleasedPidfds.2, taken := h.taken ++ h.store.takeReleasedPidfds.1 }

/-- The record of `id` is that of a running job with the descriptor. -/
def Holds (jobs : JobStore) (id : JobId) (pidfd : ℤ) : Prop :=
  (jobs.get id).any (fun job => job.state = .running ∧ job.pidfd = some pidfd) = true

instance (jobs : JobStore) (id : JobId) (pidfd : ℤ) : Decidable (Holds jobs id pidfd) := by
  unfold Holds
  infer_instance

/-- What holds after every sequence of calls. -/
structure Sound : Prop where
  indexed : h.store.Indexed
  live : h.store.Live
  /-- Each descriptor is as often in its job's record or among those removed as it was handed in. -/
  once : ∀ id pidfd, h.handed.count (id, pidfd) =
    (if Holds h.store id pidfd then 1 else 0) + h.removed.count (id, pidfd)
  /-- What was removed has been taken, or waits to be, and nothing else has. -/
  released : ∀ pidfd, (h.taken ++ h.store.releasedPidfds).count pidfd =
    (h.removed.map (·.2)).count pidfd + h.unstarted.count pidfd

variable {h}

theorem sound_new : Sound {} where
  indexed := indexed_new
  live := live_new
  once := by simp [Holds, JobStore.new, JobStore.get]
  released := by simp [JobStore.new]

theorem holds_iff : Holds jobs id pidfd ↔
    ∃ job, jobs.get id = some job ∧ job.state = .running ∧ job.pidfd = some pidfd := by
  unfold Holds
  rw [Option.any_eq_true]
  simp only [decide_eq_true_eq]

theorem holds_congr {after : JobStore}
    (same : ∀ id job, job.state = .running → (jobs.get id = some job ↔ after.get id = some job))
    (id : JobId) (pidfd : ℤ) : Holds jobs id pidfd ↔ Holds after id pidfd := by
  rw [holds_iff, holds_iff]
  constructor
  · rintro ⟨job, got, running, descriptor⟩
    exact ⟨job, (same id job running).mp got, running, descriptor⟩
  · rintro ⟨job, got, running, descriptor⟩
    exact ⟨job, (same id job running).mpr got, running, descriptor⟩

theorem Sound.create (sound : h.Sound)
    (ran : h.store.createJob job = .ok store) : Sound { h with store } := by
  obtain ⟨fresh, created, records, released, -⟩ := createJob_ok ran
  refine ⟨sound.indexed.created ran, sound.live.created ran, fun id pidfd => ?_, ?_⟩
  · have same : Holds h.store id pidfd ↔ Holds store id pidfd := by
      refine holds_congr (fun other job' running => ?_) id pidfd
      rw [records]
      split_ifs with here
      · subst here
        rw [fresh]
        constructor
        · nofun
        · rintro ⟨⟩
          rw [created] at running
          cases running
      · rfl
    rw [sound.once id pidfd, if_congr same rfl rfl]
  · rw [released]
    exact sound.released

/-- A descriptor is held once more when one store has a running job that the other has not. -/
theorem count_holds {more : JobStore} (fewer : JobStore) (pidfd : ℤ) (free : ∀ fd, ¬ Holds fewer id fd)
    (held : ∀ fd, Holds more id fd ↔ fd = pidfd)
    (away : ∀ other, id ≠ other → more.get other = fewer.get other) (other : JobId) (fd : ℤ) :
    (if Holds more other fd then 1 else 0) =
      (if Holds fewer other fd then 1 else 0) + [(id, pidfd)].count (other, fd) := by
  by_cases here : id = other
  · subst here
    rw [if_neg (free fd), if_congr (held fd) rfl rfl]
    by_cases same : fd = pidfd
    · simp [same]
    · simp [same, Ne.symm same]
  · have same : Holds more other fd ↔ Holds fewer other fd := by
      unfold Holds
      rw [away other here]
    rw [if_congr same rfl rfl]
    simp [here]

theorem Sound.setTokenSummary {tokenSummary : TokenSummary} (sound : h.Sound) :
    Sound { h with store := h.store.setTokenSummary id tokenSummary } := by
  obtain same | ⟨job, known, records, active, released⟩ :=
    setTokenSummary_cases h.store id tokenSummary
  · rw [same]
    exact sound
  refine ⟨sound.indexed.replaced known records rfl rfl active, fun other job' got => ?_,
    fun other fd => ?_, fun fd => released ▸ sound.released fd⟩
  · rw [records] at got
    split_ifs at got with here
    · cases got
      obtain ⟨keyed, state, process⟩ := sound.live id job known
      exact ⟨keyed.trans here, state, process⟩
    · exact sound.live _ _ got
  · have same : Holds h.store other fd ↔ Holds (h.store.setTokenSummary id tokenSummary) other fd := by
      unfold Holds
      rw [records]
      split_ifs with here
      · rw [← here, known]
        rfl
      · rfl
    rw [sound.once, if_congr same rfl rfl]

theorem Sound.start (sound : h.Sound) : Sound (h.start id pid pidfd startedAtNs) := by
  unfold JobHistory.start
  split
  swap
  · exact sound
  next store ran =>
  obtain ⟨job, started, known, -, -, records, -, created, -, is, released⟩ := startJob_ok ran
  refine ⟨sound.indexed.started ran, sound.live.started ran, fun other fd => ?_, ?_⟩
  · -- the job was not running before, and has exactly this descriptor now
    rw [List.count_append, sound.once, count_holds h.store pidfd (fun fd => ?_) (fun fd => ?_)
      (fun other away => (records other).trans (if_neg away))]
    · dsimp only
      omega
    · rw [holds_iff]
      rintro ⟨job', got, running, -⟩
      cases known.symm.trans got
      cases created.symm.trans running
    · rw [holds_iff]
      constructor
      · rintro ⟨job', got, -, descriptor⟩
        rw [records, if_pos rfl] at got
        cases got
        rw [is] at descriptor
        exact (Option.some.inj descriptor).symm
      · rintro rfl
        exact ⟨started, by rw [records, if_pos rfl], by rw [is], by rw [is]⟩
  · rw [released]
    exact sound.released

theorem Sound.failBeforeStart {out : JobStore × JobRecord}
    (sound : h.Sound) (done : JobStore.EndedAs h.store id .created out job) :
    Sound { h with store := out.1, unstarted := h.unstarted ++ out.2.pidfd.toList } := by
  have ended := JobStore.Ended.of_finished done.toFinished
  refine ⟨sound.indexed.finished done.toFinished, sound.live.ended ended, fun other fd => ?_,
    fun fd => ?_⟩
  · have same : Holds h.store other fd ↔ Holds out.1 other fd := by
      refine holds_congr (fun other job' running => ⟨fun got => ?_, ended.sub⟩) other fd
      rw [done.records]
      split_ifs with here
      · subst here
        cases done.known.symm.trans got
        rw [done.state] at running
        cases running
      · exact got
    rw [sound.once other fd, if_congr same rfl rfl]
  · have before := sound.released fd
    dsimp only
    rw [List.count_append] at before ⊢
    rw [done.released, done.pidfd, List.count_append, List.count_append]
    omega

theorem Sound.endRunning {result : Except JobStoreError (JobStore × JobRecord)} (sound : h.Sound)
    (ends : ∀ out, result = .ok out → ∃ job, JobStore.EndedAs h.store id .running out job) :
    Sound (h.endRunning id result) := by
  unfold JobHistory.endRunning
  split
  · next store last =>
    obtain ⟨job, done⟩ := ends _ rfl
    have ended := JobStore.Ended.of_finished done.toFinished
    obtain ⟨-, descriptor, -⟩ := (sound.live _ _ done.known).process done.state
    obtain ⟨pidfd, has⟩ := Option.isSome_iff_exists.mp descriptor
    rw [done.pidfd, has]
    refine ⟨sound.indexed.finished done.toFinished, sound.live.ended ended, fun other fd => ?_,
      fun fd => ?_⟩
    · rw [sound.once, count_holds store pidfd (fun fd => ?_) (fun fd => ?_)
        (fun other away => ((done.records other).trans (if_neg away)).symm), List.count_append]
      · simp only [Option.map_some, Option.toList_some]
        omega
      · rw [holds_iff]
        rintro ⟨job', got, -⟩
        rw [done.records, if_pos rfl] at got
        cases got
      · rw [holds_iff]
        constructor
        · rintro ⟨job', got, -, descriptor'⟩
          cases done.known.symm.trans got
          exact Option.some.inj (descriptor'.symm.trans has)
        · rintro rfl
          exact ⟨job, done.known, done.state, has⟩
    · have before := sound.released fd
      dsimp only
      rw [List.count_append] at before ⊢
      rw [done.released, has, List.count_append, List.map_append, List.count_append]
      have one : (Option.toList (some pidfd)).count fd =
          ((Option.map (id, ·) (some pidfd)).toList.map (·.2)).count fd := rfl
      omega
  · exact sound

theorem Sound.take (sound : h.Sound) : Sound (h.perform .takeReleased) where
  indexed := ⟨sound.indexed.mem_active, sound.indexed.nodup, sound.indexed.oneMain⟩
  live := sound.live
  once := sound.once
  released := by
    unfold JobHistory.perform takeReleasedPidfds
    simpa using sound.released

theorem Sound.perform (sound : h.Sound) (call : JobCall) : Sound (h.perform call) := by
  cases call with
  | create job =>
    unfold JobHistory.perform
    dsimp only
    split
    · next store ran => exact sound.create ran
    · exact sound
  | start => exact sound.start
  | startWithTokenSummary => exact sound.setTokenSummary.start
  | failBeforeStart id endNs cause =>
    unfold JobHistory.perform
    dsimp only
    split
    · next store ended ran =>
      obtain ⟨job, done⟩ := failJobBeforeStart_ok ran
      exact sound.failBeforeStart done
    · exact sound
  | complete id endNs exitCode =>
    exact sound.endRunning fun _ ran => completeJob_ok ran
  | failRunning id endNs exit cause =>
    exact sound.endRunning fun _ ran => failRunningJob_ok ran
  | abandon id endNs cause =>
    exact sound.endRunning fun _ ran => abandonJob_ok ran
  | takeReleased => exact sound.take

/-- After any calls, made on a new store, failing ones included: the records are those of live jobs, the
lists name the jobs of each service, one of them its main job at most, and each descriptor that a start
was given is held by the record of its job or was released, once. -/
theorem job_store_sound (calls : List JobCall) :
    let h := runCalls perform {} calls
    (∀ id job, h.store.get id = some job → job.state = .created ∨ job.state = .running) ∧
    (∀ (service : String) (id : JobId), id ∈ h.store.activeForService service ↔
      ∃ job, h.store.get id = some job ∧ job.service = some service) ∧
    (∀ service : String, (h.store.activeForService service).Nodup) ∧
    (∀ (service : String) (id id' : JobId) (job job' : JobRecord), h.store.get id = some job →
      h.store.get id' = some job' → job.service = some service → job'.service = some service →
      job.jobType = .serviceMain → job'.jobType = .serviceMain → id = id') ∧
    (∀ id pidfd, h.handed.count (id, pidfd) =
      (if Holds h.store id pidfd then 1 else 0) + h.removed.count (id, pidfd)) ∧
    ∀ pidfd, (h.taken ++ h.store.releasedPidfds).count pidfd =
      (h.removed.map (·.2)).count pidfd + h.unstarted.count pidfd := by
  have sound : Sound (runCalls perform {} calls) :=
    invariant_of_calls Sound (fun _ call held => held.perform call) calls sound_new
  exact ⟨fun _ _ known => (sound.live _ _ known).state, fun _ _ => sound.indexed.mem_active, sound.indexed.nodup,
    fun _ _ _ _ _ => sound.indexed.oneMain, sound.once, sound.released⟩

end JobHistory

end Peinit
