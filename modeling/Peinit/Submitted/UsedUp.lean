import Peinit.Submitted.Deadlines
import Peinit.Submitted.Life

/-!
# Due deadlines of submitted jobs

Acting on a deadline that is due has to use it up, or the supervisor comes back to it on every turn.
A post-kill deadline is not used up before the process is set up, nor by a grace of no length.
-/

namespace Peinit

open SubmittedJobStore Option

namespace SubmittedLife

open ShutdownWork

/-- The deadlines of the job `id`, if it is there. -/
def deadlinesOf (work : ShutdownWork) (id : JobId) : List SubmittedJobDeadline :=
  match work.submitted.get id with
  | none => []
  | some entry => entryDeadlines entry ((work.jobs.get id).bind (·.startedAtNs))

/-- The job is gone, or has no deadline of the kind, or only later ones. -/
def UsedUp (work : ShutdownWork) (id : JobId) (kind : SubmittedJobDeadlineKind) (nowNs : ℕ) : Prop :=
  ∀ deadline ∈ deadlinesOf work id, deadline.kind = kind → nowNs < deadline.dueAtNs

instance (work : ShutdownWork) (id : JobId) (kind : SubmittedJobDeadlineKind) (nowNs : ℕ) :
    Decidable (UsedUp work id kind nowNs) :=
  inferInstanceAs (Decidable (∀ deadline ∈ deadlinesOf work id,
    deadline.kind = kind → nowNs < deadline.dueAtNs))

variable {answers : ProcessAnswers} {nowNs killSecs : ℕ}
  {w : ShutdownWork} {id : JobId} {kind : SubmittedJobDeadlineKind} {entry : SubmittedJobEntry}

theorem mem_due (sound : Sound nowNs w) {deadline : SubmittedJobDeadline} :
    deadline ∈ w.dueSubmittedJobDeadlines nowNs ↔ ∃ entry, w.submitted.get deadline.jobId = some entry ∧
      DeadlineOf entry ((w.jobs.get deadline.jobId).bind (·.startedAtNs)) deadline ∧
      deadline.dueAtNs ≤ nowNs := by
  have own : ∀ {entry : SubmittedJobEntry} {started : Option ℕ}, DeadlineOf entry started deadline →
      deadline.jobId = entry.jobId := by
    intro entry started is
    cases is <;> rfl
  unfold dueSubmittedJobDeadlines dueDeadlines
  simp only [List.mem_mergeSort, List.mem_filter, List.mem_flatMap, decide_eq_true_eq,
    mem_entryDeadlines, OrdMap.mem_values]
  constructor
  · rintro ⟨⟨entry, ⟨id, got⟩, is⟩, due⟩
    have same : deadline.jobId = id := (own is).trans (sound.keyed got)
    exact ⟨entry, same ▸ got, own is ▸ is, due⟩
  · rintro ⟨entry, got, is, due⟩
    exact ⟨⟨entry, ⟨deadline.jobId, got⟩, own is ▸ is⟩, due⟩

theorem deadlinesOf_insert (started : Option ℕ) (same : (w.jobs.get id).bind (·.startedAtNs) = started) :
    deadlinesOf { w with submitted := ⟨w.submitted.entries.insert id entry⟩ } id =
      entryDeadlines entry started := by
  unfold deadlinesOf
  rw [get_insert_entry, if_pos rfl, ← same]

theorem usedUp_insert (away : ∀ started due, DeadlineOf entry started due →
      due.kind = kind → nowNs < due.dueAtNs) :
    UsedUp { w with submitted := ⟨w.submitted.entries.insert id entry⟩ } id kind nowNs := by
  intro due mem
  rw [deadlinesOf_insert _ rfl, mem_entryDeadlines] at mem
  exact away _ due mem

/-! ## One kind after the other -/

theorem cleanup_usedUp (got : w.submitted.get id = some entry) :
    ∃ next, w.processSubmittedDeadline answers id .cgroupCleanup nowNs killSecs =
      .ok (next, true) ∧ UsedUp next id .cgroupCleanup nowNs := by
  unfold processSubmittedDeadline SubmittedJobStore.modify
  simp only [got]
  refine ⟨_, rfl, usedUp_insert fun started deadline is kind => ?_⟩
  cases is with
  | cleanup due busy => cases busy
  | _ => cases kind

theorem stopKill_usedUp (got : w.submitted.get id = some entry) :
    ∃ next, w.processSubmittedDeadline answers id .stopKill nowNs killSecs =
      .ok (next, true) ∧ UsedUp next id .stopKill nowNs := by
  unfold processSubmittedDeadline onSubmitted recordKill
  simp only [got]
  refine ⟨_, rfl, usedUp_insert fun started due is kind => ?_⟩
  cases is with
  | stopKill stop live stopped phase =>
    obtain ⟨before, -, rfl⟩ := map_eq_some_iff.mp stopped
    cases phase
  | _ => cases kind

theorem stop_usedUp (sound : Sound nowNs w) {cause : SubmittedJobCause} {job : JobRecord}
    (got : w.submitted.get id = some entry) (live : entry.outcome = none) (going : entry.stop = none)
    (known : w.jobs.get id = some job) (running : job.state = .running) :
    ∃ next, w.beginSubmittedStop answers id cause nowNs killSecs = .ok (next, true) ∧
      ∀ due ∈ deadlinesOf next id, due.kind ≠ .timeout ∧ due.kind ≠ .readinessTimeout := by
  obtain ⟨pid, pidfd, -⟩ := (sound.live _ _ known).process running
  have target : (job.pid.isNone || job.pidfd.isNone) = false := by
    rw [isNone_eq_false_iff.mpr pid, isNone_eq_false_iff.mpr pidfd]
    rfl
  unfold beginSubmittedStop onSubmitted beginStop
  simp only [got, known, live, going, running, target, isSome_none, Bool.or_self, Bool.and_false,
    Bool.false_eq_true, if_false, reduceCtorEq]
  refine ⟨_, rfl, fun due mem => ?_⟩
  rw [deadlinesOf_insert _ rfl, mem_entryDeadlines] at mem
  cases mem with
  | timeout since live running => cases running
  | readiness since live running => cases running
  | _ => exact ⟨nofun, nofun⟩

theorem saturatingAdd_later (added : ℕ) :
    nowNs < saturatingAdd nowNs added ↔ added ≠ 0 ∧ nowNs < u64Max := by
  unfold saturatingAdd
  omega

/-- When acting on a deadline uses it up. -/
def CanBeUsedUp (answers : ProcessAnswers) (postKillTimeoutSecs nowNs : ℕ) (w : ShutdownWork)
    (id : JobId) (kind : SubmittedJobDeadlineKind) : Prop :=
  kind = .postKill → ∀ entry, w.submitted.get id = some entry →
    (∃ job, w.jobs.get id = some job ∧ job.state = .running) ∧
    (answers.cgroupPopulated entry.cgroupId = true ∨
      wrappingMul postKillTimeoutSecs nanosPerSec ≠ 0 ∧ nowNs < u64Max)

theorem ended_usedUp (retentionNs nowNs : ℕ) {ended : JobRecord} (same : ended.id = id)
    (got : w.submitted.get id = some entry) (live : entry.outcome = none)
    (endedAt : ended.endedAtNs.isSome = true) :
    ∃ next, w.onSubmitted (·.recordTerminal ended retentionNs) = .ok next ∧
      UsedUp next id .postKill nowNs := by
  obtain ⟨endNs, ends⟩ := isSome_iff_exists.mp endedAt
  unfold onSubmitted recordTerminal
  simp only [same, got, live, ends]
  refine ⟨_, rfl, usedUp_insert fun started due is kind => ?_⟩
  cases is with
  | postKill stop live => cases live
  | _ => cases kind

theorem usedUp_killed_iff {stop : SubmittedJobStop} (got : w.submitted.get id = some entry)
    (live : entry.outcome = none) (stopped : entry.stop = some stop) (phase : stop.phase = .killed) :
    UsedUp w id .postKill nowNs ↔ nowNs < stop.dueAtNs := by
  unfold UsedUp deadlinesOf
  rw [got]
  constructor
  · intro used
    exact used ⟨entry.jobId, .postKill, stop.dueAtNs⟩
      (mem_entryDeadlines.mpr (.postKill stop live stopped phase)) rfl
  · intro later due mem same
    cases mem_entryDeadlines.mp mem with
    | postKill stop' live' stopped' =>
      cases stopped.symm.trans stopped'
      exact later
    | _ => cases same

theorem rearmed_usedUp_iff (nowNs killSecs : ℕ) {stop : SubmittedJobStop}
    (got : w.submitted.get id = some entry) (live : entry.outcome = none) (stopped : entry.stop = some stop) :
    ∃ next, w.onSubmitted (·.recordKill id nowNs killSecs) = .ok next ∧
      (UsedUp next id .postKill nowNs ↔ wrappingMul killSecs nanosPerSec ≠ 0 ∧ nowNs < u64Max) := by
  let killed := { entry with
    stop := some { stop with
      phase := .killed
      dueAtNs := saturatingAdd nowNs (wrappingMul killSecs nanosPerSec) } }
  have kill : w.onSubmitted (·.recordKill id nowNs killSecs) =
      .ok { w with submitted := ⟨w.submitted.entries.insert id killed⟩ } := by
    simp only [onSubmitted, recordKill, got, stopped]
    rfl
  have there : SubmittedJobStore.get ⟨w.submitted.entries.insert id killed⟩ id = some killed :=
    (get_insert_entry _ _ _).trans (if_pos rfl)
  have still : killed.outcome = none := live
  exact ⟨_, kill, (usedUp_killed_iff there still rfl rfl).trans (saturatingAdd_later _)⟩

/-- The job runs although it was killed, and its cgroup is populated: it is given up. -/
def GivenUp (answers : ProcessAnswers) (work : ShutdownWork) (id : JobId) : Prop :=
  (∃ job, work.jobs.get id = some job ∧ job.state = .running) ∧
    ∃ entry, work.submitted.get id = some entry ∧ answers.cgroupPopulated entry.cgroupId = true

/-- What acting on a post-kill deadline comes to. -/
theorem postKill_spec (sound : Sound nowNs w) {stop : SubmittedJobStop}
    (got : w.submitted.get id = some entry) (live : entry.outcome = none)
    (stopped : entry.stop = some stop) (phase : stop.phase = .killed) (due : stop.dueAtNs ≤ nowNs) :
    ∃ next acted, w.processSubmittedDeadline answers id .postKill nowNs killSecs =
      .ok (next, acted) ∧
      (UsedUp next id .postKill nowNs ↔ CanBeUsedUp answers killSecs nowNs w id .postKill) ∧
      (acted = true ↔ GivenUp answers w id) := by
  have dispatch : w.processSubmittedDeadline answers id .postKill nowNs killSecs =
      w.processSubmittedPostKill answers id entry.cgroupId nowNs killSecs := by
    unfold processSubmittedDeadline
    rw [got]
  unfold CanBeUsedUp GivenUp
  simp only [dispatch, got, Option.some.injEq, forall_const, forall_eq', exists_eq_left']
  unfold processSubmittedPostKill
  by_cases running : ∃ job, w.jobs.get id = some job ∧ job.state = .running
  · obtain ⟨job, known, state⟩ := running
    have runs : ∃ job, w.jobs.get id = some job ∧ job.state = .running := ⟨job, known, state⟩
    have goes_on : ¬ (!(w.jobs.get id).any fun record => decide (record.state = .running)) = true := by
      rw [known, any_some, state]
      exact Bool.false_ne_true
    rw [if_neg goes_on]
    by_cases populated : answers.cgroupPopulated entry.cgroupId = true
    · -- the job is given up
      rw [if_pos populated]
      obtain ⟨⟨jobs, ended⟩, abandon⟩ : ∃ out,
          w.jobs.abandonJob id nowNs "process survived SIGKILL" = .ok out :=
        JobStore.finishJob_of_state known state (sound.fits id job known).created fun since is =>
          ((sound.fits id job known).started since is).2
      obtain ⟨job', done⟩ := JobStore.abandonJob_ok abandon
      have same : ended.id = id := done.id.trans (sound.live _ _ done.known).keyed
      have blamed : (w.submitted.modify id fun entry =>
          { entry with cause := some .processUnkillable }).get id =
          some { entry with cause := some .processUnkillable } := by
        unfold SubmittedJobStore.modify
        rw [got]
        exact (get_insert_entry _ _ _).trans (if_pos rfl)
      obtain ⟨next, recorded, used⟩ := ended_usedUp defaultSubmittedJobRetentionNs nowNs (w := { w with
          jobs, submitted := w.submitted.modify id fun entry =>
            { entry with cause := some .processUnkillable } }) same blamed live done.endedAt
      refine ⟨next, true, ?_, iff_of_true used ⟨runs, .inl populated⟩, iff_of_true rfl ⟨runs, populated⟩⟩
      dsimp only
      rw [abandon]
      dsimp only [Except.mapError, bind, Except.bind]
      rw [recorded]
      rfl
    · rw [if_neg populated]
      obtain ⟨next, rearmed, used⟩ := rearmed_usedUp_iff nowNs killSecs got live stopped
      refine ⟨next, false, by rw [rearmed]; rfl, used.trans ?_, by simp [populated]⟩
      exact ⟨fun later => ⟨runs, .inr later⟩, fun can => can.2.resolve_left populated⟩
  · -- nothing is done, and the deadline is as due as it was
    have stays : (!(w.jobs.get id).any fun record => decide (record.state = .running)) = true := by
      rw [Bool.not_eq_true', ← Bool.not_eq_true, any_eq_true]
      rintro ⟨job, known, state⟩
      exact running ⟨job, known, of_decide_eq_true state⟩
    rw [if_pos stays]
    refine ⟨w, false, rfl, ?_, iff_of_false nofun fun given => running given.1⟩
    rw [usedUp_killed_iff got live stopped phase]
    exact iff_of_false (not_lt.mpr due) fun can => running can.1

/-- What acting on a deadline comes to: whether it is used up, and whether that counts. -/
theorem process_spec (answers : ProcessAnswers) (killSecs : ℕ) (sound : Sound nowNs w) {deadline : SubmittedJobDeadline}
    (listed : deadline ∈ w.dueSubmittedJobDeadlines nowNs) :
    ∃ next acted, w.processSubmittedDeadline answers deadline.jobId deadline.kind nowNs killSecs =
        .ok (next, acted) ∧
      (UsedUp next deadline.jobId deadline.kind nowNs ↔
        CanBeUsedUp answers killSecs nowNs w deadline.jobId deadline.kind) ∧
      (acted = true ↔ (deadline.kind = .postKill → GivenUp answers w deadline.jobId)) := by
  obtain ⟨entry, got, is, due⟩ := (mem_due sound).mp listed
  have always : ∀ {kind : SubmittedJobDeadlineKind} {next : ShutdownWork}, kind ≠ .postKill →
      UsedUp next deadline.jobId kind nowNs →
      (UsedUp next deadline.jobId kind nowNs ↔ CanBeUsedUp answers killSecs nowNs w deadline.jobId kind) ∧
      (true = true ↔ (kind = .postKill → GivenUp answers w deadline.jobId)) :=
    fun other used => ⟨iff_of_true used fun is => absurd is other, iff_of_true rfl fun is => absurd is other⟩
  have stops : ∀ {since : ℕ} {cause : SubmittedJobCause}, entry.outcome = none → entry.stop = none →
      (w.jobs.get deadline.jobId).bind (·.startedAtNs) = some since →
      ∃ next, w.beginSubmittedStop answers deadline.jobId cause nowNs killSecs = .ok (next, true) ∧
        ∀ due ∈ deadlinesOf next deadline.jobId, due.kind ≠ .timeout ∧ due.kind ≠ .readinessTimeout := by
    intro since cause live running started
    obtain ⟨job, known, startedAt⟩ := Option.bind_eq_some_iff.mp started
    exact stop_usedUp sound got live running known ((sound.fits _ _ known).started since startedAt).1
  cases is with
  | cleanup =>
    obtain ⟨next, ran, used⟩ := cleanup_usedUp got
    exact ⟨next, true, ran, always nofun used⟩
  | stopKill =>
    obtain ⟨next, ran, used⟩ := stopKill_usedUp got
    exact ⟨next, true, ran, always nofun used⟩
  | postKill stop live stopped phase =>
    obtain ⟨next, acted, ran, used, counts⟩ := postKill_spec sound got live stopped phase due
    exact ⟨next, acted, ran, used, counts.trans ⟨fun given _ => given, fun given => given rfl⟩⟩
  | timeout since live running started =>
    obtain ⟨next, ran, others⟩ := stops live running started
    exact ⟨next, true, ran, always nofun fun d listed kind => absurd kind (others d listed).1⟩
  | readiness since live running started =>
    obtain ⟨next, ran, others⟩ := stops live running started
    exact ⟨next, true, ran, always nofun fun d listed kind => absurd kind (others d listed).2⟩

end SubmittedLife

end Peinit
