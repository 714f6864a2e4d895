import Peinit.Job.Ownership
import Peinit.Lib.Reuse
import Peinit.Shutdown.Exit

/-!
# Exits that come before their job

A launched process tells by a pipe whether it could be set up, and its job carries the process id only
after that. An exit that is reaped before is held and replayed at the end of the turn in which the job
is started. The kernel's side is part of the state: whose the processes are that have not been reaped,
and what was reported of them. What a job's end means for its service is left out.
-/

namespace Peinit

open OrdMap JobStore List Std.ExtTreeMap

variable {pid endNs startedAtNs : ℕ} {job : JobRecord} {jobs : JobStore} {id : JobId}
  {pidfd fd : ℤ} {child : ℕ × ChildExitStatus} {setup : PendingLaunchSetup}

structure ProcessRun where
  jobs : JobStore := .new
  /-- The jobs that have been created and are to be launched. -/
  pendingLaunches : List JobId := []
  pendingProcessSetups : OrdMap ℤ PendingLaunchSetup := ∅
  reapedBeforeSetup : OrdMap ℕ ChildExitStatus := ∅
  nowNs : ℕ := 0
  /-- Every id that a job was created with. -/
  allocated : List JobId := []
  /-- The launched processes that have not been reaped, and the jobs they were launched for. -/
  processes : OrdMap ℕ JobId := ∅
  /-- What the kernel has reported about the process of a job. -/
  reported : List (JobId × ChildExitStatus) := []
  /-- What was recorded as the end of a job. -/
  applied : List (JobId × ChildExitStatus) := []

inductive ProcessEvent where
  | created (id : JobId) (service : Option String) (jobType : JobType)
  /-- A process is launched for the job; without a pipe for its setup it is set up at once. -/
  | launched (id : JobId) (pid : ℕ) (pidfd : ℤ) (setupStatusFd : Option ℤ)
  | setupSucceeded (setupStatusFd : ℤ)
  | setupFailed (setupStatusFd : ℤ) (cause : String)
  | setupCancelled (setupStatusFd : ℤ) (cause : String)
  /-- A child, launched here or not, is reaped. -/
  | reaped (pid : ℕ) (status : ChildExitStatus)
  /-- The end of a turn. -/
  | replayed
  /-- A job is given up without regard to its process. -/
  | givenUp (id : JobId) (cause : String)

/-- End the record of a job whose process was reaped; `isSuccess` says which exit codes are a success
for it. -/
def JobStore.endReapedJob (isSuccess : JobRecord → ℤ → Bool) (jobs : JobStore) (id : JobId)
    (status : ChildExitStatus) (endedAtNs : ℕ) : Except JobStoreError (JobStore × JobRecord) :=
  match status with
  | .exited code =>
    if (jobs.get id).any (isSuccess · code) then jobs.completeJob id endedAtNs code
    else jobs.failRunningJob id endedAtNs (some (.exitCode code)) ("ProcessExit: code " ++ toString code)
  | .signaled signal coreDumped =>
    jobs.failRunningJob id endedAtNs (some (.signal signal)) (signalFailureCause signal coreDumped)

/-- End the record of a job in whichever state it is. -/
def JobStore.retireJob (jobs : JobStore) (id : JobId) (endedAtNs : ℕ) (cause : String) :
    Except JobStoreError (JobStore × JobRecord) :=
  if (jobs.get id).any (·.state = .running) then jobs.failRunningJob id endedAtNs none cause
  else jobs.failJobBeforeStart id endedAtNs cause

namespace ProcessRun

variable (isSuccess : JobRecord → ℤ → Bool) (run : ProcessRun)

def hasPendingSetupForPid (pid : ℕ) : Bool := run.pendingProcessSetups.values.any (·.pid = pid)

def applyReapedChild (run : ProcessRun) (child : ℕ × ChildExitStatus) : ProcessRun :=
  match run.jobs.activeJobByPid child.1 with
  | none =>
    if run.hasPendingSetupForPid child.1 then
      { run with reapedBeforeSetup := run.reapedBeforeSetup.insert child.1 child.2 }
    else run
  | some id => match run.jobs.endReapedJob isSuccess id child.2 run.nowNs with
    | .ok (jobs, _) => { run with jobs, applied := run.applied ++ [(id, child.2)] }
    | .error _ => run

/-- The held exits whose job is there now. -/
def readyDeferredReaps : List (ℕ × ChildExitStatus) :=
  run.reapedBeforeSetup.toList.filter fun child => (run.jobs.activeJobByPid child.1).isSome

def takeReadyDeferredReaps : ProcessRun :=
  { run with
    reapedBeforeSetup :=
      (run.readyDeferredReaps.map (·.1)).foldl (fun held pid => held.erase pid) run.reapedBeforeSetup }

def replayDeferredReaps : ProcessRun :=
  run.readyDeferredReaps.foldl (applyReapedChild isSuccess) run.takeReadyDeferredReaps

/-- The process `pid` is the job's from now on. -/
def launch (id : JobId) (pid : ℕ) : ProcessRun :=
  { run with
    pendingLaunches := run.pendingLaunches.erase id
    processes := run.processes.insert pid id }

/-- A setup is taken off together with its job, if the job can be ended. -/
def dropSetup (setupStatusFd : ℤ) (ended : Except JobStoreError (JobStore × JobRecord)) : ProcessRun :=
  match ended with
  | .ok (jobs, _) => { run with
    jobs, pendingProcessSetups := run.pendingProcessSetups.erase setupStatusFd }
  | .error _ => run

/-- What is refused changes nothing. -/
def handle : ProcessEvent → ProcessRun
  | .created id service jobType =>
    if id ∈ run.allocated then run
    else match run.jobs.createJob { id, service, jobType, createdAtNs := run.nowNs } with
      | .ok jobs => { run with
        jobs, pendingLaunches := run.pendingLaunches ++ [id], allocated := id :: run.allocated }
      | .error _ => run
  | .launched id pid pidfd setupStatusFd =>
    -- the kernel gives out no process id and no descriptor that is in use
    if id ∈ run.pendingLaunches ∧ (run.jobs.get id).any (·.state = .created) ∧ pid ∉ run.processes then
      match setupStatusFd with
      | some fd =>
        if fd ∈ run.pendingProcessSetups then run
        else { run.launch id pid with
          pendingProcessSetups := run.pendingProcessSetups.insert fd ⟨id, pid, pidfd, run.nowNs⟩ }
      | none => match run.jobs.startJob id pid pidfd run.nowNs with
        | .ok jobs => { run.launch id pid with jobs }
        | .error _ => run
    else run
  | .setupSucceeded fd => match run.pendingProcessSetups[fd]? with
    | none => run
    | some setup => match run.jobs.startJob setup.jobId setup.pid setup.pidfd setup.launchedAtNs with
      | .ok jobs => { run with jobs, pendingProcessSetups := run.pendingProcessSetups.erase fd }
      | .error _ => run
  | .setupFailed fd cause => match run.pendingProcessSetups[fd]? with
    | none => run
    | some setup =>
      -- of a reload hook this is an error, and nothing is kept
      if (run.jobs.get setup.jobId).any (·.jobType = .reloadHook) then run
      else run.dropSetup fd (run.jobs.failJobBeforeStart setup.jobId run.nowNs cause)
  | .setupCancelled fd cause => match run.pendingProcessSetups[fd]? with
    | none => run
    | some setup => run.dropSetup fd (run.jobs.retireJob setup.jobId run.nowNs cause)
  | .reaped pid status =>
    let child := (pid, status)
    match run.processes[pid]? with
    | some id => applyReapedChild isSuccess { run with
        processes := run.processes.erase pid, reported := run.reported ++ [(id, status)] } child
    | none => applyReapedChild isSuccess run child
  | .replayed => run.replayDeferredReaps isSuccess
  | .givenUp id cause => match run.jobs.retireJob id run.nowNs cause with
    | .ok (jobs, _) => { run with jobs }
    | .error _ => run

/-- An event, and the time since the one before. -/
def perform (call : ℕ × ProcessEvent) : ProcessRun :=
  { run with nowNs := run.nowNs + call.1 }.handle isSuccess call.2

/-! ## Who has a process id -/

/-- The job has the process id: in its record, or in the setup of its process. -/
def Has (pid : ℕ) (id : JobId) : Prop := (∃ job, run.jobs.get id = some job ∧ job.pid = some pid) ∨
    ∃ (fd : ℤ) (setup : PendingLaunchSetup),
      run.pendingProcessSetups[fd]? = some setup ∧ setup.pid = pid ∧ setup.jobId = id

variable {run}

theorem hasPendingSetupForPid_iff : run.hasPendingSetupForPid pid = true ↔
    ∃ (fd : ℤ) (setup : PendingLaunchSetup),
      run.pendingProcessSetups[fd]? = some setup ∧ setup.pid = pid := by
  simp only [hasPendingSetupForPid, any_eq_true, mem_values, decide_eq_true_eq]
  constructor
  · rintro ⟨setup, ⟨fd, got⟩, same⟩
    exact ⟨fd, setup, got, same⟩
  · rintro ⟨fd, setup, got, same⟩
    exact ⟨setup, ⟨fd, got⟩, same⟩

end ProcessRun

namespace JobStore

theorem activeJobByPid_eq_some (got : jobs.activeJobByPid pid = some id) :
    ∃ job, jobs.get id = some job ∧ job.pid = some pid := by
  obtain ⟨⟨id, job⟩, first, rfl⟩ := Option.map_eq_some_iff.mp got
  have same := find?_some first
  exact ⟨job, (mem_toList _ _ _).mp (mem_of_find?_eq_some first), of_decide_eq_true same⟩

theorem activeJobByPid_eq_none (nobody : jobs.activeJobByPid pid = none)
    (known : jobs.get id = some job) : job.pid ≠ some pid := by
  have none := find?_eq_none.mp (Option.map_eq_none_iff.mp nobody) (id, job)
    ((mem_toList _ _ _).mpr known)
  exact fun same => none (decide_eq_true same)

theorem retireJob_ok {cause : String} {out : JobStore × JobRecord}
    (ran : jobs.retireJob id endNs cause = .ok out) : ∃ job, Finished jobs id out.1 job := by
  unfold retireJob at ran
  split at ran
  · obtain ⟨job, ended⟩ := failRunningJob_ok ran
    exact ⟨job, ended.toFinished⟩
  · obtain ⟨job, ended⟩ := failJobBeforeStart_ok ran
    exact ⟨job, ended.toFinished⟩

theorem endReapedJob_of_running (isSuccess : JobRecord → ℤ → Bool)
    (status : ChildExitStatus) (known : jobs.get id = some job) (state : job.state = .running)
    (created : job.createdAtNs ≤ endNs)
    (started : ∀ startedAtNs, job.startedAtNs = some startedAtNs → startedAtNs ≤ endNs) :
    ∃ out, jobs.endReapedJob isSuccess id status endNs = .ok out ∧ Finished jobs id out.1 job := by
  have ended {result : Except JobStoreError (JobStore × JobRecord)}
      (some : ∃ out, result = .ok out)
      (ends : ∀ out, result = .ok out → ∃ job, EndedAs jobs id .running out job) :
      ∃ out, result = .ok out ∧ Finished jobs id out.1 job := by
    obtain ⟨out, ran⟩ := some
    obtain ⟨job', done⟩ := ends out ran
    cases known.symm.trans done.known
    exact ⟨out, ran, done.toFinished⟩
  unfold endReapedJob
  cases status with
  | exited code =>
    dsimp only
    split
    · exact ended (finishJob_of_state known state created started) fun _ => completeJob_ok
    · exact ended (finishJob_of_state known state created started) fun _ => failRunningJob_ok
  | signaled signal coreDumped =>
    exact ended (finishJob_of_state known state created started) fun _ => failRunningJob_ok

end JobStore

namespace ProcessRun

variable {isSuccess : JobRecord → ℤ → Bool} {run next : ProcessRun}

/-! ## One process for a job -/

/-- A job is waiting to be launched, or its process is being set up, or its record has the process id;
it is never two of these. -/
structure OrderlyAt (run : ProcessRun) (id : JobId) : Prop where
  timed : ∀ job, run.jobs.get id = some job → job.createdAtNs ≤ run.nowNs ∧
    ∀ startedAtNs, job.startedAtNs = some startedAtNs → startedAtNs ≤ run.nowNs
  created : ∀ job, run.jobs.get id = some job → job.state = .created → job.pid = none
  allocated : (run.jobs.get id).isSome ∨ id ∈ run.pendingLaunches ∨
    (∃ (fd : ℤ) (setup : PendingLaunchSetup),
      run.pendingProcessSetups[fd]? = some setup ∧ setup.jobId = id) → id ∈ run.allocated
  once : run.pendingLaunches.count id ≤ 1
  queued : id ∈ run.pendingLaunches → ∀ pid, ¬ run.Has pid id
  waits : ∀ (fd : ℤ) (setup : PendingLaunchSetup),
    run.pendingProcessSetups[fd]? = some setup → setup.jobId = id →
    setup.launchedAtNs ≤ run.nowNs ∧ (∀ job, run.jobs.get id = some job → job.pid = none) ∧
    ∀ (fd' : ℤ) (setup' : PendingLaunchSetup),
      run.pendingProcessSetups[fd']? = some setup' → setup'.jobId = id → fd = fd'

structure Orderly (run : ProcessRun) : Prop where
  live : run.jobs.Live
  each : ∀ id, run.OrderlyAt id

theorem orderly_new : Orderly {} :=
  ⟨live_new, fun _ => by constructor <;> simp [JobStore.new, JobStore.get]⟩

theorem OrderlyAt.mono (orderly : run.OrderlyAt id)
    (jobs : ∀ job, next.jobs.get id = some job → run.jobs.get id = some job)
    (setups : ∀ (fd : ℤ) (setup : PendingLaunchSetup), next.pendingProcessSetups[fd]? = some setup →
      setup.jobId = id → run.pendingProcessSetups[fd]? = some setup)
    (queue : next.pendingLaunches.count id = run.pendingLaunches.count id)
    (ids : id ∈ run.allocated → id ∈ next.allocated) (time : run.nowNs ≤ next.nowNs) :
    next.OrderlyAt id where
  timed job known := by
    obtain ⟨created, started⟩ := orderly.timed job (jobs job known)
    exact ⟨created.trans time, fun at' is => (started at' is).trans time⟩
  created job known := orderly.created job (jobs job known)
  allocated somewhere := by
    refine ids (orderly.allocated ?_)
    obtain known | queued | ⟨fd, setup, got, same⟩ := somewhere
    · obtain ⟨job, known⟩ := Option.isSome_iff_exists.mp known
      exact .inl (Option.isSome_of_eq_some (jobs job known))
    · exact .inr (.inl (count_pos_iff.mp (queue ▸ count_pos_iff.mpr queued)))
    · exact .inr (.inr ⟨fd, setup, setups fd setup got same, same⟩)
  once := queue.trans_le orderly.once
  queued mem pid has := by
    refine orderly.queued (count_pos_iff.mp (queue ▸ count_pos_iff.mpr mem)) pid ?_
    obtain ⟨job, known, is⟩ | ⟨fd, setup, got, ofPid, ofJob⟩ := has
    · exact .inl ⟨job, jobs job known, is⟩
    · exact .inr ⟨fd, setup, setups fd setup got ofJob, ofPid, ofJob⟩
  waits fd setup got same := by
    obtain ⟨past, unset, single⟩ := orderly.waits fd setup (setups fd setup got same) same
    exact ⟨past.trans time, fun job known => unset job (jobs job known),
      fun fd' setup' found' same' => single fd' setup' (setups fd' setup' found' same') same'⟩

theorem Orderly.of_sub (orderly : run.Orderly) (jobs : JobStore.Ended run.jobs next.jobs)
    (setups : ∀ (fd : ℤ) (setup : PendingLaunchSetup), next.pendingProcessSetups[fd]? = some setup →
      run.pendingProcessSetups[fd]? = some setup)
    (queue : next.pendingLaunches = run.pendingLaunches) (ids : next.allocated = run.allocated)
    (time : run.nowNs ≤ next.nowNs) : next.Orderly :=
  ⟨orderly.live.ended jobs, fun id => (orderly.each id).mono (fun _ => jobs.sub)
    (fun fd setup got _ => setups fd setup got) (by rw [queue]) (ids ▸ fun mem => mem) time⟩

theorem Orderly.create (orderly : run.Orderly)
    (ran : run.jobs.createJob job = .ok jobs) (fresh : job.id ∉ run.allocated) (unset : job.pid = none)
    (unstarted : job.startedAtNs = none) (now : job.createdAtNs = run.nowNs) :
    Orderly { run with
      jobs
      pendingLaunches := run.pendingLaunches ++ [job.id]
      allocated := job.id :: run.allocated } := by
  obtain ⟨-, -, records, -⟩ := createJob_ok ran
  refine ⟨orderly.live.created ran, fun id => ?_⟩
  by_cases here : job.id = id
  · subst here
    have unknown (somewhere) := fresh ((orderly.each job.id).allocated somewhere)
    have unqueued : job.id ∉ run.pendingLaunches := fun queued => unknown (.inr (.inl queued))
    have known {job' : JobRecord} (known : jobs.get job.id = some job') : job = job' :=
      Option.some.inj ((records job.id).trans (if_pos rfl) |>.symm.trans known)
    refine ⟨fun job' got => ?_, fun job' got _ => known got ▸ unset, fun _ => mem_cons_self, ?_, ?_, ?_⟩
    · rw [← known got, unstarted]
      exact ⟨now.le, nofun⟩
    · rw [count_append, count_eq_zero.mpr unqueued, count_singleton_self]
    · rintro - pid (⟨job', got, is⟩ | ⟨fd, setup, got, -, same⟩)
      · rw [← known got, unset] at is
        cases is
      · exact unknown (.inr (.inr ⟨fd, setup, got, same⟩))
    · exact fun fd setup got same => absurd (.inr (.inr ⟨fd, setup, got, same⟩)) unknown
  · refine (orderly.each id).mono (fun job' got => ?_) (fun _ _ got _ => got) ?_ (mem_cons_of_mem _) le_rfl
    · rwa [records, if_neg here] at got
    · rw [count_append, count_singleton, if_neg (by simpa using here), Nat.add_zero]

theorem Orderly.setupSucceeded (orderly : run.Orderly)
    (got : run.pendingProcessSetups[fd]? = some setup)
    (ran : run.jobs.startJob setup.jobId setup.pid setup.pidfd setup.launchedAtNs = .ok jobs) :
    Orderly { run with jobs, pendingProcessSetups := run.pendingProcessSetups.erase fd } := by
  obtain ⟨job, started, known, -, -, records, -, state, -, same, -⟩ := startJob_ok ran
  refine ⟨orderly.live.started ran, fun id => ?_⟩
  by_cases here : setup.jobId = id
  · subst here
    have orderly := orderly.each setup.jobId
    obtain ⟨past, -, single⟩ := orderly.waits fd setup got rfl
    have is {job' : JobRecord} (known' : jobs.get setup.jobId = some job') : started = job' :=
      Option.some.inj ((records setup.jobId).trans (if_pos rfl) |>.symm.trans known')
    have queued (mem : setup.jobId ∈ run.pendingLaunches) : False :=
      orderly.queued mem _ (.inr ⟨fd, setup, got, rfl, rfl⟩)
    refine ⟨fun job' known' => ?_, fun job' known' created => ?_, fun _ => ?_, orderly.once,
      fun mem => (queued mem).elim, fun fd' setup' found' ofJob => ?_⟩
    · rw [← is known', same]
      refine ⟨(orderly.timed job known).1, ?_⟩
      rintro at' ⟨⟩
      exact past
    · rw [← is known', same] at created
      cases created
    · exact orderly.allocated (.inr (.inr ⟨fd, setup, got, rfl⟩))
    · obtain ⟨away, found'⟩ := get_erase_eq_some.mp found'
      exact absurd (single fd' setup' found' ofJob) away
  · refine (orderly.each id).mono (fun job' known' => ?_)
      (fun fd' setup' found' _ => (get_erase_eq_some.mp found').2) rfl (fun mem => mem) le_rfl
    rwa [records, if_neg here] at known'

theorem Orderly.launchSetup (orderly : run.Orderly) (queued : id ∈ run.pendingLaunches)
    (fd : ℤ) (pid : ℕ) (pidfd : ℤ) :
    Orderly { run.launch id pid with
      pendingProcessSetups := run.pendingProcessSetups.insert fd ⟨id, pid, pidfd, run.nowNs⟩ } := by
  have elsewhere {fd' : ℤ} {setup : PendingLaunchSetup}
      (got : (run.pendingProcessSetups.insert fd ⟨id, pid, pidfd, run.nowNs⟩)[fd']? = some setup) :
      fd = fd' ∧ setup = ⟨id, pid, pidfd, run.nowNs⟩ ∨ run.pendingProcessSetups[fd']? = some setup := by
    rw [get_insert] at got
    split_ifs at got with here
    · exact .inl ⟨here, (Option.some.inj got).symm⟩
    · exact .inr got
  refine ⟨orderly.live, fun other => ?_⟩
  by_cases here : id = other
  · subst here
    have orderly := orderly.each id
    -- the job had no setup, so the new one is its only one
    have only {fd' : ℤ} {setup : PendingLaunchSetup}
        (got : (run.pendingProcessSetups.insert fd ⟨id, pid, pidfd, run.nowNs⟩)[fd']? = some setup)
        (ofJob : setup.jobId = id) : fd = fd' ∧ setup = ⟨id, pid, pidfd, run.nowNs⟩ :=
      (elsewhere got).resolve_right fun got =>
        orderly.queued queued _ (.inr ⟨fd', setup, got, rfl, ofJob⟩)
    have gone : (run.pendingLaunches.erase id).count id = 0 := by
      rw [count_erase_self]
      have := orderly.once
      omega
    refine ⟨orderly.timed, orderly.created, fun _ => orderly.allocated (.inr (.inl queued)),
      gone.trans_le zero_le_one, fun mem => absurd mem (count_eq_zero.mp gone),
      fun fd' setup got ofJob => ?_⟩
    obtain ⟨rfl, rfl⟩ := only got ofJob
    refine ⟨le_rfl, fun job known => ?_, fun fd' setup' found' ofJob' => (only found' ofJob').1⟩
    exact Option.eq_none_iff_forall_ne_some.mpr fun pid' is =>
      orderly.queued queued pid' (.inl ⟨job, known, is⟩)
  · refine (orderly.each other).mono (fun _ known => known) (fun fd' setup got ofJob => ?_)
      (count_erase_of_ne (Ne.symm here)) (fun mem => mem) le_rfl
    refine (elsewhere got).resolve_left ?_
    rintro ⟨-, rfl⟩
    exact here ofJob

/-! ## Whose exits they are -/

/-- The process ids lead to the right processes when `held` are the exits that are yet to be applied, and
every exit that was applied was the job's own. -/
structure SoundWith (run : ProcessRun) (held : ℕ → Option ChildExitStatus) : Prop where
  orderly : run.Orderly
  tracked : Tracked run.Has (fun pid => run.processes[pid]?) held
    fun id status => (id, status) ∈ run.reported
  applied : ∀ exit ∈ run.applied, exit ∈ run.reported

def Sound (run : ProcessRun) : Prop := run.SoundWith fun pid => run.reapedBeforeSetup[pid]?

theorem sound_new : Sound {} where
  orderly := orderly_new
  tracked := by
    constructor <;> simp [Has, JobStore.new, JobStore.get]
  applied := nofun

theorem has_finished (next : ProcessRun) (orderly : run.Orderly)
    (done : JobStore.Finished run.jobs id next.jobs job) (is : job.pid = some pid)
    (setups : next.pendingProcessSetups = run.pendingProcessSetups)
    (unique : ∀ other, run.Has pid other → other = id) (n : ℕ) (o : JobId) :
    next.Has n o ↔ run.Has n o ∧ pid ≠ n := by
  unfold Has
  rw [setups]
  constructor
  · rintro (⟨job', known, is'⟩ | ⟨fd, setup, got, rfl, rfl⟩)
    · rw [done.records] at known
      split_ifs at known with away
      refine ⟨.inl ⟨job', known, is'⟩, fun same => away ?_⟩
      exact (unique o (.inl ⟨job', known, same ▸ is'⟩)).symm
    · refine ⟨.inr ⟨fd, setup, got, rfl, rfl⟩, fun same => ?_⟩
      have ofJob : setup.jobId = id := unique _ (.inr ⟨fd, setup, got, same.symm, rfl⟩)
      have unset := ((orderly.each id).waits fd setup got ofJob).2.1 job done.known
      exact absurd (unset.symm.trans is) nofun
  · rintro ⟨⟨job', known, is'⟩ | set, away⟩
    · refine .inl ⟨job', done.kept known fun same => away ?_, is'⟩
      exact Option.some.inj (is.symm.trans (same ▸ is'))
    · exact .inr set

theorem Orderly.applyReapedChild_active (orderly : run.Orderly) (isSuccess : JobRecord → ℤ → Bool)
    (child : ℕ × ChildExitStatus) (active : run.jobs.activeJobByPid child.1 = some id) :
    ∃ jobs job, JobStore.Finished run.jobs id jobs job ∧ job.pid = some child.1 ∧
      run.applyReapedChild isSuccess child =
        { run with jobs, applied := run.applied ++ [(id, child.2)] } := by
  obtain ⟨job, known, is⟩ := activeJobByPid_eq_some active
  have running : job.state = .running := by
    obtain created | running := (orderly.live _ _ known).state
    · exact absurd (((orderly.each id).created job known created).symm.trans is) nofun
    · exact running
  obtain ⟨created, started⟩ := (orderly.each id).timed job known
  obtain ⟨⟨jobs, ended⟩, ran, done⟩ :=
    endReapedJob_of_running isSuccess child.2 known running created started
  refine ⟨jobs, job, done, is, ?_⟩
  unfold applyReapedChild
  rw [active]
  dsimp only
  rw [ran]

theorem SoundWith.applyHeld {held : ℕ → Option ChildExitStatus} (sound : run.SoundWith held)
    (isSuccess : JobRecord → ℤ → Bool) (waiting : held child.1 = some child.2)
    (active : run.jobs.activeJobByPid child.1 = some id) :
    (run.applyReapedChild isSuccess child).SoundWith fun pid =>
      if child.1 = pid then none else held pid := by
  obtain ⟨jobs, job, done, is, applied⟩ := sound.orderly.applyReapedChild_active isSuccess child active
  have has : run.Has child.1 id := .inl ⟨job, done.known, is⟩
  rw [applied]
  refine ⟨sound.orderly.of_sub (.of_finished done) (fun _ _ got => got) rfl rfl le_rfl, ?_, ?_⟩
  · refine sound.tracked.deliver ?_ fun _ => rfl
    exact has_finished { run with jobs, applied := _ } sound.orderly done is rfl
      fun other use => sound.tracked.unique use has
  · intro exit mem
    obtain mem | last := mem_append.mp mem
    · exact sound.applied exit mem
    · rw [mem_singleton.mp last]
      exact sound.tracked.reported_of_held waiting has

/-- The exits that are ready are applied one after the other.  None of their jobs is ended by another's
exit, as no two of them have the same process id. -/
theorem SoundWith.replay (isSuccess : JobRecord → ℤ → Bool) :
    ∀ (ready : List (ℕ × ChildExitStatus)) {run : ProcessRun} {held : ℕ → Option ChildExitStatus},
    run.SoundWith held → (ready.map (·.1)).Nodup →
    (∀ child ∈ ready, held child.1 = some child.2 ∧
      ∃ id job, run.jobs.get id = some job ∧ job.pid = some child.1) →
    let next := ready.foldl (applyReapedChild isSuccess) run
    next.SoundWith (fun pid => if pid ∈ ready.map (·.1) then none else held pid) ∧
      JobStore.Ended run.jobs next.jobs ∧ next.reapedBeforeSetup = run.reapedBeforeSetup := by
  intro ready
  induction ready with
  | nil => exact fun sound _ _ => ⟨by simpa using sound, .refl _, rfl⟩
  | cons child ready ih =>
    intro run held sound nodup ready'
    obtain ⟨first, rest⟩ := nodup_cons.mp nodup
    obtain ⟨waiting, id, job, known, is⟩ := ready' child mem_cons_self
    obtain ⟨active, got⟩ : ∃ id, run.jobs.activeJobByPid child.1 = some id := by
      rw [← Option.ne_none_iff_exists']
      exact fun nobody => activeJobByPid_eq_none nobody known is
    obtain ⟨jobs, job', done, is', applied⟩ := sound.orderly.applyReapedChild_active isSuccess child got
    have step := sound.applyHeld isSuccess waiting got
    rw [foldl_cons]
    rw [applied] at step ⊢
    obtain ⟨last, ended, kept⟩ := ih step rest fun other mem => by
      obtain ⟨waits, id', job'', known', same⟩ := ready' other (mem_cons_of_mem _ mem)
      have away : child.1 ≠ other.1 := fun here =>
        first (mem_map.mpr ⟨other, mem, here.symm⟩)
      refine ⟨(if_neg away).trans waits, id', job'', done.kept known' fun here => away ?_, same⟩
      exact Option.some.inj (is'.symm.trans (here ▸ same))
    have same : (fun pid => if pid ∈ (child :: ready).map (·.1) then none else held pid) =
        fun pid => if pid ∈ ready.map (·.1) then none else if child.1 = pid then none else held pid := by
      funext pid
      by_cases here : child.1 = pid
      · simp [here]
      · simp only [map_cons, mem_cons, Ne.symm here, here, false_or, if_false]
    rw [same]
    exact ⟨last, (JobStore.Ended.of_finished done).trans ended, kept⟩

theorem mem_readyDeferredReaps : child ∈ run.readyDeferredReaps ↔
    run.reapedBeforeSetup[child.1]? = some child.2 ∧
      ∃ id job, run.jobs.get id = some job ∧ job.pid = some child.1 := by
  unfold readyDeferredReaps
  rw [mem_filter, mem_toList]
  refine and_congr_right fun _ => ⟨fun active => ?_, ?_⟩
  · obtain ⟨id, active⟩ := Option.isSome_iff_exists.mp active
    obtain ⟨job, known, is⟩ := activeJobByPid_eq_some active
    exact ⟨id, job, known, is⟩
  · rintro ⟨id, job, known, is⟩
    rw [Option.isSome_iff_ne_none]
    exact fun nobody => activeJobByPid_eq_none nobody known is

theorem Sound.replayDeferredReaps (sound : run.Sound) (isSuccess : JobRecord → ℤ → Bool) :
    (run.replayDeferredReaps isSuccess).Sound ∧
      JobStore.Ended run.jobs (run.replayDeferredReaps isSuccess).jobs ∧
      ∀ pid, (run.replayDeferredReaps isSuccess).reapedBeforeSetup[pid]? =
        if pid ∈ run.readyDeferredReaps.map (·.1) then none else run.reapedBeforeSetup[pid]? := by
  have taken : run.takeReadyDeferredReaps.SoundWith fun pid => run.reapedBeforeSetup[pid]? :=
    ⟨sound.orderly.of_sub (.refl _) (fun _ _ got => got) rfl rfl le_rfl, sound.tracked, sound.applied⟩
  have nodup : (run.readyDeferredReaps.map (·.1)).Nodup := by
    refine (nodup_keys run.reapedBeforeSetup).sublist ?_
    rw [← map_fst_toList_eq_keys]
    exact List.Sublist.map _ filter_sublist
  obtain ⟨last, ended, kept⟩ := SoundWith.replay isSuccess run.readyDeferredReaps taken nodup
    fun child mem => mem_readyDeferredReaps.mp mem
  have held (pid : ℕ) : (run.replayDeferredReaps isSuccess).reapedBeforeSetup[pid]? =
      if pid ∈ run.readyDeferredReaps.map (·.1) then none else run.reapedBeforeSetup[pid]? := by
    unfold ProcessRun.replayDeferredReaps
    rw [kept]
    exact get_foldl_erase _ pid _
  refine ⟨?_, ended, held⟩
  unfold Sound
  simp only [held]
  exact last

/-! ## Runs -/

/-- The event takes a held exit away from its process: the process id is given up while the exit is
held, or it goes to another process. -/
def Strands (run : ProcessRun) : ProcessEvent → Prop
  | .launched _ pid _ _ | .reaped pid _ => pid ∈ run.reapedBeforeSetup
  | .setupFailed fd _ => ∃ setup job, run.pendingProcessSetups[fd]? = some setup ∧
      run.jobs.get setup.jobId = some job ∧ job.jobType ≠ .reloadHook ∧
      setup.pid ∈ run.reapedBeforeSetup
  | .setupCancelled fd _ => ∃ setup job, run.pendingProcessSetups[fd]? = some setup ∧
      run.jobs.get setup.jobId = some job ∧ setup.pid ∈ run.reapedBeforeSetup
  | .givenUp id _ => ∃ job pid, run.jobs.get id = some job ∧ job.pid = some pid ∧
      pid ∈ run.reapedBeforeSetup
  | _ => False

theorem mem_reapedBeforeSetup (held : run.reapedBeforeSetup[pid]? ≠ none) :
    pid ∈ run.reapedBeforeSetup := by
  rw [mem_iff_isSome_getElem?, Option.isSome_iff_ne_none]
  exact held

theorem Sound.create (sound : run.Sound)
    (ran : run.jobs.createJob job = .ok jobs) (fresh : job.id ∉ run.allocated) (unset : job.pid = none)
    (unstarted : job.startedAtNs = none) (now : job.createdAtNs = run.nowNs) :
    Sound { run with
      jobs
      pendingLaunches := run.pendingLaunches ++ [job.id]
      allocated := job.id :: run.allocated } := by
  obtain ⟨free, -, records, -⟩ := createJob_ok ran
  refine ⟨sound.orderly.create ran fresh unset unstarted now, ?_, sound.applied⟩
  refine sound.tracked.release ?_ fun n o _ has => ?_
  · rintro n o (⟨job', known, is⟩ | set)
    · rw [records] at known
      split_ifs at known
      · cases known
        exact absurd (unset.symm.trans is) nofun
      · exact .inl ⟨job', known, is⟩
    · exact .inr set
  · obtain ⟨job', known, is⟩ | set := has
    · refine .inl ⟨job', ?_, is⟩
      rw [records, if_neg ?_]
      · exact known
      · rintro rfl
        exact absurd (free.symm.trans known) nofun
    · exact .inr set

theorem Sound.launchSetup (sound : run.Sound) (pidfd : ℤ)
    (queued : id ∈ run.pendingLaunches) (free : pid ∉ run.processes) (unheld : pid ∉ run.reapedBeforeSetup)
    (unused : fd ∉ run.pendingProcessSetups) :
    Sound { run.launch id pid with
      pendingProcessSetups := run.pendingProcessSetups.insert fd ⟨id, pid, pidfd, run.nowNs⟩ } := by
  refine ⟨sound.orderly.launchSetup queued fd pid pidfd, ?_, sound.applied⟩
  refine sound.tracked.claim (getElem?_eq_none free) (getElem?_eq_none unheld)
    (fun n o => ⟨?_, ?_⟩) (get_insert _ _ · _)
  · rintro (known | ⟨fd', setup, got, rfl, rfl⟩)
    · exact .inl (.inl known)
    · rw [get_insert] at got
      split_ifs at got
      · cases got
        exact .inr ⟨rfl, rfl⟩
      · exact .inl (.inr ⟨fd', setup, got, rfl, rfl⟩)
  · rintro ((known | ⟨fd', setup, got, ofPid, ofJob⟩) | ⟨rfl, rfl⟩)
    · exact .inl known
    · refine .inr ⟨fd', setup, ?_, ofPid, ofJob⟩
      rw [get_insert, if_neg ?_]
      · exact got
      · rintro rfl
        rw [getElem?_eq_none unused] at got
        cases got
    · exact .inr ⟨fd, ⟨id, pid, pidfd, run.nowNs⟩, (get_insert _ _ _ _).trans (if_pos rfl), rfl, rfl⟩

theorem has_started
    (orderly : run.Orderly) (ran : run.jobs.startJob id pid pidfd startedAtNs = .ok jobs) (n : ℕ)
    (o : JobId) :
    (∃ job, jobs.get o = some job ∧ job.pid = some n) ↔
      (∃ job, run.jobs.get o = some job ∧ job.pid = some n) ∨ pid = n ∧ id = o := by
  obtain ⟨job, started, known, -, -, records, -, state, -, same, -⟩ := startJob_ok ran
  rw [records]
  split_ifs with here
  · subst here
    constructor
    · rintro ⟨job', got, is⟩
      cases got
      rw [same] at is
      exact .inr ⟨Option.some.inj is, rfl⟩
    · rintro (⟨job', known', is⟩ | ⟨rfl, -⟩)
      · cases known.symm.trans known'
        exact absurd (((orderly.each id).created job known state).symm.trans is) nofun
      · exact ⟨started, rfl, by rw [same]⟩
  · exact ⟨.inl, fun known => known.elim (fun known => known) fun is => absurd is.2 here⟩

theorem Sound.setupSucceeded (sound : run.Sound) (got : run.pendingProcessSetups[fd]? = some setup)
    (ran : run.jobs.startJob setup.jobId setup.pid setup.pidfd setup.launchedAtNs = .ok jobs) :
    Sound { run with jobs, pendingProcessSetups := run.pendingProcessSetups.erase fd } := by
  have orderly := sound.orderly
  refine ⟨orderly.setupSucceeded got ran, ?_, sound.applied⟩
  refine sound.tracked.release (fun n o => ?_) fun n o _ => ?_ <;>
    unfold Has <;> dsimp only <;> rw [has_started orderly ran]
  · rintro ((known | ⟨rfl, rfl⟩) | ⟨fd', setup', found', same⟩)
    · exact .inl known
    · exact .inr ⟨fd, setup, got, rfl, rfl⟩
    · exact .inr ⟨fd', setup', (get_erase_eq_some.mp found').2, same⟩
  · rintro (known | ⟨fd', setup', found', rfl, rfl⟩)
    · exact .inl (.inl known)
    · by_cases here : fd = fd'
      · subst here
        cases got.symm.trans found'
        exact .inl (.inr ⟨rfl, rfl⟩)
      · exact .inr ⟨fd', setup', get_erase_eq_some.mpr ⟨here, found'⟩, rfl, rfl⟩

/-- A process without a pipe is one whose setup succeeds at once. -/
theorem Sound.launchStarted (sound : run.Sound)
    (queued : id ∈ run.pendingLaunches) (free : pid ∉ run.processes) (unheld : pid ∉ run.reapedBeforeSetup)
    (ran : run.jobs.startJob id pid pidfd run.nowNs = .ok jobs) :
    Sound { run.launch id pid with jobs } := by
  obtain ⟨fd, unused⟩ := Infinite.exists_notMem_finset run.pendingProcessSetups.keys.toFinset
  have unused : fd ∉ run.pendingProcessSetups := fun used =>
    unused (mem_toFinset.mpr (mem_keys.mpr used))
  have started := (sound.launchSetup pidfd queued free unheld unused).setupSucceeded
    ((get_insert _ _ _ _).trans (if_pos rfl)) ran
  rwa [erase_insert unused] at started

theorem Sound.dropSetup (sound : run.Sound) {ended : Except JobStoreError (JobStore × JobRecord)}
    (got : run.pendingProcessSetups[fd]? = some setup)
    (ends : ∀ out, ended = .ok out → ∃ job, JobStore.Finished run.jobs setup.jobId out.1 job ∧
      setup.pid ∉ run.reapedBeforeSetup) : (run.dropSetup fd ended).Sound := by
  unfold ProcessRun.dropSetup
  split
  · obtain ⟨job, done, unheld⟩ := ends _ rfl
    have setups (fd' : ℤ) (setup' : PendingLaunchSetup)
        (found' : (run.pendingProcessSetups.erase fd)[fd']? = some setup') :
        run.pendingProcessSetups[fd']? = some setup' := (get_erase_eq_some.mp found').2
    have ended := JobStore.Ended.of_finished done
    refine ⟨sound.orderly.of_sub ended setups rfl rfl le_rfl, ?_, sound.applied⟩
    refine sound.tracked.release ?_ fun n o held has => ?_
    · rintro n o (⟨job', known, is⟩ | ⟨fd', setup', found', same⟩)
      · exact .inl ⟨job', ended.sub known, is⟩
      · exact .inr ⟨fd', setup', setups fd' setup' found', same⟩
    · obtain ⟨job', known, is⟩ | ⟨fd', setup', found', rfl, rfl⟩ := has
      · refine .inl ⟨job', done.kept known fun same => ?_, is⟩
        rw [← same, ((sound.orderly.each _).waits fd setup got rfl).2.1 job done.known] at is
        cases is
      · refine .inr ⟨fd', setup', get_erase_eq_some.mpr ⟨?_, found'⟩, rfl, rfl⟩
        rintro rfl
        cases got.symm.trans found'
        exact unheld (mem_reapedBeforeSetup held)
  · exact sound

theorem Sound.giveUp (sound : run.Sound) (done : JobStore.Finished run.jobs id jobs job)
    (unheld : ∀ pid, job.pid = some pid → pid ∉ run.reapedBeforeSetup) : Sound { run with jobs } := by
  have ended := JobStore.Ended.of_finished done
  refine ⟨sound.orderly.of_sub ended (fun _ _ got => got) rfl rfl le_rfl, ?_, sound.applied⟩
  refine sound.tracked.release ?_ fun n o held has => ?_
  · rintro n o (⟨job', known, is⟩ | set)
    · exact .inl ⟨job', ended.sub known, is⟩
    · exact .inr set
  · obtain ⟨job', known, is⟩ | set := has
    · refine .inl ⟨job', done.kept known fun same => ?_, is⟩
      exact unheld n (same ▸ is) (mem_reapedBeforeSetup held)
    · exact .inr set

theorem Sound.reap (sound : run.Sound) (isSuccess : JobRecord → ℤ → Bool)
    (status : ChildExitStatus) (unheld : pid ∉ run.reapedBeforeSetup) :
    (run.handle isSuccess (.reaped pid status)).Sound := by
  have nothing := getElem?_eq_none unheld
  have has {id : JobId} (active : run.jobs.activeJobByPid pid = some id) : run.Has pid id :=
    .inl (activeJobByPid_eq_some active)
  unfold handle
  dsimp only
  split
  · next owner lives =>
    have more (id : JobId) (exit : ChildExitStatus) (mem : (id, exit) ∈ run.reported) :
        (id, exit) ∈ run.reported ++ [(owner, status)] := mem_append_left _ mem
    have told : (owner, status) ∈ run.reported ++ [(owner, status)] :=
      mem_append_right _ (mem_singleton.mpr rfl)
    have gone (n : ℕ) := get_erase run.processes pid n
    have orderly : Orderly { run with
        processes := run.processes.erase pid, reported := run.reported ++ [(owner, status)] } :=
      sound.orderly.of_sub (.refl _) (fun _ _ got => got) rfl rfl le_rfl
    cases active : run.jobs.activeJobByPid pid with
    | some id =>
      obtain rfl : id = owner := sound.tracked.live_of_uses lives (has active)
      obtain ⟨jobs, job, done, is, applied⟩ :=
        orderly.applyReapedChild_active isSuccess (pid, status) active
      rw [applied]
      refine ⟨orderly.of_sub (.of_finished done) (fun _ _ got => got) rfl rfl le_rfl, ?_, ?_⟩
      · refine sound.tracked.forget lives ?_ gone more
        exact has_finished { run with jobs, processes := _, reported := _, applied := _ }
          sound.orderly done is rfl fun other use => sound.tracked.live_of_uses lives use
      · intro exit mem
        obtain mem | last := mem_append.mp mem
        · exact more _ _ (sound.applied exit mem)
        · rw [mem_singleton.mp last]
          exact told
    | none =>
      unfold applyReapedChild
      simp only [active]
      split
      · next pending =>
        obtain ⟨fd, setup, got, same⟩ := hasPendingSetupForPid_iff.mp pending
        have use : run.Has pid setup.jobId := .inr ⟨fd, setup, got, same, rfl⟩
        refine ⟨orderly.of_sub (.refl _) (fun _ _ got => got) rfl rfl le_rfl, ?_,
          fun exit mem => more _ _ (sound.applied exit mem)⟩
        exact sound.tracked.hold lives use gone (get_insert _ _ · _) told more
      · next idle =>
        refine ⟨orderly, ?_, fun exit mem => more _ _ (sound.applied exit mem)⟩
        refine sound.tracked.forget lives (fun n o => ⟨fun use => ⟨use, ?_⟩, And.left⟩) gone more
        rintro rfl
        obtain ⟨job, known, is⟩ | ⟨fd, setup, got, same, -⟩ := use
        · exact activeJobByPid_eq_none active known is
        · exact idle (hasPendingSetupForPid_iff.mpr ⟨fd, setup, got, same⟩)
  · next dead =>
    have nobody {id : JobId} : ¬ run.Has pid id := sound.tracked.not_uses dead nothing
    have inactive : run.jobs.activeJobByPid pid = none :=
      Option.eq_none_iff_forall_ne_some.mpr fun id active => nobody (has active)
    unfold applyReapedChild
    simp only [inactive]
    rw [if_neg ?_]
    · exact sound
    · intro pending
      obtain ⟨fd, setup, got, same⟩ := hasPendingSetupForPid_iff.mp pending
      exact nobody (.inr ⟨fd, setup, got, same, rfl⟩)

theorem Sound.handle (sound : run.Sound) (isSuccess : JobRecord → ℤ → Bool) {event : ProcessEvent}
    (keeps : ¬ run.Strands event) : (run.handle isSuccess event).Sound := by
  cases event with
  | created id svc jobType =>
    unfold ProcessRun.handle
    dsimp only
    split
    · exact sound
    · next fresh =>
      split
      · next jobs ran => exact sound.create ran fresh rfl rfl rfl
      · exact sound
  | launched id pid pidfd setupStatusFd =>
    unfold ProcessRun.handle
    dsimp only
    split
    · next ready =>
      obtain ⟨queued, -, free⟩ := ready
      split
      · split
        · exact sound
        · next unused => exact sound.launchSetup pidfd queued free keeps unused
      · split
        · next jobs ran => exact sound.launchStarted queued free keeps ran
        · exact sound
    · exact sound
  | setupSucceeded fd =>
    unfold ProcessRun.handle
    dsimp only
    split
    · exact sound
    · next setup got =>
      split
      · next jobs ran => exact sound.setupSucceeded got ran
      · exact sound
  | setupFailed fd cause =>
    unfold ProcessRun.handle
    dsimp only
    split
    · exact sound
    · next setup got =>
      split
      · exact sound
      · next other =>
        refine sound.dropSetup got fun out ran => ?_
        obtain ⟨job, ended⟩ := failJobBeforeStart_ok ran
        refine ⟨job, ended.toFinished, fun held => keeps ⟨setup, job, got, ended.known, ?_, held⟩⟩
        intro hook
        refine other ?_
        rw [ended.known]
        exact decide_eq_true hook
  | setupCancelled fd cause =>
    unfold ProcessRun.handle
    dsimp only
    split
    · exact sound
    · next setup got =>
      refine sound.dropSetup got fun out ran => ?_
      obtain ⟨job, ended⟩ := retireJob_ok ran
      exact ⟨job, ended, fun held => keeps ⟨setup, job, got, ended.known, held⟩⟩
  | reaped pid status => exact sound.reap isSuccess status keeps
  | replayed => exact (sound.replayDeferredReaps isSuccess).1
  | givenUp id cause =>
    unfold ProcessRun.handle
    dsimp only
    split
    · next jobs _ ran =>
      obtain ⟨job, ended⟩ := retireJob_ok ran
      exact sound.giveUp ended fun pid is held => keeps ⟨job, pid, ended.known, is, held⟩
    · exact sound

theorem Sound.perform (sound : run.Sound) (isSuccess : JobRecord → ℤ → Bool) {call : ℕ × ProcessEvent}
    (keeps : ¬ run.Strands call.2) : (run.perform isSuccess call).Sound := by
  have later : Sound { run with nowNs := run.nowNs + call.1 } :=
    ⟨sound.orderly.of_sub (.refl _) (fun _ _ got => got) rfl rfl (Nat.le_add_right _ _),
      sound.tracked, sound.applied⟩
  have keeps' : ¬ Strands { run with nowNs := run.nowNs + call.1 } call.2 := by
    cases event : call.2 <;> rw [event] at keeps <;> exact keeps
  exact later.handle isSuccess keeps'

/-- In a run that takes no held exit away from its process, every exit that is applied to a job was
reported for the job's own process, and at the end of a turn exits are held only for processes that are
being set up. -/
theorem deferred_exits_reach_their_jobs (isSuccess : JobRecord → ℤ → Bool)
    (calls : List (ℕ × ProcessEvent))
    (keeps : Admissible (perform isSuccess) (fun run call => ¬ run.Strands call.2) {} calls) :
    let run := runCalls (perform isSuccess) {} calls
    (∀ exit ∈ run.applied, exit ∈ run.reported) ∧
      ∀ pid ∈ (run.replayDeferredReaps isSuccess).reapedBeforeSetup,
        (run.replayDeferredReaps isSuccess).hasPendingSetupForPid pid = true := by
  intro run
  have sound : run.Sound := invariant_of_step Sound
    (fun run call sound keeps => sound.perform isSuccess keeps) calls sound_new keeps
  refine ⟨sound.applied, fun pid held => ?_⟩
  obtain ⟨last, ended, left⟩ := sound.replayDeferredReaps isSuccess
  obtain ⟨status, held⟩ := Option.isSome_iff_exists.mp (mem_iff_isSome_getElem?.mp held)
  obtain ⟨-, id, ⟨job, known, is⟩ | ⟨fd, setup, found, same, -⟩⟩ := last.tracked.waits held
  · -- the exit of a job with this process id would have been replayed
    rw [left] at held
    split_ifs at held with unready
    refine absurd (mem_map.mpr ⟨(pid, status), mem_readyDeferredReaps.mpr ⟨held, ?_⟩, rfl⟩) unready
    exact ⟨id, job, ended.sub known, is⟩
  · exact hasPendingSetupForPid_iff.mpr ⟨fd, setup, found, same⟩

/-- A short-lived process is reaped before its setup is known to have succeeded. -/
def reapedFirst : List (ℕ × ProcessEvent) :=
  [(0, .created ⟨1⟩ (some "app") .preExecHook), (1, .launched ⟨1⟩ 42 5 (some 7)),
    (1, .reaped 42 (.exited 0)), (1, .setupSucceeded 7), (0, .replayed)]

theorem deferred_exits_reach_their_jobs_reapedFirst :
    let run := runCalls (perform fun _ code => code = 0) {} reapedFirst
    run.applied = [(⟨1⟩, .exited 0)] ∧ run.reported = [(⟨1⟩, .exited 0)] ∧
      ∀ pid ∈ (run.replayDeferredReaps fun _ code => code = 0).reapedBeforeSetup,
        (run.replayDeferredReaps fun _ code => code = 0).hasPendingSetupForPid pid = true := by
  have keeps : Admissible (perform fun _ code => code = 0) (fun run call => ¬ run.Strands call.2) {}
      reapedFirst := by
    refine ⟨id, ?_, ?_, id, id, trivial⟩
    · show 42 ∉ reapedBeforeSetup _
      decide +kernel
    · show 42 ∉ reapedBeforeSetup _
      decide +kernel
  exact ⟨by decide +kernel, by decide +kernel, (deferred_exits_reach_their_jobs _ _ keeps).2⟩

/-- A process fails in its setup and is reaped before that is read from the pipe. -/
def failedAndReaped : List (ℕ × ProcessEvent) :=
  [(0, .created ⟨1⟩ (some "app") .preExecHook), (0, .created ⟨2⟩ (some "db") .serviceMain),
    (1, .launched ⟨1⟩ 42 5 (some 7)), (1, .reaped 42 (.exited 1)),
    (1, .setupFailed 7 "PreExecFailure"), (0, .replayed)]

/-- The exit is held for good; when the process id is used again, it is taken for the end of another job,
whose process was never reaped. -/
theorem deferred_exit_of_another_process :
    let stranded := runCalls (perform fun _ code => code = 0) {} failedAndReaped
    let reused := runCalls (perform fun _ code => code = 0) {}
      (failedAndReaped ++ [(1, .launched ⟨2⟩ 42 5 (some 7)), (1, .setupSucceeded 7), (0, .replayed)])
    (42 ∈ stranded.reapedBeforeSetup ∧ stranded.hasPendingSetupForPid 42 = false) ∧
      (⟨2⟩, .exited 1) ∈ reused.applied ∧ reused.reported = [(⟨1⟩, .exited 1)] := by
  decide +kernel

end ProcessRun

end Peinit
