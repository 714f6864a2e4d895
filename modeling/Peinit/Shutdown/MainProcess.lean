import Peinit.Shutdown.OrderRun

/-!
# Which process decides that a service is down

During a shutdown every end of a job takes its service down, also that of a health check or a hook:
nothing is lost only where the job is the main one, or the service is down already.
-/

namespace Peinit

open Fallible

variable {nowNs endNs pid : ℕ} {ended job : JobRecord} {jobs : JobStore} {cfg : ShutdownSettings}
  {answers : ProcessAnswers} {id : JobId} {status : ChildExitStatus} {w next : ShutdownWork}

/-- A deadline of the service is not there any more. -/
def ShutdownRuntime.LosesDeadline (r r' : ShutdownRuntime) (service : String) : Prop :=
  (∃ deadline ∈ r.stopDeadlines, deadline.service = service ∧ deadline ∉ r'.stopDeadlines) ∨
    ∃ deadline ∈ r.postKillDeadlines, deadline.service = service ∧ deadline ∉ r'.postKillDeadlines

namespace ShutdownWork

variable {mid : ShutdownWork} {r r' : ShutdownRuntime} {service : String}

def IsMainOf (job : JobRecord) (service : String) : Prop :=
  job.service = some service ∧ job.jobType = .serviceMain

/-! ## Advancing takes no one down -/

theorem advance_loses_nothing (got : mid.shutdown = some r)
    (ran : mid.advanceShutdownProgress nowNs = .ok next) :
    ∃ r', next.shutdown = some r' ∧ r.stopDeadlines ⊆ r'.stopDeadlines ∧
      r.postKillDeadlines ⊆ r'.postKillDeadlines ∧
      OnlyAsked mid.services next.services ∧ next.jobs = mid.jobs ∧ r'.plan = r.plan := by
  obtain ⟨settled, r₁, r', advanced, ⟨operations, rfl⟩, found₁, moved, rfl⟩ :=
    advanceShutdownProgress_ok ran
  cases got.symm.trans found₁
  exact ⟨r', rfl, moved.grows, fun _ mem => by rw [moved.postKill]; exact mem, moved.asked,
    moved.jobs, moved.plan⟩

/-! ## The end of a job -/

theorem losesDeadline_withoutDeadlines {other : String} :
    r.LosesDeadline (withoutDeadlines r service) other ↔ other = service ∧ r.Covers service := by
  unfold ShutdownRuntime.LosesDeadline ShutdownRuntime.Covers withoutDeadlines
  simp only [List.mem_filter, decide_eq_true_eq, not_and, not_not]
  constructor
  · rintro (⟨d, mem, rfl, dropped⟩ | ⟨d, mem, rfl, dropped⟩)
    · exact ⟨dropped mem, .inl ⟨d, mem, dropped mem⟩⟩
    · exact ⟨dropped mem, .inr ⟨d, mem, dropped mem⟩⟩
  · rintro ⟨rfl, ⟨d, mem, named⟩ | ⟨d, mem, named⟩⟩
    · exact .inl ⟨d, mem, named, fun _ => named⟩
    · exact .inr ⟨d, mem, named, fun _ => named⟩

theorem exit_loses_iff (own : ended.service = some service)
    (got : w.shutdown = some r) (exit : { w with jobs }.applyShutdownJobExit ended = .ok mid)
    (advance : mid.advanceShutdownProgress nowNs = .ok next) (other : String) :
    (Up (w.services.stateOf other) ∧ ¬ Up (next.services.stateOf other) ∨
      r.LosesDeadline (withoutDeadlines r service) other) ↔
    other = service ∧ (Up (w.services.stateOf service) ∨ r.Covers service) := by
  obtain ⟨r₁, svcs, stopTimeouts, found₁, taken, rfl⟩ := applyShutdownJobExit_ok own exit
  cases got.symm.trans found₁
  obtain ⟨r', -, -, -, asked, -, -⟩ := advance_loses_nothing rfl advance
  rw [losesDeadline_withoutDeadlines]
  constructor
  · rintro (⟨up, down⟩ | ⟨rfl, covers⟩)
    · have here : other = service := by
        by_contra away
        exact down (asked.up ((ServiceTable.stateOf_congr (taken.others away)).symm ▸ up))
      subst here
      exact ⟨rfl, .inl up⟩
    · exact ⟨rfl, .inr covers⟩
  · rintro ⟨rfl, up | covers⟩
    · exact .inl ⟨up, (asked.settle other).notUp taken.not_up⟩
    · exact .inr ⟨rfl, covers⟩

/-- What a reaped child of `job` changes before the shutdown is asked to go on. -/
def noteReaped (settings : ShutdownSettings) (answers : ProcessAnswers) (job : JobRecord) (id : JobId)
    (status : ChildExitStatus) (endedAtNs : ℕ) (w : ShutdownWork) :
    Except SupervisorError ShutdownWork :=
  if job.jobType = .submitted then
    w.applySubmittedTerminal answers id status endedAtNs settings.postKillTimeoutSecs
  else do
    let (jobs, ended) ← (match status with
      | .exited code => w.jobs.completeJob id endedAtNs code
      | .signaled signal coreDumped => w.jobs.failRunningJob id endedAtNs (some (.signal signal))
          (signalFailureCause signal coreDumped)).mapError SupervisorError.jobStore
    ({ w with jobs }.applyShutdownJobExit ended).mapError .shutdown

theorem noteReaped_of_reapServiceJob
    (type : job.jobType ≠ .submitted) (ran : w.reapServiceJob id status endNs = .ok next) :
    ∃ mid, noteReaped cfg answers job id status endNs w = .ok mid ∧
      mid.advanceShutdownProgress endNs = .ok next := by
  unfold reapServiceJob at ran
  unfold noteReaped
  rw [if_neg type]
  cases status with
  | _ =>
    obtain ⟨jobs, ended, mid, finished, exit, advance⟩ := endShutdownJob_ok ran
    refine ⟨mid, bind_eq_ok.mpr ⟨(jobs, ended), ?_, ?_⟩, advance⟩
    · exact mapError_eq_ok.mpr finished
    · exact mapError_eq_ok.mpr exit

theorem noteReaped_ok (type : job.jobType ≠ .submitted) (known : w.jobs.get id = some job)
    (ran : noteReaped cfg answers job id status endNs w = .ok mid) :
    ∃ jobs ended, JobStore.Finished w.jobs id jobs job ∧ ended.service = job.service ∧
      { w with jobs }.applyShutdownJobExit ended = .ok mid := by
  unfold noteReaped at ran
  rw [if_neg type] at ran
  obtain ⟨⟨jobs, ended⟩, finished, exit⟩ := bind_eq_ok.mp ran
  have done : ∃ job', JobStore.EndedAs w.jobs id .running (jobs, ended) job' := by
    have finished := mapError_eq_ok.mp finished
    cases status with
    | exited code => exact JobStore.completeJob_ok finished
    | signaled signal coreDumped => exact JobStore.failRunningJob_ok finished
  obtain ⟨job', done⟩ := done
  cases known.symm.trans done.known
  exact ⟨jobs, ended, done.toFinished, done.service, mapError_eq_ok.mp exit⟩

theorem applyReapedChild_phases
    (reaped : w.jobs.activeJobByPid pid = some id) (known : w.jobs.get id = some job)
    (ran : (applyReapedChild cfg answers pid status endNs).run w = (.ok (), next)) :
    ∃ mid, noteReaped cfg answers job id status endNs w = .ok mid ∧
      mid.advanceShutdownProgress endNs = .ok next := by
  unfold applyReapedChild at ran
  rw [run_fetch_bind] at ran
  simp only [reaped, known] at ran
  split_ifs at ran with type
  · obtain ⟨_, mid, first, second⟩ := run_bind_eq_ok.mp ran
    refine ⟨mid, ?_, ?_⟩
    · rcases run_transaction
          (·.applySubmittedTerminal answers id status endNs cfg.postKillTimeoutSecs) w with
        ⟨ended, done, run⟩ | ⟨e, -, run⟩
      · cases run.symm.trans first
        exact (if_pos type).trans done
      · cases run.symm.trans first
    · rcases run_transaction
          (fun work => (work.advanceShutdownProgress endNs).mapError .shutdown) mid with
        ⟨after, done, run⟩ | ⟨e, -, run⟩
      · cases run.symm.trans second
        exact mapError_eq_ok.mp done
      · cases run.symm.trans second
  · rcases run_transaction (·.reapServiceJob id status endNs) w with
      ⟨after, done, run⟩ | ⟨e, -, run⟩
    · cases run.symm.trans ran
      exact noteReaped_of_reapServiceJob type done
    · cases run.symm.trans ran

/-- Where the end of a job decides no more about a service than it should. -/
def DecidesRightly (w : ShutdownWork) (r : ShutdownRuntime) (job : JobRecord) : Prop :=
  job.jobType = .serviceMain ∨ job.jobType = .submitted ∨
    ∀ service, job.service = some service → ¬ Up (w.services.stateOf service) ∧ ¬ r.Covers service

/-- A reaped child takes a service down, or drops its deadlines, only as its main process if and only if
the job is the main one or its service is not up and has no deadline. -/
theorem reap_decides_iff (got : w.shutdown = some r) (reaped : w.jobs.activeJobByPid pid = some id)
    (known : w.jobs.get id = some job) (own : job.service = some service)
    (ran : (applyReapedChild cfg answers pid status endNs).run w = (.ok (), next)) :
    ∃ (mid : ShutdownWork) (rmid r' : ShutdownRuntime),
      noteReaped cfg answers job id status endNs w = .ok mid ∧ mid.shutdown = some rmid ∧
      mid.advanceShutdownProgress endNs = .ok next ∧ next.shutdown = some r' ∧
      rmid.stopDeadlines ⊆ r'.stopDeadlines ∧ rmid.postKillDeadlines ⊆ r'.postKillDeadlines ∧
      ((∀ other, Up (w.services.stateOf other) ∧ ¬ Up (next.services.stateOf other) ∨
        r.LosesDeadline rmid other → IsMainOf job other) ↔ DecidesRightly w r job) := by
  obtain ⟨mid, noted, advance⟩ := applyReapedChild_phases reaped known ran
  by_cases submitted : job.jobType = .submitted
  · have only : SubmittedOnly w mid := applySubmittedTerminal_ok ((if_pos submitted).symm.trans noted)
    have found' := only.shutdown.trans got
    obtain ⟨r', after, stop, postKill, asked, -, -⟩ := advance_loses_nothing found' advance
    refine ⟨mid, r, r', noted, found', advance, after, stop, postKill, fun _ => .inr (.inl submitted), ?_⟩
    rintro - other (⟨up, down⟩ | ⟨d, mem, -, dropped⟩ | ⟨d, mem, -, dropped⟩)
    · exact absurd (asked.up (only.services ▸ up)) down
    · exact absurd mem dropped
    · exact absurd mem dropped
  · obtain ⟨jobs, ended, done, same, exit⟩ := noteReaped_ok submitted known noted
    have own' : ended.service = some service := same.trans own
    have loses := exit_loses_iff own' got exit advance
    obtain ⟨r₁, svcs, stopTimeouts, found₁, taken, rfl⟩ := applyShutdownJobExit_ok own' exit
    cases got.symm.trans found₁
    obtain ⟨r', after, stop, postKill, -, -, -⟩ := advance_loses_nothing rfl advance
    refine ⟨_, withoutDeadlines r service, r', noted, rfl, advance, after, stop, postKill, ?_⟩
    simp only [loses]
    constructor
    · intro rightly
      by_contra wrong
      unfold DecidesRightly at wrong
      push Not at wrong
      obtain ⟨notMain, -, other, own'', lost⟩ := wrong
      cases own.symm.trans own''
      have takes : Up (w.services.stateOf service) ∨ r.Covers service := by
        by_cases up : Up (w.services.stateOf service)
        · exact .inl up
        · exact .inr (lost up)
      exact notMain (rightly service ⟨rfl, takes⟩).2
    · rintro (main | isSubmitted | neither) other ⟨rfl, takes⟩
      · exact ⟨own, main⟩
      · exact absurd isSubmitted submitted
      · obtain ⟨down, none⟩ := neither other own
        rcases takes with up | covers
        · exact absurd up down
        · exact absurd covers none

/-! ## No participant is down while its main process runs -/

def MainEnded (jobs : JobStore) (service : String) : Prop :=
  ∀ id job, jobs.get id = some job → IsMainOf job service → job.state ≠ .running

/-- Recorded as stopped, which an abandoned or a discarded service is not. -/
def Recorded (state : Option ServiceState) : Prop :=
  state = some .inactive ∨ state = some .failed

theorem Recorded.down {state : Option ServiceState} (recorded : Recorded state) : Down state := by
  rcases recorded with rfl | rfl <;> rfl

/-- The participants are up or down, and those recorded as stopped have no running main job. -/
structure MainsEnded (w : ShutdownWork) (r : ShutdownRuntime) : Prop where
  known : ∀ participant ∈ r.plan.participants,
    Up (w.services.stateOf participant.service) ∨ Down (w.services.stateOf participant.service)
  ended : ∀ participant ∈ r.plan.participants,
    Recorded (w.services.stateOf participant.service) → MainEnded w.jobs participant.service

theorem MainEnded.sub {jobs' : JobStore} (ended : MainEnded jobs service)
    (sub : ∀ id job, jobs'.get id = some job → IsMainOf job service → jobs.get id = some job) :
    MainEnded jobs' service :=
  fun id job got main => ended id job (sub id job got main) main

theorem MainsEnded.settle (mains : MainsEnded w r) (plan : r'.plan = r.plan)
    (settle : ServicesSettle w.services next.services) (jobs : w.jobs.Ended next.jobs)
    (recorded : ∀ part ∈ r.plan.participants,
      Recorded (next.services.stateOf part.service) →
        next.services.get part.service = w.services.get part.service ∨
          MainEnded next.jobs part.service) : MainsEnded next r' where
  known := by
    rw [plan]
    exact fun p mem => (settle p.service).upOrDown (mains.known p mem)
  ended := by
    rw [plan]
    intro p mem isRecorded
    rcases recorded p mem isRecorded with same | ended
    · rw [ServiceTable.stateOf_congr same] at isRecorded
      exact (mains.ended p mem isRecorded).sub fun id job got _ => jobs.sub got
    · exact ended

theorem MainsEnded.asked (mains : MainsEnded w r) (plan : r'.plan = r.plan)
    (asked : OnlyAsked w.services next.services) (jobs : next.jobs = w.jobs) : MainsEnded next r' :=
  mains.settle plan asked.settle (jobs ▸ .refl _) fun p _ recorded => .inl (asked.same (by
    rcases recorded with state | state <;> rw [state] <;> decide))

theorem MainsEnded.submitted (mains : MainsEnded w r) (only : SubmittedOnly w next) :
    MainsEnded next r :=
  mains.settle rfl (by rw [only.services]; exact .refl _) only.ended fun _ _ _ =>
    .inl (by rw [only.services])

theorem MainsEnded.exit (mains : MainsEnded w r) (got : w.shutdown = some r) (idx : w.jobs.Indexed)
    (done : JobStore.Finished w.jobs id jobs job) (same : ended.service = job.service)
    (notSubmitted : job.jobType ≠ .submitted) (rightly : DecidesRightly w r job)
    (exit : { w with jobs }.applyShutdownJobExit ended = .ok mid) :
    ∃ r', mid.shutdown = some r' ∧ MainsEnded mid r' ∧ mid.jobs = jobs := by
  have ends := JobStore.Ended.of_finished done
  cases own : job.service with
  | none =>
    unfold applyShutdownJobExit at exit
    rw [same, own] at exit
    cases exit
    exact ⟨r, got, mains.settle rfl (.refl _) ends fun _ _ _ => .inl rfl, rfl⟩
  | some service =>
    obtain ⟨r₁, svcs, stopTimeouts, found₁, taken, rfl⟩ := applyShutdownJobExit_ok (same.trans own) exit
    cases got.symm.trans found₁
    refine ⟨_, rfl, mains.settle rfl taken.settle ends fun p mem _ => ?_, rfl⟩
    by_cases here : p.service = service
    · rcases rightly with main | submitted | neither
      · -- the job was the main one, and there was no other
        right
        intro other job' found' isMain running
        have before := ends.sub found'
        have same' : other = id := idx.oneMain before done.known (here ▸ isMain.1) own isMain.2 main
        rw [done.records, if_pos same'.symm] at found'
        cases found'
      · exact absurd submitted notSubmitted
      · -- the service was down already
        left
        have down := (mains.known p mem).resolve_left (here ▸ (neither service own).1)
        cases taken with
        | idle notUp => rfl
        | moved entry tr known busy done =>
          rw [here, ServiceTable.stateOf_of_get known] at down
          rw [Down, Option.all_some, busy] at down
          cases down
    · exact .inl (taken.others here)

theorem MainsEnded.postKill {svcs : ServiceTable} (mains : MainsEnded w r) (idx : w.jobs.Indexed)
    (killed : PostKilledAll (r.duePostKills nowNs) w.services svcs w.jobs jobs) :
    MainsEnded { w with jobs, services := svcs, shutdown := some (r.afterPostKills nowNs) }
      (r.afterPostKills nowNs) := by
  refine mains.settle rfl killed.settle killed.ended fun p _ _ => ?_
  by_cases due : ∃ d ∈ r.duePostKills nowNs, d.service = p.service
  · obtain ⟨d, mem, named⟩ := due
    exact .inr fun id job got main running =>
      ((killed.ends idx id job).mp got).2 d mem ⟨named ▸ main.1, running⟩
  · refine .inl (killed.others p.service fun d mem named => due ⟨d, mem, named⟩)

theorem MainsEnded.kill {out : ShutdownWork × List String}
    (mains : MainsEnded w r) (got : w.shutdown = some r)
    (ran : w.killDueServices cfg nowNs = .ok out) :
    ∃ r', out.1.shutdown = some r' ∧ MainsEnded out.1 r' ∧ w.jobs.Ended out.1.jobs := by
  rcases killDueServices_cases got ran with
    ⟨-, mid, r', kill, fired, killed⟩ | ⟨-, -, stopTimeouts, same⟩
  · have before : MainsEnded (w.modifyShutdown fun shutdown =>
        { shutdown with globalTimeoutFired := true }) r := ⟨mains.known, mains.ended⟩
    have only := killAllLiveSubmittedJobs_ok kill
    exact ⟨r', killed.shutdown, (before.submitted only).asked killed.same.plan killed.asked killed.jobs,
      by rw [killed.jobs]; exact only.ended⟩
  · rw [same]
    refine ⟨_, rfl, mains.asked ?_ (.refl _) rfl, .refl _⟩
    exact (killedAtDeadline_samePlan nowNs cfg.postKillTimeoutSecs _ _).plan

theorem MainsEnded.timeouts
    {killed failed looked acted : ShutdownWork} {kills : List String} {processed : ℕ} {came : Bool}
    (mains : MainsEnded w r) (got : w.shutdown = some r) (idx : w.jobs.Indexed)
    (phases : TimeoutPhases cfg answers nowNs w killed kills failed looked processed acted came) :
    ∃ r', acted.shutdown = some r' ∧ MainsEnded acted r' ∧ acted.jobs.Indexed := by
  obtain ⟨r₁, found₁, afterKill, ended⟩ := mains.kill got phases.kill
  obtain ⟨operations, rfl⟩ := phases.fail
  have afterFail : MainsEnded { killed with operations } r₁ := ⟨afterKill.known, afterKill.ended⟩
  obtain ⟨jobs, svcs, same, postKilled, -⟩ :=
    processDuePostKillDeadlines_ok (w := { killed with operations }) found₁ phases.look
  subst same
  have indexed' := ended.indexed idx
  have only := phases.only
  exact ⟨_, only.shutdown, (afterFail.postKill indexed' postKilled).submitted only,
    only.ended.indexed (postKilled.ended.indexed indexed')⟩

/-! ## Runs -/

/-- The jobs are indexed, and the participants of a shutdown that has begun are recorded as stopped
only when their main job has ended. -/
structure MainsDecide (w : ShutdownWork) : Prop where
  indexed : w.jobs.Indexed
  mains : ∀ r, w.shutdown = some r → MainsEnded w r

theorem MainsDecide.begin {kind : ShutdownKind} (decided : MainsDecide w)
    (ran : w.beginShutdown cfg answers kind nowNs = .ok next) : MainsDecide next := by
  obtain ⟨r, begun⟩ := beginShutdown_ok ran
  obtain ⟨cleared, killed, wave, moved, -, -, jobs₁, killedAll, waveBegun, stopped, stop, rfl⟩ :=
    begun.stages
  have only := stopSubmittedJobsForShutdown_ok stop
  have beginning := beginStopWave_ok waveBegun
  obtain ⟨_, jobs₂, _, _, same, ended⟩ := killedAll.same
  have planned := begun.planned
  have up : ∀ p ∈ r.plan.participants, Up (stopped.services.stateOf p.service) := by
    intro p mem
    rw [only.services]
    refine beginning.asked.up ?_
    rw [ServiceTable.stateOf_congr (untouched_of_planned planned moved killedAll.moved mem)]
    exact planned.up mem
  refine ⟨?_, fun r' got => ?_⟩
  · refine only.ended.indexed ?_
    rw [beginning.jobs, same]
    exact ended.indexed (jobs₁ ▸ decided.indexed)
  · cases got
    refine ⟨fun p mem => .inl (up p mem), fun p mem recorded => ?_⟩
    exact absurd recorded.down (not_down_of_up (up p mem))

theorem mainsDecide_advance (idx : mid.jobs.Indexed) (got : mid.shutdown = some r)
    (mains : MainsEnded mid r) (ran : mid.advanceShutdownProgress nowNs = .ok next) :
    MainsDecide next := by
  obtain ⟨r', after, -, -, asked, jobs, plan⟩ := advance_loses_nothing got ran
  refine ⟨jobs ▸ idx, fun r₁ found₁ => ?_⟩
  cases after.symm.trans found₁
  exact mains.asked plan asked jobs

theorem MainsDecide.reaped (decided : MainsDecide w) (got : w.shutdown = some r)
    (rightly : ∀ id job, w.jobs.activeJobByPid pid = some id → w.jobs.get id = some job →
      DecidesRightly w r job) :
    MainsDecide ((applyReapedChild cfg answers pid status endNs).run w).2 := by
  have mains := decided.mains r got
  have reaped := applyReapedChild_cases cfg answers pid status endNs w
  generalize ((applyReapedChild cfg answers pid status endNs).run w).2 = after at reaped ⊢
  cases reaped with
  | ignored => exact decided
  | kept mid e only failed =>
    refine ⟨only.ended.indexed decided.indexed, fun r' found' => ?_⟩
    cases (only.shutdown.trans got).symm.trans found'
    exact mains.submitted only
  | submitted mid next only ran =>
    exact mainsDecide_advance (only.ended.indexed decided.indexed) (only.shutdown.trans got)
      (mains.submitted only) ran
  | service id job next isReaped known type ran =>
    obtain ⟨jobs, job', ended, mid, done, same, exit, ran'⟩ := reapServiceJob_ok ran
    cases known.symm.trans done.known
    obtain ⟨r', found', mains', jobs'⟩ := mains.exit got decided.indexed done same type
      (rightly id job isReaped known) exit
    exact mainsDecide_advance (jobs' ▸ decided.indexed.finished done) found' mains' ran'

theorem MainsDecide.started {setups : OrdMap ℤ PendingLaunchSetup}
    {pidfd : ℤ} {startNs : ℕ} (decided : MainsDecide w)
    (notMain : ∀ job, w.jobs.get id = some job → job.jobType ≠ .serviceMain)
    (started : w.jobs.startJob id pid pidfd startNs = .ok jobs) :
    MainsDecide { w with jobs, pendingProcessSetups := setups } := by
  refine ⟨decided.indexed.started started, fun r got => ?_⟩
  have mains := decided.mains r got
  refine ⟨mains.known, fun p mem recorded => (mains.ended p mem recorded).sub ?_⟩
  obtain ⟨job, after, known, -, type, records, -, -⟩ := JobStore.startJob_ok started
  intro other job' found' main
  rw [records] at found'
  split_ifs at found' with here
  · cases found'
    exact absurd (type.symm.trans main.2) (notMain job known)
  · exact found'

theorem MainsDecide.modify {f : ShutdownRuntime → ShutdownRuntime} (decided : MainsDecide w)
    (plan : ∀ r, (f r).plan = r.plan) : MainsDecide (w.modifyShutdown f) := by
  refine ⟨decided.indexed, fun r' got => ?_⟩
  obtain ⟨r, found', rfl⟩ := Option.map_eq_some_iff.mp got
  exact (decided.mains r found').asked (plan r) (.refl _) rfl

end ShutdownWork

namespace ShutdownMove

open ShutdownWork

/-- The moves in which every child that is reaped decides rightly.  A setup that succeeds is that of a
submitted job, and the rest of the supervisor leaves the participants and their main jobs alone. -/
def DecidesRightly (work : ShutdownWork) : ShutdownMove → Prop
  | begin .. => True
  | step s => match s.event with
    | .reaped pid _ => ∀ r, work.shutdown = some r → ∀ id job,
      work.jobs.activeJobByPid pid = some id → work.jobs.get id = some job →
        ShutdownWork.DecidesRightly work r job
    | .submittedSetupSucceeded setupStatusFd => ∀ setup job,
      work.pendingProcessSetups[setupStatusFd]? = some setup →
        work.jobs.get setup.jobId = some job → job.jobType = .submitted
    | _ => True
  | outside next => next.jobs.Indexed ∧ ∀ r, work.shutdown = some r →
    ∀ participant ∈ r.plan.participants,
      next.services.stateOf participant.service = work.services.stateOf participant.service ∧
      ∀ id job, next.jobs.get id = some job → IsMainOf job participant.service →
        work.jobs.get id = some job

end ShutdownMove

namespace ShutdownWork

theorem MainsDecide.step {step : ShutdownStep} {r : ShutdownRuntime}
    (decided : MainsDecide w) (got : w.shutdown = some r)
    (rightly : (ShutdownMove.step step).DecidesRightly w) :
    MainsDecide (step.perform cfg w) := by
  obtain ⟨nowNs, answers, event⟩ := step
  cases event with
  | reaped pid status => exact decided.reaped got (rightly r got)
  | timeouts =>
    refine transaction_rule decided fun next ran => ?_
    obtain ⟨_, _, _, _, _, _, _, phases, ⟨-, rfl⟩ | ⟨-, advance⟩⟩ := processDueShutdownTimeouts_cases ran
    · exact decided
    · obtain ⟨r', found', mains, idx⟩ := (decided.mains r got).timeouts got decided.indexed phases
      exact mainsDecide_advance idx found' mains advance
  | submittedSetupSucceeded setupStatusFd =>
    refine transaction_rule decided fun next ran => ?_
    rcases submittedSetupSucceeded_ok ran with rfl | ⟨setup, jobs, rfl, pending, started⟩
    · exact decided
    · refine decided.started (fun job known main => ?_) started
      rw [rightly setup job pending known] at main
      cases main
  | submittedSetupFailed setupStatusFd error =>
    refine transaction_rule decided fun next ran => ?_
    rcases submittedSetupFailed_ok ran with rfl | ⟨setup, dead, -, only, -⟩
    · exact decided
    · refine ⟨only.ended.indexed decided.indexed, fun r' found' => ?_⟩
      cases (only.shutdown.trans got).symm.trans found'
      exact (decided.mains r got).submitted only
  | stopExtended svc dueAtNs => exact decided.modify fun _ => rfl
  | finalAction failure afterNs =>
    show MainsDecide (w.finalizeDueShutdown failure afterNs nowNs)
    unfold finalizeDueShutdown
    split_ifs
    · exact decided.modify fun _ => rfl
    · exact decided

theorem MainsDecide.move {move : ShutdownMove} (decided : MainsDecide w)
    (rightly : move.DecidesRightly w) : MainsDecide (move.perform cfg w) := by
  cases move with
  | begin kind nowNs answers => exact transaction_rule decided fun next ran => decided.begin ran
  | step step =>
    unfold ShutdownMove.perform
    split_ifs with inProgress
    · obtain ⟨r, got⟩ := Option.isSome_iff_exists.mp inProgress
      exact decided.step got rightly
    · exact decided
  | outside next =>
    obtain ⟨idx, alone⟩ := rightly
    refine ⟨idx, fun r got => ?_⟩
    have mains := decided.mains r got
    refine ⟨fun p mem => ?_, fun p mem recorded => ?_⟩
    · rw [show (ShutdownMove.perform cfg w (.outside next)).services.stateOf p.service =
        w.services.stateOf p.service from (alone r got p mem).1]
      exact mains.known p mem
    · refine (mains.ended p mem ?_).sub (alone r got p mem).2
      rwa [← (alone r got p mem).1]

/-- A reaped child takes a service down or drops its deadlines only as its main process, if and only if
it decides rightly; and where every child does, no participant is ever recorded as stopped while its
main process runs. -/
theorem main_process_decides (settings : ShutdownSettings) :
    (∀ (answers : ProcessAnswers) (pid : ℕ) (status : ChildExitStatus) (endedAtNs : ℕ) (id : JobId)
      (job : JobRecord) (service : String) (w next : ShutdownWork) (r : ShutdownRuntime),
      w.shutdown = some r → w.jobs.activeJobByPid pid = some id → w.jobs.get id = some job →
      job.service = some service →
      (applyReapedChild settings answers pid status endedAtNs).run w = (.ok (), next) →
      ∃ (mid : ShutdownWork) (rmid r' : ShutdownRuntime),
        noteReaped settings answers job id status endedAtNs w = .ok mid ∧ mid.shutdown = some rmid ∧
        mid.advanceShutdownProgress endedAtNs = .ok next ∧ next.shutdown = some r' ∧
        rmid.stopDeadlines ⊆ r'.stopDeadlines ∧ rmid.postKillDeadlines ⊆ r'.postKillDeadlines ∧
        ((∀ other, Up (w.services.stateOf other) ∧ ¬ Up (next.services.stateOf other) ∨
          r.LosesDeadline rmid other → IsMainOf job other) ↔ DecidesRightly w r job)) ∧
    ∀ (w : ShutdownWork), w.shutdown = none → w.jobs.Indexed → ∀ moves : List ShutdownMove,
      Admissible (ShutdownMove.perform settings) ShutdownMove.DecidesRightly w moves →
      ∀ r, (runCalls (ShutdownMove.perform settings) w moves).shutdown = some r →
        ∀ participant ∈ r.plan.participants,
          Recorded ((runCalls (ShutdownMove.perform settings) w moves).services.stateOf
            participant.service) →
          MainEnded (runCalls (ShutdownMove.perform settings) w moves).jobs participant.service := by
  constructor
  · intro answers pid status endedAtNs id job service w next r found reaped known own ran
    exact reap_decides_iff found reaped known own ran
  · intro w idle indexed moves rightly r found participant listed recorded
    have decided : MainsDecide (runCalls (ShutdownMove.perform settings) w moves) :=
      invariant_of_step MainsDecide (fun _ _ held ok => held.move ok) moves
        ⟨indexed, fun r found => by cases idle.symm.trans found⟩ rightly
    exact (decided.mains r found).ended participant listed recorded

/-- The store with one more live job of `service`. -/
def withJob (jobs : JobStore) (service : String) (job : JobRecord) : JobStore :=
  { jobs with
    records := jobs.records.insert job.id job
    activeByService := jobs.activeByService.insert service (jobs.activeForService service ++ [job.id]) }

/-- `web` is up with its main process, and a health check of it runs as well. -/
def checkedService : ShutdownWork where
  services := ⟨(∅ : OrdMap String ServiceEntry).insert "web" (serviceIn .active { name := "web" })⟩
  operations := .new
  jobs := withJob (withJob .new "web" (runningJob 1 11 "web" .serviceMain)) "web"
    (runningJob 2 12 "web" .healthCheck)

/-- A shutdown begins, and a child with the given process id exits. -/
def begunAndReaped (pid : ℕ) : List ShutdownMove := [.begin .poweroff 0 nothingLeft,
    .step ⟨nanosPerSec, nothingLeft, .reaped pid (.exited 0)⟩]

theorem checkedService_indexed : checkedService.jobs.Indexed := by
  have main : (withJob .new "web" (runningJob 1 11 "web" .serviceMain)).Indexed :=
    JobStore.indexed_new.enlist (by decide +kernel) (fun _ => OrdMap.get_insert _ _ _ _)
      (JobStore.activeForService_enlist _ _) (by rintro _ ⟨⟩ -; decide +kernel)
  exact main.enlist (by decide +kernel) (fun _ => OrdMap.get_insert _ _ _ _)
    (JobStore.activeForService_enlist _ _) nofun

/-- The main process exits first. -/
theorem main_process_decides_mainFirst :
    (runCalls (ShutdownMove.perform {}) checkedService (begunAndReaped 11)).services.stateOf "web" =
      some .inactive ∧
    ∀ r, (runCalls (ShutdownMove.perform {}) checkedService (begunAndReaped 11)).shutdown = some r →
      ∀ participant ∈ r.plan.participants, participant.service = "web" →
        MainEnded (runCalls (ShutdownMove.perform {}) checkedService (begunAndReaped 11)).jobs "web" := by
  have stopped : (runCalls (ShutdownMove.perform {}) checkedService
      (begunAndReaped 11)).services.stateOf "web" = some .inactive := by decide +kernel
  have first : ((ShutdownMove.begin .poweroff 0 nothingLeft).perform {} checkedService).jobs.activeJobByPid
      11 = some ⟨1⟩ := by decide +kernel
  have isMain : ∀ job ∈ ((ShutdownMove.begin .poweroff 0 nothingLeft).perform {} checkedService).jobs.get
      ⟨1⟩, job.jobType = .serviceMain := by decide +kernel
  refine ⟨stopped, fun r found participant listed here => ?_⟩
  rw [← here]
  refine (main_process_decides {}).2 checkedService rfl checkedService_indexed (begunAndReaped 11)
    ⟨trivial, fun r _ id job reaped known => .inl ?_, trivial⟩ r found participant listed
    (.inl (here ▸ stopped))
  cases first.symm.trans reaped
  exact isMain job known

/-- The health check exits first: the service is recorded as stopped and its deadline is dropped, while
its main process runs on. -/
theorem health_check_ends_service :
    checkedService.shutdown = none ∧ checkedService.jobs.Indexed ∧
    (((ShutdownMove.begin .poweroff 0 nothingLeft).perform {} checkedService).shutdown.any fun r =>
      r.stopDeadlines.map (·.service) = ["web"]) = true ∧
    ∃ r, (runCalls (ShutdownMove.perform {}) checkedService (begunAndReaped 12)).shutdown = some r ∧
      r.stopDeadlines = [] ∧
      (∃ participant ∈ r.plan.participants, participant.service = "web" ∧ Recorded ((runCalls
        (ShutdownMove.perform {}) checkedService (begunAndReaped 12)).services.stateOf
          participant.service)) ∧
      ∃ job, (runCalls (ShutdownMove.perform {}) checkedService (begunAndReaped 12)).jobs.get ⟨1⟩ =
        some job ∧ IsMainOf job "web" ∧ job.state = .running := by
  refine ⟨rfl, checkedService_indexed, ?_⟩
  unfold IsMainOf Recorded
  decide +kernel

end ShutdownWork

end Peinit
