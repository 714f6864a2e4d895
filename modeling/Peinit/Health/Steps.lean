import Peinit.Health.Recorded
import Peinit.Job.Ownership

/-!
# What keeps checks and records together

Each operation on the checks keeps `HealthInv`, but a record that is dropped or renewed for an active
service takes a live check out of sight.
-/

namespace Peinit

open HealthCheckStore ServiceTable JobStore Option

variable {entry : ServiceEntry} {cause : TransitionCause}
  {untilNs pid startNs cgroupGeneration atNs nowNs launchedAtNs : ℕ}
  {held : Option HealthCheckInvocation} {record : HealthCheckRecord} {target : ServiceTransition}
  {out : ServiceTable × ServiceTableTransition} {pidfd : ℤ} {kills : String → Bool} {job : JobRecord}
  {finish : JobRecord → Except JobTransitionError JobRecord} {answer : LaunchAnswer}
  {svcs : ServiceTable} {svc : String} {health : HealthCheckStore}

/-! ## Services -/

namespace ServiceTable

variable {transition : ServiceTransition}

theorem state_of_transition (ran : svcs.transitionService svc transition = .ok out)
    (got : out.1.get svc = some entry) :
    entry.runtime.state = transition.target := by
  obtain ⟨before, -, -, next⟩ := transitionService_eq_ok ran
  rw [next, get_moveEntry] at got
  split_ifs at got
  cases got
  simp

theorem get_of_transition_ne (ran : svcs.transitionService svc transition = .ok out)
    {other : String} (away : other ≠ svc) : out.1.get other = svcs.get other := by
  obtain ⟨before, -, -, next⟩ := transitionService_eq_ok ran
  rw [next, get_moveEntry_ne away]

theorem event_of_transition (ran : svcs.transitionService svc transition = .ok out) :
    out.2.event.service = svc ∧ out.2.event.target = transition.target := by
  unfold transitionService at ran
  split at ran
  · cases ran
  · split at ran
    · cases ran
      exact ⟨rfl, rfl⟩
    · cases ran

theorem transitionServiceToRestartBackoff_ok
    (ran : svcs.transitionServiceToRestartBackoff svc cause untilNs = .ok out) :
    ∃ moved entry, svcs.transitionService svc ⟨.backoff, cause⟩ = .ok moved ∧
      moved.1.get svc = some entry ∧ ∃ runtime : ServiceRuntimeSnapshot,
        runtime.state = entry.runtime.state ∧
        out.1 = moved.1.set svc { entry with runtime } := by
  obtain ⟨moved, first, rest⟩ := bind_eq_ok.mp ran
  dsimp only at rest
  split at rest
  · cases rest
  · next entry got =>
    cases rest
    exact ⟨moved, entry, first, got, { entry.runtime with
      consecutiveRestartFailures :=
        if cause = .cleanExitRestart ∧ entry.definition.consolePath.isSome then 0
        else min (entry.runtime.consecutiveRestartFailures + 1) u32Max
      restartBackoffUntilNs := some untilNs }, rfl, rfl⟩

end ServiceTable

namespace HealthCheckStore

variable {other : String} {check : HealthCheckInvocation}

theorem holds_setInvocation (holds : (health.setInvocation svc held).Holds svc check) :
    held = some check := by
  obtain ⟨record, got, same⟩ := holds
  rw [get_setInvocation, if_pos rfl] at got
  obtain ⟨before, -, rfl⟩ := map_eq_some_iff.mp got
  exact same

theorem away_setInvocation (away : other ≠ svc) :
    (health.setInvocation svc held).records[other]? = health.records[other]? := by
  rw [get_setInvocation, if_neg (Ne.symm away)]

theorem named_setInvocation (named : ∀ record : HealthCheckRecord, health.records[svc]? = some record →
      record.service = svc)
    (got : (health.setInvocation svc held).records[svc]? = some record) :
    record.service = svc := by
  rw [get_setInvocation, if_pos rfl] at got
  obtain ⟨before, there, rfl⟩ := map_eq_some_iff.mp got
  exact named before there

theorem recordPendingInvocation_of_free (there : health.records[svc]? = some record)
    (free : record.invocation = none) (jobId : JobId) (cgroupId : String) :
    health.recordPendingInvocation svc record.activationGeneration jobId cgroupId =
      health.setInvocation svc (some (.pending jobId cgroupId)) := by
  unfold recordPendingInvocation
  rw [there]
  simp [free]

end HealthCheckStore

namespace HealthInv

variable {jobs jobs' : JobStore} {health' : HealthCheckStore} {id : JobId}

theorem transition (inv : HealthInv svcs jobs health) (ran : svcs.transitionService svc target = .ok out)
    (idle : target.target = .active → jobs.NoCheck svc) : HealthInv out.1 jobs health := by
  apply inv.services_moved
  intro other entry got active
  by_cases here : other = svc
  · subst here
    exact .inl (idle ((state_of_transition ran got).symm.trans active))
  · rw [get_of_transition_ne ran here] at got
    exact .inr ⟨entry, got, active, rfl⟩

/-! ## The end of a check -/

theorem ended (inv : HealthInv svcs jobs health) (done : jobs.Finished id jobs' job) :
    HealthInv svcs jobs' (health.removeInvocation id).1 := by
  have rest := inv.jobs_ended done.checksEnded
  unfold removeInvocation
  cases got : health.serviceByJob id with
  | none => exact rest
  | some holder =>
    obtain ⟨owner, check⟩ := holder
    obtain ⟨⟨record, there, held⟩, same⟩ := holds_of_serviceByJob got
    refine rest.of_service owner rest.keyed ⟨(rest.tied owner).one, ?_, fun check holds => ?_,
      fun record there => named_setInvocation (inv.tied owner).named there⟩
      (fun other away => away_setInvocation away) fun _ _ _ _ got _ _ => got
    · -- a live check of the owner would be the one that has ended
      intro other job' entry found' type own known active
      obtain ⟨record', check', there', -, held', represents⟩ :=
        (rest.tied owner).recorded other job' entry found' type own known active
      cases there.symm.trans there'
      cases held.symm.trans held'
      obtain rfl := represents.jobId_eq.symm.trans same
      rw [done.records, if_pos rfl] at found'
      cases found'
    · cases holds_setInvocation holds

theorem noCheck_of_ended (inv : HealthInv svcs jobs health) (done : jobs.Finished id jobs' job)
    (type : job.jobType = .healthCheck) (own : job.service = some svc) :
    jobs'.NoCheck svc := by
  intro other alive
  obtain rfl := (inv.tied svc).one other id (done.checksEnded.isCheckOf alive) ⟨job, done.known, type, own⟩
  obtain ⟨job', got, -⟩ := alive
  rw [done.records, if_pos rfl] at got
  cases got

/-! ## Start and creation -/

theorem started {timeoutDueAtNs : ℕ} (inv : HealthInv svcs jobs health) (live : jobs.IsCheckOf id svc)
    (ran : jobs.startJob id pid pidfd startNs = .ok jobs') :
    HealthInv svcs jobs' (health.markInvocationRunning id timeoutDueAtNs) := by
  have alive := live
  obtain ⟨before, got, type, own⟩ := alive
  obtain ⟨job, started, known, -, -, records, -, created, -, rfl, -⟩ := startJob_ok ran
  cases got.symm.trans known
  -- the record that holds the check is that of its service, and what it holds is pending
  have pending (entry : ServiceEntry) (there : svcs.get svc = some entry)
      (active : entry.runtime.state = .active) :
      health.Recorded svc entry.runtime.generation id .created :=
    created ▸ (inv.tied svc).recorded id before entry got type own there active
  have put (after : HealthCheckStore) := inv.put after records own (inv.keyed id before got type)
    (fun other alive => (inv.tied svc).one other id alive live)
    fun other check away holds same => away (inv.service_of_holds live holds same)
  unfold markInvocationRunning
  cases holder : health.serviceByJob id with
  | none =>
    refine put health (fun _ _ => rfl) (inv.tied svc).named (fun _ holds => .inr holds) ?_
    intro entry there active
    obtain ⟨record, invocation, at_, -, held, represents⟩ := pending entry there active
    obtain ⟨other, finds⟩ := exists_serviceByJob at_ held
    rw [represents.jobId_eq, holder] at finds
    cases finds
  | some pair =>
    obtain ⟨owner, invocation⟩ := pair
    obtain ⟨holds, same⟩ := holds_of_serviceByJob holder
    obtain rfl := inv.service_of_holds live holds same
    obtain ⟨record, at_, held⟩ := holds
    cases invocation with
    | pending jobId cgroupId =>
      obtain rfl : jobId = id := same
      refine put _ (fun other away => away_setInvocation away)
        (fun record there => named_setInvocation (inv.tied owner).named there) ?_ ?_
      · intro invocation holds
        cases holds_setInvocation holds
        exact .inl rfl
      · intro entry there active
        obtain ⟨record', _, at', gen, -, -⟩ := pending entry there active
        cases at_.symm.trans at'
        refine ⟨{ record with invocation := some (.running ⟨jobId, cgroupId, timeoutDueAtNs⟩) },
          .running ⟨jobId, cgroupId, timeoutDueAtNs⟩, ?_, gen, rfl, rfl⟩
        rw [get_setInvocation, if_pos rfl, at_]
        rfl
    | running check =>
      refine put _ (fun other away => away_setInvocation away)
        (fun record there => named_setInvocation (inv.tied owner).named there) ?_ ?_
      · intro invocation holds
        cases holds_setInvocation holds
      · intro entry there active
        obtain ⟨record', _, at', -, held', represents⟩ := pending entry there active
        cases at_.symm.trans at'
        cases held.symm.trans held'
        exact represents.elim

theorem created (inv : HealthInv svcs jobs health) (cgroupId : String) (none : jobs.NoCheck svc)
    (ran : jobs.createJob job = .ok jobs') (own : job.service = some svc)
    (there : health.records[svc]? = some record) (free : record.invocation = Option.none)
    (current : ∀ entry, svcs.get svc = some entry →
      record.activationGeneration = entry.runtime.generation)
    (fresh : ∀ other check, health.Holds other check → check.jobId ≠ job.id) :
    HealthInv svcs jobs' (health.recordPendingInvocation svc record.activationGeneration job.id
      cgroupId) := by
  obtain ⟨-, state, records, -⟩ := createJob_ok ran
  rw [recordPendingInvocation_of_free there free]
  refine inv.put _ records own rfl (fun other alive => absurd alive (none other))
    (fun other check _ => fresh other check) (fun other away => away_setInvocation away)
    (fun record got => named_setInvocation (inv.tied svc).named got) (fun check holds => ?_)
    fun entry known active => ?_
  · cases holds_setInvocation holds
    exact .inl rfl
  · rw [state]
    refine ⟨{ record with invocation := some (.pending job.id cgroupId) }, .pending job.id cgroupId,
      ?_, current entry known, rfl, rfl⟩
    rw [get_setInvocation, if_pos rfl, there]
    rfl

/-! ## Scheduling -/

theorem schedule {gen dueAtNs : ℕ} (inv : HealthInv svcs jobs health)
    (same : svcs.IsActive svc → ¬ jobs.NoCheck svc → ∀ record : HealthCheckRecord,
      health.records[svc]? = some record → record.activationGeneration = gen ∧
        record.cgroupGeneration = cgroupGeneration) :
    HealthInv svcs jobs (health.scheduleInterval svc gen cgroupGeneration dueAtNs) := by
  refine inv.of_service svc inv.keyed ⟨(inv.tied svc).one, ?_, ?_, fun record there => ?_⟩
    (fun other away => ?_) fun _ _ _ _ got _ _ => got
  · intro id job entry got type own known active
    obtain ⟨record, check, there, current, held, represents⟩ :=
      (inv.tied svc).recorded id job entry got type own known active
    have kept := same ⟨entry, known, active⟩ (fun none => none id ⟨job, got, type, own⟩) record there
    refine ⟨_, check, get_scheduleInterval _ _ _ |>.trans (if_pos rfl), kept.1.symm.trans current, ?_,
      represents⟩
    rw [there, filter_some, if_pos (by simpa using kept)]
    exact held
  · rintro check ⟨record, there, held⟩
    rw [get_scheduleInterval, if_pos rfl] at there
    cases there
    obtain ⟨before, got, held⟩ := bind_eq_some_iff.mp held
    exact (inv.tied svc).owned check ⟨before, (filter_eq_some_iff.mp got).1, held⟩
  · rw [get_scheduleInterval, if_pos rfl] at there
    cases there
    rfl
  · rw [get_scheduleInterval, if_neg (Ne.symm away)]

end HealthInv

namespace HealthWork

/-- What holds of the stores between two steps. -/
structure Consistent (work : HealthWork) : Prop where
  services : work.services.Keyed
  checks : HealthInv work.services work.jobs work.health

namespace Consistent

variable {work after : HealthWork} {jobId : JobId}

theorem jobs_ended (sound : work.Consistent) (svcs : after.services = work.services)
    (ended : work.jobs.ChecksEnded after.jobs) (health : after.health = work.health) :
    after.Consistent where
  services := svcs ▸ sound.services
  checks := by
    rw [svcs, health]
    exact sound.checks.jobs_ended ended

theorem transition (sound : work.Consistent) (ran : work.services.transitionService svc target = .ok out)
    (idle : target.target = .active → work.jobs.NoCheck svc) :
    Consistent { work with services := out.1 } :=
  ⟨sound.services.moved ran, sound.checks.transition ran idle⟩

theorem cancelService (sound : work.Consistent)
    (idle : work.services.IsActive svc → work.jobs.NoCheck svc) :
    (work.cancelService svc).Consistent :=
  ⟨sound.services, sound.checks.cancel idle⟩

/-! ## The end of a check -/

theorem restartBackoff (sound : work.Consistent)
    (ran : work.services.transitionServiceToRestartBackoff svc cause untilNs = .ok out) :
    Consistent { work with services := out.1 } := by
  obtain ⟨moved, entry, first, got, runtime, state, next⟩ := transitionServiceToRestartBackoff_ok ran
  have rest := sound.transition first (fun active => by cases active)
  have down : runtime.state ≠ .active := by
    rw [state, state_of_transition first got]
    exact ServiceState.noConfusion
  have get : ∀ other, out.1.get other =
      if svc = other then some { entry with runtime } else moved.1.get other := by
    intro other
    rw [next]
    exact get_set _
  refine ⟨fun other entry' there => ?_, rest.checks.services_moved fun other entry' there active => ?_⟩
  · rw [get] at there
    split_ifs at there with here
    · cases there
      exact rest.services other entry (here ▸ got)
    · exact rest.services other entry' there
  · rw [get] at there
    split_ifs at there
    · cases there
      exact absurd active down
    · exact .inr ⟨entry', there, active, rfl⟩

theorem applyHealthCheckFailure (sound : work.Consistent) (none : work.jobs.NoCheck svc)
    {out : HealthWork × Outcome}
    (ran : work.applyHealthCheckFailure svc entry atNs = .ok out) : out.1.Consistent := by
  unfold HealthWork.applyHealthCheckFailure at ran
  dsimp only at ran
  split_ifs at ran
  · cases ran
    exact ⟨sound.services, sound.checks⟩
  have cancelled := sound.cancelService (fun _ => none)
  split at ran
  · obtain ⟨moved, first, rest⟩ := bind_eq_ok.mp ran
    cases rest
    have after := cancelled.restartBackoff (mapError_eq_ok.mp first)
    exact ⟨after.services, after.checks⟩
  · obtain ⟨moved, first, rest⟩ := bind_eq_ok.mp ran
    cases rest
    have after := cancelled.transition (mapError_eq_ok.mp first) (fun _ => none)
    exact ⟨after.services, after.checks⟩

theorem applyHealthCheckTerminalInWork (work : HealthWork) {ended : JobRecord}
    {out : HealthWork × Outcome} (keyed : work.services.Keyed)
    (removed : HealthInv work.services work.jobs (work.health.removeInvocation ended.id).1)
    (none : ∀ svc, ended.jobType = .healthCheck → ended.service = some svc → work.jobs.NoCheck svc)
    (ran : work.applyHealthCheckTerminalInWork ended atNs = .ok out) : out.1.Consistent := by
  have sound : Consistent { work with health := (work.health.removeInvocation ended.id).1 } :=
    ⟨keyed, removed⟩
  unfold HealthWork.applyHealthCheckTerminalInWork at ran
  obtain ⟨type, ran⟩ := if_error_eq_ok.mp ran
  obtain ⟨-, ran⟩ := if_error_eq_ok.mp ran
  split at ran
  · cases ran
  · next svc own =>
    dsimp only at ran
    split at ran
    · cases ran
      exact sound
    · split at ran
      · cases ran
        exact sound
      · split_ifs at ran
        · cases ran
          exact sound
        · cases ran
          exact ⟨sound.services, sound.checks⟩
        · exact sound.applyHealthCheckFailure (none svc (not_not.mp type) own) ran

theorem terminateServiceAfterHealthEscalation (sound : work.Consistent) {outcome : Outcome}
    (ran : work.terminateServiceAfterHealthEscalation kills outcome svc cgroupGeneration nowNs =
      .ok after) : after.Consistent := by
  unfold HealthWork.terminateServiceAfterHealthEscalation at ran
  split_ifs at ran
  · cases ran
    exact sound
  · split at ran
    · cases ran
    · split at ran
      · cases ran
      · split_ifs at ran
        obtain ⟨out, first, rest⟩ := bind_eq_ok.mp ran
        cases rest
        obtain ⟨job, ended⟩ := failRunningJob_ok (mapError_eq_ok.mp first)
        exact sound.jobs_ended rfl ended.toFinished.checksEnded rfl

/-- What the end of a job leaves as it was. -/
def KeepsIdentity (finish : JobRecord → Except JobTransitionError JobRecord) : Prop :=
  ∀ job ended, finish job = .ok ended → ended.service = job.service ∧ ended.pidfd = job.pidfd ∧
    ended.jobType = job.jobType ∧ ended.id = job.id

theorem identity_of_finish {expected : JobState} {action : JobTransitionAction} {endNs : ℕ}
    {finished : JobRecord → JobRecord} {ended : JobRecord}
    (ran : job.finish expected action endNs finished = .ok ended)
    (keeps : JobStore.Keeps finished) :
    ended.service = job.service ∧ ended.pidfd = job.pidfd ∧ ended.jobType = job.jobType ∧
      ended.id = job.id := by
  rw [(JobRecord.finish_ok ran).2, keeps.service, keeps.pidfd, keeps.jobType, keeps.id]
  exact ⟨rfl, rfl, rfl, rfl⟩

theorem keepsIdentity_complete (endNs : ℕ) (exitCode : ℤ) :
    KeepsIdentity (·.complete endNs exitCode) := fun _ _ ran =>
  identity_of_finish ran {}

theorem keepsIdentity_failBeforeStart (endNs : ℕ) (cause : String) :
    KeepsIdentity (·.failBeforeStart endNs cause) := fun _ _ ran =>
  identity_of_finish ran {}

theorem keepsIdentity_failRunning (endNs : ℕ) (exit : Option JobExit) (cause : String) :
    KeepsIdentity (·.failRunning endNs exit cause) := fun _ _ ran =>
  identity_of_finish ran {}

theorem keepsIdentity_failTimedOut (nowNs : ℕ) : KeepsIdentity (failTimedOut nowNs) := by
  intro job ended ran
  unfold failTimedOut at ran
  split_ifs at ran
  · exact keepsIdentity_failBeforeStart _ _ job ended ran
  · exact keepsIdentity_failRunning _ _ _ job ended ran

theorem finishHealthCheck (sound : work.Consistent) (keeps : KeepsIdentity finish)
    (ran : work.finishHealthCheck kills jobId finish cgroupGeneration atNs = .ok after) :
    after.Consistent := by
  obtain ⟨out, first, rest⟩ := bind_eq_ok.mp ran
  obtain ⟨job, done, finished⟩ := finishJob_ok
    (fun job ended ran => ⟨(keeps job ended ran).1, (keeps job ended ran).2.1⟩)
    (mapError_eq_ok.mp first)
  obtain ⟨svc, -, type, id⟩ := keeps job out.2 finished
  obtain ⟨terminal, applied, rest⟩ := bind_eq_ok.mp rest
  have sound : terminal.1.Consistent := by
    by_cases check : out.2.jobType = .healthCheck
    · have key : out.2.id = jobId :=
        id.trans (sound.checks.keyed jobId job done.known (type.symm.trans check))
      refine applyHealthCheckTerminalInWork { work with jobs := out.1 } sound.services ?_ ?_ applied
      · rw [key]
        exact sound.checks.ended done
      · intro name check own
        exact sound.checks.noCheck_of_ended done (type.symm.trans check) (svc.symm.trans own)
    · unfold HealthWork.applyHealthCheckTerminalInWork at applied
      rw [if_pos check] at applied
      cases applied
  split at rest
  · cases rest
    exact sound
  · exact sound.terminateServiceAfterHealthEscalation rest

theorem applyHealthCheckTerminalJobEvent (sound : work.Consistent) (keeps : KeepsIdentity finish)
    (ran : work.applyHealthCheckTerminalJobEvent kills jobId finish atNs = .ok after) :
    after.Consistent := by
  unfold HealthWork.applyHealthCheckTerminalJobEvent at ran
  split at ran
  · cases ran
  · split_ifs at ran
    exact sound.finishHealthCheck keeps ran

theorem processDueHealthCheckTimeouts (sound : work.Consistent)
    (ran : work.processDueHealthCheckTimeouts kills nowNs = .ok after) : after.Consistent := by
  apply foldlM_invariant Consistent (fun due _ before next sound ran => ?_) sound ran
  split_ifs at ran
  exact sound.finishHealthCheck (keepsIdentity_failTimedOut nowNs) ran

/-! ## Launching -/

theorem markHealthInvocationRunning {jobs : JobStore}
    (sound : work.Consistent) (known : work.jobs.get jobId = some job)
    (type : job.jobType = .healthCheck)
    (started : work.jobs.startJob jobId pid pidfd startNs = .ok jobs)
    (ran : ({ work with jobs } : HealthWork).markHealthInvocationRunning jobId launchedAtNs = .ok after) :
    after.Consistent := by
  unfold HealthWork.markHealthInvocationRunning at ran
  split at ran
  · cases ran
  · next defn defined =>
    cases ran
    obtain ⟨svc, own, -⟩ := bind_eq_some_iff.mp defined
    obtain ⟨job', got, own⟩ := bind_eq_some_iff.mp own
    obtain ⟨before, next, known', same, -, records, -⟩ := startJob_ok started
    cases known.symm.trans known'
    rw [records, if_pos rfl] at got
    cases got
    refine ⟨sound.services, sound.checks.started ⟨job, known, type, same.symm.trans own⟩ started⟩

theorem failLaunchedHealthCheckInWork (sound : work.Consistent) {failedAtNs : ℕ}
    (ran : work.failLaunchedHealthCheckInWork jobId failedAtNs = .ok after) : after.Consistent := by
  obtain ⟨out, first, rest⟩ := bind_eq_ok.mp ran
  cases rest
  obtain ⟨job, ended⟩ := failJobBeforeStart_ok (mapError_eq_ok.mp first)
  exact ⟨sound.services, sound.checks.ended ended.toFinished⟩

theorem launchHealthCheckJob (sound : work.Consistent) (known : work.jobs.get jobId = some job)
    (ran : work.launchHealthCheckJob answer launchedAtNs jobId job = .ok after) :
    after.Consistent := by
  unfold HealthWork.launchHealthCheckJob at ran
  split_ifs at ran with unfit
  · exact sound.failLaunchedHealthCheckInWork ran
  · simp only [not_or, not_not] at unfit
    split at ran
    · exact sound.failLaunchedHealthCheckInWork ran
    · cases ran
      exact ⟨sound.services, sound.checks⟩
    · split at ran
      · exact sound.failLaunchedHealthCheckInWork ran
      · next jobs started => exact sound.markHealthInvocationRunning known unfit.1 started ran

theorem launchNextPendingHealthCheckJob (sound : work.Consistent)
    (ran : work.launchNextPendingHealthCheckJob answer launchedAtNs = .ok after) :
    after.Consistent := by
  unfold HealthWork.launchNextPendingHealthCheckJob at ran
  split at ran
  · cases ran
    exact ⟨sound.services, sound.checks⟩
  · next jobId rest _ =>
    have popped : Consistent { work with pendingHealthLaunches := rest } :=
      ⟨sound.services, sound.checks⟩
    dsimp only at ran
    split_ifs at ran
    · obtain ⟨out, first, rest⟩ := bind_eq_ok.mp ran
      cases rest
      obtain ⟨job, ended⟩ := failJobBeforeStart_ok (mapError_eq_ok.mp first)
      exact sound.jobs_ended rfl ended.toFinished.checksEnded rfl
    · split at ran
      · cases ran
        exact popped
      · next job known => exact popped.launchHealthCheckJob known ran

theorem processPendingProcessSetupStatus (sound : work.Consistent) {fd : ℤ} {execSucceeded : Bool}
    (ran : work.processPendingProcessSetupStatus kills fd execSucceeded atNs = .ok after) :
    after.Consistent := by
  unfold HealthWork.processPendingProcessSetupStatus at ran
  split at ran
  · cases ran
    exact sound
  · have taken : Consistent { work with
        pendingProcessSetups := work.pendingProcessSetups.erase fd } := ⟨sound.services, sound.checks⟩
    dsimp only at ran
    split at ran
    · cases ran
    · next job known =>
      split_ifs at ran with type succeeded
      · obtain ⟨jobs, started, rest⟩ := bind_eq_ok.mp ran
        exact taken.markHealthInvocationRunning known (not_not.mp type) (mapError_eq_ok.mp started) rest
      · exact taken.finishHealthCheck (keepsIdentity_failBeforeStart _ _) ran

end Consistent

end HealthWork

end Peinit
