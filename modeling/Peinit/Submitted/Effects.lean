import Peinit.Job.Index
import Peinit.Shutdown.Step

/-!
# What becomes of submitted jobs

The parts of a shutdown that deal with submitted jobs leave the services, the deadlines of the services
and the signals alone, and no job comes to life by them.
-/

namespace Peinit

variable {id : JobId} {f : SubmittedJobEntry → SubmittedJobEntry} {ended : JobRecord}
  {retentionNs nowNs killSecs failedAtNs endNs : ℕ} {cause : SubmittedJobCause}
  {answers : ProcessAnswers} {failureCause cgroupId : String} {out : ShutdownWork × Bool}
  {status : ChildExitStatus} {m : SubmittedJobStore → Except SubmittedJobStoreError SubmittedJobStore}

namespace SubmittedJobStore

/-- Whether `id` is a job without an outcome. -/
def isLive (submitted : SubmittedJobStore) (id : JobId) : Bool := (submitted.get id).any (·.isLive)

/-- The entries are those of the same jobs, and no job has come to life. -/
def LiveShrinks (before after : SubmittedJobStore) : Prop :=
  ∀ id entry, after.get id = some entry → ∃ old, before.get id = some old ∧ old.jobId = entry.jobId ∧
    (entry.isLive = true → old.isLive = true)

theorem LiveShrinks.refl (submitted : SubmittedJobStore) : LiveShrinks submitted submitted :=
  fun _ entry got => ⟨entry, got, rfl, id⟩

theorem LiveShrinks.trans {a b c : SubmittedJobStore} (first : LiveShrinks a b)
    (second : LiveShrinks b c) : LiveShrinks a c := by
  intro id entry got
  obtain ⟨mid, found', same, live⟩ := second id entry got
  obtain ⟨old, found'', same', live'⟩ := first id mid found'
  exact ⟨old, found'', same'.trans same, fun h => live' (live h)⟩

variable {submitted after : SubmittedJobStore}

theorem liveIds_eq_nil : submitted.liveIds = [] ↔ ∀ id, submitted.isLive id = false := by
  unfold liveIds isLive
  rw [List.map_eq_nil_iff, List.filter_eq_nil_iff]
  constructor
  · intro none id
    cases got : submitted.get id with
    | none => rfl
    | some entry =>
      have mem := none entry ((OrdMap.mem_values _ _).mpr ⟨id, got⟩)
      simpa using mem
  · intro none entry mem
    obtain ⟨id, got⟩ := (OrdMap.mem_values _ _).mp mem
    have dead := none id
    rw [get, got] at dead
    simpa using dead

theorem get_insert_entry (id other : JobId) (entry : SubmittedJobEntry) :
    SubmittedJobStore.get ⟨submitted.entries.insert id entry⟩ other =
      if id = other then some entry else submitted.get other :=
  OrdMap.get_insert _ _ _ _

/-- None but the entry of `id` is touched, which stays that of the same job and does not come to
life. -/
structure Edits (id : JobId) (before after : SubmittedJobStore) : Prop where
  others : ∀ other, other ≠ id → after.get other = before.get other
  own : ∀ entry, after.get id = some entry → ∃ old, before.get id = some old ∧
    old.jobId = entry.jobId ∧ (entry.isLive = true → old.isLive = true)

theorem Edits.refl (id : JobId) (submitted : SubmittedJobStore) : Edits id submitted submitted :=
  ⟨fun _ _ => rfl, fun entry got => ⟨entry, got, rfl, fun live => live⟩⟩

theorem Edits.live (edits : Edits id submitted after) : LiveShrinks submitted after := by
  intro other entry got
  by_cases here : other = id
  · subst here
    exact edits.own entry got
  · exact ⟨entry, edits.others other here ▸ got, rfl, fun live => live⟩

theorem edits_insert {entry entry' : SubmittedJobEntry}
    (got : submitted.get id = some entry) (same : entry.jobId = entry'.jobId)
    (keeps : entry'.isLive = true → entry.isLive = true) :
    Edits id submitted ⟨submitted.entries.insert id entry'⟩ where
  others other away := (get_insert_entry _ _ _).trans (if_neg (Ne.symm away))
  own now there := by
    rw [get_insert_entry, if_pos rfl] at there
    cases there
    exact ⟨entry, got, same, keeps⟩

theorem isLive_modify (same : ∀ entry, (f entry).outcome = entry.outcome) (other : JobId) :
    (submitted.modify id f).isLive other = submitted.isLive other := by
  unfold modify
  split
  · rfl
  · next entry got =>
    unfold isLive
    rw [get_insert_entry]
    split_ifs with here
    · subst here
      rw [got, Option.any_some, SubmittedJobEntry.isLive, same]
      rfl
    · rfl

theorem edits_modify (same : ∀ entry, (f entry).outcome = entry.outcome ∧ entry.jobId = (f entry).jobId) :
    Edits id submitted (submitted.modify id f) := by
  unfold modify
  split
  · exact .refl _ _
  · next entry got =>
    refine edits_insert got (same entry).2 fun live => ?_
    rw [SubmittedJobEntry.isLive, (same entry).1] at live
    exact live

theorem edits_recordTerminal
    (ran : submitted.recordTerminal ended retentionNs = .ok after) : Edits ended.id submitted after := by
  unfold recordTerminal at ran
  split at ran
  · cases ran
  · next entry got =>
    split_ifs at ran
    split at ran
    · cases ran
    · cases ran
      exact edits_insert got rfl nofun

theorem edits_beginStop
    (ran : submitted.beginStop id cause nowNs = .ok after) : Edits id submitted after := by
  unfold beginStop at ran
  split at ran
  · cases ran
  · next entry got =>
    split_ifs at ran
    · cases ran
      exact .refl _ _
    · cases ran
      exact edits_insert got rfl fun live => live

theorem edits_recordKill
    (ran : submitted.recordKill id nowNs killSecs = .ok after) : Edits id submitted after := by
  unfold recordKill at ran
  split at ran
  · cases ran
  · next entry got =>
    cases ran
    exact edits_insert got rfl fun live => live

end SubmittedJobStore

namespace ShutdownWork

open SubmittedJobStore

variable {w next : ShutdownWork}

theorem liveSubmittedJobsRemain_iff :
    w.liveSubmittedJobsRemain = true ↔ ∃ id, w.submitted.isLive id = true := by
  unfold liveSubmittedJobsRemain
  rw [Bool.not_eq_true', ← Bool.not_eq_true, List.isEmpty_iff, liveIds_eq_nil]
  simp

/-- Nothing has happened but that jobs have ended, and no submitted job has come to life. -/
structure SubmittedOnly (w next : ShutdownWork) : Prop where
  services : next.services = w.services
  operations : next.operations = w.operations
  stopTimeouts : next.stopTimeouts = w.stopTimeouts
  shutdown : next.shutdown = w.shutdown
  signals : next.signals = w.signals
  setups : ∀ (setupStatusFd : ℤ) (setup : PendingLaunchSetup),
    next.pendingProcessSetups[setupStatusFd]? = some setup →
      w.pendingProcessSetups[setupStatusFd]? = some setup
  live : LiveShrinks w.submitted next.submitted
  ended : w.jobs.Ended next.jobs

namespace SubmittedOnly

theorem refl (w : ShutdownWork) : SubmittedOnly w w :=
  ⟨rfl, rfl, rfl, rfl, rfl, fun _ _ => id, .refl _, .refl _⟩

theorem trans {mid : ShutdownWork} (first : SubmittedOnly w mid) (second : SubmittedOnly mid next) :
    SubmittedOnly w next where
  services := second.services.trans first.services
  operations := second.operations.trans first.operations
  stopTimeouts := second.stopTimeouts.trans first.stopTimeouts
  shutdown := second.shutdown.trans first.shutdown
  signals := second.signals.trans first.signals
  setups fd setup pending := first.setups fd setup (second.setups fd setup pending)
  live := first.live.trans second.live
  ended := first.ended.trans second.ended

theorem foldlM {α : Type} {f : ShutdownWork → α → Except SupervisorError ShutdownWork} {xs : List α}
    (step : ∀ work x after, f work x = .ok after → SubmittedOnly work after)
    (ran : xs.foldlM f w = .ok next) : SubmittedOnly w next :=
  foldlM_invariant (SubmittedOnly w) (fun x _ mid after kept done =>
    kept.trans (step mid x after done)) (SubmittedOnly.refl w) ran

end SubmittedOnly

theorem onSubmitted_eq_ok
    (ran : w.onSubmitted m = .ok next) :
    ∃ submitted, m w.submitted = .ok submitted ∧ next = { w with submitted } := by
  unfold onSubmitted at ran
  split at ran
  · next submitted done =>
    cases ran
    exact ⟨submitted, done, rfl⟩
  · cases ran

/-- Nothing has happened but to the submitted job `id`. -/
structure SubmittedAt (id : JobId) (w next : ShutdownWork) : Prop extends SubmittedOnly w next where
  others : (∀ job, w.jobs.get id = some job → job.id = id) → ∀ other, other ≠ id →
    next.submitted.get other = w.submitted.get other ∧ next.jobs.get other = w.jobs.get other

theorem SubmittedAt.refl (id : JobId) (w : ShutdownWork) : SubmittedAt id w w :=
  ⟨.refl w, fun _ _ _ => ⟨rfl, rfl⟩⟩

theorem onSubmitted_ok
    (edits : ∀ after, m w.submitted = .ok after → Edits id w.submitted after)
    (ran : w.onSubmitted m = .ok next) : SubmittedAt id w next := by
  obtain ⟨submitted, done, rfl⟩ := onSubmitted_eq_ok ran
  exact ⟨⟨rfl, rfl, rfl, rfl, rfl, fun _ _ pending => pending, (edits _ done).live, .refl _⟩,
    fun _ other away => ⟨(edits _ done).others other away, rfl⟩⟩

theorem edits_releaseJobCgroup :
    Edits id w.submitted (w.releaseJobCgroup answers id cgroupId nowNs killSecs).submitted :=
  edits_modify fun _ => ⟨rfl, rfl⟩

theorem edits_blame :
    Edits id w.submitted (w.submitted.modify id fun entry => { entry with cause := some cause }) :=
  edits_modify fun _ => ⟨rfl, rfl⟩

theorem applySubmittedSetupFailure_ok
    (ran : w.applySubmittedSetupFailure answers id failedAtNs cause failureCause killSecs =
      .ok next) : SubmittedAt id w next := by
  obtain ⟨⟨jobs, ended⟩, failed, rest⟩ := bind_eq_ok.mp ran
  obtain ⟨job, done⟩ := JobStore.failJobBeforeStart_ok (mapError_eq_ok.mp failed)
  obtain ⟨mid, record, last⟩ := bind_eq_ok.mp rest
  obtain ⟨submitted, recorded, rfl⟩ := onSubmitted_eq_ok record
  cases last
  have ends := edits_recordTerminal recorded
  refine ⟨⟨rfl, rfl, rfl, rfl, rfl, fun _ _ pending => pending,
    edits_blame.live.trans (ends.live.trans edits_releaseJobCgroup.live), .of_finished done.toFinished⟩,
    fun keyed other away => ⟨?_, (done.records other).trans (if_neg (Ne.symm away))⟩⟩
  have same : ended.id = id := done.id.trans (keyed job done.known)
  exact (edits_releaseJobCgroup.others other away).trans
    ((ends.others other (same ▸ away)).trans (edits_blame.others other away))

theorem isLive_applySubmittedSetupFailure
    (ran : w.applySubmittedSetupFailure answers id failedAtNs cause failureCause killSecs =
      .ok next) : ∃ dead, ∀ other, other ≠ dead →
    next.submitted.isLive other = w.submitted.isLive other := by
  obtain ⟨⟨jobs, ended⟩, -, rest⟩ := bind_eq_ok.mp ran
  obtain ⟨mid, record, last⟩ := bind_eq_ok.mp rest
  cases last
  refine ⟨ended.id, fun other away => ?_⟩
  obtain ⟨submitted, recorded, rfl⟩ := onSubmitted_eq_ok record
  have same : submitted.isLive other = _ :=
    congrArg (Option.any _) ((edits_recordTerminal recorded).others other away)
  refine (isLive_modify ?_ other).trans (same.trans (isLive_modify ?_ other))
  · exact fun _ => rfl
  · exact fun _ => rfl

theorem beginSubmittedStop_ok (ran : w.beginSubmittedStop answers id cause nowNs killSecs = .ok out) :
    SubmittedAt id w out.1 := by
  unfold beginSubmittedStop at ran
  split at ran
  · cases ran
    exact .refl id w
  · cases ran
    exact .refl id w
  · split_ifs at ran
    · cases ran
      exact .refl id w
    · obtain ⟨mid, failed, last⟩ := bind_eq_ok.mp ran
      cases last
      have only := applySubmittedSetupFailure_ok failed
      exact ⟨⟨only.services, only.operations, only.stopTimeouts, only.shutdown, only.signals, only.setups,
        only.live, only.ended⟩, only.others⟩
    · obtain ⟨mid, begun, last⟩ := bind_eq_ok.mp ran
      cases last
      exact onSubmitted_ok (fun _ => edits_beginStop) begun
    · obtain ⟨mid, begun, last⟩ := bind_eq_ok.mp ran
      cases last
    · obtain ⟨mid, begun, last⟩ := bind_eq_ok.mp ran
      cases last
      exact onSubmitted_ok (fun _ => edits_beginStop) begun

theorem stopSubmittedJobsForShutdown_ok
    (ran : w.stopSubmittedJobsForShutdown answers nowNs killSecs = .ok next) :
    SubmittedOnly w next := by
  refine SubmittedOnly.foldlM (fun work id after done => ?_) ran
  obtain ⟨⟨mid, begun⟩, stop, last⟩ := bind_eq_ok.mp done
  cases last
  exact (beginSubmittedStop_ok stop).toSubmittedOnly

theorem killLiveSubmittedJob_ok
    (ran : w.killLiveSubmittedJob nowNs killSecs id = .ok next) : SubmittedOnly w next := by
  unfold killLiveSubmittedJob at ran
  split at ran
  · cases ran
    exact .refl w
  · obtain ⟨mid, ensure, kill⟩ := bind_eq_ok.mp ran
    have ensured : SubmittedOnly w mid := by
      unfold ensureStopBegun at ensure
      split_ifs at ensure
      · exact (onSubmitted_ok (fun _ => edits_beginStop) ensure).toSubmittedOnly
      · cases ensure
        exact .refl w
    exact ensured.trans (onSubmitted_ok (fun _ => edits_recordKill) kill).toSubmittedOnly

theorem killAllLiveSubmittedJobs_ok
    (ran : w.killAllLiveSubmittedJobs nowNs killSecs = .ok next) : SubmittedOnly w next :=
  SubmittedOnly.foldlM (fun _ _ _ done => killLiveSubmittedJob_ok done) ran

theorem processSubmittedPostKill_ok
    (ran : w.processSubmittedPostKill answers id cgroupId nowNs killSecs = .ok out) :
    SubmittedAt id w out.1 := by
  unfold processSubmittedPostKill at ran
  split_ifs at ran
  · cases ran
    exact .refl id w
  · obtain ⟨⟨jobs, ended⟩, abandoned, rest⟩ := bind_eq_ok.mp ran
    obtain ⟨job, done⟩ := JobStore.abandonJob_ok (mapError_eq_ok.mp abandoned)
    obtain ⟨mid, record, last⟩ := bind_eq_ok.mp rest
    obtain ⟨submitted, recorded, rfl⟩ := onSubmitted_eq_ok record
    cases last
    have ends := edits_recordTerminal recorded
    refine ⟨⟨rfl, rfl, rfl, rfl, rfl, fun _ _ pending => pending, edits_blame.live.trans ends.live,
      .of_finished done.toFinished⟩,
      fun keyed other away => ⟨?_, (done.records other).trans (if_neg (Ne.symm away))⟩⟩
    have same : ended.id = id := done.id.trans (keyed job done.known)
    exact (ends.others other (same ▸ away)).trans (edits_blame.others other away)
  · obtain ⟨mid, kill, last⟩ := bind_eq_ok.mp ran
    cases last
    exact onSubmitted_ok (fun _ => edits_recordKill) kill

theorem processSubmittedDeadline_ok {kind : SubmittedJobDeadlineKind}
    (ran : w.processSubmittedDeadline answers id kind nowNs killSecs = .ok out) :
    SubmittedAt id w out.1 := by
  unfold processSubmittedDeadline at ran
  split at ran
  · exact beginSubmittedStop_ok ran
  · exact beginSubmittedStop_ok ran
  · split at ran
    · cases ran
      exact .refl id w
    · obtain ⟨mid, kill, last⟩ := bind_eq_ok.mp ran
      cases last
      exact onSubmitted_ok (fun _ => edits_recordKill) kill
  · split at ran
    · cases ran
      exact .refl id w
    · exact processSubmittedPostKill_ok ran
  · split at ran
    · cases ran
      exact .refl id w
    · cases ran
      have edits : Edits id w.submitted (w.submitted.modify id fun entry =>
          { entry with cgroupCleanupDueAtNs := none }) := edits_modify fun _ => ⟨rfl, rfl⟩
      exact ⟨⟨rfl, rfl, rfl, rfl, rfl, fun _ _ pending => pending, edits.live, .refl _⟩,
        fun _ other away => ⟨edits.others other away, rfl⟩⟩

theorem endSubmittedJob_ok
    {out : JobStore × JobRecord} (ran : w.endSubmittedJob id status endNs = .ok out) :
    ∃ job, JobStore.EndedAs w.jobs id .running out job := by
  unfold endSubmittedJob at ran
  split at ran
  · split_ifs at ran
    · exact JobStore.completeJob_ok ran
    · exact JobStore.failRunningJob_ok ran
  · exact JobStore.failRunningJob_ok ran

theorem applySubmittedTerminal_ok
    (ran : w.applySubmittedTerminal answers id status endNs killSecs = .ok next) :
    SubmittedOnly w next := by
  obtain ⟨⟨jobs, ended⟩, finished, rest⟩ := bind_eq_ok.mp ran
  obtain ⟨job, done⟩ := endSubmittedJob_ok (mapError_eq_ok.mp finished)
  dsimp only at rest
  split at rest
  · cases rest
  · obtain ⟨mid, record, last⟩ := bind_eq_ok.mp rest
    cases last
    have recorded := onSubmitted_ok (fun _ => edits_recordTerminal) record
    exact ⟨recorded.services, recorded.operations, recorded.stopTimeouts, recorded.shutdown,
      recorded.signals, recorded.setups,
      recorded.live.trans edits_releaseJobCgroup.live,
      (JobStore.Ended.of_finished done.toFinished).trans recorded.ended⟩

end ShutdownWork

end Peinit
