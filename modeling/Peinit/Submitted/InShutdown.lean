import Peinit.Submitted.UsedUp

/-!
# Due deadlines of submitted jobs during a shutdown

During a shutdown everything that is due is acted on in one turn, and the work of the turn is kept only
if something came of it.  A post-kill deadline that is moved on does not count, so that it stays due for
as long as nothing else happens.
-/

namespace Peinit

open SubmittedJobStore

namespace SubmittedLife

open ShutdownWork

variable {settings : ShutdownSettings} {answers : ProcessAnswers} {nowNs killSecs processed : ℕ}
  {w next killed failed looked acted : ShutdownWork} {id : JobId} {kind : SubmittedJobDeadlineKind}
  {deadline : SubmittedJobDeadline} {kills : List String} {came : Bool} {r : ShutdownRuntime}
  {out state : ShutdownWork × Bool}

/-! ## What is asked of one job -/

/-- The job is as it was. -/
structure SameJob (id : JobId) (w next : ShutdownWork) : Prop where
  submitted : next.submitted.get id = w.submitted.get id
  jobs : next.jobs.get id = w.jobs.get id

theorem SameJob.trans {mid : ShutdownWork} (first : SameJob id w mid) (second : SameJob id mid next) :
    SameJob id w next :=
  ⟨second.submitted.trans first.submitted, second.jobs.trans first.jobs⟩

theorem SameJob.usedUp_iff (same : SameJob id w next) :
    UsedUp next id kind nowNs ↔ UsedUp w id kind nowNs := by
  unfold UsedUp deadlinesOf
  rw [same.submitted, same.jobs]

theorem SameJob.canBeUsedUp_iff (same : SameJob id w next) :
    CanBeUsedUp answers killSecs nowNs next id kind ↔ CanBeUsedUp answers killSecs nowNs w id kind := by
  unfold CanBeUsedUp
  rw [same.submitted, same.jobs]

/-- Acting on the deadline is more than moving it on. -/
def Counts (answers : ProcessAnswers) (work : ShutdownWork) (deadline : SubmittedJobDeadline) : Prop :=
  deadline.kind = .postKill → GivenUp answers work deadline.jobId

theorem SameJob.counts_iff (same : SameJob deadline.jobId w next) :
    Counts answers next deadline ↔ Counts answers w deadline := by
  unfold Counts GivenUp
  rw [same.submitted, same.jobs]

theorem SameJob.mem_due (same : SameJob deadline.jobId w next) (sound : Sound nowNs w)
    (sound' : Sound nowNs next) (listed : deadline ∈ w.dueSubmittedJobDeadlines nowNs) :
    deadline ∈ next.dueSubmittedJobDeadlines nowNs := by
  rw [SubmittedLife.mem_due sound', same.submitted, same.jobs]
  exact (SubmittedLife.mem_due sound).mp listed

/-! ## The deadlines of a turn -/

/-- What acting on deadlines of different jobs comes to. -/
structure Acted (answers : ProcessAnswers) (postKillTimeoutSecs nowNs : ℕ)
    (due : List SubmittedJobDeadline) (state out : ShutdownWork × Bool) : Prop where
  counted : out.2 = true ↔ state.2 = true ∨ ∃ deadline ∈ due, Counts answers state.1 deadline
  usedUp_iff : ∀ deadline ∈ due, (UsedUp out.1 deadline.jobId deadline.kind nowNs ↔
    CanBeUsedUp answers postKillTimeoutSecs nowNs state.1 deadline.jobId deadline.kind)
  others : ∀ id, id ∉ due.map (·.jobId) → SameJob id state.1 out.1

theorem acts_spec {due : List SubmittedJobDeadline} (sound : Sound nowNs state.1)
    (single : (due.map (·.jobId)).Nodup)
    (listed : ∀ deadline ∈ due, deadline ∈ state.1.dueSubmittedJobDeadlines nowNs)
    (ran : due.foldlM (actOnSubmittedDeadline answers nowNs killSecs) state = .ok out) :
    Acted answers killSecs nowNs due state out := by
  induction due generalizing state with
  | nil =>
    cases ran
    exact ⟨by simp, nofun, fun _ _ => ⟨rfl, rfl⟩⟩
  | cons deadline due ih =>
    obtain ⟨alone, single⟩ := List.nodup_cons.mp single
    obtain ⟨next, acted, done, used, counts⟩ :=
      process_spec answers killSecs sound (listed deadline List.mem_cons_self)
    rw [List.foldlM_cons, actOnSubmittedDeadline, done] at ran
    have only := processSubmittedDeadline_ok done
    have sound' : Sound nowNs next := sound.only only.toSubmittedOnly
    have same : ∀ other, other ≠ deadline.jobId → SameJob other state.1 next := fun other away =>
      have kept := only.others (fun _ known => (sound.live _ _ known).keyed) other away
      ⟨kept.1, kept.2⟩
    have away : ∀ d ∈ due, d.jobId ≠ deadline.jobId := fun d mem named =>
      alone (List.mem_map.mpr ⟨d, mem, named⟩)
    have rest : Acted answers killSecs nowNs due (next, state.2 || acted) out :=
      ih sound' single (fun d mem => (same _ (away d mem)).mem_due sound sound'
        (listed d (List.mem_cons_of_mem _ mem))) ran
    refine ⟨?_, ?_, fun other unnamed => ?_⟩
    · simp only [rest.counted, List.mem_cons, or_and_right, exists_or, exists_eq_left, Bool.or_eq_true,
        counts, or_assoc]
      refine or_congr_right (or_congr_right (exists_congr fun d => and_congr_right fun mem => ?_))
      exact (same _ (away d mem)).counts_iff
    · rw [List.forall_mem_cons]
      refine ⟨(rest.others _ alone).usedUp_iff.trans used, fun d mem => ?_⟩
      exact (rest.usedUp_iff d mem).trans (same _ (away d mem)).canBeUsedUp_iff
    · rw [List.map_cons, List.mem_cons, not_or] at unnamed
      exact (same other unnamed.1).trans (rest.others other unnamed.2)

/-! ## A turn -/

/-- What the services come to in a turn leaves the submitted jobs alone, unless the global timeout
fires. -/
theorem looked_spec (sound : Sound nowNs w) (got : w.shutdown = some r)
    (quiet : w.shutdownGlobalTimeoutDue nowNs = false)
    (phases : TimeoutPhases settings answers nowNs w killed kills failed looked processed acted came) :
    Sound nowNs looked ∧ (∀ id entry, w.submitted.get id = some entry → SameJob id w looked) ∧
      (¬ (kills = [] ∧ processed = 0) ↔ (∃ stop ∈ r.stopDeadlines, stop.dueAtNs ≤ nowNs) ∨
        ∃ postKill ∈ r.postKillDeadlines, postKill.dueAtNs ≤ nowNs) := by
  rcases killDueServices_cases got phases.kill with ⟨fires, -⟩ | ⟨-, kills_eq, stopTimeouts, rfl⟩
  · cases quiet.symm.trans fires
  obtain ⟨operations, rfl⟩ := phases.fail
  obtain ⟨jobs, svcs, rfl, ended, looks⟩ := processDuePostKillDeadlines_ok rfl phases.look
  dsimp only at kills_eq looks
  refine ⟨⟨sound.keyed, sound.live.ended ended.ended,
    fun id job known => sound.fits id job (ended.ended.sub known), sound.setups,
    ended.ended.indexed sound.indexed⟩, fun id entry there => ⟨rfl, ?_⟩, ?_⟩
  · ext job
    refine (ended.ends sound.indexed id job).trans ⟨And.left, fun known => ⟨known, fun d _ mine => ?_⟩⟩
    cases ((sound.fits id job known).service entry there).symm.trans mine.1
  · rw [kills_eq, looks, List.map_eq_nil_iff, List.length_eq_zero_iff, not_iff_comm, not_or]
    have stops : r.dueStops nowNs = [] ↔ ¬ ∃ stop ∈ r.stopDeadlines, stop.dueAtNs ≤ nowNs := by
      simp [List.filter_eq_nil_iff]
    rw [← stops]
    refine and_congr_right fun none => ?_
    rw [none]
    simp [List.filter_eq_nil_iff, killedAtDeadline]

/-- Something comes of the turn, so that its work is kept. -/
def ComesToSomething (answers : ProcessAnswers) (nowNs : ℕ) (work : ShutdownWork) : Prop :=
  (∃ r, work.shutdown = some r ∧ ((∃ stop ∈ r.stopDeadlines, stop.dueAtNs ≤ nowNs) ∨
    ∃ postKill ∈ r.postKillDeadlines, postKill.dueAtNs ≤ nowNs)) ∨
  ∃ deadline ∈ work.dueSubmittedJobDeadlines nowNs, Counts answers work deadline

theorem sameJob_advanced (advance : w.advanceShutdownProgress nowNs = .ok next) : SameJob id w next := by
  obtain ⟨_, _, _, _, ⟨_, rfl⟩, -, advanced, rfl⟩ := advanceShutdownProgress_ok advance
  exact ⟨congrArg (·.get id) advanced.submitted, congrArg (·.get id) advanced.jobs⟩

/-- What a turn of a shutdown uses up. -/
theorem turn_usedUp_iff (sound : Sound nowNs w) (quiet : w.shutdownGlobalTimeoutDue nowNs = false)
    (single : ((w.dueSubmittedJobDeadlines nowNs).map (·.jobId)).Nodup)
    (listed : deadline ∈ w.dueSubmittedJobDeadlines nowNs)
    (ran : w.processDueShutdownTimeouts settings answers nowNs = .ok next) :
    UsedUp next deadline.jobId deadline.kind nowNs ↔
      CanBeUsedUp answers settings.postKillTimeoutSecs nowNs w deadline.jobId deadline.kind ∧
        ComesToSomething answers nowNs w := by
  obtain ⟨killed, kills, failed, looked, processed, acted, came, phases, turn⟩ :=
    processDueShutdownTimeouts_cases ran
  obtain ⟨r, got⟩ : ∃ r, w.shutdown = some r := by
    obtain ⟨_, ensured, -⟩ := bind_eq_ok.mp ran
    unfold ensureShutdown at ensured
    split_ifs at ensured with shut
    exact Option.isSome_iff_exists.mp shut
  obtain ⟨sound', same, busy_iff⟩ := looked_spec sound got quiet phases
  have untouched : ∀ d ∈ w.dueSubmittedJobDeadlines nowNs, SameJob d.jobId w looked := by
    intro d mem
    obtain ⟨entry, there, -⟩ := (mem_due sound).mp mem
    exact same _ entry there
  have acts : Acted answers settings.postKillTimeoutSecs nowNs (w.dueSubmittedJobDeadlines nowNs)
      (looked, false) (acted, came) :=
    acts_spec sound' single (fun d mem => (untouched d mem).mem_due sound sound' mem) phases.act
  have came_iff : came = true ↔ ∃ d ∈ w.dueSubmittedJobDeadlines nowNs, Counts answers w d := by
    refine acts.counted.trans ((or_iff_right nofun).trans ?_)
    exact exists_congr fun d => and_congr_right fun mem => (untouched d mem).counts_iff
  have kept : ¬ (kills = [] ∧ came = false ∧ w.shutdownGlobalTimeoutDue nowNs = false ∧ processed = 0) ↔
      ComesToSomething answers nowNs w := by
    unfold ComesToSomething
    rw [← came_iff]
    simp only [got, quiet, Option.some.injEq, exists_eq_left', true_and]
    rw [← busy_iff]
    cases came <;> simp
  rw [← kept]
  rcases turn with ⟨idle, rfl⟩ | ⟨busy, advance⟩
  · -- the work of the turn is dropped, and the deadline is as due as it was
    refine iff_of_false (fun used => ?_) fun can => can.2 idle
    obtain ⟨entry, there, is, due⟩ := (mem_due sound).mp listed
    have mem : deadline ∈ deadlinesOf next deadline.jobId := by
      unfold deadlinesOf
      rw [there]
      exact mem_entryDeadlines.mpr is
    exact absurd (used deadline mem rfl) (not_lt.mpr due)
  · rw [(sameJob_advanced advance).usedUp_iff, acts.usedUp_iff deadline listed, (untouched deadline listed).canBeUsedUp_iff]
    exact (and_iff_left busy).symm

/-! ## Every deadline of every run -/

/-- In every run, acting on a deadline that is due succeeds, and uses it up if and only if it can be
used up.  A turn of a shutdown does so if moreover something comes of it; this is said of turns at which
no job has two deadlines due, and the global timeout does not fire. -/
theorem due_deadline_used_up_iff (settings : ShutdownSettings) (answers : ProcessAnswers)
    (deadline : SubmittedJobDeadline) :
    (∀ (moves : List SubmittedMove) (elapsedNs : ℕ),
      let life := runCalls (perform settings) start moves
      let nowNs := life.nowNs + elapsedNs
      deadline ∈ life.work.dueSubmittedJobDeadlines nowNs →
        ∃ next acted, life.work.processSubmittedDeadline answers deadline.jobId deadline.kind nowNs
            settings.postKillTimeoutSecs = .ok (next, acted) ∧
          (UsedUp next deadline.jobId deadline.kind nowNs ↔
            CanBeUsedUp answers settings.postKillTimeoutSecs nowNs life.work deadline.jobId
              deadline.kind)) ∧
    ∀ (work next : ShutdownWork) (nowNs : ℕ), Sound nowNs work →
      work.shutdownGlobalTimeoutDue nowNs = false →
      ((work.dueSubmittedJobDeadlines nowNs).map (·.jobId)).Nodup →
      deadline ∈ work.dueSubmittedJobDeadlines nowNs →
      work.processDueShutdownTimeouts settings answers nowNs = .ok next →
      (UsedUp next deadline.jobId deadline.kind nowNs ↔
        CanBeUsedUp answers settings.postKillTimeoutSecs nowNs work deadline.jobId deadline.kind ∧
          ComesToSomething answers nowNs work) := by
  refine ⟨fun moves elapsedNs listed => ?_, fun work next nowNs => turn_usedUp_iff⟩
  obtain ⟨next, acted, ran, used, -⟩ := process_spec answers settings.postKillTimeoutSecs
    ((sound_run settings moves).later (Nat.le_add_right _ elapsedNs)) listed
  exact ⟨next, acted, ran, used⟩

/-- Nothing is left in any cgroup. -/
def emptied : ProcessAnswers := ⟨fun _ => false, fun _ => false⟩

/-- A shutdown that has nothing left to wait for but submitted jobs, for a minute and a half. -/
def inShutdown (work : ShutdownWork) : ShutdownWork :=
  { work with
    shutdown := some
      { kind := .poweroff, initiatedAtNs := 0, globalDeadlineNs := 90 * nanosPerSec
        globalTimeoutFired := false, plan := ⟨[], [], [], []⟩, currentWave := 0, stopDeadlines := []
        postKillDeadlines := [], finalization := .waitingForServices } }

/-- A job that may run for a second, and runs. -/
def runsTooLong : List SubmittedMove :=
  [⟨0, emptied, .submit ⟨1⟩ { timeoutSecs := 1 }⟩, ⟨0, emptied, .launch (.started 100 8)⟩]

theorem due_deadline_used_up_timeout :
    let work := (runCalls (perform {}) start runsTooLong).work
    (∃ next acted, work.processSubmittedDeadline emptied ⟨1⟩ .timeout nanosPerSec 5 =
      .ok (next, acted) ∧ UsedUp next ⟨1⟩ .timeout nanosPerSec) ∧
    ∃ next, (inShutdown work).processDueShutdownTimeouts {} emptied nanosPerSec = .ok next ∧
      UsedUp next ⟨1⟩ .timeout nanosPerSec := by
  intro work
  obtain ⟨acts, turns⟩ := due_deadline_used_up_iff {} emptied ⟨⟨1⟩, .timeout, nanosPerSec⟩
  obtain ⟨next, acted, ran, used⟩ := acts runsTooLong nanosPerSec (by decide +kernel)
  obtain ⟨after, done⟩ : ∃ after,
      (inShutdown work).processDueShutdownTimeouts {} emptied nanosPerSec = .ok after := by
    decide +kernel
  have sound : Sound nanosPerSec work := (sound_run {} runsTooLong).later (by decide +kernel)
  have sound' : Sound nanosPerSec (inShutdown work) :=
    ⟨sound.keyed, sound.live, sound.fits, sound.setups, sound.indexed⟩
  have listed : ⟨⟨1⟩, .timeout, nanosPerSec⟩ ∈ (inShutdown work).dueSubmittedJobDeadlines nanosPerSec := by
    decide +kernel
  refine ⟨⟨next, acted, ran, used.mpr nofun⟩, after, done, ?_⟩
  exact (turns _ _ _ sound' (by decide +kernel) (by decide +kernel) listed done).mpr
    ⟨nofun, .inr ⟨_, listed, nofun⟩⟩

/-- A job that is stopped while its process is being set up, and is not set up within the grace. -/
def stoppedInSetup : List SubmittedMove :=
  [⟨0, emptied, .submit ⟨1⟩ {}⟩, ⟨0, emptied, .launch (.pendingSetup 7 100 8)⟩,
    ⟨0, emptied, .stop ⟨1⟩⟩, ⟨10 * nanosPerSec, emptied, .deadline ⟨1⟩ .stopKill⟩]

/-- A job that is stopped and killed, and whose exit has not been seen within the grace. -/
def killedUnseen : List SubmittedMove :=
  [⟨0, emptied, .submit ⟨1⟩ {}⟩, ⟨0, emptied, .launch (.started 100 8)⟩,
    ⟨0, emptied, .stop ⟨1⟩⟩, ⟨10 * nanosPerSec, emptied, .deadline ⟨1⟩ .stopKill⟩]

/-- The post-kill deadline of the first is as due after it was acted on as it was before; that of the
second is moved on, but not by a shutdown that has nothing else to do. -/
theorem post_kill_deadline_stays_due : (let work := (runCalls (perform {}) start stoppedInSetup).work
    ⟨⟨1⟩, .postKill, 15 * nanosPerSec⟩ ∈ work.dueSubmittedJobDeadlines (15 * nanosPerSec) ∧
      ∃ next acted, work.processSubmittedDeadline emptied ⟨1⟩ .postKill (15 * nanosPerSec) 5 =
        .ok (next, acted) ∧ ¬ UsedUp next ⟨1⟩ .postKill (15 * nanosPerSec)) ∧
    let work := (runCalls (perform {}) start killedUnseen).work
    ⟨⟨1⟩, .postKill, 15 * nanosPerSec⟩ ∈ work.dueSubmittedJobDeadlines (15 * nanosPerSec) ∧
      (∃ next acted, work.processSubmittedDeadline emptied ⟨1⟩ .postKill (15 * nanosPerSec) 5 =
        .ok (next, acted) ∧ UsedUp next ⟨1⟩ .postKill (15 * nanosPerSec)) ∧
      ∃ next, (inShutdown work).processDueShutdownTimeouts {} emptied (15 * nanosPerSec) = .ok next ∧
        ¬ UsedUp next ⟨1⟩ .postKill (15 * nanosPerSec) := by
  decide +kernel

end SubmittedLife

end Peinit
