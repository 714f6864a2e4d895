import Peinit.Shutdown.Phases
import Peinit.Submitted.Effects

/-!
# What the steps of a shutdown come to

For each step, the phases it goes through before it asks the shutdown to go on, as relations between the
work before and after each of them.
-/

namespace Peinit

open Fallible

variable {endNs nowNs : ℕ} {cfg : ShutdownSettings} {answers : ProcessAnswers}
  {setupStatusFd : ℤ}

namespace ShutdownWork

variable {w mid next killed failed looked acted : ShutdownWork} {r r' : ShutdownRuntime}
  {kills : List String} {processed : ℕ} {came : Bool}

theorem run_transaction (f : ShutdownWork → Except SupervisorError ShutdownWork) (w : ShutdownWork) :
    (∃ next, f w = .ok next ∧ (transaction f).run w = (.ok (), next)) ∨
      ∃ e, f w = .error e ∧ (transaction f).run w = (.error e, w) := by
  unfold transaction
  cases ran : f w with
  | ok next => exact .inl ⟨next, rfl, by simp [ran]⟩
  | error e => exact .inr ⟨e, rfl, by simp [ran]⟩

theorem transaction_rule {P : ShutdownWork → Prop}
    {f : ShutdownWork → Except SupervisorError ShutdownWork} (stay : P w)
    (step : ∀ next, f w = .ok next → P next) : P ((transaction f).run w).2 := by
  rcases run_transaction f w with ⟨next, ran, run⟩ | ⟨e, -, run⟩
  · rw [run]
    exact step next ran
  · rw [run]
    exact stay

/-! ## Reaped children -/

theorem endShutdownJob_ok {finish : JobStore → Except JobStoreError (JobStore × JobRecord)}
    (ran : w.endShutdownJob finish endNs = .ok next) :
    ∃ jobs ended mid, finish w.jobs = .ok (jobs, ended) ∧
      { w with jobs }.applyShutdownJobExit ended = .ok mid ∧
      mid.advanceShutdownProgress endNs = .ok next := by
  obtain ⟨_, -, rest⟩ := bind_eq_ok.mp ran
  obtain ⟨⟨jobs, ended⟩, finished, rest⟩ := bind_eq_ok.mp rest
  obtain ⟨mid, exit, advance⟩ := bind_eq_ok.mp (mapError_eq_ok.mp rest)
  exact ⟨jobs, ended, mid, mapError_eq_ok.mp finished, exit, advance⟩

theorem reapServiceJob_ok {id : JobId} {status : ChildExitStatus}
    (ran : w.reapServiceJob id status endNs = .ok next) :
    ∃ jobs job ended mid, JobStore.Finished w.jobs id jobs job ∧ ended.service = job.service ∧
      { w with jobs }.applyShutdownJobExit ended = .ok mid ∧
      mid.advanceShutdownProgress endNs = .ok next := by
  unfold reapServiceJob at ran
  split at ran
  · obtain ⟨jobs, ended, mid, finished, exit, advance⟩ := endShutdownJob_ok ran
    obtain ⟨job, done⟩ := JobStore.completeJob_ok finished
    exact ⟨jobs, job, ended, mid, done.toFinished, done.service, exit, advance⟩
  · obtain ⟨jobs, ended, mid, finished, exit, advance⟩ := endShutdownJob_ok ran
    obtain ⟨job, done⟩ := JobStore.failRunningJob_ok finished
    exact ⟨jobs, job, ended, mid, done.toFinished, done.service, exit, advance⟩

/-- What a reaped child makes of the work.  The end of a submitted job is kept though the shutdown cannot
go on after it. -/
inductive Reaped (w : ShutdownWork) (pid : ℕ) (status : ChildExitStatus) (endedAtNs : ℕ) :
    ShutdownWork → Prop
  | ignored : Reaped w pid status endedAtNs w
  | kept (mid : ShutdownWork) (e : ShutdownError) (only : SubmittedOnly w mid)
      (failed : mid.advanceShutdownProgress endedAtNs = .error e) : Reaped w pid status endedAtNs mid
  | submitted (mid next : ShutdownWork) (only : SubmittedOnly w mid)
      (advance : mid.advanceShutdownProgress endedAtNs = .ok next) : Reaped w pid status endedAtNs next
  | service (id : JobId) (job : JobRecord) (next : ShutdownWork)
      (reaped : w.jobs.activeJobByPid pid = some id) (known : w.jobs.get id = some job)
      (type : job.jobType ≠ .submitted) (ran : w.reapServiceJob id status endedAtNs = .ok next) :
      Reaped w pid status endedAtNs next

theorem applyReapedChild_cases (cfg : ShutdownSettings) (answers : ProcessAnswers) (pid : ℕ)
    (status : ChildExitStatus) (endNs : ℕ) (w : ShutdownWork) :
    Reaped w pid status endNs ((applyReapedChild cfg answers pid status endNs).run w).2 := by
  unfold applyReapedChild
  rw [run_fetch_bind]
  split
  · exact .ignored
  · next id reaped =>
    split
    · exact .ignored
    · next job known =>
      split_ifs with type
      · rcases run_transaction
            (·.applySubmittedTerminal answers id status endNs cfg.postKillTimeoutSecs) w with
          ⟨ended, ran, first⟩ | ⟨e, -, first⟩
        · rw [run_bind_of_ok first]
          have only := applySubmittedTerminal_ok ran
          rcases run_transaction
              (fun work => (work.advanceShutdownProgress endNs).mapError .shutdown) ended with
            ⟨next, advance, second⟩ | ⟨e, failed, second⟩
          · rw [second]
            exact .submitted ended next only (mapError_eq_ok.mp advance)
          · rw [second]
            cases advance : ended.advanceShutdownProgress endNs with
            | ok next => rw [advance] at failed; cases failed
            | error e' => exact .kept ended e' only advance
        · rw [run_bind_of_error first]
          exact .ignored
      · exact transaction_rule .ignored fun next ran => .service id job next reaped known type ran

/-! ## Timeouts -/

theorem killDueServices_cases {out : ShutdownWork × List String} (got : w.shutdown = some r)
    (ran : w.killDueServices cfg nowNs = .ok out) :
    (w.shutdownGlobalTimeoutDue nowNs = true ∧ ∃ mid r',
      (w.modifyShutdown fun shutdown => { shutdown with globalTimeoutFired := true
        }).killAllLiveSubmittedJobs nowNs cfg.postKillTimeoutSecs = .ok mid ∧
      mid.shutdown = some { r with globalTimeoutFired := true } ∧
      Killed mid.remainingShutdownServices mid
        { r with globalTimeoutFired := true, stopDeadlines := [] } out.1 r') ∨
    w.shutdownGlobalTimeoutDue nowNs = false ∧
      out.2 = (r.dueStops nowNs).map (·.service) ∧
      ∃ stopTimeouts, out.1 = { w with
        stopTimeouts
        shutdown := some (killedAtDeadline nowNs cfg.postKillTimeoutSecs
          (r.afterStops nowNs) (r.dueStops nowNs)) } := by
  unfold killDueServices at ran
  split_ifs at ran with fires
  · unfold fireGlobalTimeout at ran
    obtain ⟨mid, kill, rest⟩ := bind_eq_ok.mp ran
    have fired : mid.shutdown = some { r with globalTimeoutFired := true } := by
      rw [(killAllLiveSubmittedJobs_ok kill).shutdown, modifyShutdown, got]
      rfl
    obtain ⟨-, r', killed⟩ := killAllRemainingServices_ok fired (mapError_eq_ok.mp rest)
    exact .inl ⟨fires, mid, r', kill, fired, killed⟩
  · obtain ⟨stopTimeouts, same, kills⟩ := processDueStopDeadlines_ok got (mapError_eq_ok.mp ran)
    exact .inr ⟨Bool.eq_false_of_not_eq_true fires, kills, stopTimeouts, same⟩

theorem actOnSubmittedDeadlines_ok {killSecs : ℕ}
    {dues : List SubmittedJobDeadline} {state out : ShutdownWork × Bool}
    (ran : dues.foldlM (actOnSubmittedDeadline answers nowNs killSecs) state = .ok out) :
    SubmittedOnly state.1 out.1 := by
  refine foldlM_invariant (fun mid => SubmittedOnly state.1 mid.1)
    (fun due _ mid after only done => only.trans ?_) (.refl _) ran
  obtain ⟨⟨work, acted⟩, processed, last⟩ := bind_eq_ok.mp done
  cases last
  exact (processSubmittedDeadline_ok processed).toSubmittedOnly

/-- The phases of the timeouts: kills, the operations of whom is killed, post-kill deadlines, and the
deadlines of submitted jobs; `came` says that something came of those. -/
structure TimeoutPhases (settings : ShutdownSettings) (answers : ProcessAnswers) (nowNs : ℕ)
    (w killed : ShutdownWork) (kills : List String) (failed looked : ShutdownWork) (processed : ℕ)
    (acted : ShutdownWork) (came : Bool) : Prop where
  kill : w.killDueServices settings nowNs = .ok (killed, kills)
  fail : OperationsOnly killed failed
  look : failed.processDuePostKillDeadlines answers nowNs = .ok (looked, processed)
  act : (w.dueSubmittedJobDeadlines nowNs).foldlM
    (actOnSubmittedDeadline answers nowNs settings.postKillTimeoutSecs) (looked, false) =
      .ok (acted, came)

theorem TimeoutPhases.only
    (phases : TimeoutPhases cfg answers nowNs w killed kills failed looked processed acted came) :
    SubmittedOnly looked acted :=
  actOnSubmittedDeadlines_ok phases.act

theorem processDueShutdownTimeouts_cases
    (ran : w.processDueShutdownTimeouts cfg answers nowNs = .ok next) :
    ∃ killed kills failed looked processed acted came,
      TimeoutPhases cfg answers nowNs w killed kills failed looked processed acted came ∧
      ((kills = [] ∧ came = false ∧ w.shutdownGlobalTimeoutDue nowNs = false ∧ processed = 0) ∧
          next = w ∨
        ¬ (kills = [] ∧ came = false ∧ w.shutdownGlobalTimeoutDue nowNs = false ∧ processed = 0) ∧
          acted.advanceShutdownProgress nowNs = .ok next) := by
  obtain ⟨_, -, rest⟩ := bind_eq_ok.mp ran
  obtain ⟨⟨killed, kills⟩, kill, rest⟩ := bind_eq_ok.mp rest
  obtain ⟨failed, fail, rest⟩ := bind_eq_ok.mp rest
  obtain ⟨⟨looked, processed⟩, look, rest⟩ := bind_eq_ok.mp rest
  obtain ⟨⟨acted, came⟩, act, last⟩ := bind_eq_ok.mp rest
  dsimp only at last
  refine ⟨killed, kills, failed, looked, processed, acted, came, ⟨kill, operationsOnly_foldlM
    (fun _ _ _ done => failStop_ok done) (mapError_eq_ok.mp fail), mapError_eq_ok.mp look, act⟩, ?_⟩
  split_ifs at last with idle
  · cases last
    exact .inl ⟨idle, rfl⟩
  · exact .inr ⟨idle, mapError_eq_ok.mp last⟩

/-! ## Submitted jobs that are being set up -/

theorem submittedSetupSucceeded_ok (ran : w.submittedSetupSucceeded setupStatusFd = .ok next) :
    next = w ∨ ∃ setup jobs, next = { w with
        jobs, pendingProcessSetups := w.pendingProcessSetups.erase setupStatusFd } ∧
      w.pendingProcessSetups[setupStatusFd]? = some setup ∧
      w.jobs.startJob setup.jobId setup.pid setup.pidfd setup.launchedAtNs = .ok jobs := by
  unfold submittedSetupSucceeded at ran
  split at ran
  · cases ran
    exact .inl rfl
  · next setup pending =>
    split at ran
    · cases ran
    · cases ran
    · next jobs entry started known =>
      cases ran
      exact .inr ⟨setup, jobs, rfl, pending, started⟩

theorem submittedSetupFailed_ok {error : String} {atNs : ℕ}
    (ran : w.submittedSetupFailed cfg answers setupStatusFd error atNs = .ok next) :
    next = w ∨ ∃ setup dead, w.pendingProcessSetups[setupStatusFd]? = some setup ∧
      SubmittedOnly w next ∧
      ∀ other, other ≠ dead → next.submitted.isLive other = w.submitted.isLive other := by
  unfold submittedSetupFailed at ran
  split at ran
  · cases ran
    exact .inl rfl
  · next setup pending =>
    have only := applySubmittedSetupFailure_ok ran
    obtain ⟨dead, others⟩ := isLive_applySubmittedSetupFailure ran
    refine .inr ⟨setup, dead, pending, ⟨only.services, only.operations, only.stopTimeouts, only.shutdown,
      only.signals, fun fd setup' left => ?_, only.live, only.ended⟩, others⟩
    have kept := only.setups fd setup' left
    rw [OrdMap.get_erase] at kept
    split_ifs at kept
    exact kept

/-! ## Deadlines that are moved -/

theorem extendFirst_services (svc : String) (dueAtNs : ℕ) (dues : List ShutdownStopDeadline) :
    (extendFirst svc dueAtNs dues).map (·.service) = dues.map (·.service) := by
  induction dues with
  | nil => rfl
  | cons due dues ih =>
    unfold extendFirst
    split_ifs
    · rfl
    · rw [List.map_cons, List.map_cons, ih]

end ShutdownWork

end Peinit
