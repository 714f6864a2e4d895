import Peinit.Shutdown.Cases
import Peinit.Shutdown.Planned

/-!
# How a shutdown begins

What completed services, starting services and the first wave make of the table when a shutdown begins.
-/

namespace Peinit

open ServiceTable

variable {plan : ShutdownPlan} {nowNs killSecs : ℕ} {names : List String}
  {tr : ServiceTransition} {before after : ServiceTable} {service : String}
  {jobs later : JobStore} {dues : List ShutdownPostKillDeadline} {out : ShutdownWork × List ShutdownPostKillDeadline}

namespace JobStore

def HasRunning (jobs : JobStore) (service : String) : Prop :=
  ∃ id ∈ jobs.activeForService service, (jobs.get id).any (·.state = .running) = true

instance (jobs : JobStore) (service : String) : Decidable (jobs.HasRunning service) := by
  unfold HasRunning
  infer_instance

theorem Ended.hasRunning (ended : Ended jobs later) (running : later.HasRunning service) :
    jobs.HasRunning service := by
  obtain ⟨id, listed, runs⟩ := running
  rw [Option.any_eq_true] at runs
  obtain ⟨job, known, runs⟩ := runs
  exact ⟨id, ended.active service listed, by rw [ended.sub known]; exact runs⟩

end JobStore

namespace ShutdownWork

variable {w next : ShutdownWork}

/-! ## Requests -/

theorem requestStops_ok (ran : w.requestStops plan nowNs = .ok next) :
    ∃ operationIds operations, next = { w with operationIds, operations } := by
  obtain ⟨⟨ids, operationIds⟩, -, rest⟩ := bind_eq_ok.mp ran
  have requested : OperationsOnly { w with operationIds } next :=
    operationsOnly_foldlM (fun _ _ _ done => onOperations_ok done) (mapError_eq_ok.mp rest)
  obtain ⟨operations, rfl⟩ := requested
  exact ⟨operationIds, operations, rfl⟩

/-! ## Services that are taken down at once -/

/-- What becomes of the entries of `names` when each is moved by `transition`. -/
structure MovedAll (names : List String) (transition : ServiceTransition) (before after : ServiceTable) :
    Prop where
  others : ∀ service, service ∉ names → after.get service = before.get service
  moved : ∀ service ∈ names, ∃ entry, before.get service = some entry ∧
    after.get service =
      if entry.definitionRemoved && !retainsDefinitionAfterRemoval transition.target then none
      else some (entry.moved transition)

theorem MovedAll.nil (tr : ServiceTransition) (svcs : ServiceTable) :
    MovedAll [] tr svcs svcs := ⟨fun _ _ => rfl, nofun⟩

theorem MovedAll.cons {name : String} {entry : ServiceEntry} (got : before.get name = some entry)
    (fresh : name ∉ names)
    (later : MovedAll names tr (before.moveEntry name entry tr) after) :
    MovedAll (name :: names) tr before after where
  others := by
    intro service away
    rw [List.mem_cons, not_or] at away
    rw [later.others service away.2, get_moveEntry_ne away.1]
  moved := by
    intro service mem
    rcases List.mem_cons.mp mem with rfl | mem
    · exact ⟨entry, got, (later.others service fresh).trans get_moveEntry⟩
    · have away : service ≠ name := fun same => fresh (same ▸ mem)
      obtain ⟨entry', found', moved⟩ := later.moved service mem
      rw [get_moveEntry_ne away] at found'
      exact ⟨entry', found', moved⟩

theorem MovedAll.settle (done : serviceDoneForShutdown tr.target = true)
    (moved : MovedAll names tr before after) : ServicesSettle before after := by
  intro service
  by_cases mem : service ∈ names
  · obtain ⟨entry, -, later⟩ := moved.moved service mem
    refine .of_down ?_
    split_ifs at later with gone
    · rw [stateOf, runtime, later]
      rfl
    · rw [stateOf_of_get later, ServiceEntry.moved_runtime, ServiceRuntimeSnapshot.moved_state]
      exact done
  · rw [stateOf_congr (moved.others service mem)]
    exact .refl _

theorem untouched_of_planned {mid : ServiceTable}
    {clear kill : ServiceTransition} (planned : Planned before plan)
    (cleared : MovedAll plan.completedToClear clear before mid)
    (killed : MovedAll plan.startingToKill kill mid after) {part : ShutdownStopParticipant}
    (mem : part ∈ plan.participants) :
    after.get part.service = before.get part.service := by
  have up := planned.up mem
  have notCompleted : part.service ∉ plan.completedToClear := fun member => by
    rw [(planned.completed _).mp member] at up
    cases up
  have notStarting : part.service ∉ plan.startingToKill := fun member => by
    rw [(planned.starting _).mp member] at up
    cases up
  exact (killed.others _ notStarting).trans (cleared.others _ notCompleted)

theorem clearCompletedServices_ok (distinct : plan.completedToClear.Nodup)
    (ran : w.clearCompletedServices plan = .ok next) :
    ∃ svcs, next = { w with services := svcs } ∧
      MovedAll plan.completedToClear ⟨.inactive, .shutdownWave⟩ w.services svcs := by
  unfold clearCompletedServices at ran
  generalize plan.completedToClear = names at distinct ran ⊢
  induction names generalizing w with
  | nil =>
    cases ran
    exact ⟨next.services, rfl, .nil _ _⟩
  | cons name names ih =>
    rw [List.foldlM_cons] at ran
    obtain ⟨mid, first, rest⟩ := bind_eq_ok.mp ran
    obtain ⟨entry, got, -, rfl⟩ := moveService_eq_ok.mp first
    obtain ⟨fresh, distinct⟩ := List.nodup_cons.mp distinct
    obtain ⟨svcs, rfl, later⟩ := ih distinct rest
    exact ⟨svcs, rfl, .cons got fresh later⟩

/-! ## Starting services -/

theorem failUnforkedStartupJobs_ok (ran : w.failUnforkedStartupJobs nowNs service = .ok next) :
    ∃ jobs pendingProcessSetups, next = { w with jobs, pendingProcessSetups } ∧
      w.jobs.Ended jobs := by
  obtain ⟨created, -, rest⟩ := bind_eq_ok.mp ran
  obtain ⟨jobs, rfl, ended, -⟩ := finishJobs_ok
    (fun _ _ _ ran => (JobStore.failJobBeforeStart_ok ran).imp fun _ ended => ended.toFinished) rest
  exact ⟨jobs, _, rfl, ended⟩

/-- What killing the starting services `names` makes of the table, and whom the deadlines are for. -/
structure StartingKilled (names : List String) (w : ShutdownWork)
    (deadlines : List ShutdownPostKillDeadline) (next : ShutdownWork)
    (deadlines' : List ShutdownPostKillDeadline) : Prop where
  same : ∃ operations jobs pendingProcessSetups services,
    next = { w with operations, jobs, pendingProcessSetups, services } ∧ w.jobs.Ended jobs
  moved : MovedAll names ⟨.failed, .shutdownWave⟩ w.services next.services
  added : ∃ more, deadlines' = deadlines ++ more ∧ (more.map (·.service)).Sublist names ∧
    ∀ deadline ∈ more, w.jobs.HasRunning deadline.service

theorem killStartingService_ok (ran : killStartingService nowNs killSecs (w, dues) service = .ok out) :
    ∃ operations jobs pendingProcessSetups entry, w.services.get service = some entry ∧
      w.jobs.Ended jobs ∧ out.1 = { w with
        operations, jobs, pendingProcessSetups
        services := w.services.moveEntry service entry ⟨.failed, .shutdownWave⟩ } ∧
      ∃ more, out.2 = dues ++ more ∧ (more.map (·.service)).Sublist [service] ∧
        ∀ deadline ∈ more, w.jobs.HasRunning deadline.service := by
  unfold killStartingService at ran
  obtain ⟨failed, fail, rest⟩ := bind_eq_ok.mp ran
  obtain ⟨operations, rfl⟩ := failStartingOperation_ok fail
  obtain ⟨unforked, unfork, rest⟩ := bind_eq_ok.mp rest
  obtain ⟨jobs, setups, rfl, ended⟩ := failUnforkedStartupJobs_ok unfork
  obtain ⟨running, collected, rest⟩ := bind_eq_ok.mp rest
  obtain ⟨cgroupId, -, rest⟩ := bind_eq_ok.mp rest
  obtain ⟨moved, move, last⟩ := bind_eq_ok.mp rest
  obtain ⟨entry, got, -, rfl⟩ := moveService_eq_ok.mp move
  cases last
  refine ⟨operations, jobs, setups, entry, got, ended, rfl, ?_⟩
  dsimp only
  split_ifs with none
  · exact ⟨[], by simp, List.nil_sublist _, nofun⟩
  · refine ⟨_, rfl, List.Sublist.refl _, fun deadline mem => ?_⟩
    obtain rfl := List.mem_singleton.mp mem
    rw [List.isEmpty_iff] at none
    obtain ⟨id, member⟩ := List.exists_mem_of_ne_nil _ none
    rw [activeJobsInState_ok collected, List.mem_filter] at member
    exact ended.hasRunning ⟨id, member⟩

theorem killStartingServices_ok (distinct : names.Nodup)
    (ran : names.foldlM (killStartingService nowNs killSecs) (w, dues) = .ok out) :
    StartingKilled names w dues out.1 out.2 := by
  induction names generalizing w dues with
  | nil =>
    cases ran
    exact ⟨⟨w.operations, w.jobs, w.pendingProcessSetups, w.services, rfl, .refl _⟩, .nil _ _, [],
      by simp, List.Sublist.refl _, nofun⟩
  | cons name names ih =>
    obtain ⟨⟨mid, between⟩, first, rest⟩ := bind_eq_ok.mp ran
    obtain ⟨operations, jobs, setups, entry, got, ended, rfl, more, rfl, few, running⟩ :=
      killStartingService_ok first
    obtain ⟨fresh, distinct⟩ := List.nodup_cons.mp distinct
    obtain ⟨⟨operations', jobs', setups', services', same, ended'⟩, moved, more', list, few', running'⟩ :=
      ih distinct rest
    refine ⟨⟨operations', jobs', setups', services', same, ended.trans ended'⟩, .cons got fresh moved,
      more ++ more', by rw [list, List.append_assoc], ?_, fun deadline mem => ?_⟩
    · rw [List.map_append]
      exact List.Sublist.append few few'
    · rcases List.mem_append.mp mem with mem | mem
      · exact running deadline mem
      · exact ended.hasRunning (running' deadline mem)

/-! ## Altogether -/

/-- The stages of beginning a shutdown, and the runtime it has then. -/
structure Begun (settings : ShutdownSettings) (answers : ProcessAnswers) (nowNs : ℕ) (w next : ShutdownWork)
    (r : ShutdownRuntime) : Prop where
  fresh : w.shutdown = none
  planned : Planned w.services r.plan
  shutdown : next.shutdown = some r
  stages : ∃ cleared killed begun : ShutdownWork,
    MovedAll r.plan.completedToClear ⟨.inactive, .shutdownWave⟩ w.services cleared.services ∧
    cleared.signals = w.signals ∧ cleared.submitted = w.submitted ∧ cleared.jobs = w.jobs ∧
    StartingKilled r.plan.startingToKill cleared [] killed r.postKillDeadlines ∧
    killed.beginStopWave r.plan 0 nowNs [] = .ok (begun, r.stopDeadlines) ∧
    ∃ stopped, begun.stopSubmittedJobsForShutdown answers nowNs settings.postKillTimeoutSecs =
      .ok stopped ∧ next = { stopped with shutdown := some r }
  wave : r.currentWave = 0
  fired : r.globalTimeoutFired = false
  finalization : r.finalization =
    if r.plan.stopWaves.isEmpty && r.postKillDeadlines.isEmpty && !next.liveSubmittedJobsRemain
    then .ready else .waitingForServices

theorem beginShutdown_ok {cfg : ShutdownSettings} {answers : ProcessAnswers} {kind : ShutdownKind}
    (ran : w.beginShutdown cfg answers kind nowNs = .ok next) :
    ∃ r, Begun cfg answers nowNs w next r := by
  unfold beginShutdown at ran
  split at ran
  · cases ran
  · next fresh =>
    obtain ⟨plan, made, rest⟩ := bind_eq_ok.mp ran
    have planned := planGracefulShutdown_ok (mapError_eq_ok.mp (mapError_eq_ok.mp made))
    obtain ⟨requested, req, rest⟩ := bind_eq_ok.mp rest
    obtain ⟨operationIds, operations, rfl⟩ := requestStops_ok req
    obtain ⟨cleared, clear, rest⟩ := bind_eq_ok.mp rest
    obtain ⟨svcs, rfl, moved⟩ :=
      clearCompletedServices_ok planned.completedDistinct (mapError_eq_ok.mp clear)
    obtain ⟨⟨killed, postKillDeadlines⟩, kill, rest⟩ := bind_eq_ok.mp rest
    have killedAll := killStartingServices_ok planned.startingDistinct (mapError_eq_ok.mp kill)
    obtain ⟨⟨begun, stopDeadlines⟩, wave, rest⟩ := bind_eq_ok.mp rest
    obtain ⟨stopped, stop, last⟩ := bind_eq_ok.mp rest
    cases last
    exact ⟨_, fresh, planned, rfl, ⟨{ w with operationIds, operations, services := svcs }, killed, begun, moved, rfl, rfl, rfl, killedAll,
      mapError_eq_ok.mp wave, stopped, stop, rfl⟩, rfl, rfl, rfl⟩

end ShutdownWork

end Peinit
