import Peinit.Service.Generations
import Peinit.Shutdown.OrderRun
import Peinit.Shutdown.Spread

/-!
# Whom the deadlines of a shutdown are for

A deadline names its service, which is looked up when the deadline is due. A withdrawn entry is
discarded when its service goes down. The two agree as long as no entry is dropped while a deadline
names it.
-/

namespace Peinit

open ServiceTable List Option

variable {jobs : JobStore} {service : String} {before after services : ServiceTable}
  {nowNs killSecs : ℕ} {cfg : ShutdownSettings} {out : ShutdownWork × List String}
  {answers : ProcessAnswers} {due dues : List ShutdownPostKillDeadline} {e : ShutdownError}
  {kind : ShutdownKind} {w : ShutdownWork} {r : ShutdownRuntime}

namespace ShutdownWork

variable {mid next : ShutdownWork} {r' : ShutdownRuntime}

/-- Every deadline is for a service in the table, and no service has two of a kind. -/
structure Filed (w : ShutdownWork) (r : ShutdownRuntime) : Prop extends Spread r where
  known : ∀ service, r.Covers service → (w.services.get service).isSome = true

theorem Filed.congr (filed : Filed w r) (svcs : next.services = w.services) : Filed next r :=
  ⟨filed.toSpread, fun service covered => svcs ▸ filed.known service covered⟩

theorem Filed.operations (filed : Filed w r) (only : OperationsOnly w next) : Filed next r := by
  obtain ⟨operations, rfl⟩ := only
  exact filed.congr rfl

theorem OnlyAsked.isSome (asked : OnlyAsked before after)
    (known : (before.get service).isSome = true) : (after.get service).isSome = true := by
  obtain same | ⟨entry, stopping, -, later, -⟩ := asked service
  · rw [same]
    exact known
  · rw [later]
    rfl

theorem isSome_of_stateOf {state : ServiceState}
    (known : services.stateOf service = some state) : (services.get service).isSome = true := by
  unfold stateOf runtime at known
  rw [map_eq_some_iff] at known
  obtain ⟨runtime, known, -⟩ := known
  obtain ⟨entry, got, -⟩ := map_eq_some_iff.mp known
  rw [got]
  rfl

theorem isSome_of_not_down
    (waiting : ¬ Down (services.stateOf service)) : (services.get service).isSome = true := by
  rcases got : services.get service with _ | entry
  · refine absurd ?_ waiting
    rw [stateOf, runtime, got]
    rfl
  · rfl

/-! ## Advancing -/

theorem Filed.advance (filed : Filed w r) (got : w.shutdown = some r)
    (ran : w.advanceShutdownProgress nowNs = .ok next) :
    ∃ r', next.shutdown = some r' ∧ Filed next r' := by
  obtain ⟨_, _, r', _, ⟨operations, rfl⟩, found, advanced, rfl⟩ := advanceShutdownProgress_ok ran
  cases got.symm.trans found
  refine ⟨r', rfl, advanced.spread filed.toSpread, ?_⟩
  rintro service (⟨deadline, mem, rfl⟩ | ⟨deadline, mem, rfl⟩)
    <;> refine OnlyAsked.isSome advanced.asked ?_
  · obtain old | ⟨waiting, -⟩ := advanced.added deadline mem
    · exact filed.known _ (.inl ⟨deadline, old, rfl⟩)
    · exact isSome_of_not_down waiting
  · rw [advanced.postKill] at mem
    exact filed.known _ (.inr ⟨deadline, mem, rfl⟩)

/-! ## Jobs that end -/

theorem Filed.exit (filed : Filed w r) (taken : TakenDown w.services service next.services) :
    Filed next (withoutDeadlines r service) := by
  refine ⟨filed.toSpread.of_sub rfl rfl ?_ (filter_sublist.map _), fun other covered => ?_⟩
  · exact filed.postKill.sublist (filter_sublist.map _)
  · have kept : r.Covers other ∧ other ≠ service := by
      obtain ⟨deadline, mem, rfl⟩ | ⟨deadline, mem, rfl⟩ := covered
      · obtain ⟨mem, away⟩ := mem_filter.mp mem
        exact ⟨.inl ⟨deadline, mem, rfl⟩, of_decide_eq_true away⟩
      · obtain ⟨mem, away⟩ := mem_filter.mp mem
        exact ⟨.inr ⟨deadline, mem, rfl⟩, of_decide_eq_true away⟩
    rw [taken.others kept.2]
    exact filed.known other kept.1

/-! ## Deadlines that are due -/

theorem Filed.kill (filed : Filed w r) (got : w.shutdown = some r)
    (ran : w.killDueServices cfg nowNs = .ok out) :
    ∃ r', out.1.shutdown = some r' ∧ Filed out.1 r' := by
  obtain ⟨-, mid, r', kill, fired, killed⟩ | ⟨-, -, stopTimeouts, same⟩ := killDueServices_cases got ran
  · refine ⟨r', killed.shutdown, filed.toSpread.of_sub killed.same.plan killed.same.wave
      (killed.distinct filed.postKill) ?_, ?_⟩
    · rw [killed.stop]
      exact nil_sublist _
    · have services : mid.services = w.services := (killAllLiveSubmittedJobs_ok kill).services
      rintro service (⟨deadline, mem, rfl⟩ | ⟨deadline, mem, rfl⟩)
      · rw [killed.stop] at mem
        cases mem
      · refine OnlyAsked.isSome killed.asked ?_
        obtain old | named := killed.added deadline mem
        · rw [services]
          exact filed.known _ (.inr ⟨deadline, old, rfl⟩)
        · unfold remainingShutdownServices at named
          rw [fired] at named
          obtain ⟨part, kept, same⟩ := mem_map.mp named
          obtain ⟨state, known, -⟩ := (any_eq_true _ _).mp (mem_filter.mp kept).2
          rw [← same]
          exact isSome_of_stateOf known
  · rw [same]
    refine ⟨_, rfl, filed.toSpread.of_sub (killedAtDeadline_samePlan _ _ _ _).plan
      (killedAtDeadline_samePlan _ _ _ _).wave (nodup_killedAtDeadline _ _ _ _ filed.postKill) ?_, ?_⟩
    · rw [killedAtDeadline_stopDeadlines]
      exact filter_sublist.map _
    · rintro service (⟨deadline, mem, rfl⟩ | ⟨deadline, mem, rfl⟩)
      · rw [killedAtDeadline_stopDeadlines] at mem
        exact filed.known _ (.inl ⟨deadline, mem_of_mem_filter mem, rfl⟩)
      · obtain old | ⟨deadline', due, same⟩ := mem_killedAtDeadline _ _ _ _ mem
        · exact filed.known _ (.inr ⟨deadline, old, rfl⟩)
        · exact filed.known _ (.inl ⟨deadline', mem_of_mem_filter due, same⟩)

/-- A withdrawn service whose post-kill deadline is due has no stop deadline. -/
def Sparing (w : ShutdownWork) (r : ShutdownRuntime) (nowNs : ℕ) : Prop :=
  ∀ stop ∈ r.stopDeadlines, ∀ postKill ∈ r.postKillDeadlines, postKill.service = stop.service →
    postKill.dueAtNs ≤ nowNs → ∀ entry, w.services.get stop.service = some entry →
      entry.definitionRemoved = false

theorem Filed.look {out : ShutdownWork × ℕ} (filed : Filed w r)
    (got : w.shutdown = some r) (sparing : Sparing w r nowNs)
    (ran : w.processDuePostKillDeadlines answers nowNs = .ok out) :
    ∃ r', out.1.shutdown = some r' ∧ Filed out.1 r' := by
  obtain ⟨jobs, services, same, killed, -⟩ := processDuePostKillDeadlines_ok got ran
  rw [same]
  refine ⟨_, rfl, filed.toSpread.of_sub rfl rfl
    (filed.postKill.sublist (filter_sublist.map _)) (List.Sublist.refl _), ?_⟩
  rintro service (⟨stop, mem, rfl⟩ | ⟨postKill, mem, rfl⟩)
  · have before := filed.known _ (.inl ⟨stop, mem, rfl⟩)
    by_cases due : ∃ postKill ∈ r.postKillDeadlines, postKill.service = stop.service ∧
        postKill.dueAtNs ≤ nowNs
    · obtain ⟨postKill, pending, named, due⟩ := due
      obtain ⟨entry, found'⟩ := isSome_iff_exists.mp before
      obtain ⟨entry', later, -⟩ := killed.kept stop.service entry found'
        (sparing stop mem postKill pending named due entry found')
      exact isSome_of_eq_some later
    · have same := killed.others stop.service fun postKill looked named => by
        obtain ⟨pending, late⟩ := mem_filter.mp looked
        exact due ⟨postKill, pending, named, of_decide_eq_true late⟩
      rw [same]
      exact before
  · obtain ⟨pending, early⟩ := mem_filter.mp mem
    have same := killed.others postKill.service fun other looked named => by
      obtain ⟨pending', late⟩ := mem_filter.mp looked
      obtain rfl := inj_on_of_nodup_map filed.postKill pending' pending named
      exact absurd late (by simpa using early)
    rw [same]
    exact filed.known _ (.inr ⟨postKill, pending, rfl⟩)

/-! ## What is looked up is there -/

theorem endRunningJobs_error {finish : JobStore → JobId → Except JobStoreError (JobStore × JobRecord)}
    (failed : w.endRunningJobs service finish = .error e) (error : ServiceTableError) :
    e ≠ .serviceTable error := by
  obtain collect | ⟨ids, -, ended⟩ := bind_eq_error.mp failed
  · obtain ⟨id, -, matching, missing⟩ := foldlM_eq_error collect
    unfold collectInState at missing
    split at missing
    · cases missing
      nofun
    · cases missing
  · obtain ⟨id, -, work, unfinished⟩ := foldlM_eq_error ended
    unfold finishJob at unfinished
    split at unfinished
    · cases unfinished
    · cases unfinished
      nofun

theorem moveService_error {tr : ServiceTransition} (known : (w.services.get service).isSome = true)
    (failed : w.moveService service tr = .error e) (name : String) :
    e ≠ .serviceTable (.unknownService name) := by
  obtain ⟨entry, got⟩ := isSome_iff_exists.mp known
  unfold moveService transitionService at failed
  rw [got] at failed
  dsimp only at failed
  by_cases allowed : isAllowedTransition entry.runtime.state tr.target tr.cause = true
  · rw [if_pos allowed] at failed
    cases failed
  · rw [if_neg allowed] at failed
    cases failed
    nofun

theorem processPostKillDeadline_known {deadline : ShutdownPostKillDeadline}
    (known : (w.services.get deadline.service).isSome = true)
    (failed : w.processPostKillDeadline answers nowNs deadline = .error e) (name : String) :
    e ≠ .serviceTable (.unknownService name) := by
  unfold processPostKillDeadline at failed
  split_ifs at failed
  · obtain ended | ⟨mid, ended, rest⟩ := bind_eq_error.mp failed
    · exact endRunningJobs_error ended _
    obtain ⟨jobs, rfl, -⟩ := endRunningJobs_ok
      (fun _ _ _ ran => (JobStore.abandonJob_ok ran).imp fun _ ended => ended.toFinished) ended
    obtain ⟨entry, got⟩ := isSome_iff_exists.mp known
    obtain unrecorded | ⟨leaked, leak, rest⟩ := bind_eq_error.mp rest
    · have recorded : ∃ leaked, w.services.recordLeakedCgroup deadline.service deadline.cgroupId
          .serviceTree nowNs = .ok leaked :=
        ⟨_, updateRuntime_eq_ok.mpr ⟨entry, got, rfl⟩⟩
      obtain ⟨leaked, leak⟩ := recorded
      rw [leak] at unrecorded
      cases unrecorded
    obtain ⟨entry', runtime, -, -, -, rfl⟩ := recordLeakedCgroup_eq_ok (mapError_eq_ok.mp leak)
    by_cases abandoned : w.services.stateOf deadline.service = some .abandoned
    · rw [if_pos abandoned] at rest
      cases rest
    · rw [if_neg abandoned] at rest
      refine moveService_error ?_ rest name
      rw [get_set_self]
      rfl
  · obtain ended | ⟨mid, ended, rest⟩ := bind_eq_error.mp failed
    · exact endRunningJobs_error ended _
    obtain ⟨jobs, rfl, -⟩ := endRunningJobs_ok
      (fun _ _ _ ran => (JobStore.failRunningJob_ok ran).imp fun _ ended => ended.toFinished) ended
    by_cases stopping : w.services.stateOf deadline.service = some .stopping
    · rw [if_pos stopping] at rest
      exact moveService_error (by exact known) rest name
    · rw [if_neg stopping] at rest
      cases rest

theorem processPostKillDeadlines_known (distinct : (due.map (·.service)).Nodup)
    (known : ∀ deadline ∈ due, (w.services.get deadline.service).isSome = true)
    (failed : due.foldlM (fun (work : ShutdownWork) => work.processPostKillDeadline answers nowNs) w =
      .error e) (name : String) : e ≠ .serviceTable (.unknownService name) := by
  induction due generalizing w with
  | nil => cases failed
  | cons deadline due ih =>
    rw [map_cons, nodup_cons] at distinct
    obtain first | ⟨mid, first, rest⟩ := bind_eq_error.mp failed
    · exact processPostKillDeadline_known (known deadline (mem_cons_self ..)) first name
    · obtain ⟨jobs, services, rfl, killed, -⟩ := processPostKillDeadline_ok first
      refine ih distinct.2 (fun other mem => ?_) rest
      have away : other.service ≠ deadline.service := fun same =>
        distinct.1 (same ▸ mem_map_of_mem mem)
      rw [killed.others away]
      exact known other (mem_cons_of_mem deadline mem)

theorem Filed.look_known (filed : Filed w r)
    (got : w.shutdown = some r) (failed : w.processDuePostKillDeadlines answers nowNs = .error e)
    (name : String) : e ≠ .serviceTable (.unknownService name) := by
  unfold processDuePostKillDeadlines at failed
  rw [got] at failed
  dsimp only at failed
  rw [partition_eq_filter_filter] at failed
  obtain looked | ⟨_, -, rest⟩ := bind_eq_error.mp failed
  · refine processPostKillDeadlines_known (filed.postKill.sublist (filter_sublist.map _))
      (fun deadline mem => ?_) looked name
    exact filed.known _ (.inr ⟨deadline, mem_of_mem_filter mem, rfl⟩)
  · cases rest

/-! ## The beginning -/

theorem Begun.spread (begun : Begun cfg answers nowNs w next r) : Spread r := by
  obtain ⟨cleared, killed, wave, -, -, -, -, killedAll, waveBegun, -⟩ := begun.stages
  obtain ⟨more, same, few⟩ := beginStopWave_more waveBegun
  obtain ⟨more', same', few', -⟩ := killedAll.added
  refine ⟨begun.planned.distinct, ?_, ?_, fun due mem => ?_⟩
  · rw [same']
    exact begun.planned.startingDistinct.sublist few'
  · rw [show r.stopDeadlines = more from same]
    exact (ShutdownPlan.nodup_waveServices begun.planned.distinct 0).sublist few
  · rw [show r.stopDeadlines = more from same] at mem
    exact ⟨0, Nat.zero_le _, few.subset (mem_map_of_mem mem)⟩

theorem Filed.first
    (stays : ∀ service entry, w.services.get service = some entry → entry.runtime.state = .starting →
      w.jobs.HasRunning service → entry.definitionRemoved = false)
    (ran : w.beginShutdown cfg answers kind nowNs = .ok next) :
    ∃ r, next.shutdown = some r ∧ Filed next r := by
  obtain ⟨r, begun⟩ := beginShutdown_ok ran
  refine ⟨r, begun.shutdown, begun.spread, ?_⟩
  obtain ⟨cleared, killed, wave, moved, -, -, jobs, killedAll, waveBegun, stopped, stop, rfl⟩ := begun.stages
  have beginning := beginStopWave_ok waveBegun
  have only := stopSubmittedJobsForShutdown_ok stop
  rintro service (⟨deadline, mem, rfl⟩ | ⟨deadline, mem, rfl⟩)
  · obtain old | ⟨waiting, -⟩ := beginning.added deadline mem
    · cases old
    · rw [only.services]
      exact OnlyAsked.isSome beginning.asked (isSome_of_not_down waiting)
  · obtain ⟨more, same, few, running⟩ := killedAll.added
    rw [same] at mem
    have starting := few.subset (mem_map_of_mem mem)
    have state := (begun.planned.starting _).mp starting
    have notCompleted : deadline.service ∉ r.plan.completedToClear := fun member => by
      rw [(begun.planned.completed _).mp member] at state
      cases state
    obtain ⟨entry, got, later⟩ := killedAll.moved.moved _ starting
    rw [moved.others _ notCompleted] at got
    rw [stateOf_of_get got, some.injEq] at state
    rw [stays _ entry got state (jobs ▸ running deadline mem)] at later
    rw [only.services]
    refine OnlyAsked.isSome beginning.asked ?_
    rw [later]
    rfl

/-! ## The steps -/

theorem Filed.jobExit {ended : JobRecord} (filed : Filed w r)
    (got : w.shutdown = some r) (ran : { w with jobs }.applyShutdownJobExit ended = .ok mid) :
    ∃ r', mid.shutdown = some r' ∧ Filed mid r' := by
  cases own : ended.service with
  | none =>
    unfold applyShutdownJobExit at ran
    rw [own] at ran
    cases ran
    exact ⟨r, got, filed.congr rfl⟩
  | some service =>
    obtain ⟨r', services, stopTimeouts, found', taken, rfl⟩ := applyShutdownJobExit_ok own ran
    cases got.symm.trans found'
    exact ⟨_, rfl, filed.exit taken⟩

theorem Filed.submitted (filed : Filed w r) (only : SubmittedOnly w next) : Filed next r :=
  filed.congr only.services

theorem Filed.reaped {pid : ℕ}
    {status : ChildExitStatus} {endNs : ℕ} (filed : Filed w r) (got : w.shutdown = some r) :
    ∃ r', ((applyReapedChild cfg answers pid status endNs).run w).2.shutdown = some r' ∧
      Filed ((applyReapedChild cfg answers pid status endNs).run w).2 r' := by
  have reaped := applyReapedChild_cases cfg answers pid status endNs w
  generalize ((applyReapedChild cfg answers pid status endNs).run w).2 = after at reaped ⊢
  cases reaped with
  | ignored => exact ⟨r, got, filed⟩
  | kept mid e only failed => exact ⟨r, only.shutdown.trans got, filed.submitted only⟩
  | submitted mid next only advance =>
    exact (filed.submitted only).advance (only.shutdown.trans got) advance
  | service id job next reaped known type ran =>
    obtain ⟨jobs, job', ended, mid, -, -, exit, advance⟩ := reapServiceJob_ok ran
    obtain ⟨r', found', filed'⟩ := filed.jobExit got exit
    exact filed'.advance found' advance

/-- So will it be when the services that are due have been killed. -/
def WillSpare (w : ShutdownWork) (r : ShutdownRuntime) (nowNs : ℕ) : Prop :=
  w.shutdownGlobalTimeoutDue nowNs = false → ∀ stop ∈ r.stopDeadlines, nowNs < stop.dueAtNs →
    ∀ postKill ∈ r.postKillDeadlines, postKill.service = stop.service → postKill.dueAtNs ≤ nowNs →
      ∀ entry, w.services.get stop.service = some entry → entry.definitionRemoved = false

theorem Filed.sparing (filed : Filed w r) (got : w.shutdown = some r) (spares : WillSpare w r nowNs)
    (ran : w.killDueServices cfg nowNs = .ok out) :
    ∀ r', out.1.shutdown = some r' → Sparing out.1 r' nowNs := by
  intro r' found'
  obtain ⟨-, mid, r'', -, -, killed⟩ | ⟨spared, -, stopTimeouts, same⟩ := killDueServices_cases got ran
  · cases found'.symm.trans killed.shutdown
    intro stop mem
    rw [killed.stop] at mem
    cases mem
  · rw [same] at found' ⊢
    cases found'
    intro stop mem postKill listed' named due
    rw [killedAtDeadline_stopDeadlines] at mem
    obtain ⟨mem, early⟩ := mem_filter.mp mem
    have early : nowNs < stop.dueAtNs := by simpa using early
    obtain old | ⟨late, member, same'⟩ := mem_killedAtDeadline _ _ _ _ listed'
    · exact spares spared stop mem early postKill old named due
    · -- the stop that has just become due was another one
      obtain ⟨member, passed⟩ := mem_filter.mp member
      obtain rfl := inj_on_of_nodup_map filed.stop member mem (same'.trans named)
      exact absurd (of_decide_eq_true passed) (not_le.mpr early)

theorem Filed.timeouts (filed : Filed w r) (got : w.shutdown = some r) (spares : WillSpare w r nowNs)
    (ran : w.processDueShutdownTimeouts cfg answers nowNs = .ok next) :
    ∃ r', next.shutdown = some r' ∧ Filed next r' := by
  obtain ⟨_, _, _, _, _, _, _, phases, ⟨-, rfl⟩ | ⟨-, advance⟩⟩ := processDueShutdownTimeouts_cases ran
  · exact ⟨r, got, filed⟩
  obtain ⟨r₁, found₁, filed₁⟩ := filed.kill got phases.kill
  have sparing := filed.sparing got spares phases.kill r₁ found₁
  have failedFiled := filed₁.operations phases.fail
  obtain ⟨operations, rfl⟩ := phases.fail
  obtain ⟨r₂, found₂, filed₂⟩ := failedFiled.look found₁ sparing phases.look
  exact (filed₂.submitted phases.only).advance (phases.only.shutdown.trans found₂) advance

theorem Filed.extended {dueAtNs : ℕ} (filed : Filed w r) :
    Filed w { r with stopDeadlines := extendFirst service dueAtNs r.stopDeadlines } := by
  have names := extendFirst_services service dueAtNs r.stopDeadlines
  refine ⟨filed.toSpread.of_sub rfl rfl filed.postKill ?_, ?_⟩
  · rw [names]
  · rintro other (⟨deadline, mem, rfl⟩ | postKill)
    · have member : deadline.service ∈ r.stopDeadlines.map (·.service) := names ▸ mem_map_of_mem mem
      obtain ⟨old, mem, named⟩ := mem_map.mp member
      exact filed.known _ (.inl ⟨old, mem, named⟩)
    · exact filed.known other (.inr postKill)

end ShutdownWork

/-! ## Runs -/

/-- What can happen between two states of the stores: a shutdown begins, it takes a step, an event of the
service table, a change of what is noted about a running service, and whatever is done to the other
stores. -/
inductive DeadlineMove where
  | begin (kind : ShutdownKind) (nowNs : ℕ) (answers : ProcessAnswers)
  | step (step : ShutdownStep)
  | table (event : TableEvent)
  | note (service : String) (f : ServiceRuntimeSnapshot → ServiceRuntimeSnapshot)
  | stores (next : ShutdownWork)

namespace DeadlineMove

open ShutdownWork

def perform (settings : ShutdownSettings) (work : ShutdownWork) : DeadlineMove → ShutdownWork
  | begin kind nowNs answers => ShutdownMove.perform settings work (.begin kind nowNs answers)
  | step s => ShutdownMove.perform settings work (.step s)
  -- neither the watch on the registry nor an internal error asks whether a shutdown is in progress
  | table event => { work with services := work.services.perform event }
  | note service f => match work.services.updateRuntime service f with
    | .ok services => { work with services }
    | .error _ => work
  | stores next => { next with services := work.services, shutdown := work.shutdown }

/-- A service that a deadline is left for leaves the table: it was withdrawn, and is killed while it is
starting, taken down by one deadline while it has another, or by somebody else; or it is down, and a
reload no longer defines it. -/
def Drops (work : ShutdownWork) : DeadlineMove → Prop
  | begin .. => work.shutdown = none ∧ ∃ service entry, work.services.get service = some entry ∧
    entry.runtime.state = .starting ∧ entry.definitionRemoved = true ∧ work.jobs.HasRunning service
  | step s => s.event = .timeouts ∧ work.shutdownGlobalTimeoutDue s.nowNs = false ∧
    ∃ r, work.shutdown = some r ∧ ∃ stop ∈ r.stopDeadlines, s.nowNs < stop.dueAtNs ∧
      ∃ postKill ∈ r.postKillDeadlines, postKill.service = stop.service ∧ postKill.dueAtNs ≤ s.nowNs ∧
        ∃ entry, work.services.get stop.service = some entry ∧ entry.definitionRemoved = true
  | table (.transition service transition) => ∃ r entry, work.shutdown = some r ∧ r.Covers service ∧
    work.services.get service = some entry ∧ entry.definitionRemoved = true ∧
    isAllowedTransition entry.runtime.state transition.target transition.cause = true ∧
    retainsDefinitionAfterRemoval transition.target = false
  | table (.reload read frozen) => (mapDefinitions (work.services.carriedDefinitions read)).isOk = true ∧
    ∃ r service entry, work.shutdown = some r ∧ r.Covers service ∧
      work.services.get service = some entry ∧
      retainsDefinitionAfterRemoval entry.runtime.state = false ∧ service ∉ frozen ∧
      entry.definition.compiledIn = false ∧
      (∀ definition ∈ work.services.carriedDefinitions read, definition.name ≠ service) ∧
      service ∉ read.undecodable.map (·.name)
  | note .. | stores _ => False

end DeadlineMove

namespace ShutdownWork

/-- If a shutdown has begun, its deadlines are for services in the table. -/
def DeadlinesFiled (w : ShutdownWork) : Prop := ∀ r, w.shutdown = some r → Filed w r

theorem DeadlinesFiled.of_exists (filed : ∃ r, w.shutdown = some r ∧ Filed w r) : DeadlinesFiled w := by
  obtain ⟨r, got, filed⟩ := filed
  intro r' found'
  cases got.symm.trans found'
  exact filed

theorem DeadlinesFiled.modify {f : ShutdownRuntime → ShutdownRuntime} (filed : DeadlinesFiled w)
    (keeps : ∀ r, Filed w r → Filed w (f r)) : DeadlinesFiled (w.modifyShutdown f) := by
  intro r' found'
  obtain ⟨r, got, rfl⟩ := map_eq_some_iff.mp found'
  exact (keeps r (filed r got)).congr rfl

theorem Filed.step {step : ShutdownStep} (filed : Filed w r)
    (got : w.shutdown = some r) (kept : ¬ (DeadlineMove.step step).Drops w) :
    DeadlinesFiled (step.perform cfg w) := by
  have stay : DeadlinesFiled w := .of_exists ⟨r, got, filed⟩
  obtain ⟨nowNs, answers, event⟩ := step
  cases event with
  | reaped pid status => exact .of_exists (filed.reaped got)
  | timeouts =>
    refine transaction_rule stay fun next ran => .of_exists (filed.timeouts got ?_ ran)
    intro unfired stop mem early postKill listed' named due entry known
    by_contra removed
    exact kept ⟨rfl, unfired, r, got, stop, mem, early, postKill, listed', named, due, entry, known,
      Bool.eq_true_of_not_eq_false removed⟩
  | submittedSetupSucceeded setupStatusFd =>
    refine transaction_rule stay fun next ran => ?_
    obtain rfl | ⟨setup, jobs, rfl, -⟩ := submittedSetupSucceeded_ok ran
    · exact stay
    · exact .of_exists ⟨r, got, filed.congr rfl⟩
  | submittedSetupFailed setupStatusFd error =>
    refine transaction_rule stay fun next ran => ?_
    obtain rfl | ⟨setup, dead, -, only, -⟩ := submittedSetupFailed_ok ran
    · exact stay
    · exact .of_exists ⟨r, only.shutdown.trans got, filed.submitted only⟩
  | stopExtended service dueAtNs => exact stay.modify fun _ filed => filed.extended
  | finalAction failure afterNs =>
    change DeadlinesFiled (w.finalizeDueShutdown failure afterNs nowNs)
    unfold finalizeDueShutdown
    split_ifs
    · exact stay.modify fun _ filed =>
        ⟨⟨filed.participants, filed.postKill, filed.stop, filed.begun⟩, filed.known⟩
    · exact stay

theorem Filed.table {event : TableEvent} (filed : Filed w r) (got : w.shutdown = some r)
    (kept : ¬ (DeadlineMove.table event).Drops w) :
    Filed { w with services := w.services.perform event } r := by
  refine ⟨filed.toSpread, fun service covered => ?_⟩
  have known := filed.known service covered
  have step := perform_cases w.services event service
  generalize was : w.services.get service = before at step known
  generalize (w.services.perform event).get service = after at step ⊢
  cases step with
  | rejected read frozen error _ rejects => exact known
  | unmoved other tr _ => exact known
  | reloaded read frozen inc _ _ mapped change =>
    cases change with
    | discarded entry undefined unnamed free registered down =>
      refine absurd ⟨?_, r, service, entry, got, covered, was, down, free, registered, ?_, unnamed⟩ kept
      · rw [mapped]
        rfl
      · rintro defn mem rfl
        obtain ⟨defined, here⟩ := mapDefinitions_defines mapped mem
        cases undefined.symm.trans here
    | absent undefined unnamed => exact known
    | _ => rfl
  | discarded entry tr allowed removed down =>
    exact absurd ⟨r, entry, got, covered, was, removed, allowed, down⟩ kept
  | moved entry tr allowed stays => rfl

theorem Filed.note {f : ServiceRuntimeSnapshot → ServiceRuntimeSnapshot} (filed : Filed w r)
    (updated : w.services.updateRuntime service f = .ok services) : Filed { w with services } r := by
  refine ⟨filed.toSpread, fun other covered => ?_⟩
  obtain ⟨entry, -, rfl⟩ := updateRuntime_eq_ok.mp updated
  rw [get_set]
  split_ifs
  · rfl
  · exact filed.known other covered

theorem DeadlinesFiled.move {move : DeadlineMove}
    (filed : DeadlinesFiled w) (kept : ¬ move.Drops w) : DeadlinesFiled (move.perform cfg w) := by
  cases move with
  | begin kind nowNs answers =>
    refine transaction_rule filed fun next ran => .of_exists (Filed.first ?_ ran)
    intro service entry known starting running
    by_contra removed
    obtain ⟨r, begun⟩ := beginShutdown_ok ran
    exact kept ⟨begun.fresh, service, entry, known, starting, Bool.eq_true_of_not_eq_false removed,
      running⟩
  | step step =>
    change DeadlinesFiled (if w.shutdown.isSome then step.perform cfg w else w)
    split_ifs with begun
    · obtain ⟨r, got⟩ := isSome_iff_exists.mp begun
      exact (filed r got).step got kept
    · exact filed
  | table event => exact fun r got => (filed r got).table got kept
  | note service f =>
    unfold DeadlineMove.perform
    dsimp only
    split
    · next services updated => exact fun r got => (filed r got).note updated
    · exact filed
  | stores next => exact fun r got => (filed r got).congr rfl

end ShutdownWork

open ShutdownWork

/-- In every run in which no service that a deadline is left for leaves the table, each deadline names a
service of the table, and a post-kill deadline that falls due finds its own. -/
theorem deadlines_name_known_services (settings : ShutdownSettings) {w : ShutdownWork}
    (idle : w.shutdown = none) (moves : List DeadlineMove)
    (kept : Admissible (DeadlineMove.perform settings) (fun work move => ¬ move.Drops work) w moves) :
    ∀ r, (runCalls (DeadlineMove.perform settings) w moves).shutdown = some r →
      (∀ service, r.Covers service →
        ((runCalls (DeadlineMove.perform settings) w moves).services.get service).isSome = true) ∧
      ∀ answers nowNs killed kills failed name,
        (runCalls (DeadlineMove.perform settings) w moves).killDueServices settings nowNs =
          .ok (killed, kills) → OperationsOnly killed failed →
        failed.processDuePostKillDeadlines answers nowNs ≠
          .error (.serviceTable (.unknownService name)) := by
  have filed : DeadlinesFiled (runCalls (DeadlineMove.perform settings) w moves) :=
    invariant_of_step DeadlinesFiled (fun _ _ held ok => held.move ok) moves
      (fun r found => by cases idle.symm.trans found) kept
  intro r found
  refine ⟨(filed r found).known, fun answers nowNs killed kills failed name kill only unknown => ?_⟩
  obtain ⟨r', found', filed'⟩ := (filed r found).kill found kill
  have failedFiled := filed'.operations only
  obtain ⟨operations, rfl⟩ := only
  exact failedFiled.look_known found' unknown name rfl

/-- The registry no longer defines `web`, which is up when the shutdown begins and does not stop in
time. -/
def webWithdrawn : List DeadlineMove :=
  [.table (.reload { definitions := [{ name := "db" }] } []), .begin .poweroff 0 nothingLeft,
    .step ⟨10 * nanosPerSec, nothingLeft, .timeouts⟩]

theorem deadlines_name_known_services_webWithdrawn :
    ∃ r, (runCalls (DeadlineMove.perform {}) webOnDb webWithdrawn).shutdown = some r ∧
      r.postKillDeadlines.map (·.service) = ["web"] ∧
      ((runCalls (DeadlineMove.perform {}) webOnDb webWithdrawn).services.get "web").isSome = true := by
  have kept : Admissible (DeadlineMove.perform {}) (fun work move => ¬ move.Drops work) webOnDb
      webWithdrawn := by
    refine ⟨?_, ?_, ?_, trivial⟩
    · rintro ⟨-, r, service, entry, begun, -⟩
      cases begun
    · rintro ⟨-, service, entry, found, starting, -⟩
      have none : ∀ pair ∈ (DeadlineMove.perform {} webOnDb (.table (.reload
          { definitions := [{ name := "db" }] } []))).services.entries.toList,
          pair.2.runtime.state ≠ .starting := by decide +kernel
      exact none _ ((OrdMap.mem_toList _ _ _).mpr found) starting
    · rintro ⟨-, -, r, found, stop, listed, early, -⟩
      have due : ∀ r ∈ (runCalls (DeadlineMove.perform {}) webOnDb (webWithdrawn.take 2)).shutdown,
          ∀ stop ∈ r.stopDeadlines, stop.dueAtNs ≤ 10 * nanosPerSec := by decide +kernel
      exact absurd (due r found stop listed) (not_le.mpr early)
  refine Exists.imp (p := fun _ => _ ∧ _) (fun r ⟨found, services⟩ => ⟨found, services, ?_⟩) (by decide +kernel)
  have web : "web" ∈ r.postKillDeadlines.map (·.service) := by rw [services]; simp
  obtain ⟨deadline, listed, named⟩ := List.mem_map.mp web
  exact (deadlines_name_known_services {} rfl webWithdrawn kept r found).1 "web"
    (.inr ⟨deadline, listed, named⟩)

/-- A service that has a process and is not ready yet. -/
def slowStart : ShutdownWork where
  services := ⟨(∅ : OrdMap String ServiceEntry).insert "slow" (serviceIn .starting { name := "slow" })⟩
  operations := .new
  jobs :=
    { records := (∅ : OrdMap JobId JobRecord).insert ⟨1⟩ (runningJob 1 11 "slow" .serviceMain)
      activeByService := (∅ : OrdMap String (List JobId)).insert "slow" [⟨1⟩] }

/-- Its definition is withdrawn, and then a shutdown begins. -/
def slowWithdrawn : List DeadlineMove :=
  [.table (.reload { definitions := [] } []), .begin .poweroff 0 nothingLeft]

/-- The deadline of the killed process names a service that has left the table.  When it is due and the
process is still there, the leak cannot be recorded. -/
theorem deadline_of_discarded_service :
    slowStart.shutdown = none ∧
    (∃ r, (runCalls (DeadlineMove.perform {}) slowStart slowWithdrawn).shutdown = some r ∧
      r.Covers "slow" ∧
      (runCalls (DeadlineMove.perform {}) slowStart slowWithdrawn).services.get "slow" = none) ∧
    ((runCalls (DeadlineMove.perform {}) slowStart slowWithdrawn).processDueShutdownTimeouts {}
      ⟨fun _ => true, fun _ => true⟩ (5 * nanosPerSec)).map (fun _ => ()) =
        .error (.shutdown (.serviceTable (.unknownService "slow"))) := by
  unfold ShutdownRuntime.Covers
  decide +kernel

end Peinit
