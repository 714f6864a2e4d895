import Peinit.Job.Index
import Peinit.Shutdown.Progress

/-!
# What happens before a shutdown advances

Each step of a shutdown first takes note of the end of a job or a deadline that is due, and then
advances.  For each kind of note, what it makes of the services and of the deadlines.
-/

namespace Peinit

open ServiceTable List

variable {tr : ServiceTransition} {other service svc : String} {ended : JobRecord}
  {r₁ r₂ : ShutdownRuntime} {nowNs killSecs : ℕ} {out : ShutdownWork × List String} {svcs : List String}
  {ids : List JobId} {finish : JobStore → JobId → Except JobStoreError (JobStore × JobRecord)}
  {deadline : ShutdownPostKillDeadline} {answers : ProcessAnswers} {before after : ServiceTable}
  {entry : ServiceEntry}

namespace ShutdownRuntime

variable (r : ShutdownRuntime)

/-- A deadline of the shutdown names the service. -/
def Covers (service : String) : Prop := (∃ deadline ∈ r.stopDeadlines, deadline.service = service) ∨
    ∃ deadline ∈ r.postKillDeadlines, deadline.service = service

/-- The stop deadlines that are due, and the runtime without them. -/
abbrev dueStops (nowNs : ℕ) : List ShutdownStopDeadline :=
  r.stopDeadlines.filter fun d => decide (d.dueAtNs ≤ nowNs)

abbrev afterStops (nowNs : ℕ) : ShutdownRuntime :=
  { r with stopDeadlines := r.stopDeadlines.filter fun d => !decide (d.dueAtNs ≤ nowNs) }

/-- The post-kill deadlines that are due, and the runtime without them. -/
abbrev duePostKills (nowNs : ℕ) : List ShutdownPostKillDeadline :=
  r.postKillDeadlines.filter fun d => decide (d.dueAtNs ≤ nowNs)

abbrev afterPostKills (nowNs : ℕ) : ShutdownRuntime :=
  { r with postKillDeadlines := r.postKillDeadlines.filter fun d => !decide (d.dueAtNs ≤ nowNs) }

end ShutdownRuntime

namespace ShutdownWork

variable {w next : ShutdownWork} {r : ShutdownRuntime}

/-! ## The end of a job -/

/-- What the end of one of its jobs makes of a service. -/
inductive TakenDown (before : ServiceTable) (service : String) : ServiceTable → Prop
  | idle (notUp : ¬ Up (before.stateOf service)) : TakenDown before service before
  | moved (entry : ServiceEntry) (transition : ServiceTransition)
      (found : before.get service = some entry)
      (busy : serviceDoneForShutdown entry.runtime.state = false)
      (done : serviceDoneForShutdown transition.target = true) :
      TakenDown before service (before.moveEntry service entry transition)

namespace TakenDown

theorem settle (taken : TakenDown before svc after) : ServicesSettle before after := by
  cases taken with
  | idle notUp => exact .refl _
  | moved entry tr got busy done => exact servicesSettle_moveEntry done

theorem down_moveEntry (done : serviceDoneForShutdown tr.target = true) :
    Down ((before.moveEntry svc entry tr).stateOf svc) := by
  rw [stateOf_moveEntry]
  split_ifs
  · rfl
  · exact done

theorem not_up (taken : TakenDown before svc after) : ¬ Up (after.stateOf svc) := by
  cases taken with
  | idle notUp => exact notUp
  | moved entry tr got busy done =>
    exact fun up => not_down_of_up up (down_moveEntry done)

theorem others (taken : TakenDown before svc after) (away : other ≠ svc) :
    after.get other = before.get other := by
  cases taken with
  | idle notUp => rfl
  | moved entry tr got busy done => exact get_moveEntry_ne away

end TakenDown

theorem takenDown_moveService {state : ServiceState}
    (ran : w.moveService service tr = .ok next) (known : w.services.stateOf service = some state)
    (busy : serviceDoneForShutdown state = false)
    (done : serviceDoneForShutdown tr.target = true) :
    ∃ svcs, next = { w with services := svcs } ∧ TakenDown w.services service svcs := by
  obtain ⟨entry, got, -, rfl⟩ := moveService_eq_ok.mp ran
  rw [stateOf_of_get got, Option.some.injEq] at known
  exact ⟨_, rfl, .moved entry tr got (known ▸ busy) done⟩

theorem applyShutdownActiveExit_ok (ran : w.applyShutdownActiveExit service ended = .ok next)
    (known : w.services.stateOf service = some .active) :
    ∃ svcs, next = { w with services := svcs } ∧ TakenDown w.services service svcs := by
  obtain ⟨succeeded, -, rest⟩ := bind_eq_ok.mp ran
  split_ifs at rest
  · exact takenDown_moveService rest known rfl rfl
  · exact takenDown_moveService rest known rfl rfl

theorem applyShutdownJobExit_ok (own : ended.service = some service)
    (ran : w.applyShutdownJobExit ended = .ok next) :
    ∃ r svcs stopTimeouts, w.shutdown = some r ∧ TakenDown w.services service svcs ∧
      next = { w with services := svcs, stopTimeouts, shutdown := some (withoutDeadlines r service) } := by
  unfold applyShutdownJobExit at ran
  rw [own] at ran
  obtain ⟨cleared, clear, rest⟩ := bind_eq_ok.mp ran
  unfold removeShutdownDeadlinesForService at clear
  split at clear
  · cases clear
  · next r got =>
    cases clear
    suffices taken : ∃ svcs, next = { w with
        services := svcs
        stopTimeouts := (timedOperations r service).foldl (·.erase ·) w.stopTimeouts
        shutdown := some (withoutDeadlines r service) } ∧ TakenDown w.services service svcs by
      obtain ⟨svcs, rfl, taken⟩ := taken
      exact ⟨r, svcs, _, got, taken, rfl⟩
    split at rest
    · next gone =>
      cases rest
      refine ⟨w.services, rfl, .idle ?_⟩
      rw [stateOf, gone]
      simp [Up]
    · next runtime known =>
      have state : w.services.stateOf service = some runtime.state := by
        rw [stateOf, known, Option.map_some]
      split at rest
      · next is => exact applyShutdownActiveExit_ok rest (state.trans (by rw [is]))
      · next is => exact takenDown_moveService rest state (by rw [is]; rfl) rfl
      · next is => exact takenDown_moveService rest state (by rw [is]; rfl) rfl
      · next is => exact takenDown_moveService rest state (by rw [is]; rfl) (stoppedState_done _)
      · next notActive notReloading notStarting notStopping =>
        cases rest
        refine ⟨w.services, rfl, .idle ?_⟩
        rw [state]
        intro up
        cases is : runtime.state <;> rw [is] at up <;>
          first | exact notActive is | exact notReloading is | exact notStopping is | cases up

/-! ## Deadlines -/

/-- A service has one post-kill deadline at most. -/
def withPostKill (r : ShutdownRuntime) (deadline : ShutdownPostKillDeadline) : ShutdownRuntime :=
  if r.postKillDeadlines.any (·.service = deadline.service) then r
  else { r with postKillDeadlines := r.postKillDeadlines ++ [deadline] }

theorem recordPostKillDeadline_eq (got : w.shutdown = some r) (nowNs killSecs : ℕ)
    (svc cgroupId : String) :
    w.recordPostKillDeadline nowNs killSecs svc cgroupId =
      .ok { w with
        shutdown := some (withPostKill r ⟨svc, cgroupId, deadlineNs nowNs killSecs⟩) } := by
  unfold recordPostKillDeadline withPostKill
  rw [got]
  dsimp only
  split_ifs
  · rw [← got]
  · rfl

/-- The parts of the runtime that only a new wave or a timeout changes. -/
structure SamePlan (r r' : ShutdownRuntime) : Prop where
  plan : r'.plan = r.plan
  wave : r'.currentWave = r.currentWave
  fired : r'.globalTimeoutFired = r.globalTimeoutFired
  finalization : r'.finalization = r.finalization

theorem SamePlan.refl (r : ShutdownRuntime) : SamePlan r r := ⟨rfl, rfl, rfl, rfl⟩

theorem SamePlan.trans {r₃ : ShutdownRuntime} (first : SamePlan r₁ r₂) (second : SamePlan r₂ r₃) :
    SamePlan r₁ r₃ :=
  ⟨second.plan.trans first.plan, second.wave.trans first.wave, second.fired.trans first.fired,
    second.finalization.trans first.finalization⟩

section WithPostKill

variable (r : ShutdownRuntime) (due : ShutdownPostKillDeadline)

theorem withPostKill_samePlan : SamePlan r (withPostKill r due) := by
  unfold withPostKill
  split_ifs
  · exact .refl r
  · exact ⟨rfl, rfl, rfl, rfl⟩

@[simp] theorem withPostKill_stopDeadlines : (withPostKill r due).stopDeadlines = r.stopDeadlines := by
  unfold withPostKill
  split_ifs <;> rfl

theorem subset_withPostKill : r.postKillDeadlines ⊆ (withPostKill r due).postKillDeadlines := by
  unfold withPostKill
  split_ifs
  · exact fun _ => id
  · exact subset_append_left _ _

theorem mem_withPostKill {d : ShutdownPostKillDeadline}
    (mem : d ∈ (withPostKill r due).postKillDeadlines) :
    d ∈ r.postKillDeadlines ∨ d = due := by
  unfold withPostKill at mem
  split_ifs at mem
  · exact .inl mem
  · rcases mem_append.mp mem with old | new
    · exact .inl old
    · exact .inr (mem_singleton.mp new)

theorem exists_withPostKill : ∃ d ∈ (withPostKill r due).postKillDeadlines, d.service = due.service := by
  unfold withPostKill
  split_ifs with present
  · obtain ⟨d, mem, same⟩ := any_eq_true.mp present
    exact ⟨d, mem, of_decide_eq_true same⟩
  · exact ⟨due, by simp, rfl⟩

theorem nodup_withPostKill (distinct : (r.postKillDeadlines.map (·.service)).Nodup) :
    ((withPostKill r due).postKillDeadlines.map (·.service)).Nodup := by
  unfold withPostKill
  split_ifs with present
  · exact distinct
  · rw [map_append, nodup_append]
    refine ⟨distinct, by simp, ?_⟩
    rintro _ mem _ last rfl
    obtain ⟨d, member, same⟩ := mem_map.mp mem
    refine present (any_eq_true.mpr ⟨d, member, decide_eq_true ?_⟩)
    rw [same]
    simpa using last

end WithPostKill

/-- The runtime after the stop deadlines `due` have been turned into post-kill deadlines. -/
def killedAtDeadline (nowNs postKillTimeoutSecs : ℕ) (r : ShutdownRuntime)
    (due : List ShutdownStopDeadline) : ShutdownRuntime :=
  due.foldl (fun r deadline =>
    withPostKill r ⟨deadline.service, deadline.cgroupId, deadlineNs nowNs postKillTimeoutSecs⟩) r

theorem processStopDeadlines_ok {due : List ShutdownStopDeadline} (got : w.shutdown = some r)
    (ran : due.foldlM (fun (work : ShutdownWork) =>
      work.processStopDeadline nowNs killSecs) w = .ok next) :
    ∃ stopTimeouts, next = { w with
      stopTimeouts, shutdown := some (killedAtDeadline nowNs killSecs r due) } := by
  induction due generalizing w r with
  | nil =>
    cases ran
    exact ⟨next.stopTimeouts, by rw [killedAtDeadline, foldl_nil, ← got]⟩
  | cons deadline due ih =>
    obtain ⟨mid, first, rest⟩ := bind_eq_ok.mp ran
    cases (recordPostKillDeadline_eq (by exact got) _ _ _ _).symm.trans first
    obtain ⟨stopTimeouts, rfl⟩ := ih rfl rest
    exact ⟨stopTimeouts, rfl⟩

section KilledAtDeadline

variable (nowNs killSecs : ℕ)

theorem killedAtDeadline_samePlan (due : List ShutdownStopDeadline) :
    ∀ r : ShutdownRuntime, SamePlan r (killedAtDeadline nowNs killSecs r due) := by
  induction due with
  | nil => exact fun r => .refl r
  | cons deadline due ih => exact fun r => (withPostKill_samePlan r _).trans (ih _)

theorem killedAtDeadline_stopDeadlines (due : List ShutdownStopDeadline) :
    ∀ r : ShutdownRuntime, (killedAtDeadline nowNs killSecs r due).stopDeadlines = r.stopDeadlines := by
  induction due with
  | nil => exact fun r => rfl
  | cons deadline due ih => exact fun r => (ih _).trans (withPostKill_stopDeadlines r _)

theorem subset_killedAtDeadline (due : List ShutdownStopDeadline) : ∀ r : ShutdownRuntime,
    r.postKillDeadlines ⊆ (killedAtDeadline nowNs killSecs r due).postKillDeadlines := by
  induction due with
  | nil => exact fun r _ => id
  | cons deadline due ih => exact fun r d mem => ih _ (subset_withPostKill r _ mem)

theorem exists_killedAtDeadline (due : List ShutdownStopDeadline) {deadline : ShutdownStopDeadline}
    (mem : deadline ∈ due) : ∀ r : ShutdownRuntime,
    ∃ d ∈ (killedAtDeadline nowNs killSecs r due).postKillDeadlines, d.service = deadline.service := by
  induction due with
  | nil => cases mem
  | cons first due ih =>
    intro r
    rcases mem_cons.mp mem with rfl | later
    · obtain ⟨d, member, named⟩ := exists_withPostKill r
        ⟨deadline.service, deadline.cgroupId, deadlineNs nowNs killSecs⟩
      exact ⟨d, subset_killedAtDeadline nowNs killSecs due _ member, named⟩
    · exact ih later _

theorem mem_killedAtDeadline (due : List ShutdownStopDeadline) : ∀ (r : ShutdownRuntime)
    {d : ShutdownPostKillDeadline},
    d ∈ (killedAtDeadline nowNs killSecs r due).postKillDeadlines →
      d ∈ r.postKillDeadlines ∨ ∃ deadline ∈ due, deadline.service = d.service := by
  induction due with
  | nil => exact fun r d mem => .inl mem
  | cons first due ih =>
    intro r d mem
    rcases ih _ mem with earlier | ⟨deadline, member, named⟩
    · rcases mem_withPostKill r _ earlier with old | rfl
      · exact .inl old
      · exact .inr ⟨first, by simp, rfl⟩
    · exact .inr ⟨deadline, mem_cons_of_mem first member, named⟩

theorem nodup_killedAtDeadline (due : List ShutdownStopDeadline) : ∀ r : ShutdownRuntime,
    (r.postKillDeadlines.map (·.service)).Nodup →
      ((killedAtDeadline nowNs killSecs r due).postKillDeadlines.map (·.service)).Nodup := by
  induction due with
  | nil => exact fun r distinct => distinct
  | cons deadline due ih => exact fun r distinct => ih _ (nodup_withPostKill r _ distinct)

end KilledAtDeadline

theorem processDueStopDeadlines_ok (got : w.shutdown = some r)
    (ran : w.processDueStopDeadlines nowNs killSecs = .ok out) :
    ∃ stopTimeouts, out.1 = { w with
      stopTimeouts
      shutdown := some (killedAtDeadline nowNs killSecs (r.afterStops nowNs) (r.dueStops nowNs)) } ∧
      out.2 = (r.dueStops nowNs).map (·.service) := by
  unfold processDueStopDeadlines at ran
  rw [got] at ran
  dsimp only at ran
  rw [partition_eq_filter_filter] at ran
  obtain ⟨killed, kill, last⟩ := bind_eq_ok.mp ran
  cases last
  obtain ⟨stopTimeouts, rfl⟩ := processStopDeadlines_ok rfl kill
  exact ⟨stopTimeouts, rfl, rfl⟩

/-! ## The global timeout -/

theorem stopRunning_ok (ran : w.stopRunning service = .ok next) :
    ∃ svcs, next = { w with services := svcs } ∧ OnlyAsked w.services svcs ∧
      ¬ Running (svcs.stateOf service) := by
  unfold stopRunning at ran
  have asked : w.moveService service ⟨.stopping, .shutdownWave⟩ = .ok next →
      ∃ svcs, next = { w with services := svcs } ∧ OnlyAsked w.services svcs ∧
        ¬ Running (svcs.stateOf service) := by
    intro move
    obtain ⟨entry, got, allowed, rfl⟩ := moveService_eq_ok.mp move
    have stop := askedToStop_moved allowed
    refine ⟨_, rfl, .of_others got (get_moveEntry_stopping _) stop fun other away =>
        get_moveEntry_ne away, ?_⟩
    rw [stateOf_of_get (get_moveEntry_stopping _), stop.stopping]
    decide
  split at ran
  · exact asked ran
  · exact asked ran
  · next notActive notReloading =>
    cases ran
    refine ⟨w.services, rfl, .refl _, ?_⟩
    cases state : w.services.stateOf service with
    | none => decide
    | some state' =>
      cases state' <;> first | exact absurd state notActive | exact absurd state notReloading | decide

/-- What killing `services` makes of the table and of the deadlines. -/
structure Killed (services : List String) (w : ShutdownWork) (r : ShutdownRuntime) (next : ShutdownWork)
    (r' : ShutdownRuntime) : Prop where
  asked : OnlyAsked w.services next.services
  jobs : next.jobs = w.jobs
  submitted : next.submitted = w.submitted
  signals : next.signals = w.signals
  shutdown : next.shutdown = some r'
  same : SamePlan r r'
  stop : r'.stopDeadlines = r.stopDeadlines
  grows : r.postKillDeadlines ⊆ r'.postKillDeadlines
  added : ∀ deadline ∈ r'.postKillDeadlines, deadline ∈ r.postKillDeadlines ∨ deadline.service ∈ services
  distinct : (r.postKillDeadlines.map (·.service)).Nodup → (r'.postKillDeadlines.map (·.service)).Nodup
  stopped : ∀ service ∈ services, ¬ Running (next.services.stateOf service)
  covered : ∀ service ∈ services, ∃ deadline ∈ r'.postKillDeadlines, deadline.service = service

theorem killRemainingService_ok (got : w.shutdown = some r)
    (ran : w.killRemainingService nowNs killSecs service = .ok next) :
    ∃ r', Killed [service] w r next r' := by
  obtain ⟨cgroupId, -, rest⟩ := bind_eq_ok.mp ran
  obtain ⟨mid, stop, record⟩ := bind_eq_ok.mp rest
  obtain ⟨svcs, rfl, asked, stopped⟩ := stopRunning_ok stop
  rw [recordPostKillDeadline_eq (w := { w with services := svcs }) got] at record
  cases record
  refine ⟨_, asked, rfl, rfl, rfl, rfl, withPostKill_samePlan r _, withPostKill_stopDeadlines r _,
    subset_withPostKill r _, fun d mem => ?_, nodup_withPostKill r _, ?_, ?_⟩
  · rcases mem_withPostKill r _ mem with old | rfl
    · exact .inl old
    · exact .inr (mem_singleton.mpr rfl)
  · rintro _ (_ | ⟨_, ⟨⟩⟩)
    exact stopped
  · rintro _ (_ | ⟨_, ⟨⟩⟩)
    exact exists_withPostKill r _

theorem Killed.cons {mid : ShutdownWork} (first : Killed [svc] w r mid r₁)
    (later : Killed svcs mid r₁ next r₂) : Killed (svc :: svcs) w r next r₂ where
  asked := first.asked.trans later.asked
  jobs := later.jobs.trans first.jobs
  submitted := later.submitted.trans first.submitted
  signals := later.signals.trans first.signals
  shutdown := later.shutdown
  same := first.same.trans later.same
  stop := later.stop.trans first.stop
  grows := fun _ mem => later.grows (first.grows mem)
  added := by
    intro d mem
    rcases later.added d mem with earlier | named
    · rcases first.added d earlier with old | named
      · exact .inl old
      · exact .inr (mem_cons.mpr (.inl (mem_singleton.mp named)))
    · exact .inr (mem_cons_of_mem svc named)
  distinct := fun distinct => later.distinct (first.distinct distinct)
  stopped := by
    intro s mem
    rcases mem_cons.mp mem with rfl | mem
    · exact (later.asked.settle s).stopped (first.stopped s (mem_singleton.mpr rfl))
    · exact later.stopped s mem
  covered := by
    intro s mem
    rcases mem_cons.mp mem with rfl | mem
    · obtain ⟨d, member, named⟩ := first.covered s (mem_singleton.mpr rfl)
      exact ⟨d, later.grows member, named⟩
    · exact later.covered s mem

theorem killRemainingServices_ok (got : w.shutdown = some r)
    (ran : svcs.foldlM (fun (work : ShutdownWork) =>
      work.killRemainingService nowNs killSecs) w = .ok next) :
    ∃ r', Killed svcs w r next r' := by
  induction svcs generalizing w r with
  | nil =>
    cases ran
    exact ⟨r, .refl _, rfl, rfl, rfl, got, .refl r, rfl, fun _ => id, fun _ => .inl, id, nofun, nofun⟩
  | cons service svcs ih =>
    obtain ⟨mid, first, rest⟩ := bind_eq_ok.mp ran
    obtain ⟨r₁, one⟩ := killRemainingService_ok got first
    obtain ⟨r₂, later⟩ := ih one.shutdown rest
    exact ⟨r₂, one.cons later⟩

theorem killAllRemainingServices_ok (got : w.shutdown = some r)
    (ran : w.killAllRemainingServices nowNs killSecs = .ok out) :
    out.2 = w.remainingShutdownServices ∧
      ∃ r', Killed w.remainingShutdownServices w { r with stopDeadlines := [] } out.1 r' := by
  obtain ⟨killed, kill, last⟩ := bind_eq_ok.mp ran
  cases last
  have cleared : (w.modifyShutdown fun shutdown => { shutdown with stopDeadlines := [] }).shutdown =
      some { r with stopDeadlines := [] } := by
    unfold modifyShutdown
    rw [got]
    rfl
  obtain ⟨r', done⟩ := killRemainingServices_ok cleared kill
  exact ⟨rfl, r', done.asked, done.jobs, done.submitted, done.signals, done.shutdown, done.same,
    done.stop, done.grows, done.added, done.distinct, done.stopped, done.covered⟩

/-! ## Post-kill deadlines -/

theorem activeJobsInState_ok {state : JobState} (ran : w.activeJobsInState service state = .ok ids) :
    ids = (w.jobs.activeForService service).filter fun id =>
      (w.jobs.get id).any fun job => job.state = state := by
  suffices collected : ∀ (active matching out : List JobId),
      active.foldlM (w.collectInState state) matching = .ok out → out = matching ++ active.filter
        fun id => (w.jobs.get id).any fun job => job.state = state by
    simpa using collected _ _ _ ran
  intro active
  induction active with
  | nil =>
    intro matching out ran
    cases ran
    simp
  | cons id active ih =>
    intro matching out ran
    obtain ⟨mid, first, rest⟩ := bind_eq_ok.mp ran
    unfold collectInState at first
    split at first
    · cases first
    · next job known =>
      cases first
      rw [ih _ _ rest, filter_cons]
      split_ifs <;> simp_all

theorem finishJobs_ok
    (ends : ∀ jobs id out, finish jobs id = .ok out → ∃ job, JobStore.Finished jobs id out.1 job)
    (ran : ids.foldlM (fun (work : ShutdownWork) id => work.finishJob (finish · id)) w = .ok next) :
    ∃ jobs, next = { w with jobs } ∧ w.jobs.Ended jobs ∧
      ∀ id, jobs.get id = if id ∈ ids then none else w.jobs.get id := by
  induction ids generalizing w with
  | nil =>
    cases ran
    exact ⟨next.jobs, rfl, .refl _, fun _ => rfl⟩
  | cons id ids ih =>
    rw [foldlM_cons] at ran
    obtain ⟨mid, first, rest⟩ := bind_eq_ok.mp ran
    unfold finishJob at first
    split at first
    · next jobs ended finished =>
      cases first
      obtain ⟨job, done⟩ := ends _ _ _ finished
      obtain ⟨jobs', rfl, later, left⟩ := ih rest
      refine ⟨jobs', rfl, (JobStore.Ended.of_finished done).trans later, fun other => ?_⟩
      rw [left, done.records]
      by_cases here : id = other
      · simp [here]
      · simp [here, Ne.symm here]
    · cases first

/-- The jobs of `service` that ran have ended, and no other. -/
def EndsRunning (jobs : JobStore) (service : String) (jobs' : JobStore) : Prop :=
  ∀ id job, jobs'.get id = some job ↔
    jobs.get id = some job ∧ ¬ (job.service = some service ∧ job.state = .running)

theorem endRunningJobs_ok
    (ends : ∀ jobs id out, finish jobs id = .ok out → ∃ job, JobStore.Finished jobs id out.1 job)
    (ran : w.endRunningJobs service finish = .ok next) :
    ∃ jobs, next = { w with jobs } ∧ w.jobs.Ended jobs ∧
      (w.jobs.Indexed → EndsRunning w.jobs service jobs) := by
  obtain ⟨ids, running, ended⟩ := bind_eq_ok.mp ran
  obtain ⟨jobs, rfl, done, left⟩ := finishJobs_ok ends ended
  refine ⟨jobs, rfl, done, fun idx id job => ?_⟩
  have mem : ∀ {job}, w.jobs.get id = some job →
      (id ∈ ids ↔ job.service = some service ∧ job.state = .running) := by
    intro job known
    rw [activeJobsInState_ok running, mem_filter, idx.mem_active]
    simp [known]
  rw [left]
  by_cases listed : id ∈ ids
  · rw [if_pos listed]
    exact iff_of_false nofun fun ⟨known, spared⟩ => spared ((mem known).mp listed)
  · rw [if_neg listed]
    exact ⟨fun known => ⟨known, fun ran => listed ((mem known).mpr ran)⟩, And.left⟩

/-- What a post-kill deadline makes of its service. -/
inductive PostKilled (before : ServiceTable) (service : String) : ServiceTable → Prop
  | leaked (entry : ServiceEntry) (runtime : ServiceRuntimeSnapshot)
      (found : before.get service = some entry) (abandoned : entry.runtime.state = .abandoned)
      (same : runtime.state = .abandoned) :
      PostKilled before service (before.set service { entry with runtime })
  | abandoned (entry : ServiceEntry) (runtime : ServiceRuntimeSnapshot)
      (found : before.get service = some entry) (same : runtime.state = entry.runtime.state) :
      PostKilled before service
        ((before.set service { entry with runtime }).moveEntry service { entry with runtime }
          ⟨.abandoned, .processUnkillable⟩)
  | stopped (entry : ServiceEntry) (transition : ServiceTransition)
      (found : before.get service = some entry) (stopping : entry.runtime.state = .stopping)
      (done : serviceDoneForShutdown transition.target = true) :
      PostKilled before service (before.moveEntry service entry transition)
  | left (settled : before.stateOf service ≠ some .stopping) : PostKilled before service before

namespace PostKilled

theorem others (killed : PostKilled before svc after) (away : other ≠ svc) :
    after.get other = before.get other := by
  cases killed with
  | leaked entry runtime got abandoned same => rw [get_set, if_neg (Ne.symm away)]
  | abandoned entry runtime got same =>
    rw [get_moveEntry_ne away, get_set, if_neg (Ne.symm away)]
  | stopped entry tr got stopping done => exact get_moveEntry_ne away
  | left settled => rfl

theorem down_or_left (killed : PostKilled before svc after) :
    Down (after.stateOf svc) ∨ after = before ∧ before.stateOf svc ≠ some .stopping := by
  cases killed with
  | leaked entry runtime got abandoned same =>
    left
    rw [stateOf_of_get (get_set_self _ _ _), same]
    rfl
  | abandoned entry runtime got same => exact .inl (TakenDown.down_moveEntry rfl)
  | stopped entry tr got stopping done => exact .inl (TakenDown.down_moveEntry done)
  | left settled => exact .inr ⟨rfl, settled⟩

theorem settle (killed : PostKilled before svc after) : ServicesSettle before after := by
  intro other
  by_cases here : other = svc
  · subst here
    rcases killed.down_or_left with down | ⟨rfl, -⟩
    · exact .of_down down
    · exact .refl _
  · rw [stateOf_congr (killed.others here)]
    exact .refl _

theorem not_up (killed : PostKilled before svc after)
    (stopped : ¬ Running (before.stateOf svc)) : ¬ Up (after.stateOf svc) := by
  rcases killed.down_or_left with down | ⟨rfl, settled⟩
  · exact fun up => not_down_of_up up down
  · exact not_up_of_stopped stopped settled

theorem kept
    (killed : PostKilled before svc after) (got : before.get svc = some entry)
    (stays : entry.definitionRemoved = false) :
    ∃ entry', after.get svc = some entry' ∧ entry'.definitionRemoved = false := by
  have moved {services : ServiceTable} {entry : ServiceEntry} {tr : ServiceTransition}
      (stays : entry.definitionRemoved = false) :
      ∃ entry', (services.moveEntry svc entry tr).get svc = some entry' ∧
        entry'.definitionRemoved = false := by
    refine ⟨entry.moved tr, ?_, by rw [ServiceEntry.moved_definitionRemoved, stays]⟩
    rw [get_moveEntry, stays]
    rfl
  cases killed with
  | leaked entry' runtime known abandoned same =>
    cases got.symm.trans known
    exact ⟨_, get_set_self _ _ _, stays⟩
  | abandoned entry' runtime known same =>
    cases got.symm.trans known
    exact moved stays
  | stopped entry' tr known stopping done =>
    cases got.symm.trans known
    exact moved stays
  | left settled => exact ⟨entry, got, stays⟩

end PostKilled

theorem processPostKillDeadline_ok (ran : w.processPostKillDeadline answers nowNs deadline = .ok next) :
    ∃ jobs svcs, next = { w with jobs, services := svcs } ∧
      PostKilled w.services deadline.service svcs ∧ w.jobs.Ended jobs ∧
      (w.jobs.Indexed → EndsRunning w.jobs deadline.service jobs) := by
  unfold processPostKillDeadline at ran
  split_ifs at ran
  · obtain ⟨ended, jobsEnded, rest⟩ := bind_eq_ok.mp ran
    obtain ⟨jobs, rfl, done⟩ := endRunningJobs_ok
      (fun _ _ _ ran => (JobStore.abandonJob_ok ran).imp fun _ ended => ended.toFinished) jobsEnded
    obtain ⟨leaked, record, rest⟩ := bind_eq_ok.mp rest
    obtain ⟨entry, runtime, got, state, -, rfl⟩ := recordLeakedCgroup_eq_ok (mapError_eq_ok.mp record)
    dsimp only at got rest
    split_ifs at rest with abandoned
    · cases rest
      rw [stateOf_of_get got, Option.some.injEq] at abandoned
      exact ⟨jobs, _, rfl, .leaked entry runtime got abandoned (state.trans abandoned), done⟩
    · obtain ⟨moved, kept, -, rfl⟩ := moveService_eq_ok.mp rest
      cases (get_set_self _ _ _).symm.trans kept
      exact ⟨jobs, _, rfl, .abandoned entry runtime got state, done⟩
  · obtain ⟨ended, jobsEnded, rest⟩ := bind_eq_ok.mp ran
    obtain ⟨jobs, rfl, done⟩ := endRunningJobs_ok
      (fun _ _ _ ran => (JobStore.failRunningJob_ok ran).imp fun _ ended => ended.toFinished) jobsEnded
    dsimp only at rest
    split_ifs at rest with stopping
    · obtain ⟨entry, got, -, rfl⟩ := moveService_eq_ok.mp rest
      rw [stateOf_of_get got, Option.some.injEq] at stopping
      exact ⟨jobs, _, rfl, .stopped entry _ got stopping (stoppedState_done _), done⟩
    · cases rest
      exact ⟨jobs, _, rfl, .left stopping, done⟩

/-- What the post-kill deadlines in `due` make of the services and of the jobs. -/
structure PostKilledAll (due : List ShutdownPostKillDeadline) (before after : ServiceTable)
    (jobs jobs' : JobStore) : Prop where
  settle : ServicesSettle before after
  ended : jobs.Ended jobs'
  ends : jobs.Indexed → ∀ id job, jobs'.get id = some job ↔ jobs.get id = some job ∧
    ∀ deadline ∈ due, ¬ (job.service = some deadline.service ∧ job.state = .running)
  not_up : ∀ deadline ∈ due, ¬ Running (before.stateOf deadline.service) →
    ¬ Up (after.stateOf deadline.service)
  others : ∀ service, (∀ deadline ∈ due, deadline.service ≠ service) →
    after.get service = before.get service
  kept : ∀ service entry, before.get service = some entry → entry.definitionRemoved = false →
    ∃ entry', after.get service = some entry' ∧ entry'.definitionRemoved = false

theorem processPostKillDeadlines_ok {due : List ShutdownPostKillDeadline}
    (ran : due.foldlM (fun (work : ShutdownWork) => work.processPostKillDeadline answers nowNs) w =
      .ok next) :
    ∃ jobs svcs, next = { w with jobs, services := svcs } ∧
      PostKilledAll due w.services svcs w.jobs jobs := by
  induction due generalizing w with
  | nil =>
    cases ran
    exact ⟨next.jobs, next.services, rfl, .refl _, .refl _, fun _ _ _ => by simp, nofun, fun _ _ => rfl,
      fun _ entry known stays => ⟨entry, known, stays⟩⟩
  | cons deadline due ih =>
    rw [foldlM_cons] at ran
    obtain ⟨mid, first, rest⟩ := bind_eq_ok.mp ran
    obtain ⟨jobs, svcs, rfl, killed, ended, ends⟩ := processPostKillDeadline_ok first
    obtain ⟨jobs', services', rfl, later⟩ := ih rest
    refine ⟨jobs', services', rfl, killed.settle.trans later.settle, ended.trans later.ended, ?_,
      ?_, ?_, fun service entry known stays => ?_⟩
    · intro idx id job
      rw [later.ends (ended.indexed idx), ends idx, forall_mem_cons, and_assoc]
    · intro d mem stopped
      rcases mem_cons.mp mem with rfl | mem
      · exact (later.settle _).notUp (killed.not_up stopped)
      · exact later.not_up d mem ((killed.settle d.service).stopped stopped)
    · intro service away
      rw [later.others service fun d mem => away d (mem_cons_of_mem deadline mem),
        killed.others (Ne.symm (away deadline (mem_cons_self ..)))]
    · by_cases here : service = deadline.service
      · subst here
        obtain ⟨entry', known', stays'⟩ := killed.kept known stays
        exact later.kept _ entry' known' stays'
      · exact later.kept service entry ((killed.others here).trans known) stays

theorem processDuePostKillDeadlines_ok {out : ShutdownWork × ℕ}
    (got : w.shutdown = some r) (ran : w.processDuePostKillDeadlines answers nowNs = .ok out) :
    ∃ jobs svcs, out.1 = { w with
        jobs, services := svcs
        shutdown := some (r.afterPostKills nowNs) } ∧
      PostKilledAll (r.duePostKills nowNs) w.services svcs w.jobs jobs ∧
      out.2 = (r.duePostKills nowNs).length := by
  unfold processDuePostKillDeadlines at ran
  rw [got] at ran
  dsimp only at ran
  rw [partition_eq_filter_filter] at ran
  obtain ⟨looked, look, last⟩ := bind_eq_ok.mp ran
  cases last
  obtain ⟨jobs, svcs, rfl, killed⟩ := processPostKillDeadlines_ok look
  exact ⟨jobs, svcs, rfl, killed, rfl⟩

end ShutdownWork

end Peinit
