import Peinit.Lib.DepthOrder
import Peinit.Service.Validate
import Peinit.StartPlan.Closure

/-!
# Planning a start

A plan starts what the closure of the requested service can start, dependencies first. A service is
started as a dependency only from inactive, or left to the operation that is starting it; so one that
has failed, is stopping or was abandoned is planned and then refused.
-/

namespace Peinit

variable {closure : StartClosure} {service requested : String} {perr : String → Option String}
  {svcs : ServiceTable} {start : PlannedStart}

inductive OnDemandStartPlanError where
  | unknownService (service : String)
  | definitionRemoved (service : String)
  | validation (findings : List ServiceGraphFinding)
  | cycle (services : List String)
  deriving DecidableEq

/-- The startable services, each behind those it is ordered after; or a cycle among them. -/
def dependencyStartOrder (startable : OrdSet String) (dependenciesFor : String → List String) :
    Except (List String) (List String) :=
  startable.toList.foldlM (visitOrder startable.contains dependenciesFor (startable.size + 1) []) []

def dependencyOrder (startable : OrdSet String) (services : ServiceTable) :
    Except OnDemandStartPlanError (List String) :=
  (dependencyStartOrder startable fun service =>
    ((services.definition service).map startOrderDependencyTargets).getD []).mapError .cycle

def plannedStart (requested : String) (requestedOperationSource : OperationSource)
    (requestedTransitionCause : TransitionCause) (service : String) : PlannedStart :=
  if service = requested then ⟨service, requestedOperationSource, requestedTransitionCause⟩
  else ⟨service, .dependencyPropagation, .dependencyStart⟩

/-- The findings that refuse an administrator's start. -/
def refusesStart : ServiceGraphFinding → Bool
  | .invalidHealthCheckRestartWindow .. | .unschedulableHealthCheck .. | .invalidTimerSchedule .. => true
  | _ => false

/-- Only an administrator's start is refused for an invalid definition among those it activates. -/
def checkStartable (parseError : String → Option String) (services : ServiceTable)
    (requestedOperationSource : OperationSource) (startable : OrdSet String) :
    Except OnDemandStartPlanError Unit :=
  if requestedOperationSource = .admin then
    match validateServiceGraph parseError (startable.toList.filterMap services.definition) with
    | .ok _ => .ok ()
    | .error findings =>
      if (findings.filter refusesStart).isEmpty then .ok ()
      else .error (.validation (findings.filter refusesStart))
  else .ok ()

/-- No starts if the requested service itself is blocked. -/
def plannedStarts (parseError : String → Option String) (services : ServiceTable) (service : String)
    (requestedOperationSource : OperationSource) (requestedTransitionCause : TransitionCause)
    (closure : StartClosure) : Except OnDemandStartPlanError (List PlannedStart) :=
  if service ∈ closure.blocked then .ok []
  else do
    checkStartable parseError services requestedOperationSource closure.startableServices
    let order ← dependencyOrder closure.startableServices services
    return order.map (plannedStart service requestedOperationSource requestedTransitionCause)

def planStart (parseError : String → Option String) (services : ServiceTable) (service : String)
    (requestedOperationSource : OperationSource) (requestedTransitionCause : TransitionCause) :
    Except OnDemandStartPlanError OnDemandStartPlan :=
  match services.get service with
  | none => .error (.unknownService service)
  | some target =>
    if target.definitionRemoved then .error (.definitionRemoved service)
    else do
      let closure := collectStartClosure services service
      let starts ← plannedStarts parseError services service requestedOperationSource
        requestedTransitionCause closure
      return { requested := service, requestedOperationSource, requestedTransitionCause, starts,
               blocked := closure.blocked.values }

def planOnDemandStart (parseError : String → Option String) (services : ServiceTable)
    (service : String) : Except OnDemandStartPlanError OnDemandStartPlan :=
  planStart parseError services service .admin .explicitStart

/-! ## What is planned -/

theorem mem_startableServices :
    service ∈ closure.startableServices ↔ service ∈ closure.included ∧ service ∉ closure.blocked := by
  rw [StartClosure.startableServices, OrdSet.mem_filter, Bool.not_eq_true', ← Bool.not_eq_true]
  rfl

theorem mem_dependencyStartOrder {startable : OrdSet String} {dependenciesFor : String → List String}
    {order : List String} (ordered : dependencyStartOrder startable dependenciesFor = .ok order)
    : service ∈ order ↔ service ∈ startable := by
  have visits : ∀ service ∈ startable.toList, ∀ order out,
      visitOrder startable.contains dependenciesFor (startable.size + 1) [] order service = .ok out →
      Visited startable.contains order ([service].filter (startable.contains ·)) out := by
    intro service mem order out visited
    have inside : startable.contains service = true := Std.ExtTreeSet.mem_toList.mp mem
    rw [List.filter_cons_of_pos inside]
    exact visitOrder_ok _ [] order service out inside visited
  have visited := visited_foldlM _ visits [] order ordered
  constructor
  · intro mem
    exact (visited.inside service mem).resolve_left (by simp)
  · intro startable_
    exact visited.lists service (List.mem_filter.mpr ⟨Std.ExtTreeSet.mem_toList.mpr startable_, startable_⟩)

theorem mem_plannedStarts {source : OperationSource} {cause : TransitionCause}
    {starts : List PlannedStart}
    (planned : plannedStarts perr svcs service source cause closure = .ok starts)
    (some_ : starts ≠ []) : start ∈ starts ↔
      ∃ other, (other ∈ closure.included ∧ other ∉ closure.blocked) ∧
        start = plannedStart service source cause other := by
  unfold plannedStarts at planned
  split_ifs at planned with blocked
  · cases planned
    exact absurd rfl some_
  · obtain ⟨_, -, rest⟩ := bind_eq_ok.mp planned
    obtain ⟨order, ordered, last⟩ := bind_eq_ok.mp rest
    cases last
    unfold dependencyOrder at ordered
    rcases sorted : dependencyStartOrder closure.startableServices (fun service =>
      ((svcs.definition service).map startOrderDependencyTargets).getD []) with cycle | list <;>
      rw [sorted] at ordered <;> cases ordered
    simp only [List.mem_map, mem_dependencyStartOrder sorted, mem_startableServices, eq_comm]

theorem mem_starts {plan : OnDemandStartPlan} (planned : planOnDemandStart perr svcs requested = .ok plan)
    (some_ : plan.starts ≠ []) :
    start ∈ plan.starts ↔ ∃ service, (Reached svcs requested service ∧
      ¬ Blocked svcs requested service) ∧
      start = plannedStart requested .admin .explicitStart service := by
  unfold planOnDemandStart planStart at planned
  rcases got : svcs.get requested with _ | target <;> rw [got] at planned
  · cases planned
  · dsimp only at planned
    split_ifs at planned
    obtain ⟨starts, mem, last⟩ := bind_eq_ok.mp planned
    cases last
    rw [mem_plannedStarts mem some_]
    exact exists_congr fun _ => and_congr_left' (and_congr (mem_includedFrom got)
      (not_congr (mem_collectStartClosure_blocked got)))

/-! ## Which dependency starts are accepted -/

theorem Reached.runtime (reached : Reached svcs requested service) (other : service ≠ requested) :
    ∃ runtime, svcs.runtime service = some runtime ∧ runtime.state.satisfiesDependents = false := by
  rcases Relation.ReflTransGen.cases_tail reached with same | ⟨_, -, pull⟩
  · exact absurd same other
  · obtain ⟨-, -, -, -, entry, got, unsatisfying⟩ := pull
    exact ⟨entry.runtime, by rw [ServiceTable.runtime, got, Option.map_some], unsatisfying⟩

/-- The states in which a service that does not satisfy its dependents is not started as a dependency,
and is not being started either. -/
def refusesDependencyStart : ServiceState → Bool
  | .failed | .stopping | .abandoned => true
  | _ => false

theorem accepted_iff {state : ServiceState} (unsatisfying : state.satisfiesDependents = false) :
    (state = .starting ∨ state = .backoff ∨ isAllowedTransition state .starting .dependencyStart = true) ↔
    refusesDependencyStart state = false := by
  cases state <;> first | decide | cases unsatisfying

theorem plannedStart_service (requested : String) (source : OperationSource) (cause : TransitionCause)
    (svc : String) : (plannedStart requested source cause svc).service = svc := by
  unfold plannedStart
  split_ifs <;> rfl

theorem plannedStart_of_ne (other : service ≠ requested)
    (source : OperationSource) (cause : TransitionCause) :
    plannedStart requested source cause service = ⟨service, .dependencyPropagation, .dependencyStart⟩ :=
  if_neg other

/-- A plan's dependency starts are all accepted exactly if nothing that starting the requested service
pulls in, and that can be started, has failed, is stopping or has been abandoned. -/
theorem dependencyStarts_accepted_iff (parseError : String → Option String) (services : ServiceTable)
    (requested : String) (plan : OnDemandStartPlan)
    (planned : planOnDemandStart parseError services requested = .ok plan)
    (some_ : plan.starts ≠ []) :
    (∀ start ∈ plan.starts, start.service ≠ requested →
      ∃ runtime, services.runtime start.service = some runtime ∧
        (runtime.state = .starting ∨ runtime.state = .backoff ∨
          isAllowedTransition runtime.state .starting start.transitionCause = true)) ↔
    ∀ service runtime, service ≠ requested → Reached services requested service →
      ¬ Blocked services requested service → services.runtime service = some runtime →
      refusesDependencyStart runtime.state = false := by
  constructor
  · intro accepted service runtime other reached free known
    have listed := (mem_starts planned some_).mpr ⟨service, ⟨reached, free⟩, rfl⟩
    obtain ⟨runtime', known', state⟩ := accepted _ listed (by rwa [plannedStart_service])
    obtain ⟨runtime₂, known₂, unsatisfying⟩ := reached.runtime other
    rw [plannedStart_service, known] at known'
    rw [known] at known₂
    cases known'
    cases known₂
    rw [plannedStart_of_ne other] at state
    exact (accepted_iff unsatisfying).mp state
  · intro good start listed other
    obtain ⟨service, ⟨reached, free⟩, rfl⟩ := (mem_starts planned some_).mp listed
    rw [plannedStart_service] at other ⊢
    obtain ⟨runtime, known, unsatisfying⟩ := reached.runtime other
    rw [plannedStart_of_ne other]
    exact ⟨runtime, known, (accepted_iff unsatisfying).mpr (good service runtime other reached free known)⟩

/-! ## A dependency in each state -/

/-- `app` requires `db`, which is in the state given. -/
def appOnDb (state : ServiceState) : ServiceTable where
  entries := (∅ : OrdMap String ServiceEntry).insert "db"
      { definition := { name := "db" }, runtime := { state } }
    |>.insert "app" { definition := { name := "app", requires := ["db"] }, runtime := {} }

/-- With `db` inactive, the plan starts it first. -/
theorem dependencyStarts_accepted_inactive :
    ∃ plan, planOnDemandStart (fun _ => none) (appOnDb .inactive) "app" = .ok plan ∧
      plan.starts.map (·.service) = ["db", "app"] ∧
      ∀ service runtime, service ≠ "app" → Reached (appOnDb .inactive) "app" service →
        ¬ Blocked (appOnDb .inactive) "app" service →
        (appOnDb .inactive).runtime service = some runtime →
        refusesDependencyStart runtime.state = false := by
  refine Exists.imp (p := fun plan => _ ∧ plan.starts = [⟨"db", .dependencyPropagation, .dependencyStart⟩,
      ⟨"app", .admin, .explicitStart⟩])
    (fun plan ⟨planned, starts⟩ => ⟨planned, by rw [starts]; rfl, ?_⟩) (by decide +kernel)
  obtain ⟨runtime, known, inactive⟩ : ∃ runtime, (appOnDb .inactive).runtime "db" = some runtime ∧
      runtime.state = .inactive := by
    decide +kernel
  refine (dependencyStarts_accepted_iff _ _ "app" plan planned (by rw [starts]; simp)).mp ?_
  intro start listed other
  rw [starts, List.mem_cons, List.mem_singleton] at listed
  obtain rfl | rfl := listed
  · exact ⟨runtime, known, .inr (.inr (by rw [inactive]; rfl))⟩
  · exact absurd rfl other

/-- A failed `db` is planned as a dependency, and the state machine refuses to start it. -/
theorem dependencyStarts_refused_failed :
    (planOnDemandStart (fun _ => none) (appOnDb .failed) "app").toOption.map (·.starts) =
      some [⟨"db", .dependencyPropagation, .dependencyStart⟩, ⟨"app", .admin, .explicitStart⟩] ∧
    ((appOnDb .failed).runtime "app").map (·.state) = some .inactive ∧
    ((appOnDb .failed).runtime "db").map (·.state) = some .failed ∧
    isAllowedTransition .failed .starting .dependencyStart = false := by
  decide +kernel

end Peinit
