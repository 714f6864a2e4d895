import Peinit.Boot.Closure

/-!
# What the planner decides

The planner blocks exactly the services `Blocked` says, and orders the rest of the closure. With the
cycles removed first, the loop of the final ordering ends in the first round.
-/

namespace Peinit.Phase2

open List

variable {service : String} {byName : ServiceMap} {order : List String} {perr : String → Option String}
  {mode : BootMode} {svcs defs : List ServiceDefinition} {graph : Phase2BootGraph}
  {count now slots atNs : ℕ} {ids next : IdAllocators} {plan : BootPlan} {blocked : BlockedServices}

section Decide

variable {incl : OrdSet String}

/-- `blocked` and `order` are what can and cannot be started of the closure. -/
structure Decided (parseError : String → Option String) (byName : ServiceMap)
    (included : OrdSet String) (order : List String) (blocked : BlockedServices) : Prop where
  explained : Explained (Ground parseError byName included) blocked
  exactly : ∀ service, service ∈ blocked ↔ Blocked parseError byName included service
  cycles : ∀ service, TakenForCycle byName included service → FailsForCycle blocked service
  ordered : dependencyOrder byName (startableServices included blocked) = .ok order

theorem mem_startableServices :
    service ∈ startableServices incl blocked ↔ service ∈ incl ∧ service ∉ blocked := by
  rw [startableServices, OrdSet.mem_filter, Bool.not_eq_true', ← Bool.not_eq_true]
  rfl

theorem exists_order (cycles : ∀ service, TakenForCycle byName incl service → service ∈ blocked) :
    ∃ order, dependencyOrder byName (startableServices incl blocked) = .ok order := by
  refine depthOrder_of_acyclic (not_onCycle_of_left _ (Nat.lt_succ_self _)
    (fun service mem => (mem_startableServices.mp mem).1) fun service mem cycle removed here => ?_)
  exact (mem_startableServices.mp mem).2
    (cycles service ((mem_removeCycles _ (Nat.lt_succ_self _) service).mp ⟨cycle, removed, here⟩))

theorem FailsForCycle.mem (fails : FailsForCycle blocked service) : service ∈ blocked := by
  obtain ⟨draft, -, got, -⟩ := fails
  rw [Std.ExtTreeMap.mem_iff_isSome_getElem?, got]
  rfl

/-- Something is wrong with `service` itself. -/
def Faulty (parseError : String → Option String) (byName : ServiceMap) (included : OrdSet String)
    (service : String) : Prop :=
  (service ∈ included ∧ LacksDependency byName service) ∨
    (∃ target, ConflictInBoot byName included service target) ∨
    (∃ definition, byName[service]? = some definition ∧ InvalidTimer parseError definition) ∨
    (service ∈ included ∧ ∃ definition, byName[service]? = some definition ∧
      InvalidHealthCheck definition) ∨
    TakenForCycle byName included service

theorem decided_startOrder (idx : Indexes byName svcs)
    (explained : Explained (Ground perr byName incl) blocked)
    (cycles : ∀ service, TakenForCycle byName incl service → FailsForCycle blocked service)
    (faulty : ∀ service, Faulty perr byName incl service → service ∈ blocked) (fuel : ℕ) :
    Decided perr byName incl (startOrder byName incl (fuel + 1) blocked).1
      (startOrder byName incl (fuel + 1) blocked).2 := by
  have spread : ∀ service, TakenForCycle byName incl service →
      FailsForCycle (propagateBlocked byName incl blocked) service :=
    fun service taken => (cycles service taken).propagateBlocked idx
  obtain ⟨order, ordered⟩ := exists_order fun service taken => (spread service taken).mem
  have last : startOrder byName incl (fuel + 1) blocked =
      (order, propagateBlocked byName incl blocked) := by
    rw [startOrder, ordered]
  rw [last]
  have settled : ∀ service ∈ incl,
      SettledAt byName (propagateBlocked byName incl blocked) service :=
    (propagateBlocked_spec idx (fun _ => True) (fun _ _ _ _ _ _ _ => trivial) trivial).2
  have after : ∀ service, Faulty perr byName incl service →
      service ∈ propagateBlocked byName incl blocked :=
    fun service here => subset_propagateBlocked idx service (faulty service here)
  refine ⟨explained_propagateBlocked idx explained, fun service => ⟨fun mem =>
    (explained_propagateBlocked idx explained).isBlocked mem, fun unstartable => ?_⟩, spread, ordered⟩
  induction unstartable with
  | unavailable inside depends lacks => exact after _ (.inl ⟨inside, _, depends, lacks⟩)
  | conflict conflict => exact after _ (.inr (.inl ⟨_, conflict⟩))
  | timer got invalid => exact after _ (.inr (.inr (.inl ⟨_, got, invalid⟩)))
  | healthCheck inside got invalid =>
    exact after _ (.inr (.inr (.inr (.inl ⟨inside, _, got, invalid⟩))))
  | cycle taken => exact (spread _ taken).mem
  | depends inside depends _ below =>
    exact (settled _ inside).resolve_right fun free => free _ depends below

theorem decided (perr : String → Option String) (mode : BootMode) (idx : Indexes byName svcs) :
    let closure := collectBootClosure mode byName svcs
    let out := startOrderAfterValidation byName closure.included perr
      (blockUnresolvableConflicts byName closure.included closure.blocked)
    Decided perr byName closure.included out.1 out.2 := by
  intro closure out
  have first := explained_blockInvalidHealthChecks (explained_blockInvalidTimerSchedules idx
    (explained_blockUnresolvableConflicts idx (explained_collectBootClosure mode idx perr)))
  refine decided_startOrder idx (explained_blockDependencyCycles first)
    (fun service taken => failsForCycle_blockDependencyCycles first taken) (fun service faulty => ?_) _
  rw [mem_blockDependencyCycles, mem_blockInvalidHealthChecks, mem_blockInvalidTimerSchedules idx,
    mem_blockUnresolvableConflicts idx]
  rcases faulty with ⟨inside, lacking⟩ | conflict | timer | check | taken
  · exact .inl (.inl (.inl (.inl (blocked_of_lacksDependency idx inside lacking))))
  · exact .inl (.inl (.inl (.inr conflict)))
  · exact .inl (.inl (.inr timer))
  · exact .inl (.inr check)
  · exact .inr taken

namespace Decided

variable {svc : String}

theorem mem_order (decided : Decided perr byName incl order blocked) :
    svc ∈ order ↔ svc ∈ incl ∧ ¬ Blocked perr byName incl svc := by
  rw [mem_dependencyStartOrder decided.ordered, mem_startableServices, decided.exactly]

theorem dependenciesFirst (decided : Decided perr byName incl order blocked) :
    DependenciesFirst (startableServices incl blocked).contains (orderTargets byName) order :=
  (depthOrder_eq_ok decided.ordered).1

end Decided

end Decide

/-! ## The graph -/

theorem names_of_startable {startable : List StartableService}
    (mapped : order.mapM (startableService byName) = .ok startable) :
    startable.map (·.name) = order := by
  induction order generalizing startable with
  | nil =>
    cases mapped
    rfl
  | cons service order ih =>
    rw [mapM_cons] at mapped
    obtain ⟨first, named, rest⟩ := bind_eq_ok.mp mapped
    obtain ⟨later, mappedLater, ⟨⟩⟩ := bind_eq_ok.mp rest
    rw [map_cons, ih mappedLater]
    unfold startableService at named
    split at named
    · cases named
    · cases named
      rfl

theorem exists_startable (known : ∀ service ∈ order, ∃ defn, byName[service]? = some defn) :
    ∃ startable, order.mapM (startableService byName) = .ok startable := by
  induction order with
  | nil => exact ⟨[], rfl⟩
  | cons service order ih =>
    obtain ⟨defn, got⟩ := known service (by simp)
    obtain ⟨later, mapped⟩ := ih fun other mem => known other (by simp [mem])
    refine ⟨⟨service, if defn.hasBootTrigger then .explicitStart else .dependencyStart⟩ :: later, ?_⟩
    rw [mapM_cons, mapped, startableService, got]
    rfl

theorem buildPhase2BootGraph_eq_ok (built : buildPhase2BootGraph perr mode svcs = .ok graph) :
    ∃ byName order blocked, serviceMap svcs = .ok byName ∧
      Decided perr byName (collectBootClosure mode byName svcs).included order blocked ∧
      graph.orderedStartable.map (·.name) = order ∧ graph.blocked = blocked.values := by
  obtain ⟨byName, idx, rest⟩ := bind_eq_ok.mp built
  have decision := decided perr mode (indexes_of_serviceMap idx)
  obtain ⟨startable, mapped, ⟨⟩⟩ := bind_eq_ok.mp rest
  exact ⟨byName, _, _, idx, decision, names_of_startable mapped, rfl⟩

theorem exists_phase2BootGraph (perr : String → Option String) (mode : BootMode)
    (idx : serviceMap svcs = .ok byName) :
    ∃ graph, buildPhase2BootGraph perr mode svcs = .ok graph := by
  have decision := decided perr mode (indexes_of_serviceMap idx)
  obtain ⟨startable, mapped⟩ := exists_startable fun service mem =>
    ((mem_included (indexes_of_serviceMap idx)).mp (decision.mem_order.mp mem).1).known
      (bootRoots_known (indexes_of_serviceMap idx))
  refine ⟨⟨startable, _⟩, bind_eq_ok.mpr ⟨byName, idx, bind_eq_ok.mpr ⟨startable, mapped, rfl⟩⟩⟩

/-! ## The plan -/

theorem length_mapM_range {ε α : Type} {f : ℕ → Except ε α} {indices : List ℕ} {out : List α}
    (mapped : indices.mapM f = .ok out) : out.length = indices.length := by
  induction indices generalizing out with
  | nil =>
    cases mapped
    rfl
  | cons index indices ih =>
    rw [mapM_cons] at mapped
    obtain ⟨first, -, rest⟩ := bind_eq_ok.mp mapped
    obtain ⟨later, mappedLater, ⟨⟩⟩ := bind_eq_ok.mp rest
    rw [length_cons, length_cons, ih mappedLater]

theorem length_allocateBatch {T : Type} {wrap : UuidV7 → T} {nextSequence : ℕ} {out : List T × ℕ}
    (allocated : allocateBatch wrap nextSequence count now = .ok out) : out.1.length = count := by
  unfold allocateBatch at allocated
  split_ifs at allocated with none full
  · cases allocated
    exact none.symm
  · obtain ⟨uuids, mapped, ⟨⟩⟩ := bind_eq_ok.mp allocated
    rw [length_map, length_mapM_range mapped, length_range]

/-- What is recorded for a blocked service of the plan. -/
def PlannedBlock.draft (block : PlannedBlock) : BlockedServiceDraft :=
  ⟨block.service, block.reason, block.additionalReasons⟩

theorem numberPlan_eq_ok {downgrade : List SafeModeDowngrade}
    (numbered : numberPlan mode downgrade graph slots atNs ids = .ok (plan, next)) :
    plan.mode = mode ∧ plan.safeModeDowngrade = downgrade ∧
      plan.starts.map (·.service) = graph.orderedStartable.map (·.name) ∧
      plan.blocked.map (·.draft) = graph.blocked := by
  obtain ⟨⟨jobIds, nextJobs⟩, jobs, numbered⟩ := bind_eq_ok.mp numbered
  obtain ⟨⟨operationIds, nextOperations⟩, operations, ⟨⟩⟩ := bind_eq_ok.mp numbered
  have enoughJobs : jobIds.length = graph.orderedStartable.length := by
    obtain ⟨batch, allocated, ⟨⟩⟩ := map_eq_ok.mp (mapError_eq_ok.mp jobs)
    exact length_allocateBatch allocated
  have enoughOperations : operationIds.length =
      graph.orderedStartable.length + graph.blocked.length := by
    obtain ⟨batch, allocated, ⟨⟩⟩ := map_eq_ok.mp (mapError_eq_ok.mp operations)
    exact length_allocateBatch allocated
  refine ⟨rfl, rfl, ?_, ?_⟩
  · calc _ = (((graph.orderedStartable.zip operationIds).zip jobIds).map Prod.fst).map
            (fun numbered => numbered.1.name) := by rw [map_map, map_map]; rfl
      _ = ((graph.orderedStartable.zip operationIds).map Prod.fst).map (·.name) := by
          rw [map_fst_zip (by rw [length_zip]; omega), map_map]
          rfl
      _ = graph.orderedStartable.map (·.name) := by rw [map_fst_zip (by omega)]
  · calc _ = (graph.blocked.zip (operationIds.drop graph.orderedStartable.length)).map Prod.fst := by
            rw [map_map]
            rfl
      _ = graph.blocked := map_fst_zip (by rw [length_drop]; omega)

theorem preparePhase2BootPlan_eq_ok (planned : preparePhase2BootPlan perr mode defs slots atNs ids =
      .ok (plan, next)) (boots : mode ≠ .recovery) :
    ∃ graph, buildPhase2BootGraph perr plan.mode (synthesiseRoleDependencies defs) =
        .ok graph ∧
      downgradeFindings mode (synthesiseRoleDependencies defs) = .ok plan.safeModeDowngrade ∧
      plan.mode = (if plan.safeModeDowngrade.isEmpty then mode else .safe) ∧
      plan.starts.map (·.service) = graph.orderedStartable.map (·.name) ∧
      plan.blocked.map (·.draft) = graph.blocked := by
  unfold preparePhase2BootPlan at planned
  split_ifs at planned with none_
  obtain ⟨downgrade, findings, planned⟩ := bind_eq_ok.mp planned
  obtain ⟨graph, built, planned⟩ := bind_eq_ok.mp planned
  obtain ⟨mode_, rfl, starts, blocked⟩ := numberPlan_eq_ok planned
  exact ⟨graph, mode_ ▸ built, findings, mode_, starts, blocked⟩

namespace BootPlan

def startNames (plan : BootPlan) : List String := plan.starts.map (·.service)

def blockedNames (plan : BootPlan) : List String := plan.blocked.map (·.service)

end BootPlan

theorem plan_decided (planned : preparePhase2BootPlan perr mode defs slots atNs ids =
      .ok (plan, next)) (boots : mode ≠ .recovery) :
    ∃ byName blocked, serviceMap (synthesiseRoleDependencies defs) = .ok byName ∧
      Decided perr byName
        (collectBootClosure plan.mode byName (synthesiseRoleDependencies defs)).included
        plan.startNames blocked ∧
      plan.blocked.map (·.draft) = blocked.values := by
  obtain ⟨graph, built, -, -, starts, blocks⟩ := preparePhase2BootPlan_eq_ok planned boots
  obtain ⟨byName, order, blocked, mapped, decided, names, drafts⟩ := buildPhase2BootGraph_eq_ok built
  obtain rfl : plan.startNames = order := starts.trans names
  exact ⟨byName, blocked, mapped, decided, blocks.trans drafts⟩

theorem plan_mode_ne_recovery (planned : preparePhase2BootPlan perr mode defs slots atNs ids =
      .ok (plan, next)) (boots : mode ≠ .recovery) : plan.mode ≠ .recovery := by
  obtain ⟨-, -, -, effective, -⟩ := preparePhase2BootPlan_eq_ok planned boots
  rw [effective]
  split_ifs
  · exact boots
  · exact nofun

section Drafts

variable {P : String → BlockedReason → Prop}

theorem mem_planned_drafts (explained : Explained P blocked)
    (drafts : plan.blocked.map (·.draft) = blocked.values) {draft : BlockedServiceDraft} :
    (∃ block ∈ plan.blocked, block.draft = draft) ↔ blocked[draft.service]? = some draft := by
  rw [← mem_map, drafts, OrdMap.mem_values]
  constructor
  · rintro ⟨service, got⟩
    rwa [(explained service draft got).named]
  · exact fun got => ⟨_, got⟩

theorem mem_blockedNames (explained : Explained P blocked)
    (drafts : plan.blocked.map (·.draft) = blocked.values) :
    service ∈ plan.blockedNames ↔ service ∈ blocked := by
  rw [Std.ExtTreeMap.mem_iff_isSome_getElem?, Option.isSome_iff_exists]
  constructor
  · intro mem
    obtain ⟨block, here, rfl⟩ := mem_map.mp mem
    exact ⟨block.draft, (mem_planned_drafts explained drafts).mp ⟨block, here, rfl⟩⟩
  · rintro ⟨draft, got⟩
    obtain rfl := (explained service draft got).named
    obtain ⟨block, mem, rfl⟩ := (mem_planned_drafts explained drafts).mpr got
    exact mem_map.mpr ⟨block, mem, rfl⟩

end Drafts

end Peinit.Phase2
