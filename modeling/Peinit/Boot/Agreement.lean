import Peinit.Boot.Cycles
import Peinit.Service.Findings

/-!
# The validator and the planner

Definitions that the validator accepts are planned in full, with nothing blocked but a disabled
service. What it reports of the services of the boot the planner blocks, except for masked members of
a cycle.
-/

namespace Peinit.Phase2

open List Std.ExtTreeSet

variable {byName : ServiceMap} {service target svc : String}
  {services defs svcs : List ServiceDefinition} {finding : ServiceGraphFinding}
  {perr : String → Option String} {slots atNs count size : ℕ} {ids : IdAllocators} {names : List String}
  {mode : BootMode}

/-! ## The services by name -/

theorem insertIfNew_of_not_mem (fresh : service ∉ byName) (defn : ServiceDefinition) :
    byName.insertIfNew service defn = byName.insert service defn := by
  apply Std.ExtTreeMap.ext_getElem?
  intro name
  rw [Std.ExtTreeMap.getElem?_insertIfNew, Std.ExtTreeMap.getElem?_insert]
  simp only [fresh, not_false_eq_true, and_true]

theorem foldl_insertIfNew_of_foldlM (svcs : List ServiceDefinition) : ∀ {before after : ServiceMap},
    svcs.foldlM addService before = .ok after →
    svcs.foldl (fun byName defn => byName.insertIfNew defn.name defn) before =
      after := by
  induction svcs with
  | nil =>
    rintro before after ⟨⟩
    rfl
  | cons first svcs ih =>
    intro before after ran
    obtain ⟨mid, inserted, ran⟩ := bind_eq_ok.mp ran
    rw [addService] at inserted
    split_ifs at inserted with known
    cases inserted
    rw [foldl_cons, insertIfNew_of_not_mem known]
    exact ih ran

theorem indexDefinitions_of_serviceMap
    (idx : serviceMap services = .ok byName) : indexDefinitions services = byName :=
  foldl_insertIfNew_of_foldlM services idx

theorem exists_foldlM_addService (svcs : List ServiceDefinition) : ∀ before : ServiceMap,
    (svcs.map (·.name)).Nodup → (∀ defn ∈ svcs, defn.name ∉ before) →
    ∃ after, svcs.foldlM addService before = .ok after := by
  induction svcs with
  | nil => exact fun before _ _ => ⟨before, rfl⟩
  | cons first svcs ih =>
    intro before distinct fresh
    rw [map_cons, nodup_cons] at distinct
    have added : addService before first = .ok (before.insert first.name first) :=
      if_neg (fresh first (by simp))
    obtain ⟨after, ran⟩ := ih (before.insert first.name first) distinct.2 fun defn mem => by
      rw [Std.ExtTreeMap.mem_insert, not_or]
      refine ⟨fun same => distinct.1 ?_, fresh defn (by simp [mem])⟩
      rw [Std.LawfulEqCmp.eq_of_compare same]
      exact mem_map_of_mem mem
    exact ⟨after, by rw [foldlM_cons, added]; exact ran⟩

theorem exists_serviceMap
    (distinct : (services.map (·.name)).Nodup) : ∃ byName, serviceMap services = .ok byName :=
  exists_foldlM_addService services ∅ distinct fun _ _ => Std.ExtTreeMap.not_mem_empty

theorem length_synthesiseRoleDependencies (defs : List ServiceDefinition) :
    (synthesiseRoleDependencies defs).length = defs.length := by
  have resolved : (resolveRoleReferences defs).length = defs.length := by
    unfold resolveRoleReferences
    split_ifs
    · rfl
    · exact length_map _
  unfold synthesiseRoleDependencies
  dsimp only
  split_ifs
  · exact resolved
  · rw [length_map, resolved]

/-! ## Conflicts -/

theorem mem_foldl_sorted (pairs : List (String × String)) (svc target : String) :
    ∀ sorted : OrdMap String (OrdSet String),
      target ∈ (pairs.foldl (fun sorted pair =>
        sorted.insert pair.1 ((sorted.getD pair.1 ∅).insert pair.2)) sorted).getD svc ∅ ↔
      target ∈ sorted.getD svc ∅ ∨ (svc, target) ∈ pairs := by
  induction pairs with
  | nil => simp
  | cons pair pairs ih =>
    intro sorted
    rw [foldl_cons, ih, Std.ExtTreeMap.getD_insert, mem_cons, ← or_assoc]
    refine or_congr_left ?_
    split_ifs with same
    · obtain rfl := Std.LawfulEqCmp.eq_of_compare same
      rw [OrdSet.mem_insert, or_comm]
      refine or_congr_right ⟨?_, ?_⟩
      · rintro rfl
        rfl
      · intro same
        rw [← same]
    · refine (or_iff_left ?_).symm
      rintro rfl
      exact same Std.ReflCmp.compare_self

theorem mem_sortedPairs {pairs : List (String × String)} {pair : String × String} :
    pair ∈ sortedPairs pairs ↔ pair ∈ pairs := by
  obtain ⟨service, target⟩ := pair
  have mem := mem_foldl_sorted pairs service target ∅
  simp only [sortedPairs, mem_flatMap, mem_map]
  constructor
  · rintro ⟨⟨name, targets⟩, here, other, member, same⟩
    cases same
    refine (mem.mp ?_).resolve_left not_mem_empty
    rw [Std.ExtTreeMap.getD_eq_getD_getElem?, (OrdMap.mem_toList _ _ _).mp here]
    exact mem_toList.mp member
  · intro here
    have member := mem.mpr (.inr here)
    rw [Std.ExtTreeMap.getD_eq_getD_getElem?] at member
    cases got : (pairs.foldl (fun sorted pair =>
        sorted.insert pair.1 ((sorted.getD pair.1 ∅).insert pair.2)) ∅ :
          OrdMap String (OrdSet String))[service]? with
    | none =>
      rw [got] at member
      exact absurd member not_mem_empty
    | some targets =>
      rw [got] at member
      exact ⟨(service, targets), (OrdMap.mem_toList _ _ _).mpr got, target, mem_toList.mpr member, rfl⟩

/-- Two services with a boot trigger conflict, whichever of them says so. -/
def ConflictDeclared (byName : ServiceMap) (service target : String) : Prop :=
  ∃ definition other, byName[service]? = some definition ∧ byName[target]? = some other ∧
    definition.hasBootTrigger = true ∧ other.hasBootTrigger = true ∧
    (target ∈ definition.conflicts ∨ service ∈ other.conflicts)

section Conflicts

theorem mem_conflictingBootServices :
    finding ∈ conflictingBootServices byName ↔
      ∃ defn ∈ byName.values, defn.hasBootTrigger = true ∧
        ∃ target ∈ defn.conflicts, byName[target]?.any (·.hasBootTrigger) = true ∧
          finding = if defn.name ≤ target then .conflictingBootServices defn.name target
            else .conflictingBootServices target defn.name := by
  have pairs : conflictingBootServices byName =
      (sortedPairs ((byName.values.filter (·.hasBootTrigger)).flatMap fun defn =>
        (defn.conflicts.filter fun target => byName[target]?.any (·.hasBootTrigger)).map
          fun target => if defn.name ≤ target then (defn.name, target)
            else (target, defn.name))).map
        (fun pair => .conflictingBootServices pair.1 pair.2) := by
    rw [sortedPairs, map_flatMap]
    simp only [map_map]
    rfl
  simp only [pairs, mem_map, mem_sortedPairs, mem_flatMap, mem_filter]
  constructor
  · rintro ⟨_, ⟨defn, ⟨mem, boot⟩, target, ⟨declares, booted⟩, rfl⟩, rfl⟩
    refine ⟨defn, mem, boot, target, declares, booted, ?_⟩
    split_ifs <;> rfl
  · rintro ⟨defn, mem, boot, target, declares, booted, rfl⟩
    refine ⟨_, ⟨defn, ⟨mem, boot⟩, target, ⟨declares, booted⟩, rfl⟩, ?_⟩
    split_ifs <;> rfl

theorem conflictDeclared_of_finding (idx : Indexes byName svcs)
    (got : .conflictingBootServices service target ∈ conflictingBootServices byName) :
    ConflictDeclared byName service target := by
  obtain ⟨defn, mem, boot, other, declares, booted, same⟩ := mem_conflictingBootServices.mp got
  obtain ⟨name, known⟩ := (OrdMap.mem_values _ _).mp mem
  obtain ⟨-, rfl⟩ := (idx _ _).mp known
  obtain ⟨against, known', boot'⟩ := (Option.any_eq_true _ _).mp booted
  split_ifs at same
  · cases same
    exact ⟨defn, against, known, known', boot, boot', .inl declares⟩
  · cases same
    exact ⟨against, defn, known', known, boot', boot, .inr declares⟩

theorem conflictingBootServices_ne_nil
    (conflict : ConflictDeclared byName service target) : conflictingBootServices byName ≠ [] := by
  obtain ⟨defn, other, known, known', boot, boot', declares⟩ := conflict
  rcases declares with declares | declares
  · exact ne_nil_of_mem (mem_conflictingBootServices.mpr ⟨defn,
      (OrdMap.mem_values _ _).mpr ⟨_, known⟩, boot, target, declares, by simp [known', boot'], rfl⟩)
  · exact ne_nil_of_mem (mem_conflictingBootServices.mpr ⟨other,
      (OrdMap.mem_values _ _).mpr ⟨_, known'⟩, boot', service, declares, by simp [known, boot], rfl⟩)

theorem exists_criticalBootConflict (idx : Indexes byName svcs) (incl : OrdSet String) :
    (∃ pair, pair ∈ criticalBootConflicts byName incl) ↔
      ∃ service target, isCriticalService byName service = true ∧
        ConflictInBoot byName incl service target := by
  simp only [criticalBootConflicts, mem_sortedPairs, mem_flatMap, mem_toList]
  constructor
  · rintro ⟨pair, service, inside, mem⟩
    cases got : byName[service]? with
    | none => simp [got] at mem
    | some defn =>
      simp only [got] at mem
      split_ifs at mem with applies
      · obtain ⟨boot, critical⟩ := Bool.and_eq_true_iff.mp applies
        obtain ⟨target, conflicts, -⟩ := mem_map.mp mem
        exact ⟨service, target, by simp [isCriticalService, got, critical],
          (mem_bootConflicts idx inside got boot).mp conflicts⟩
      · cases mem
  · rintro ⟨service, target, critical, conflict⟩
    obtain ⟨inside, -, defn, -, got, -, boot, -⟩ := id conflict
    have critical : isCritical defn = true := by simpa [isCriticalService, got] using critical
    refine ⟨if defn.name ≤ target then (defn.name, target) else (target, defn.name), service, inside, ?_⟩
    simp only [got, boot, critical]
    exact mem_map_of_mem ((mem_bootConflicts idx inside got boot).mpr conflict)

/-- A critical service of the closure is in a conflict, or taken out for a cycle. -/
def Downgrades (byName : ServiceMap) (included : OrdSet String) : Prop :=
  ∃ service, isCriticalService byName service = true ∧
    ((∃ target, ConflictInBoot byName included service target) ∨ TakenForCycle byName included service)

theorem plan_mode_eq_safe_iff {next : IdAllocators} {plan : BootPlan}
    (planned : preparePhase2BootPlan perr .full defs slots atNs ids = .ok (plan, next))
    (idx : serviceMap (synthesiseRoleDependencies defs) = .ok byName) :
    plan.mode = .safe ↔ Downgrades byName (fullClosure byName (synthesiseRoleDependencies defs)) := by
  have conflicts := exists_criticalBootConflict (indexes_of_serviceMap idx)
    (fullClosure byName (synthesiseRoleDependencies defs))
  have cycles := exists_criticalCycle byName (fullClosure byName (synthesiseRoleDependencies defs))
  rw [fullClosure] at conflicts cycles
  rw [plan_mode_of_finding planned (safeModeDowngradeFindings_eq idx)]
  split_ifs with empty
  · rw [List.isEmpty_iff, List.append_eq_nil_iff, List.map_eq_nil_iff, List.map_eq_nil_iff] at empty
    refine ⟨fun full => (by cases full), ?_⟩
    rintro ⟨service, critical, ⟨target, conflict⟩ | taken⟩
    · obtain ⟨pair, mem⟩ := conflicts.mpr ⟨service, target, critical, conflict⟩
      rw [empty.1] at mem
      cases mem
    · obtain ⟨cycle, mem⟩ := cycles.mpr ⟨service, critical, taken⟩
      rw [empty.2] at mem
      cases mem
  · refine ⟨fun _ => ?_, fun _ => rfl⟩
    rw [List.isEmpty_iff, List.append_eq_nil_iff, List.map_eq_nil_iff, List.map_eq_nil_iff,
      not_and_or] at empty
    rcases empty with some_ | some_
    · obtain ⟨service, target, critical, conflict⟩ := conflicts.mp (exists_mem_of_ne_nil _ some_)
      exact ⟨service, critical, .inl ⟨target, conflict⟩⟩
    · obtain ⟨service, critical, taken⟩ := cycles.mp (exists_mem_of_ne_nil _ some_)
      exact ⟨service, critical, .inr taken⟩

end Conflicts

/-! ## A plan is made -/

/-- The allocators can number `count` more operations and jobs. -/
structure IdAllocators.RoomFor (ids : IdAllocators) (count : ℕ) : Prop where
  operationIds : ids.operationIds.nextSequence + count < 2 ^ 64
  jobIds : ids.jobIds.nextSequence + count < 2 ^ 64

theorem exists_numberPlan (mode : BootMode) (downgrade : List SafeModeDowngrade)
    {graph : Phase2BootGraph} (slots : ℕ) (time : atNs < 2 ^ 64)
    (room : ids.RoomFor (graph.orderedStartable.length + graph.blocked.length)) :
    ∃ plan next, numberPlan mode downgrade graph slots atNs ids = .ok (plan, next) := by
  have early : atNs / nanosPerMilli < 2 ^ 48 := by
    unfold nanosPerMilli
    omega
  have jobs := allocateBatch_eq JobId.mk early
    (lt_of_le_of_lt (Nat.add_le_add_left (Nat.le_add_right _ _) _) room.jobIds)
  have operations := allocateBatch_eq OperationId.mk early room.operationIds
  exact ⟨_, _, bind_eq_ok.mpr ⟨_, mapError_eq_ok.mpr (map_eq_ok.mpr ⟨_, jobs, rfl⟩),
    bind_eq_ok.mpr ⟨_, mapError_eq_ok.mpr (map_eq_ok.mpr ⟨_, operations, rfl⟩), rfl⟩⟩⟩

section Count

theorem known_of_mem_included (idx : Indexes byName svcs)
    (inside : service ∈ (collectBootClosure mode byName svcs).included) :
    ∃ defn, byName[service]? = some defn :=
  ((mem_included idx).mp inside).known (bootRoots_known idx)

theorem Blocked.known (idx : Indexes byName svcs)
    (blocked : Blocked perr byName (collectBootClosure mode byName svcs).included service) :
    ∃ defn, byName[service]? = some defn := by
  cases blocked with
  | unavailable inside => exact known_of_mem_included idx inside
  | conflict conflict => exact known_of_mem_included idx conflict.1
  | timer got => exact ⟨_, got⟩
  | healthCheck inside => exact known_of_mem_included idx inside
  | cycle taken => exact known_of_mem_included idx taken.1.mem
  | depends inside => exact known_of_mem_included idx inside

theorem Decided.length_le (idx : Indexes byName svcs) {order : List String} {blocked : BlockedServices}
    (decided : Decided perr byName (collectBootClosure mode byName svcs).included order blocked) :
    order.length + blocked.values.length ≤ svcs.length := by
  have names : blocked.values.length = blocked.keys.length := by
    rw [OrdMap.values, length_map, Std.ExtTreeMap.length_toList, Std.ExtTreeMap.length_keys]
  have distinct : (order ++ blocked.keys).Nodup := by
    refine nodup_append.mpr ⟨decided.dependenciesFirst.nodup, OrdMap.nodup_keys _, ?_⟩
    rintro service ordered _ mem rfl
    exact (decided.mem_order.mp ordered).2 ((decided.exactly service).mp (Std.ExtTreeMap.mem_keys.mp mem))
  have defined : ∀ service ∈ order ++ blocked.keys, service ∈ svcs.map (·.name) := by
    intro service mem
    have known : ∃ defn, byName[service]? = some defn := by
      rcases mem_append.mp mem with ordered | mem
      · exact known_of_mem_included idx (decided.mem_order.mp ordered).1
      · exact Blocked.known idx ((decided.exactly service).mp (Std.ExtTreeMap.mem_keys.mp mem))
    obtain ⟨defn, got⟩ := known
    obtain ⟨member, rfl⟩ := (idx _ _).mp got
    exact mem_map_of_mem member
  have short := (distinct.subperm defined).length_le
  rwa [length_append, length_map, ← names] at short

end Count

theorem exists_plan (perr : String → Option String)
    (idx : serviceMap (synthesiseRoleDependencies defs) = .ok byName)
    (positive : 0 < slots)
    (time : atNs < 2 ^ 64) (room : ids.RoomFor defs.length) :
    ∃ plan next, preparePhase2BootPlan perr .full defs slots atNs ids = .ok (plan, next) := by
  obtain ⟨findings, got⟩ : ∃ findings,
      downgradeFindings .full (synthesiseRoleDependencies defs) = .ok findings :=
    ⟨_, safeModeDowngradeFindings_eq idx⟩
  obtain ⟨graph, built⟩ := exists_phase2BootGraph perr (if findings.isEmpty then .full else .safe) idx
  obtain ⟨byName', order, blocked, mapped, decided, names, drafts⟩ := buildPhase2BootGraph_eq_ok built
  have short : graph.orderedStartable.length + graph.blocked.length ≤ defs.length := by
    have short := decided.length_le (indexes_of_serviceMap mapped)
    rwa [← names, ← drafts, length_map, length_synthesiseRoleDependencies] at short
  have enough : ids.RoomFor (graph.orderedStartable.length + graph.blocked.length) :=
    ⟨lt_of_le_of_lt (Nat.add_le_add_left short _) room.operationIds,
      lt_of_le_of_lt (Nat.add_le_add_left short _) room.jobIds⟩
  obtain ⟨plan, next, numbered⟩ := exists_numberPlan (if findings.isEmpty then .full else .safe)
    findings slots time enough
  refine ⟨plan, next, ?_⟩
  rw [preparePhase2BootPlan, if_neg positive.ne']
  exact bind_eq_ok.mpr ⟨findings, got, bind_eq_ok.mpr ⟨graph, built, numbered⟩⟩

/-! ## Definitions that are accepted -/

/-- The validator finds nothing wrong with the definitions. -/
structure Clean (parseError : String → Option String) (byName : ServiceMap) : Prop where
  known : ∀ service dependency, HardDependsBy byName service dependency →
    ∃ target, byName[dependency.target]? = some target
  conflictFree : ∀ service target, ¬ ConflictDeclared byName service target
  timers : ∀ (service : String) (definition : ServiceDefinition),
    byName[service]? = some definition → ¬ InvalidTimer parseError definition
  healthChecks : ∀ (service : String) (definition : ServiceDefinition),
    byName[service]? = some definition → ¬ InvalidHealthCheck definition
  acyclic : ∀ service, ¬ Relation.TransGen (OrderedAfter byName) service service

theorem exists_healthCheckFinding {defn : ServiceDefinition}
    (mem : defn ∈ services) (invalid : InvalidHealthCheck defn) :
    healthCheckRestartWindowFindings services ++ unschedulableHealthCheckFindings services ≠ [] := by
  obtain ⟨declared, type | window⟩ := invalid
  · refine append_ne_nil_of_right_ne_nil _ (ne_nil_of_mem (mem_map_of_mem (mem_filter.mpr ⟨mem, ?_⟩)))
    simp [healthCheckIsScheduled, declared, type]
  · by_cases type : defn.serviceType = .simple
    · refine append_ne_nil_of_left_ne_nil (ne_nil_of_mem (mem_map_of_mem (mem_filter.mpr ⟨mem, ?_⟩))) _
      simp [healthCheckIsScheduled, declared, type, window]
    · refine append_ne_nil_of_right_ne_nil _ (ne_nil_of_mem (mem_map_of_mem (mem_filter.mpr ⟨mem, ?_⟩)))
      simp [healthCheckIsScheduled, declared, type]

theorem clean_of_validateServiceGraph (accepted : validateServiceGraph perr defs = .ok size) :
    ∃ byName, serviceMap (synthesiseRoleDependencies defs) = .ok byName ∧
      Clean perr byName := by
  have acyclic := acyclic_of_validateServiceGraph accepted
  have none_ := findings_of_accepted accepted
  simp only [serviceGraphFindings, append_eq_nil_iff] at none_
  obtain ⟨⟨⟨⟨⟨⟨⟨-, duplicates⟩, missing⟩, conflicts⟩, windows⟩, types⟩, timers⟩, -⟩ := none_
  obtain ⟨byName, idx⟩ := exists_serviceMap (duplicateFindings_eq_nil.mp duplicates)
  rw [indexDefinitions_of_serviceMap idx] at missing conflicts
  rw [validatedDefinitions, indexDefinitions_of_serviceMap idx] at acyclic
  have indexes := indexes_of_serviceMap idx
  refine ⟨byName, idx, ?_, fun _ _ conflict => conflictingBootServices_ne_nil conflict conflicts,
    fun service defn got invalid => ?_, fun service defn got invalid => ?_, acyclic⟩
  · rintro service dep ⟨defn, got, depends⟩
    by_contra absent
    have unknown : dep.target ∉ byName := by
      rw [Std.ExtTreeMap.mem_iff_isSome_getElem?, Option.isSome_iff_exists]
      exact absent
    exact ne_nil_of_mem (mem_missingHardDependencies.mpr ⟨defn, ((indexes _ _).mp got).1,
      dep, depends, unknown, rfl⟩) missing
  · obtain ⟨sched, message, mem, failed⟩ := invalid
    exact ne_nil_of_mem (mem_invalidTimerScheduleFindings.mpr ⟨defn,
      ((indexes _ _).mp got).1, sched, message, mem, failed, rfl⟩) timers
  · exact exists_healthCheckFinding ((indexes _ _).mp got).1 invalid (by rw [windows, types]; rfl)

/-- A chain of hard dependencies leads from `service` to one that is disabled. -/
inductive NeedsDisabled (byName : ServiceMap) : String → Prop
  | disabled {service : String} {dependency : ServiceDependency} {target : ServiceDefinition} :
      HardDependsBy byName service dependency → byName[dependency.target]? = some target →
      target.disabled = true → NeedsDisabled byName service
  | depends {service : String} {dependency : ServiceDependency} :
      HardDependsBy byName service dependency → NeedsDisabled byName dependency.target →
      NeedsDisabled byName service

/-- The service is blocked for a dependency that is disabled, or that needs one that is. -/
def DisabledGround (byName : ServiceMap) (service : String) : BlockedReason → Prop
  | .hardDependencyUnavailable target kind =>
      (∃ dependency, HardDependsBy byName service dependency ∧ dependency.target = target ∧
        dependency.kind = kind) ∧
      ∃ definition : ServiceDefinition, byName[target]? = some definition ∧ definition.disabled = true
  | .hardDependencyBlocked target kind =>
      (∃ dependency, HardDependsBy byName service dependency ∧ dependency.target = target ∧
        dependency.kind = kind) ∧ NeedsDisabled byName target
  | _ => False

section Clean

theorem orderedAfter_of_dependsWithin {incl : OrdSet String}
    (known : ∀ other ∈ incl, ∃ defn, byName[other]? = some defn)
    (edge : DependsWithin incl.contains (orderTargets byName) svc target) :
    OrderedAfter byName svc target := by
  obtain ⟨-, inside, mem⟩ := edge
  unfold orderTargets at mem
  cases got : byName[svc]? with
  | none => simp [got] at mem
  | some defn =>
    rw [got] at mem
    refine ⟨defn, got, mem_eraseDups.mpr (mem_filter.mpr ⟨mem, ?_⟩)⟩
    obtain ⟨other, known⟩ := known target inside
    rw [Std.ExtTreeMap.contains_iff_mem, Std.ExtTreeMap.mem_iff_isSome_getElem?, known]
    rfl

namespace Clean

theorem not_onCycle (clean : Clean perr byName) (idx : Indexes byName svcs) :
    ¬ OnCycle (collectBootClosure mode byName svcs).included.contains (orderTargets byName) svc :=
  fun cycle => clean.acyclic svc
    (Relation.TransGen.mono (fun _ _ =>
      orderedAfter_of_dependsWithin fun _ => known_of_mem_included idx) _ _ cycle)

theorem disabled_of_unavailable (clean : Clean perr byName) {dep : ServiceDependency}
    (depends : HardDependsBy byName svc dep)
    (lacks : Unavailable byName dep.target) :
    ∃ defn : ServiceDefinition, byName[dep.target]? = some defn ∧ defn.disabled = true := by
  obtain ⟨defn, got⟩ := clean.known svc dep depends
  exact ⟨defn, got, lacks defn got⟩

theorem needsDisabled (clean : Clean perr byName) (idx : Indexes byName svcs)
    (blocked : Blocked perr byName (collectBootClosure mode byName svcs).included svc) :
    NeedsDisabled byName svc := by
  induction blocked with
  | unavailable _ depends lacks =>
    obtain ⟨defn, got, disabled⟩ := clean.disabled_of_unavailable depends lacks
    exact .disabled depends got disabled
  | conflict conflict => exact absurd conflict.2.2 (clean.conflictFree _ _)
  | timer got invalid => exact absurd invalid (clean.timers _ _ got)
  | healthCheck _ got invalid => exact absurd invalid (clean.healthChecks _ _ got)
  | cycle taken => exact absurd taken.1 (clean.not_onCycle idx)
  | depends _ depends _ below => exact .depends depends below

theorem disabledGround (clean : Clean perr byName) (idx : Indexes byName svcs) {reason : BlockedReason}
    (ground : Ground perr byName (collectBootClosure mode byName svcs).included svc reason) :
    DisabledGround byName svc reason := by
  cases reason with
  | hardDependencyUnavailable target kind =>
    obtain ⟨-, lacks, dep, depends, rfl, rfl⟩ := ground
    exact ⟨⟨dep, depends, rfl, rfl⟩, clean.disabled_of_unavailable depends lacks⟩
  | hardDependencyBlocked target kind =>
    obtain ⟨-, below, depends⟩ := ground
    exact ⟨depends, clean.needsDisabled idx below⟩
  | cycleDetected svcs => exact clean.not_onCycle idx ground.2.2.1
  | conflictingBootService target => exact clean.conflictFree _ _ ground.2.2
  | validationError message =>
    obtain ⟨defn, got, invalid | ⟨-, invalid⟩⟩ := ground
    · exact clean.timers _ _ got invalid
    · exact clean.healthChecks _ _ got invalid

theorem not_downgrades (clean : Clean perr byName) (idx : Indexes byName svcs) :
    ¬ Downgrades byName (fullClosure byName svcs) := by
  rintro ⟨svc, -, ⟨target, conflict⟩ | taken⟩
  · exact clean.conflictFree _ _ conflict.2.2
  · exact clean.not_onCycle idx taken.1

end Clean

end Clean

/-! ## What is reported of the boot -/

/-- The services a finding about the boot names. -/
def bootServices : ServiceGraphFinding → Option (List String)
  | .cycle services => some services
  | .conflictingBootServices service target => some [service, target]
  | .invalidHealthCheckRestartWindow service _ _ _ => some [service]
  | .invalidTimerSchedule service _ _ => some [service]
  | .unschedulableHealthCheck service _ => some [service]
  | _ => none

section Reported

variable {incl : OrdSet String}

theorem blocked_of_healthCheckFinding (idx : Indexes byName svcs)
    (named : bootServices finding = some names) (inside : ∀ svc ∈ names, svc ∈ incl)
    (got : finding ∈ healthCheckRestartWindowFindings svcs ∨
      finding ∈ unschedulableHealthCheckFindings svcs) :
    ∀ svc ∈ names, Blocked perr byName incl svc := by
  rcases got with got | got
  · obtain ⟨defn, mem, rfl⟩ := mem_map.mp got
    obtain ⟨member, invalid⟩ := mem_filter.mp mem
    obtain ⟨scheduled, window⟩ := Bool.and_eq_true_iff.mp invalid
    obtain ⟨declared, -⟩ := Bool.and_eq_true_iff.mp scheduled
    cases named
    intro svc here
    obtain rfl := mem_singleton.mp here
    exact .healthCheck (inside _ here) ((idx _ _).mpr ⟨member, rfl⟩)
      ⟨declared, .inr (of_decide_eq_true window)⟩
  · obtain ⟨defn, mem, rfl⟩ := mem_map.mp got
    obtain ⟨member, invalid⟩ := mem_filter.mp mem
    obtain ⟨declared, unscheduled⟩ := Bool.and_eq_true_iff.mp invalid
    cases named
    intro svc here
    obtain rfl := mem_singleton.mp here
    refine .healthCheck (inside _ here) ((idx _ _).mpr ⟨member, rfl⟩) ⟨declared, .inl fun simple => ?_⟩
    simp [healthCheckIsScheduled, declared, simple] at unscheduled

theorem blocked_of_conflictFinding (idx : Indexes byName svcs)
    (named : bootServices finding = some names) (inside : ∀ svc ∈ names, svc ∈ incl)
    (got : finding ∈ conflictingBootServices byName) :
    ∀ svc ∈ names, Blocked perr byName incl svc := by
  obtain ⟨svc, target, rfl⟩ : ∃ svc target, finding = .conflictingBootServices svc target := by
    obtain ⟨defn, -, -, target, -, -, rfl⟩ := mem_conflictingBootServices.mp got
    split_ifs
    · exact ⟨_, _, rfl⟩
    · exact ⟨_, _, rfl⟩
  cases named
  have conflict : ConflictInBoot byName incl svc target :=
    ⟨inside _ (by simp), inside _ (by simp), conflictDeclared_of_finding idx got⟩
  intro other mem
  rcases mem_cons.mp mem with rfl | mem
  · exact .conflict conflict
  · rw [mem_singleton.mp mem]
    exact .conflict conflict.symm

theorem onCycle_of_finding {cycle : List String} (got : cycle ∈ findCycles byName)
    (inside : ∀ svc ∈ cycle, svc ∈ incl) (mem : svc ∈ cycle) :
    OnCycle incl.contains (orderTargets byName) svc := by
  have edge : ∀ x y, x ∈ cycle → y ∈ cycle → OrderedAfter byName x y →
      DependsWithin incl.contains (orderTargets byName) x y := by
    rintro x y here there ⟨defn, defines, declared⟩
    refine ⟨inside x here, inside y there, ?_⟩
    rw [orderTargets, defines]
    exact (mem_filter.mp (mem_eraseDups.mp declared)).1
  obtain ⟨nonempty, chain, closes⟩ := isOrderCycle_of_findCycles got
  have closed : IsDependencyCycle incl.contains (orderTargets byName) cycle :=
    ⟨nonempty, chain.imp_of_mem_imp edge, fun first begins last ends =>
      edge _ _ (mem_of_getLast? ends) (mem_of_mem_head? begins) (closes first begins last ends)⟩
  exact closed.onCycle mem

theorem blocked_or_cycle_of_finding (idx : serviceMap (synthesiseRoleDependencies defs) = .ok byName)
    (got : finding ∈ serviceGraphFindings perr defs)
    (named : bootServices finding = some names) (inside : ∀ svc ∈ names, svc ∈ incl) :
    (∀ svc ∈ names, Blocked perr byName incl svc) ∨
      finding = .cycle names ∧ ∀ svc ∈ names, OnCycle incl.contains (orderTargets byName) svc := by
  have indexes := indexes_of_serviceMap idx
  simp only [serviceGraphFindings, mem_append, indexDefinitions_of_serviceMap idx] at got
  rcases got with ((((((got | got) | got) | got) | got) | got) | got) | got
  · obtain ⟨defn, -, rfl⟩ := mem_map.mp got
    cases named
  · obtain ⟨svc, -, rfl⟩ := mem_map.mp got
    cases named
  · obtain ⟨defn, -, dep, -, -, rfl⟩ := mem_missingHardDependencies.mp got
    cases named
  · exact .inl (blocked_of_conflictFinding indexes named inside got)
  · exact .inl (blocked_of_healthCheckFinding indexes named inside (.inl got))
  · exact .inl (blocked_of_healthCheckFinding indexes named inside (.inr got))
  · obtain ⟨defn, member, sched, message, mem, failed, rfl⟩ := mem_invalidTimerScheduleFindings.mp got
    cases named
    refine .inl fun svc here => ?_
    rw [mem_singleton.mp here]
    exact .timer ((indexes _ _).mpr ⟨member, rfl⟩) ⟨sched, message, mem, failed⟩
  · obtain ⟨cycle, recorded, rfl⟩ := mem_map.mp got
    cases named
    exact .inr ⟨rfl, fun svc mem => onCycle_of_finding recorded inside mem⟩

end Reported

/-! ## Agreement -/

section Agreement

variable {maxParallelStarts observedAtNs : ℕ} {next : IdAllocators} {plan : BootPlan}

theorem mem_blockedNames_of_full (idx : serviceMap (synthesiseRoleDependencies defs) = .ok byName)
    (planned : preparePhase2BootPlan perr .full defs maxParallelStarts observedAtNs ids =
      .ok (plan, next)) (full : plan.mode = .full) :
    service ∈ plan.blockedNames ↔
      Blocked perr byName (fullClosure byName (synthesiseRoleDependencies defs)) service := by
  obtain ⟨byName', blocked, indexed', decided, drafts⟩ := plan_decided planned nofun
  obtain rfl := Except.ok.inj (idx.symm.trans indexed')
  rw [full] at decided
  rw [mem_blockedNames decided.explained drafts, decided.exactly]
  rfl

theorem plan_mode_eq_full
    (planned : preparePhase2BootPlan perr .full defs maxParallelStarts observedAtNs ids =
      .ok (plan, next)) (kept : plan.mode ≠ .safe) : plan.mode = .full := by
  cases mode : plan.mode with
  | full => rfl
  | safe => exact absurd mode kept
  | recovery => exact absurd mode (plan_mode_ne_recovery planned nofun)

theorem exists_plan_of_accepted (accepted : validateServiceGraph perr defs = .ok size)
    (positive : 0 < maxParallelStarts) (time : observedAtNs < 2 ^ 64)
    (room : ids.RoomFor defs.length) :
    ∃ plan next, preparePhase2BootPlan perr .full defs maxParallelStarts observedAtNs ids =
        .ok (plan, next) ∧ plan.mode = .full ∧
      ∀ block ∈ plan.blocked, ∀ reason ∈ block.draft.reasons,
        DisabledGround (validatedDefinitions defs) block.service reason := by
  obtain ⟨byName, idx, clean⟩ := clean_of_validateServiceGraph accepted
  have indexes := indexes_of_serviceMap idx
  obtain ⟨plan, next, planned⟩ := exists_plan perr idx positive time room
  have full : plan.mode = .full := plan_mode_eq_full planned
    ((plan_mode_eq_safe_iff planned idx).not.mpr (clean.not_downgrades indexes))
  refine ⟨plan, next, planned, full, fun block mem reason given => ?_⟩
  obtain ⟨byName', blocked, indexed', decided, drafts⟩ := plan_decided planned nofun
  obtain rfl := Except.ok.inj (idx.symm.trans indexed')
  have recorded := (mem_planned_drafts decided.explained drafts).mp ⟨block, mem, rfl⟩
  have explains := decided.explained _ _ recorded
  rw [validatedDefinitions, indexDefinitions_of_serviceMap idx]
  exact clean.disabledGround indexes (explains.grounds reason given)

/-- Some reported cycle of the boot has a member that is masked and not blocked otherwise. -/
def LetsMaskedThrough (parseError : String → Option String) (byName : ServiceMap)
    (included : OrdSet String) (findings : List ServiceGraphFinding) : Prop :=
  ∃ cycle, .cycle cycle ∈ findings ∧ (∀ service ∈ cycle, service ∈ included) ∧
    ∃ service ∈ cycle, Masked (orderTargets byName) included service ∧
      ¬ Blocked parseError byName included service

theorem validator_planner_agree_iff (parseError : String → Option String)
    (definitions : List ServiceDefinition) :
    let byName := validatedDefinitions definitions
    let closure := fullClosure byName (synthesiseRoleDependencies definitions)
    (∀ size, validateServiceGraph parseError definitions = .ok size →
      ∀ (maxParallelStarts observedAtNs : ℕ) (ids : IdAllocators), 0 < maxParallelStarts →
        observedAtNs < 2 ^ 64 → ids.RoomFor definitions.length →
      ∃ plan next, preparePhase2BootPlan parseError .full definitions maxParallelStarts observedAtNs ids =
          .ok (plan, next) ∧ plan.mode = .full ∧
        ∀ block ∈ plan.blocked, ∀ reason ∈ block.draft.reasons,
          DisabledGround byName block.service reason) ∧
    ∀ findings, validateServiceGraph parseError definitions = .error findings →
      ∀ (maxParallelStarts observedAtNs : ℕ) (ids next : IdAllocators) (plan : BootPlan),
      preparePhase2BootPlan parseError .full definitions maxParallelStarts observedAtNs ids =
        .ok (plan, next) →
      ((∀ finding ∈ findings, ∀ names, bootServices finding = some names →
          (∀ service ∈ names, service ∈ closure) →
          (∀ service ∈ names, service ∈ plan.blockedNames) ∨ plan.mode = .safe) ↔
        (LetsMaskedThrough parseError byName closure findings → Downgrades byName closure)) := by
  intro byName closure
  refine ⟨fun size accepted _ _ _ positive time room =>
    exists_plan_of_accepted accepted positive time room, fun findings refused => ?_⟩
  intro maxParallelStarts observedAtNs ids next plan planned
  have reported : findings = serviceGraphFindings parseError definitions := by
    unfold validateServiceGraph at refused
    split at refused
    · cases refused
    · exact (Except.error.inj refused).symm
  obtain ⟨byName', blocked, indexed, -, -⟩ := plan_decided planned nofun
  obtain rfl : byName = byName' := indexDefinitions_of_serviceMap indexed
  rw [← plan_mode_eq_safe_iff planned indexed]
  by_cases safe : plan.mode = .safe
  · exact ⟨fun _ _ => safe, fun _ _ _ _ _ _ => .inr safe⟩
  have blocks : ∀ service, service ∈ plan.blockedNames ↔ Blocked parseError byName closure service :=
    fun service => mem_blockedNames_of_full indexed planned (plan_mode_eq_full planned safe)
  constructor
  · rintro agreed ⟨cycle, listed, inside, service, member, -, free⟩
    have done := (agreed _ listed cycle rfl inside).resolve_right safe
    exact absurd ((blocks service).mp (done service member)) free
  · intro kept finding listed names named inside
    refine .inl fun service member => (blocks service).mpr ?_
    rcases blocked_or_cycle_of_finding indexed (reported ▸ listed) named inside with
      blocked | ⟨rfl, onCycle⟩
    · exact blocked service member
    · by_contra free
      have masked : Masked (orderTargets byName) closure service := by
        by_contra unmasked
        exact free (.cycle ⟨onCycle service member, unmasked⟩)
      exact safe (kept ⟨names, listed, inside, service, member, masked, free⟩)

end Agreement

/-! ## Examples -/

/-- `web` requires `db`, which is disabled. -/
def disabledDb : List ServiceDefinition :=
  [{ name := "web", triggers := [.boot], requires := ["db"] }, { name := "db", disabled := true }]

/-- The first is accepted and `web` is blocked; of the second, the cycle is reported and the boot is a safe
one. -/
theorem validator_planner_agree_disabledDb_oneCycle :
    (∃ plan next, preparePhase2BootPlan (fun _ => none) .full disabledDb 4 0 {} = .ok (plan, next) ∧
      plan.mode = .full ∧ ∀ block ∈ plan.blocked, ∀ reason ∈ block.draft.reasons,
        DisabledGround (validatedDefinitions disabledDb) block.service reason) ∧
    ∃ findings, validateServiceGraph (fun _ => none) oneCycle = .error findings ∧
      (LetsMaskedThrough (fun _ => none) (validatedDefinitions oneCycle)
          (fullClosure (validatedDefinitions oneCycle) (synthesiseRoleDependencies oneCycle)) findings →
        Downgrades (validatedDefinitions oneCycle)
          (fullClosure (validatedDefinitions oneCycle) (synthesiseRoleDependencies oneCycle))) := by
  have accepted : validateServiceGraph (fun _ => none) disabledDb = .ok 2 := by decide +kernel
  have refused : validateServiceGraph (fun _ => none) oneCycle = .error [.cycle ["a", "b"]] := by
    decide +kernel
  obtain ⟨plan, next, planned, safe⟩ : ∃ plan next, preparePhase2BootPlan (fun _ => none) .full oneCycle
      4 0 {} = .ok (plan, next) ∧ plan.mode = .safe := by decide +kernel
  exact ⟨(validator_planner_agree_iff _ disabledDb).1 2 accepted 4 0 {} (by decide) (by decide)
      ⟨by decide, by decide⟩,
    _, refused, ((validator_planner_agree_iff _ oneCycle).2 _ refused 4 0 {} next plan planned).mp
      fun _ _ _ _ _ => .inr safe⟩

/-- The second cycle is reported, and `c` is neither blocked nor is the boot a safe one. -/
theorem reported_cycle_not_blocked :
    ∃ findings plan next, validateServiceGraph (fun _ => none) twoCycles = .error findings ∧
      .cycle ["b", "c"] ∈ findings ∧
      (∀ service ∈ ["b", "c"], service ∈ fullClosure (validatedDefinitions twoCycles)
        (synthesiseRoleDependencies twoCycles)) ∧
      preparePhase2BootPlan (fun _ => none) .full twoCycles 4 0 {} = .ok (plan, next) ∧
      plan.mode = .full ∧ "c" ∉ plan.blockedNames := by
  have refused : validateServiceGraph (fun _ => none) twoCycles =
      .error [.cycle ["a", "b"], .cycle ["b", "c"]] := by decide +kernel
  have inside : ∀ service ∈ ["b", "c"], service ∈ fullClosure (validatedDefinitions twoCycles)
      (synthesiseRoleDependencies twoCycles) := by decide +kernel
  obtain ⟨plan, next, planned, outcome⟩ : ∃ plan next, preparePhase2BootPlan (fun _ => none) .full
      twoCycles 4 0 {} = .ok (plan, next) ∧ plan.mode = .full ∧ "c" ∉ plan.blockedNames := by
    decide +kernel
  exact ⟨_, plan, next, refused, by simp, inside, planned, outcome⟩

end Peinit.Phase2
