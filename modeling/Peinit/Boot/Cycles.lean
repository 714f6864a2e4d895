import Peinit.Boot.Planned

/-!
# Services on a cycle

A service on a cycle should fail for it, and a critical one should make a full boot a safe one. The
search takes out one cycle after the other and loses the `Masked` services, whose cycles are broken
by then.
-/

namespace Peinit.Phase2

variable {α : Type} {svcs : List ServiceDefinition} {byName : ServiceMap}
  {findings : List SafeModeDowngrade}

/-! ## The cycles of safe mode -/

theorem foldlM_filter_if {ε β : Type} (p : α → Bool) (f : β → α → Except ε β) (xs : List α) :
    ∀ b, (xs.filter p).foldlM (fun b x => if p x = true then f b x else .ok b) b =
      xs.foldlM (fun b x => if p x = true then f b x else .ok b) b := by
  induction xs with
  | nil => exact fun _ => rfl
  | cons x xs ih =>
    intro b
    by_cases holds : p x = true
    · rw [List.filter_cons_of_pos holds, List.foldlM_cons]
      congr 1
      funext b
      exact ih b
    · rw [List.filter_cons_of_neg holds, List.foldlM_cons, if_neg holds]
      exact ih b

theorem visitOrder_filter [DecidableEq α] (within : α → Bool)
    (dependenciesFor : α → List α) (fuel : ℕ) : ∀ (temporary order : List α) (node : α),
    visitOrder within (fun node => (dependenciesFor node).filter within) fuel temporary order node =
      visitOrder within dependenciesFor fuel temporary order node := by
  induction fuel with
  | zero => exact fun _ _ _ => rfl
  | succ fuel ih =>
    intro temporary order node
    rw [visitOrder, visitOrder]
    simp only [ih, foldlM_filter_if]

theorem dependencyStartOrder_filter (startable : OrdSet String) (dependenciesFor : String → List String) :
    dependencyStartOrder startable (fun svc => (dependenciesFor svc).filter startable.contains) =
      depthOrder dependenciesFor startable := by
  unfold dependencyStartOrder depthOrder
  congr 1
  funext order svc
  exact visitOrder_filter startable.contains dependenciesFor _ [] order svc

def isCriticalService (byName : ServiceMap) (service : String) : Bool :=
  byName[service]?.any isCritical

theorem criticalCycles_eq (byName : ServiceMap) (fuel : ℕ) : ∀ remaining : OrdSet String,
    criticalCycles byName fuel remaining =
      (removeCycles (orderTargets byName) fuel remaining).filter (·.any (isCriticalService byName)) := by
  induction fuel with
  | zero => exact fun _ => rfl
  | succ fuel ih =>
    intro remaining
    rw [criticalCycles, removeCycles, dependencyStartOrder_filter]
    split_ifs with empty
    · rw [depthOrder_of_isEmpty empty]
      rfl
    · cases depthOrder (orderTargets byName) remaining with
      | ok order => rfl
      | error svcs =>
        dsimp only
        rw [ih, List.filter_cons]
        rfl

theorem exists_criticalCycle (byName : ServiceMap) (incl : OrdSet String) :
    (∃ svcs, svcs ∈ criticalCycles byName (incl.size + 1) incl) ↔
      ∃ svc, isCriticalService byName svc = true ∧ TakenForCycle byName incl svc := by
  simp only [criticalCycles_eq, List.mem_filter, List.any_eq_true]
  constructor
  · rintro ⟨svcs, removed, svc, mem, critical⟩
    exact ⟨svc, critical, (mem_removeCycles _ (Nat.lt_succ_self _) svc).mp ⟨svcs, removed, mem⟩⟩
  · rintro ⟨svc, critical, taken⟩
    obtain ⟨svcs, removed, mem⟩ := (mem_removeCycles _ (Nat.lt_succ_self _) svc).mpr taken
    exact ⟨svcs, removed, svc, mem, critical⟩

theorem safeModeDowngradeFindings_eq (idx : serviceMap svcs = .ok byName) :
    safeModeDowngradeFindings svcs = .ok
      ((criticalBootConflicts byName (collectBootClosure .full byName svcs).included).map
        (fun (svc, target) => .criticalBootConflict svc target) ++
      (criticalCycles byName ((collectBootClosure .full byName svcs).included.size + 1)
        (collectBootClosure .full byName svcs).included).map .criticalCycle) := by
  rw [safeModeDowngradeFindings, idx]
  rfl

def fullClosure (byName : ServiceMap) (services : List ServiceDefinition) : OrdSet String :=
  (collectBootClosure .full byName services).included

theorem exists_criticalCycle_finding (idx : serviceMap svcs = .ok byName)
    (got : safeModeDowngradeFindings svcs = .ok findings) :
    (∃ cycle, .criticalCycle cycle ∈ findings) ↔ ∃ svc, isCriticalService byName svc = true ∧
      TakenForCycle byName (fullClosure byName svcs) svc := by
  rw [safeModeDowngradeFindings_eq idx] at got
  cases got
  rw [fullClosure, ← exists_criticalCycle]
  simp

theorem plan_mode_of_finding {perr : String → Option String}
    {defs : List ServiceDefinition} {slots atNs : ℕ}
    {ids next : IdAllocators} {plan : BootPlan}
    (planned : preparePhase2BootPlan perr .full defs slots atNs ids = .ok (plan, next))
    (got : safeModeDowngradeFindings (synthesiseRoleDependencies defs) = .ok findings) :
    plan.mode = if findings.isEmpty then .full else .safe := by
  obtain ⟨-, -, downgrade, effective, -⟩ := preparePhase2BootPlan_eq_ok planned nofun
  rw [downgradeFindings, got] at downgrade
  obtain rfl := Except.ok.inj downgrade
  exact effective

def CriticalOnCycle (byName : ServiceMap) (included : OrdSet String) (service : String) : Prop :=
  isCriticalService byName service = true ∧ OnCycle included.contains (orderTargets byName) service

/-- A critical service on a cycle of the closure is found, and the boot becomes a safe one, unless
every such service is masked. -/
theorem critical_cycle_downgrades_iff {definitions : List ServiceDefinition} {byName : ServiceMap}
    (indexed : serviceMap (synthesiseRoleDependencies definitions) = .ok byName) :
    let closure := fullClosure byName (synthesiseRoleDependencies definitions)
    ((∃ service, CriticalOnCycle byName closure service) →
      (∃ findings cycle, safeModeDowngradeFindings (synthesiseRoleDependencies definitions) =
        .ok findings ∧ .criticalCycle cycle ∈ findings) ∧
      ∀ parseError maxParallelStarts observedAtNs ids plan next,
        preparePhase2BootPlan parseError .full definitions maxParallelStarts observedAtNs ids =
          .ok (plan, next) → plan.mode = .safe) ↔
    ((∃ service, CriticalOnCycle byName closure service) →
      ∃ service, CriticalOnCycle byName closure service ∧
        ¬ Masked (orderTargets byName) closure service) := by
  refine imp_congr_right fun _ => ⟨?_, fun unmasked => ?_⟩
  · rintro ⟨⟨findings, cycle, found, listed⟩, -⟩
    obtain ⟨service, critical, onCycle, unmasked⟩ :=
      (exists_criticalCycle_finding indexed found).mp ⟨cycle, listed⟩
    exact ⟨service, ⟨critical, onCycle⟩, unmasked⟩
  · obtain ⟨service, ⟨critical, onCycle⟩, unmasked⟩ := unmasked
    have found := safeModeDowngradeFindings_eq indexed
    obtain ⟨cycle, listed⟩ :=
      (exists_criticalCycle_finding indexed found).mpr ⟨service, critical, onCycle, unmasked⟩
    refine ⟨⟨_, cycle, found, listed⟩, fun _ _ _ _ plan _ planned => ?_⟩
    rw [plan_mode_of_finding planned found, if_neg]
    exact fun empty => List.not_mem_nil (List.isEmpty_iff.mp empty ▸ listed)

/-! ## The services that fail for a cycle -/

/-- The services of the closure on a cycle fail for a cycle, and a service that fails for a cycle is on
the one it names. -/
structure CyclesFailed (byName : ServiceMap) (included : OrdSet String) (graph : Phase2BootGraph) :
    Prop where
  members : ∀ service, OnCycle included.contains (orderTargets byName) service →
    ∃ draft ∈ graph.blocked, draft.service = service ∧ ∃ cycle, draft.reason = .cycleDetected cycle
  named : ∀ draft ∈ graph.blocked, ∀ cycle, .cycleDetected cycle ∈ draft.reasons →
    draft.service ∈ cycle ∧ IsDependencyCycle included.contains (orderTargets byName) cycle

section Failed

variable {parseError : String → Option String} {mode : BootMode} {services : List ServiceDefinition}
  {graph : Phase2BootGraph}

theorem ground_of_cycleDetected (idx : serviceMap services = .ok byName)
    (built : buildPhase2BootGraph parseError mode services = .ok graph) {draft : BlockedServiceDraft}
    (mem : draft ∈ graph.blocked) {cycle : List String}
    (reason : .cycleDetected cycle ∈ draft.reasons) :
    draft.service ∈ cycle ∧
      IsDependencyCycle (collectBootClosure mode byName services).included.contains (orderTargets byName)
        cycle ∧
      TakenForCycle byName (collectBootClosure mode byName services).included draft.service := by
  obtain ⟨byName', order, blocked, mapped, decided, -, drafts⟩ := buildPhase2BootGraph_eq_ok built
  obtain rfl := Except.ok.inj (idx.symm.trans mapped)
  rw [drafts, OrdMap.mem_values] at mem
  obtain ⟨svc, got⟩ := mem
  have explains := decided.explained svc draft got
  rw [explains.named]
  exact explains.grounds _ reason

theorem cycles_failed_iff (indexed : serviceMap services = .ok byName)
    (built : buildPhase2BootGraph parseError mode services = .ok graph) :
    let closure := (collectBootClosure mode byName services).included
    CyclesFailed byName closure graph ↔
      ∀ service, OnCycle closure.contains (orderTargets byName) service →
        ¬ Masked (orderTargets byName) closure service := by
  constructor
  · intro failed service onCycle
    obtain ⟨draft, listed, rfl, cycle, primary⟩ := failed.members service onCycle
    have reason : .cycleDetected cycle ∈ draft.reasons := by
      rw [← primary]
      exact List.mem_cons_self
    exact (ground_of_cycleDetected indexed built listed reason).2.2.2
  · intro unmasked
    refine ⟨fun service onCycle => ?_, fun draft listed cycle reason => ?_⟩
    · obtain ⟨byName', order, blocked, mapped, decided, -, drafts⟩ := buildPhase2BootGraph_eq_ok built
      obtain rfl := Except.ok.inj (indexed.symm.trans mapped)
      obtain ⟨draft, cycle, found, primary⟩ := decided.cycles service ⟨onCycle, unmasked service onCycle⟩
      refine ⟨draft, ?_, (decided.explained service draft found).named, cycle, primary⟩
      rw [drafts, OrdMap.mem_values]
      exact ⟨service, found⟩
    · obtain ⟨here, closed, -⟩ := ground_of_cycleDetected indexed built listed reason
      exact ⟨here, closed⟩

end Failed

/-! ## Two cycles with a service in common -/

/-- `a` and `b` want each other. -/
def oneCycle : List ServiceDefinition := [{ name := "a", triggers := [.boot], wants := ["b"] },
   { name := "b", triggers := [.boot], wants := ["a"], errorControl := .critical }]

/-- So do `b` and `c`, of which `c` is critical; the search meets `a` and `b` first. -/
def twoCycles : List ServiceDefinition := [{ name := "a", triggers := [.boot], wants := ["b"] },
   { name := "b", triggers := [.boot], wants := ["a", "c"] },
   { name := "c", triggers := [.boot], wants := ["b"], errorControl := .critical }]

theorem onCycle_of_edges {incl : OrdSet String} {x y : String}
    (edges : (incl.contains x = true ∧ incl.contains y = true ∧ y ∈ orderTargets byName x) ∧
      x ∈ orderTargets byName y) : OnCycle incl.contains (orderTargets byName) x :=
  .tail (.single edges.1) ⟨edges.1.2.1, edges.1.1, edges.2⟩

/-- The critical service of the one cycle is not masked. -/
theorem critical_cycle_downgrades_oneCycle :
    ∃ byName, serviceMap (synthesiseRoleDependencies oneCycle) = .ok byName ∧
      ∃ service, CriticalOnCycle byName (fullClosure byName (synthesiseRoleDependencies oneCycle)) service ∧
        ¬ Masked (orderTargets byName) (fullClosure byName (synthesiseRoleDependencies oneCycle))
          service := by
  obtain ⟨byName, mapped, critical, edges⟩ : ∃ byName,
      serviceMap (synthesiseRoleDependencies oneCycle) = .ok byName ∧
      let included := fullClosure byName (synthesiseRoleDependencies oneCycle)
      isCriticalService byName "b" = true ∧ (included.contains "b" = true ∧
        included.contains "a" = true ∧ "a" ∈ orderTargets byName "b") ∧ "b" ∈ orderTargets byName "a" := by
    decide +kernel
  have found : safeModeDowngradeFindings (synthesiseRoleDependencies oneCycle) =
      .ok [.criticalCycle ["a", "b"]] := by decide +kernel
  have onCycle : CriticalOnCycle byName (fullClosure byName (synthesiseRoleDependencies oneCycle)) "b" :=
    ⟨critical, onCycle_of_edges edges⟩
  refine ⟨byName, mapped, (critical_cycle_downgrades_iff mapped).mp (fun _ => ⟨⟨_, _, found,
    List.mem_singleton_self _⟩, fun _ _ _ _ plan _ planned => ?_⟩) ⟨"b", onCycle⟩⟩
  rw [plan_mode_of_finding planned found]
  rfl

/-- Taking `a` and `b` out breaks the cycle of the critical service, and the boot stays a full one. -/
theorem critical_cycle_missed :
    ∃ byName plan next, serviceMap (synthesiseRoleDependencies twoCycles) = .ok byName ∧
      CriticalOnCycle byName (fullClosure byName (synthesiseRoleDependencies twoCycles)) "c" ∧
      safeModeDowngradeFindings (synthesiseRoleDependencies twoCycles) = .ok [] ∧
      preparePhase2BootPlan (fun _ => none) .full twoCycles 4 0 {} = .ok (plan, next) ∧
      plan.mode = .full := by
  obtain ⟨byName, mapped, critical, edges⟩ : ∃ byName,
      serviceMap (synthesiseRoleDependencies twoCycles) = .ok byName ∧
      let included := fullClosure byName (synthesiseRoleDependencies twoCycles)
      isCriticalService byName "c" = true ∧ (included.contains "c" = true ∧
        included.contains "b" = true ∧ "b" ∈ orderTargets byName "c") ∧ "c" ∈ orderTargets byName "b" := by
    decide +kernel
  obtain ⟨plan, next, planned⟩ : ∃ plan next, preparePhase2BootPlan (fun _ => none) .full twoCycles 4 0 {} =
      .ok (plan, next) ∧ plan.mode = .full := by decide +kernel
  exact ⟨byName, plan, next, mapped, ⟨critical, onCycle_of_edges edges⟩, by decide +kernel, planned⟩

/-- Both services of the one cycle fail for it, so neither is masked. -/
theorem cycles_failed_oneCycle :
    ∃ byName graph, serviceMap oneCycle = .ok byName ∧
      buildPhase2BootGraph (fun _ => none) .full oneCycle = .ok graph ∧
      OnCycle (collectBootClosure .full byName oneCycle).included.contains (orderTargets byName) "b" ∧
      ¬ Masked (orderTargets byName) (collectBootClosure .full byName oneCycle).included "b" := by
  obtain ⟨byName, indexed, members, edges⟩ : ∃ byName, serviceMap oneCycle = .ok byName ∧
      let included := (collectBootClosure .full byName oneCycle).included
      included.toList = ["a", "b"] ∧ (included.contains "b" = true ∧
        included.contains "a" = true ∧ "a" ∈ orderTargets byName "b") ∧ "b" ∈ orderTargets byName "a" := by
    decide +kernel
  obtain ⟨graph, built, failed⟩ : ∃ graph, buildPhase2BootGraph (fun _ => none) .full oneCycle = .ok graph ∧
      ∀ service ∈ ["a", "b"], ∃ draft ∈ graph.blocked, draft.service = service ∧
        draft.reason = .cycleDetected ["a", "b"] := by decide +kernel
  have onCycle := onCycle_of_edges edges
  refine ⟨byName, graph, indexed, built, onCycle, (cycles_failed_iff indexed built).mp
    ⟨fun service here => ?_, fun draft listed cycle reason => ?_⟩ "b" onCycle⟩
  · obtain ⟨draft, listed, named, primary⟩ := failed service
      (members ▸ Std.ExtTreeSet.mem_toList.mpr here.mem)
    exact ⟨draft, listed, named, _, primary⟩
  · obtain ⟨here, closed, -⟩ := ground_of_cycleDetected indexed built listed reason
    exact ⟨here, closed⟩

/-- `c` is on a cycle and is started. -/
theorem masked_service_starts :
    ∃ byName graph, serviceMap twoCycles = .ok byName ∧
      buildPhase2BootGraph (fun _ => none) .full twoCycles = .ok graph ∧
      OnCycle (collectBootClosure .full byName twoCycles).included.contains (orderTargets byName) "c" ∧
      "c" ∉ graph.blocked.map (·.service) ∧ "c" ∈ graph.orderedStartable.map (·.name) := by
  obtain ⟨byName, mapped, edges⟩ : ∃ byName, serviceMap twoCycles = .ok byName ∧
      let included := (collectBootClosure .full byName twoCycles).included
      (included.contains "c" = true ∧ included.contains "b" = true ∧
        "b" ∈ orderTargets byName "c") ∧ "c" ∈ orderTargets byName "b" := by decide +kernel
  obtain ⟨graph, built, outcome⟩ : ∃ graph, buildPhase2BootGraph (fun _ => none) .full twoCycles =
      .ok graph ∧ "c" ∉ graph.blocked.map (·.service) ∧ "c" ∈ graph.orderedStartable.map (·.name) := by
    decide +kernel
  exact ⟨byName, graph, mapped, built, onCycle_of_edges edges, outcome⟩

end Peinit.Phase2
