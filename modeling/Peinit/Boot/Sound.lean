import Peinit.Boot.Planned

/-!
# The plan is sound

Whatever a plan starts is enabled, comes behind what it depends on and has its hard dependencies, no two of
the services that the boot itself asks for conflict, and none of them is forgotten.
-/

namespace Peinit.Phase2

/-- The definitions are those the plan is made from, with their roles resolved. -/
structure BootPlan.Sound (definitions : List ServiceDefinition) (plan : BootPlan) : Prop where
  apart : ∀ service ∈ plan.startNames, service ∉ plan.blockedNames
  nodup : plan.startNames.Nodup
  enabled : ∀ service ∈ plan.startNames, ∃ definition ∈ definitions, definition.name = service ∧
    definition.disabled = false
  ordered : ∀ definition ∈ definitions, ∀ before after,
    plan.startNames = before ++ definition.name :: after →
    ∀ target ∈ startOrderDependencyTargets definition, target ∈ plan.startNames → target ∈ before
  hardDependencies : ∀ definition ∈ definitions, definition.name ∈ plan.startNames →
    ∀ dependency ∈ hardDependencies definition, dependency.target ∈ plan.startNames ∨
      plan.mode = .safe ∧ ∃ target ∈ definitions, target.name = dependency.target ∧
        target.disabled = false ∧ dependencyEligible .safe target = false
  conflictFree : ∀ definition ∈ definitions, definition.name ∈ plan.startNames →
    definition.hasBootTrigger = true → ∀ other ∈ definitions, other.name ∈ plan.startNames →
    other.hasBootTrigger = true → other.name ∉ definition.conflicts
  complete : ∀ definition ∈ definitions, definition.disabled = false →
    definition.hasBootTrigger = true → dependencyEligible plan.mode definition = true →
    definition.name ∈ plan.startNames ∨ definition.name ∈ plan.blockedNames

section Sound

variable {perr : String → Option String} {mode : BootMode} {byName : ServiceMap}
  {svcs : List ServiceDefinition}

theorem isPulledIn_of_reached (idx : Indexes byName svcs) {svc : String}
    (reached : InBootClosure mode byName (bootRoots mode svcs) svc) :
    ∃ defn, byName[svc]? = some defn ∧ isPulledIn mode defn = true := by
  cases reached with
  | root mem =>
    obtain ⟨defn, kept, rfl⟩ := List.mem_map.mp mem
    obtain ⟨member, allowed⟩ := List.mem_filter.mp kept
    simp only [Bool.and_eq_true] at allowed
    exact ⟨defn, (idx _ _).mpr ⟨member, rfl⟩, by simp [isPulledIn, allowed.1]⟩
  | pulled _ pulls =>
    obtain ⟨-, other, -, -, got, pulled⟩ := pulls
    exact ⟨other, got, pulled⟩

theorem hardDependency_cases (idx : Indexes byName svcs) (boots : mode ≠ .recovery)
    {svc : String} {dep : ServiceDependency}
    (inside : svc ∈ (collectBootClosure mode byName svcs).included)
    (depends : HardDependsBy byName svc dep) :
    dep.target ∈ (collectBootClosure mode byName svcs).included ∨
    Blocked perr byName (collectBootClosure mode byName svcs).included svc ∨
    mode = .safe ∧ ∃ target ∈ svcs, target.name = dep.target ∧ target.disabled = false ∧
      dependencyEligible .safe target = false := by
  by_cases unavailable : Unavailable byName dep.target
  · exact .inr (.inl (.unavailable inside depends unavailable))
  · simp only [Unavailable, not_forall] at unavailable
    obtain ⟨target, got, enabled⟩ := unavailable
    have enabled : target.disabled = false := by simpa using enabled
    by_cases eligible : dependencyEligible mode target = true
    · obtain ⟨defn, known, mem⟩ := depends
      have pulls : Pulls mode byName svc dep.target :=
        ⟨defn, target, known, mem_startOrderDependencyTargets.mpr (.inl ⟨dep, mem, rfl⟩),
          got, by simp [isPulledIn, enabled, eligible]⟩
      exact .inl ((mem_included idx).mpr (.pulled ((mem_included idx).mp inside) pulls))
    · obtain ⟨member, name⟩ := (idx _ _).mp got
      have safe : mode = .safe := by
        cases mode with
        | full => simp [dependencyEligible] at eligible
        | safe => rfl
        | recovery => exact absurd rfl boots
      subst safe
      exact .inr (.inr ⟨rfl, target, member, name, enabled, by simpa using eligible⟩)

end Sound

/-- Every plan of a full or safe boot is sound. -/
theorem boot_plan_sound {parseError : String → Option String} {mode : BootMode}
    {definitions : List ServiceDefinition} {maxParallelStarts observedAtNs : ℕ}
    {ids next : IdAllocators} {plan : BootPlan} (boots : mode = .full ∨ mode = .safe)
    (planned : preparePhase2BootPlan parseError mode definitions maxParallelStarts observedAtNs ids =
      .ok (plan, next)) : plan.Sound (synthesiseRoleDependencies definitions) := by
  have boots' : mode ≠ .recovery := by rcases boots with rfl | rfl <;> exact nofun
  obtain ⟨byName, blocked, mapped, decided, drafts⟩ := plan_decided planned boots'
  have indexed := indexes_of_serviceMap mapped
  have blockedNames : ∀ service, service ∈ plan.blockedNames ↔
      Blocked parseError byName (collectBootClosure plan.mode byName
        (synthesiseRoleDependencies definitions)).included service := fun service =>
    (mem_blockedNames decided.explained drafts).trans (decided.exactly service)
  have known : ∀ definition ∈ synthesiseRoleDependencies definitions,
      byName[definition.name]? = some definition :=
    fun definition listed => (indexed _ _).mpr ⟨listed, rfl⟩
  refine ⟨fun service start block => ?_, decided.dependenciesFirst.nodup, fun service start => ?_,
    fun definition listed before after split target declared start => ?_,
    fun definition listed start dependency declared => ?_,
    fun definition listed start boot other listed' start' boot' names => ?_,
    fun definition listed enabled boot eligible => ?_⟩
  · exact (decided.mem_order.mp start).2 ((blockedNames service).mp block)
  · obtain ⟨definition, found, pulled⟩ :=
      isPulledIn_of_reached indexed ((mem_included indexed).mp (decided.mem_order.mp start).1)
    obtain ⟨member, name⟩ := (indexed _ _).mp found
    simp only [isPulledIn, Bool.and_eq_true, Bool.not_eq_true'] at pulled
    exact ⟨definition, member, name, pulled.1⟩
  · refine decided.dependenciesFirst.precedes split ?_ ?_
    · simpa [orderTargets, known definition listed] using declared
    · obtain ⟨inside, free⟩ := decided.mem_order.mp start
      exact mem_startableServices.mpr ⟨inside, fun block => free ((decided.exactly _).mp block)⟩
  · obtain ⟨inside, free⟩ := decided.mem_order.mp start
    have depends : HardDependsBy byName definition.name dependency :=
      ⟨definition, known definition listed, declared⟩
    rcases hardDependency_cases indexed (plan_mode_ne_recovery planned boots') inside depends with
      inside' | block | dropped
    · exact .inl (decided.mem_order.mpr ⟨inside', fun block => free (.depends inside depends block)⟩)
    · exact absurd block free
    · exact .inr dropped
  · obtain ⟨inside, free⟩ := decided.mem_order.mp start
    exact free (.conflict ⟨inside, (decided.mem_order.mp start').1, definition, other,
      known definition listed, known other listed', boot, boot', .inl names⟩)
  · have root : definition.name ∈ bootRoots plan.mode (synthesiseRoleDependencies definitions) :=
      List.mem_map.mpr ⟨definition, List.mem_filter.mpr ⟨listed, by simp [enabled, eligible, boot]⟩, rfl⟩
    have inside := (mem_included indexed).mpr (.root root)
    rw [blockedNames, decided.mem_order]
    by_cases block : Blocked parseError byName (collectBootClosure plan.mode byName
        (synthesiseRoleDependencies definitions)).included definition.name
    · exact .inr block
    · exact .inl ⟨inside, block⟩

/-- `web` needs `db`, and both are started at boot. -/
def webAndDb : List ServiceDefinition :=
  [{ name := "web", triggers := [.boot], requires := ["db"] }, { name := "db", triggers := [.boot] }]

theorem boot_plan_sound_webAndDb :
    ∃ plan next, preparePhase2BootPlan (fun _ => none) .full webAndDb 4 0 {} = .ok (plan, next) ∧
      plan.startNames = ["db", "web"] ∧ plan.Sound (synthesiseRoleDependencies webAndDb) := by
  refine Exists.imp (p := fun _ => ∃ _, _ ∧ _) (fun plan ⟨next, planned, names⟩ =>
    ⟨next, planned, names, boot_plan_sound (.inl rfl) planned⟩) ?_
  decide +kernel

end Peinit.Phase2
