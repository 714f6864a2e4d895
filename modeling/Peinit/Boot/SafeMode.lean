import Peinit.Boot.Planned
import Peinit.Lib.Peeling

/-!
# What safe mode leaves out

Safe mode drops a hard dependency on a service that it leaves out. But a timer schedule that does not
parse blocks a service wherever it is, and blocking spreads without asking whether the target is left
out.
-/

namespace Peinit.Phase2

section SafeMode

variable (parseError : String → Option String) (byName : ServiceMap) (included : OrdSet String)

/-- Something is found about the service itself. -/
def HasFinding (service : String) : Prop := (∃ definition, byName[service]? = some definition ∧
    (InvalidTimer parseError definition ∨ InvalidHealthCheck definition)) ∨
  (∃ target, ConflictInBoot byName included service target) ∨
  OnCycle included.contains (orderTargets byName) service

/-- The service is accounted for: something is found about it, it lacks a hard dependency, or it has one in
the closure that is blocked. -/
def Accounted (blocked : String → Prop) (service : String) : Prop :=
  HasFinding parseError byName included service ∨ LacksDependency byName service ∨
    ∃ dependency, HardDependsBy byName service dependency ∧ dependency.target ∈ included ∧
      blocked dependency.target

/-- `service` hard-depends on an enabled service outside the closure, which has an invalid schedule. -/
def DependsOnExcludedTimer (service : String) : Prop :=
  ∃ dependency target, HardDependsBy byName service dependency ∧ dependency.target ∉ included ∧
    byName[dependency.target]? = some target ∧ target.disabled = false ∧ InvalidTimer parseError target

/-- Blocked for what is found within the closure. -/
inductive BlockedWithin : String → Prop
  | lacking {service : String} : service ∈ included → LacksDependency byName service →
      BlockedWithin service
  | conflict {service target : String} : ConflictInBoot byName included service target →
      BlockedWithin service
  | invalid {service : String} {definition : ServiceDefinition} : service ∈ included →
      byName[service]? = some definition →
      InvalidTimer parseError definition ∨ InvalidHealthCheck definition → BlockedWithin service
  | cycle {service : String} : OnCycle included.contains (orderTargets byName) service →
      TakenForCycle byName included service ∨ DependsOnExcludedTimer parseError byName included service →
      BlockedWithin service
  | depends {service : String} {dependency : ServiceDependency} : service ∈ included →
      HardDependsBy byName service dependency → dependency.target ∈ included →
      BlockedWithin dependency.target → BlockedWithin service

variable {perr byName incl} {svc : String}

theorem Blocked.outside (blocked : Blocked perr byName incl svc) (outside : svc ∉ incl) :
    ∃ defn, byName[svc]? = some defn ∧ InvalidTimer perr defn := by
  cases blocked with
  | unavailable inside => exact absurd inside outside
  | conflict conflict => exact absurd conflict.1 outside
  | timer got invalid => exact ⟨_, got, invalid⟩
  | healthCheck inside => exact absurd inside outside
  | cycle taken => exact absurd taken.1.mem outside
  | depends inside => exact absurd inside outside

theorem blockedDependency_cases {dep : ServiceDependency} (depends : HardDependsBy byName svc dep)
    (blocked : Blocked perr byName incl dep.target) :
    dep.target ∈ incl ∨ LacksDependency byName svc ∨
      DependsOnExcludedTimer perr byName incl svc := by
  by_cases inside : dep.target ∈ incl
  · exact .inl inside
  · obtain ⟨target, got, invalid⟩ := blocked.outside inside
    cases enabled : target.disabled with
    | false => exact .inr (.inr ⟨dep, target, depends, inside, got, enabled, invalid⟩)
    | true =>
      refine .inr (.inl ⟨dep, depends, fun other found' => ?_⟩)
      obtain rfl := Option.some.inj (got.symm.trans found')
      exact enabled

theorem DependsOnExcludedTimer.blocked (inside : svc ∈ incl)
    (depends : DependsOnExcludedTimer perr byName incl svc) :
    Blocked perr byName incl svc := by
  obtain ⟨dep, target, depends, -, got, -, invalid⟩ := depends
  exact .depends inside depends (.timer got invalid)

theorem BlockedWithin.blocked (within : BlockedWithin perr byName incl svc) :
    Blocked perr byName incl svc := by
  induction within with
  | lacking inside lacks =>
    obtain ⟨dep, depends, unavailable⟩ := lacks
    exact .unavailable inside depends unavailable
  | conflict conflict => exact .conflict conflict
  | invalid inside got invalid =>
    rcases invalid with timer | check
    · exact .timer got timer
    · exact .healthCheck inside got check
  | cycle onCycle because =>
    rcases because with taken | depends
    · exact .cycle taken
    · exact depends.blocked onCycle.mem
  | depends inside depends _ _ ih => exact .depends inside depends ih

theorem BlockedWithin.accounted (within : BlockedWithin perr byName incl svc) :
    Accounted perr byName incl (Blocked perr byName incl) svc := by
  cases within with
  | lacking _ lacks => exact .inr (.inl lacks)
  | conflict conflict => exact .inl (.inr (.inl ⟨_, conflict⟩))
  | invalid _ got invalid => exact .inl (.inl ⟨_, got, invalid⟩)
  | cycle onCycle _ => exact .inl (.inr (.inr onCycle))
  | depends _ depends inside below => exact .inr (.inr ⟨_, depends, inside, below.blocked⟩)

theorem exists_unaccounted_below (inside : svc ∈ incl) (blocked : Blocked perr byName incl svc)
    (accounted : Accounted perr byName incl (Blocked perr byName incl) svc)
    (without : ¬ BlockedWithin perr byName incl svc) :
    ∃ dep, HardDependsBy byName svc dep ∧ dep.target ∈ incl ∧
      Blocked perr byName incl dep.target ∧
      ¬ BlockedWithin perr byName incl dep.target := by
  have below {dep : ServiceDependency} (depends : HardDependsBy byName svc dep)
      (here : dep.target ∈ incl) :
      ¬ BlockedWithin perr byName incl dep.target :=
    fun within => without (.depends inside depends here within)
  rcases accounted with (⟨defn, got, invalid⟩ | ⟨target, conflict⟩ | onCycle) | lacks |
    ⟨dep, depends, here, blocked'⟩
  · exact absurd (.invalid inside got invalid) without
  · exact absurd (.conflict conflict) without
  · -- on a cycle, but not taken out for it: then it is blocked for something else
    cases blocked with
    | unavailable _ depends unavailable =>
      exact absurd (.lacking inside ⟨_, depends, unavailable⟩) without
    | conflict conflict => exact absurd (.conflict conflict) without
    | timer got invalid => exact absurd (.invalid inside got (.inl invalid)) without
    | healthCheck _ got invalid => exact absurd (.invalid inside got (.inr invalid)) without
    | cycle taken => exact absurd (.cycle onCycle (.inl taken)) without
    | depends _ depends blocked' =>
      rcases blockedDependency_cases depends blocked' with here | lacks | excluded
      · exact ⟨_, depends, here, blocked', below depends here⟩
      · exact absurd (.lacking inside lacks) without
      · exact absurd (.cycle onCycle (.inr excluded)) without
  · exact absurd (.lacking inside lacks) without
  · exact ⟨dep, depends, here, blocked', below depends here⟩

open scoped Classical in
theorem blockedWithin_of_accounted (accounted : ∀ svc ∈ incl, Blocked perr byName incl svc →
      Accounted perr byName incl (Blocked perr byName incl) svc)
    (inside : svc ∈ incl) (blocked : Blocked perr byName incl svc) :
    BlockedWithin perr byName incl svc := by
  by_contra without
  -- the others lead from one to the next without end, so some of them are on a cycle
  let left : OrdSet String := incl.filter fun svc =>
    decide (Blocked perr byName incl svc ∧ ¬ BlockedWithin perr byName incl svc)
  have mem_left : ∀ svc, svc ∈ left ↔ svc ∈ incl ∧
      Blocked perr byName incl svc ∧ ¬ BlockedWithin perr byName incl svc := by
    intro svc
    rw [OrdSet.mem_filter, decide_eq_true_eq]
  have acyclic : ∀ svc, ¬ OnCycle left.contains (orderTargets byName) svc := by
    refine not_onCycle_of_left _ (Nat.lt_succ_self _) (fun svc mem => ((mem_left svc).mp mem).1)
      fun svc mem cycle removed here => ?_
    have taken : TakenForCycle byName incl svc :=
      (mem_removeCycles _ (Nat.lt_succ_self _) svc).mp ⟨cycle, removed, here⟩
    exact ((mem_left svc).mp mem).2.2 (.cycle taken.1 (.inl taken))
  have finite : {svc | svc ∈ left}.Finite := by
    refine left.toList.toFinset.finite_toSet.subset fun svc mem => ?_
    simpa using mem
  obtain ⟨last, mem, none⟩ := exists_last_of_acyclic acyclic finite
    ((mem_left svc).mpr ⟨inside, blocked, without⟩)
  obtain ⟨here, blocked', without'⟩ := (mem_left last).mp mem
  obtain ⟨dep, ⟨defn, got, declared⟩, below⟩ :=
    exists_unaccounted_below here blocked' (accounted last here blocked') without'
  have target := (mem_left dep.target).mpr below
  refine none dep.target target ⟨mem, target, ?_⟩
  rw [orderTargets, got]
  exact mem_startOrderDependencyTargets.mpr (.inl ⟨dep, declared, rfl⟩)

end SafeMode

/-- In safe mode every blocked service of the closure is accounted for within the closure, if and only if those
that hard-depend on a service which is left out and has an invalid schedule are blocked anyway. -/
theorem safe_mode_accounts_for_blocked_iff {parseError : String → Option String} {byName : ServiceMap}
    {services : List ServiceDefinition} {graph : Phase2BootGraph}
    (indexed : serviceMap services = .ok byName)
    (built : buildPhase2BootGraph parseError .safe services = .ok graph) :
    let closure := (collectBootClosure .safe byName services).included
    let isBlocked := fun service => ∃ draft ∈ graph.blocked, draft.service = service
    (∀ service ∈ closure, isBlocked service → Accounted parseError byName closure isBlocked service) ↔
      ∀ service ∈ closure, DependsOnExcludedTimer parseError byName closure service →
        BlockedWithin parseError byName closure service := by
  intro closure isBlocked
  obtain ⟨byName', order, blocked, mapped, decided, -, drafts⟩ := buildPhase2BootGraph_eq_ok built
  obtain rfl := Except.ok.inj (indexed.symm.trans mapped)
  have exactly : isBlocked = Blocked parseError byName closure := by
    funext service
    refine propext (Iff.trans ⟨?_, fun listed => ?_⟩ (decided.exactly service))
    · rintro ⟨draft, listed, rfl⟩
      rw [drafts, OrdMap.mem_values] at listed
      obtain ⟨name, found⟩ := listed
      rw [(decided.explained name draft found).named, Std.ExtTreeMap.mem_iff_isSome_getElem?, found]
      rfl
    · obtain ⟨draft, found⟩ :=
        Option.isSome_iff_exists.mp (Std.ExtTreeMap.mem_iff_isSome_getElem?.mp listed)
      refine ⟨draft, ?_, (decided.explained service draft found).named⟩
      rw [drafts, OrdMap.mem_values]
      exact ⟨service, found⟩
  rw [exactly]
  constructor
  · intro accounted service inside depends
    exact blockedWithin_of_accounted accounted inside (depends.blocked inside)
  · intro excused service inside blocked
    cases blocked with
    | unavailable _ depends unavailable => exact .inr (.inl ⟨_, depends, unavailable⟩)
    | conflict conflict => exact .inl (.inr (.inl ⟨_, conflict⟩))
    | timer found invalid => exact .inl (.inl ⟨_, found, .inl invalid⟩)
    | healthCheck _ found invalid => exact .inl (.inl ⟨_, found, .inr invalid⟩)
    | cycle taken => exact .inl (.inr (.inr taken.1))
    | depends _ depends below =>
      rcases blockedDependency_cases depends below with here | lacks | excluded
      · exact .inr (.inr ⟨_, depends, here, below⟩)
      · exact .inr (.inl lacks)
      · exact (excused service inside excluded).accounted

/-- A service for safe mode too, which requires one that is not. -/
def safeWeb : ServiceDefinition :=
  { name := "web", triggers := [.boot], safeMode := true, requires := ["metrics"] }

def webAndMetrics : List ServiceDefinition :=
  [safeWeb, { name := "metrics", triggers := [.boot, .timer "soon"] }]

/-- The one schedule that does not parse. -/
def soonIsInvalid (schedule : String) : Option String :=
  if schedule = "soon" then some "expected a calendar time" else none

/-- With the schedule in order the dependency is dropped and `web` starts. -/
theorem safe_mode_accounts_for_blocked_webAndMetrics :
    ∃ byName graph, serviceMap webAndMetrics = .ok byName ∧
      buildPhase2BootGraph (fun _ => none) .safe webAndMetrics = .ok graph ∧
      graph.orderedStartable.map (·.name) = ["web"] ∧
      ∀ service ∈ (collectBootClosure .safe byName webAndMetrics).included,
        (∃ draft ∈ graph.blocked, draft.service = service) →
        Accounted (fun _ => none) byName (collectBootClosure .safe byName webAndMetrics).included
          (fun service => ∃ draft ∈ graph.blocked, draft.service = service) service := by
  obtain ⟨byName, indexed⟩ : ∃ byName, serviceMap webAndMetrics = .ok byName := by decide +kernel
  obtain ⟨graph, built, starts⟩ : ∃ graph, buildPhase2BootGraph (fun _ => none) .safe webAndMetrics =
      .ok graph ∧ graph.orderedStartable.map (·.name) = ["web"] := by decide +kernel
  refine ⟨byName, graph, indexed, built, starts,
    (safe_mode_accounts_for_blocked_iff indexed built).mpr ?_⟩
  rintro service - ⟨-, -, -, -, -, -, schedule, message, -, failed⟩
  cases failed

/-- The schedule of `metrics`, which safe mode leaves out, keeps `web` from starting. -/
theorem excluded_timer_blocks_dependent :
    ∃ byName graph, serviceMap webAndMetrics = .ok byName ∧
      buildPhase2BootGraph soonIsInvalid .safe webAndMetrics = .ok graph ∧
      "web" ∈ (collectBootClosure .safe byName webAndMetrics).included ∧
      (∃ draft ∈ graph.blocked, draft.service = "web") ∧
      (∃ metrics, byName["metrics"]? = some metrics ∧ metrics.disabled = false ∧
        "metrics" ∉ (collectBootClosure .safe byName webAndMetrics).included) ∧
      ¬ Accounted soonIsInvalid byName (collectBootClosure .safe byName webAndMetrics).included
        (fun service => ∃ draft ∈ graph.blocked, draft.service = service) "web" := by
  obtain ⟨byName, indexed, closure, web, metrics⟩ : ∃ byName, serviceMap webAndMetrics = .ok byName ∧
      (collectBootClosure .safe byName webAndMetrics).included.toList = ["web"] ∧
      byName["web"]? = some safeWeb ∧ byName["metrics"]? = webAndMetrics[1]? := by
    decide +kernel
  obtain ⟨graph, built, blocked⟩ : ∃ graph, buildPhase2BootGraph soonIsInvalid .safe webAndMetrics =
      .ok graph ∧ ∃ draft ∈ graph.blocked, draft.service = "web" := by
    decide +kernel
  have mem : ∀ service, service ∈ (collectBootClosure .safe byName webAndMetrics).included ↔
      service = "web" := by
    intro service
    rw [← Std.ExtTreeSet.mem_toList, closure, List.mem_singleton]
  refine ⟨byName, graph, indexed, built, (mem _).mpr rfl, blocked, ⟨_, metrics, rfl, ?_⟩, ?_⟩
  · rw [mem]
    decide
  have depends : ∀ dependency, HardDependsBy byName "web" dependency → dependency.target = "metrics" := by
    rintro dependency ⟨definition, found, declared⟩
    obtain rfl : safeWeb = definition := Option.some.inj (web.symm.trans found)
    have only : ∀ dependency ∈ hardDependencies safeWeb, dependency.target = "metrics" := by
      decide +kernel
    exact only dependency declared
  rintro ((⟨definition, found, invalid⟩ | ⟨target, conflict⟩ | onCycle) |
    ⟨dependency, names, unavailable⟩ | ⟨dependency, names, inside, -⟩)
  · obtain rfl : safeWeb = definition := Option.some.inj (web.symm.trans found)
    rcases invalid with ⟨schedule, message, timer, -⟩ | check
    · simp [safeWeb] at timer
    · cases check.1
  · obtain ⟨-, inside, definition, other, found, found', -, -, declares⟩ := conflict
    rw [mem] at inside
    subst inside
    obtain rfl : safeWeb = definition := Option.some.inj (web.symm.trans found)
    obtain rfl : safeWeb = other := Option.some.inj (web.symm.trans found')
    simp [safeWeb] at declares
  · obtain ⟨next, edge, -⟩ := Relation.TransGen.head'_iff.mp onCycle
    obtain rfl := (mem next).mp edge.2.1
    have target := edge.2.2
    rw [orderTargets, web] at target
    exact absurd target (by decide)
  · rw [depends dependency names] at unavailable
    cases unavailable _ metrics
  · rw [depends dependency names, mem] at inside
    exact absurd inside (by decide)

end Peinit.Phase2
