import Peinit.Lib.Peeling
import Peinit.Shutdown.Plannable

/-!
# Which wave a service is in

The waves take, round after round, what nothing left rests on: the number of a service's wave is the
length of the longest chain of services that are each to be down before the next.
-/

namespace Peinit

open ShutdownSorting Option ServiceTable List Std.ExtTreeMap

variable {remaining : OrdMap String ShutdownStopParticipant} {names : List String}
  {svcs : ServiceTable} {service : String} {sorting : ShutdownSorting} {plan : ShutdownPlan}

/-- The states a shutdown has nothing to do for. -/
def isIgnored : ServiceState → Bool
  | .inactive | .backoff | .failed | .abandoned | .skipped => true
  | _ => false

def ShutdownPlan.InWave (plan : ShutdownPlan) (i : ℕ) (service : String) : Prop :=
  ∃ wave, plan.stopWaves[i]? = some wave ∧ service ∈ wave.services.map (·.service)

/-- One service that is up is to be down before another one is stopped. -/
def MustStopBefore (services : ServiceTable) (service target : String) : Prop :=
  Up (services.stateOf service) ∧ Up (services.stateOf target) ∧ RestsOn services.mixture service target

/-- Each service is in one place, by its state, and its wave is the length of the longest chain. -/
structure ShutdownPlan.Exact (services : ServiceTable) (plan : ShutdownPlan) : Prop where
  once : (plan.completedToClear ++ plan.startingToKill ++ plan.participants.map (·.service) ++
    plan.ignored.map (·.service)).Perm services.serviceNames
  completed : ∀ service, service ∈ plan.completedToClear ↔ services.stateOf service = some .completed
  starting : ∀ service, service ∈ plan.startingToKill ↔ services.stateOf service = some .starting
  ignored : ∀ service state, { service, state } ∈ plan.ignored ↔
    services.stateOf service = some state ∧ isIgnored state = true
  waves : ∀ i service, plan.InWave i service ↔
    LongestBack (RestsOn services.mixture) {service | Up (services.stateOf service)} service i

/-! ## The waves -/

section Waves

theorem Taken.left_eq_peel {left : OrdMap String ShutdownStopParticipant}
    {taken : List ShutdownStopParticipant} (first : Taken names remaining taken left)
    (ready : ∀ service, service ∈ names ↔ service ∈ remaining ∧
      ∀ other ∈ remaining, ¬ RestsOn svcs.mixture other service) :
    {service | service ∈ left} = peel (RestsOn svcs.mixture) {service | service ∈ remaining} := by
  ext service
  have gone : service ∈ left ↔ service ∈ remaining ∧ service ∉ names := by
    rw [mem_iff_isSome_getElem?, first.left]
    split_ifs with here <;> simp [here]
  rw [Set.mem_ofPred_eq, gone, ready]
  refine and_congr_right fun there => ?_
  simp only [there, true_and]
  push Not
  rfl

theorem TakenInWaves.longest {waves : List ShutdownStopWave} (taken : TakenInWaves svcs remaining waves)
    (known : ∀ svc ∈ remaining, ∃ definition, svcs.definition svc = some definition)
    (i : ℕ) (svc : String) :
    (∃ wave, waves[i]? = some wave ∧ svc ∈ wave.services.map (·.service)) ↔
      LongestBack (RestsOn svcs.mixture) {svc | svc ∈ remaining} svc i := by
  induction taken generalizing i with
  | nil => exact iff_of_false (by simp) fun longest => not_mem_empty longest.1.mem
  | @cons remaining left dependents taken waves noted first later ih =>
    have ready : ∀ svc, svc ∈ readyToStop dependents remaining ↔ svc ∈ remaining ∧
        ∀ other ∈ remaining, ¬ RestsOn svcs.mixture other svc :=
      fun svc => mem_readyToStop known noted
    have peeled := first.left_eq_peel ready
    cases i with
    | zero =>
      rw [longestBack_zero, ← peeled]
      simp only [getElem?_cons_zero, some.injEq, exists_eq_left', first.names_eq]
      constructor
      · intro mem
        refine ⟨((ready svc).mp mem).1, fun there => ?_⟩
        rw [Set.mem_ofPred_eq, mem_iff_isSome_getElem?, first.left, if_pos mem] at there
        cases there
      · rintro ⟨there, gone⟩
        by_contra notReady
        apply gone
        rw [Set.mem_ofPred_eq, mem_iff_isSome_getElem?, first.left, if_neg notReady]
        exact mem_iff_isSome_getElem?.mp there
    | succ i =>
      rw [← longestBack_peel, ← peeled]
      refine ih (fun name there => known name ?_) i
      rw [mem_iff_isSome_getElem?, isSome_iff_exists] at there ⊢
      exact there.imp fun _ => first.of_left

end Waves

/-! ## The plan -/

namespace ShutdownSorting

variable {sorted : ShutdownSorting}

/-- What is noted for a service that is ignored. -/
def ignoredOf (services : ServiceTable) (service : String) : Option ShutdownIgnoredService :=
  ((services.stateOf service).filter isIgnored).map fun state => { service, state }

theorem sort_ignored (ran : names.foldlM (sort svcs) sorting = .ok sorted) :
    sorted.ignored = sorting.ignored ++ names.filterMap (ignoredOf svcs) := by
  induction names generalizing sorting with
  | nil =>
    cases ran
    simp
  | cons name names ih =>
    obtain ⟨mid, first, rest⟩ := bind_eq_ok.mp ran
    have one : mid.ignored = sorting.ignored ++ (ignoredOf svcs name).toList := by
      unfold sort at first
      unfold ignoredOf stateOf
      split at first
      · cases first
      · next runtime got =>
        rw [got, map_some]
        cases is : runtime.state <;> rw [is] at first <;> cases first <;>
          simp [isIgnored, filter_some]
    rw [ih rest, one, filterMap_cons]
    cases ignoredOf svcs name <;> simp

end ShutdownSorting

theorem stopCandidate_iff (sorted : svcs.serviceNames.foldlM (sort svcs) {} = .ok sorting)
    (svc : String) : svc ∈ sorting.stopCandidates ↔ Up (svcs.stateOf svc) := by
  rw [mem_iff_isSome_getElem?, (sort_all sorted).candidates]
  by_cases up : Up (svcs.stateOf svc)
  · obtain ⟨state, known, -⟩ := (any_eq_true _ _).mp up
    rw [if_pos ⟨mem_serviceNames known, up⟩, known]
    exact iff_of_true rfl (known ▸ up)
  · simp [up]

theorem ShutdownSorting.ignored_names (sorted : svcs.serviceNames.foldlM (sort svcs) {} = .ok sorting) :
    sorting.ignored.map (·.service) =
      svcs.serviceNames.filter fun service => (svcs.stateOf service).any isIgnored := by
  rw [sort_ignored sorted, nil_append, map_filterMap, ← filterMap_eq_filter]
  refine filterMap_congr fun service _ => ?_
  rw [ignoredOf, Option.guard]
  by_cases idle : (svcs.stateOf service).any isIgnored = true
  · obtain ⟨state, known, ignored⟩ := (any_eq_true _ _).mp idle
    rw [if_pos idle, filter_eq_some_iff.mpr ⟨known, ignored⟩]
    rfl
  · have nothing : (svcs.stateOf service).filter isIgnored = none :=
      filter_eq_none_iff.mpr fun state known ignored =>
        idle ((any_eq_true _ _).mpr ⟨state, known, ignored⟩)
    rw [if_neg idle, nothing]
    rfl

theorem perm_serviceNames {completed starting up ignored : List String}
    (distinct : completed.Nodup ∧ starting.Nodup ∧ up.Nodup ∧ ignored.Nodup)
    (isCompleted : ∀ service, service ∈ completed ↔ svcs.stateOf service = some .completed)
    (isStarting : ∀ service, service ∈ starting ↔ svcs.stateOf service = some .starting)
    (areUp : ∀ service, service ∈ up ↔ Up (svcs.stateOf service))
    (areIgnored : ∀ service, service ∈ ignored ↔ (svcs.stateOf service).any isIgnored = true) :
    (completed ++ starting ++ up ++ ignored).Perm svcs.serviceNames := by
  obtain ⟨completedOnce, startingOnce, upOnce, ignoredOnce⟩ := distinct
  refine (perm_ext_iff_of_nodup ?_ (OrdMap.nodup_keys _)).mpr fun service => ?_
  · refine nodup_append.mpr ⟨nodup_append.mpr ⟨nodup_append.mpr
      ⟨completedOnce, startingOnce, ?_⟩, upOnce, ?_⟩, ignoredOnce, ?_⟩
    · rintro service here _ there rfl
      cases ((isCompleted service).mp here).symm.trans ((isStarting service).mp there)
    · rintro service here _ there rfl
      have there := (areUp service).mp there
      rcases mem_append.mp here with here | here
      · rw [(isCompleted service).mp here] at there
        cases there
      · rw [(isStarting service).mp here] at there
        cases there
    · rintro service here _ there rfl
      have there := (areIgnored service).mp there
      rcases mem_append.mp here with here | here
      · rcases mem_append.mp here with here | here
        · rw [(isCompleted service).mp here] at there
          cases there
        · rw [(isStarting service).mp here] at there
          cases there
      · have here := (areUp service).mp here
        cases known : svcs.stateOf service with
        | none =>
          rw [known] at here
          cases here
        | some state =>
          rw [known] at here there
          cases state <;> simp [Up, isUp, isIgnored] at here there
  · have named : service ∈ svcs.serviceNames ↔ ∃ state, svcs.stateOf service = some state :=
      mem_serviceNames_iff
    rw [mem_append, mem_append, mem_append, isCompleted, isStarting, areUp, areIgnored]
    change _ ↔ service ∈ svcs.serviceNames
    rw [named]
    cases svcs.stateOf service with
    | none => simp [Up]
    | some state => cases state <;> simp [Up, isUp, isIgnored]

theorem planGracefulShutdown_exact (ran : planGracefulShutdown svcs = .ok plan) : plan.Exact svcs := by
  have planned := planGracefulShutdown_ok ran
  obtain ⟨sorting, sort, taken, -, -, rests⟩ := planGracefulShutdown_taken ran
  have ignored : ∀ service state, { service, state } ∈ plan.ignored ↔
      svcs.stateOf service = some state ∧ isIgnored state = true := by
    intro service state
    rw [rests, sort_ignored sort]
    simp only [nil_append, mem_filterMap, ignoredOf]
    constructor
    · rintro ⟨name, -, noted⟩
      obtain ⟨state', got, same⟩ := map_eq_some_iff.mp noted
      cases same
      exact filter_eq_some_iff.mp got
    · rintro known
      refine ⟨service, mem_serviceNames known.1, ?_⟩
      rw [filter_eq_some_iff.mpr known, map_some]
  have sameSet : {service | service ∈ sorting.stopCandidates} =
      {service | Up (svcs.stateOf service)} := by
    ext service
    exact stopCandidate_iff sort service
  refine ⟨?_, planned.completed, planned.starting, ignored, fun i service => ?_⟩
  · have names := rests ▸ ignored_names sort
    refine perm_serviceNames ⟨planned.completedDistinct, planned.startingDistinct, planned.distinct, ?_⟩
      planned.completed planned.starting (fun service => ?_) fun service => ?_
    · rw [names]
      exact (OrdMap.nodup_keys _).filter _
    · rw [List.mem_map]
      constructor
      · rintro ⟨part, mem, rfl⟩
        exact planned.up mem
      · intro up
        exact planned.complete service up
    · rw [names, mem_filter, and_iff_right_iff_imp]
      intro idle
      obtain ⟨state, known, -⟩ := (any_eq_true _ _).mp idle
      exact mem_serviceNames known
  · rw [← sameSet]
    exact taken.longest (definition_of_candidate sort) i service

theorem exists_inWave (ran : planGracefulShutdown svcs = .ok plan)
    (up : Up (svcs.stateOf service)) : ∃ i, plan.InWave i service := by
  obtain ⟨part, mem, named⟩ := (planGracefulShutdown_ok ran).complete service up
  obtain ⟨wave, inPlan, inWave⟩ := mem_flatMap.mp mem
  obtain ⟨i, placed⟩ := mem_iff_getElem?.mp inPlan
  exact ⟨i, wave, placed, mem_map.mpr ⟨part, inWave, named⟩⟩

/-- A shutdown is planned exactly when the order in which services that are up are to stop has no cycle,
and then every service has its place; with a cycle there is no plan. -/
theorem shutdown_plan_exact (services : ServiceTable) :
    ((∃ plan, planGracefulShutdown services = .ok plan ∧ plan.Exact services) ↔
      ∀ service, ¬ Relation.TransGen (MustStopBefore services) service service) ∧
    ((∃ cycle, planGracefulShutdown services = .error (.dependencyCycle cycle)) ↔
      ∃ service, Relation.TransGen (MustStopBefore services) service service) := by
  -- a plan gives every service that is up a longest chain, and on a cycle chains have any length
  have acyclic : ∀ plan, planGracefulShutdown services = .ok plan →
      ∀ service, ¬ Relation.TransGen (MustStopBefore services) service service := by
    intro plan ran service cycle
    obtain ⟨_, edge, -⟩ := Relation.TransGen.head'_iff.mp cycle
    obtain ⟨i, placed⟩ := exists_inWave ran edge.1
    have longest := ((planGracefulShutdown_exact ran).waves i service).mp placed
    have := longest.2 (ChainBack.of_cycle cycle (i + 1))
    omega
  have failed : ∀ error, planGracefulShutdown services = .error error →
      (∃ cycle, error = .dependencyCycle cycle) ∧
        ∃ service, Relation.TransGen (MustStopBefore services) service service := by
    intro error ran
    obtain ⟨cycle, sorting, sorted, service, around⟩ := planGracefulShutdown_eq_error ran
    have candidate := stopCandidate_iff sorted
    have wider : ∀ a b, StopsBefore services sorting.stopCandidates a b → MustStopBefore services a b :=
      fun a b edge => ⟨(candidate a).mp edge.1, (candidate b).mp edge.2.1, edge.2.2⟩
    exact ⟨cycle, service, Relation.TransGen.mono wider _ _ around⟩
  cases ran : planGracefulShutdown services with
  | ok plan =>
    have free := acyclic plan ran
    refine ⟨iff_of_true ⟨plan, rfl, planGracefulShutdown_exact ran⟩ free, iff_of_false ?_ ?_⟩
    · rintro ⟨cycle, ⟨⟩⟩
    · rintro ⟨service, cycle⟩
      exact free service cycle
  | error error =>
    obtain ⟨⟨cycle, rfl⟩, service, around⟩ := failed error ran
    refine ⟨iff_of_false ?_ ?_, iff_of_true ⟨cycle, rfl⟩ ⟨service, around⟩⟩
    · rintro ⟨plan, ⟨⟩, -⟩
    · intro acyclic
      exact acyclic service around

/-! ## Dependencies through other services -/

def ServiceTable.DependsHard (services : ServiceTable) (service target : String) : Prop :=
  ∃ definition, services.definition service = some definition ∧
    target ∈ (hardDependencies definition).map (·.target)

theorem restsOn_of_dependsHard {target : String}
    (depends : svcs.DependsHard service target) (up : Up (svcs.stateOf target)) :
    RestsOn svcs.mixture service target := by
  obtain ⟨defn, defined, mem⟩ := depends
  obtain ⟨state, known, -⟩ := (any_eq_true _ _).mp up
  obtain ⟨runtime, got, -⟩ := map_eq_some_iff.mp known
  obtain ⟨entry, present, -⟩ := map_eq_some_iff.mp got
  refine ⟨defn.leaning, entry.definition.leaning, ?_, ?_, .inl mem⟩
  · rw [mixture, defined, map_some]
  · rw [mixture, definition, present, map_some, map_some]

/-- A service that rests on another through services that are all up is stopped in an earlier wave. -/
theorem stop_order_respects_running_dependencies {services : ServiceTable} {plan : ShutdownPlan}
    {a c : String} (ran : planGracefulShutdown services = .ok plan)
    (path : Relation.TransGen (fun service target => Up (services.stateOf service) ∧
      Up (services.stateOf target) ∧ services.DependsHard service target) a c) :
    (∃ i, plan.InWave i a) ∧ (∃ j, plan.InWave j c) ∧
      ∀ i j, plan.InWave i a → plan.InWave j c → i < j := by
  obtain ⟨_, first, -⟩ := Relation.TransGen.head'_iff.mp path
  obtain ⟨_, -, last⟩ := Relation.TransGen.tail'_iff.mp path
  refine ⟨exists_inWave ran first.1, exists_inWave ran last.2.1, fun i j inA inC => ?_⟩
  have longestA := ((planGracefulShutdown_exact ran).waves i a).mp inA
  have longestC := ((planGracefulShutdown_exact ran).waves j c).mp inC
  have rests : ∀ service target, (Up (services.stateOf service) ∧ Up (services.stateOf target) ∧
      services.DependsHard service target) → (service ∈ {service | Up (services.stateOf service)} ∧
        target ∈ {service | Up (services.stateOf service)} ∧ RestsOn services.mixture service target) :=
    fun service target edge => ⟨edge.1, edge.2.1, restsOn_of_dependsHard edge.2.2 edge.2.1⟩
  have longer := longestA.1.along (Relation.TransGen.mono rests _ _ path)
  exact longestC.2 longer

/-- `a` requires `b`, which requires `c`, and `b` is in `state`. -/
def threeServices (state : ServiceState) : ServiceTable where
  entries := (((∅ : OrdMap String ServiceEntry).insert "a"
    { definition := { name := "a", requires := ["b"] }, runtime := { state := .active } }).insert "b"
    { definition := { name := "b", requires := ["c"] }, runtime := { state } }).insert "c"
    { definition := { name := "c" }, runtime := { state := .active } }

theorem threeServices_acyclic (state : ServiceState) (svc : String) :
    ¬ Relation.TransGen (threeServices state).DependsHard svc svc := by
  have edges : ∀ svc target, (threeServices state).DependsHard svc target →
      svc = "a" ∧ target = "b" ∨ svc = "b" ∧ target = "c" := by
    rintro svc target ⟨defn, defined, mem⟩
    obtain ⟨entry, got, rfl⟩ := map_eq_some_iff.mp defined
    rw [ServiceTable.get, threeServices, OrdMap.get_insert, OrdMap.get_insert, OrdMap.get_insert] at got
    split_ifs at got with c b a
    · cases got
      cases mem
    · cases got
      exact .inr ⟨b.symm, mem_singleton.mp mem⟩
    · cases got
      exact .inl ⟨a.symm, mem_singleton.mp mem⟩
    · simp at got
  apply acyclic_of_rank (fun name => if name = "a" then 2 else if name = "b" then 1 else 0)
  intro svc target edge
  rcases edges svc target edge with ⟨rfl, rfl⟩ | ⟨rfl, rfl⟩ <;> decide

theorem stop_order_of_three_running_services :
    ∃ plan, planGracefulShutdown (threeServices .active) = .ok plan ∧
      ∀ i j, plan.InWave i "a" → plan.InWave j "c" → i < j := by
  refine Exists.imp (p := fun _ => _) (fun plan ran => ⟨ran, ?_⟩) (by decide +kernel)
  have edge : ∀ service target definition, Up ((threeServices .active).stateOf service) →
      Up ((threeServices .active).stateOf target) →
      (threeServices .active).definition service = some definition →
      target ∈ (hardDependencies definition).map (·.target) →
      Relation.TransGen (fun service target => Up ((threeServices .active).stateOf service) ∧
        Up ((threeServices .active).stateOf target) ∧
        (threeServices .active).DependsHard service target) service target :=
    fun service target definition upS upT defined listed => .single ⟨upS, upT, definition, defined, listed⟩
  have first := edge "a" "b" { name := "a", requires := ["b"] } (by decide +kernel) (by decide +kernel)
    (by decide +kernel) (by decide +kernel)
  have second := edge "b" "c" { name := "b", requires := ["c"] } (by decide +kernel) (by decide +kernel)
    (by decide +kernel) (by decide +kernel)
  exact (stop_order_respects_running_dependencies ran (first.trans second)).2.2

/-- When the service in between has completed, the other two are stopped at once. -/
theorem stop_order_ignores_completed_dependency :
    (∀ service, ¬ Relation.TransGen (threeServices .completed).DependsHard service service) ∧
    (threeServices .completed).DependsHard "a" "b" ∧ (threeServices .completed).DependsHard "b" "c" ∧
    ∃ plan, planGracefulShutdown (threeServices .completed) = .ok plan ∧
      plan.InWave 0 "a" ∧ plan.InWave 0 "c" := by
  refine ⟨threeServices_acyclic .completed, ?_⟩
  unfold ServiceTable.DependsHard ShutdownPlan.InWave
  decide +kernel

end Peinit
