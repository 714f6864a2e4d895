import Peinit.Shutdown.Effects

/-!
# What a plan plans

The participants of a plan are the services that are up, each once, in the state it is in; what is
starting is to be killed, and what has completed is to be cleared.
-/

namespace Peinit

open OrdMap ServiceTable

variable {name svc : String} {names : List String}
  {remaining left : OrdMap String ShutdownStopParticipant} {participant : ShutdownStopParticipant}
  {taken : List ShutdownStopParticipant} {waves : List ShutdownStopWave} {svcs : ServiceTable}
  {plan : ShutdownPlan}

/-- The participant that a service in `state` is. -/
def participantOf (service : String) (state : ServiceState) : ShutdownStopParticipant :=
  { service, state, alreadyStopping := state = .stopping }

/-! ## Sorting the services -/

namespace ShutdownSorting

variable {sorting sorted : ShutdownSorting}

/-- How sorting one service extends the sorting. -/
structure Sorted (services : ServiceTable) (names : List String) (sorting sorted : ShutdownSorting) :
    Prop where
  completed : sorted.completedToClear = sorting.completedToClear ++
    names.filter (services.stateOf · = some .completed)
  starting : sorted.startingToKill = sorting.startingToKill ++
    names.filter (services.stateOf · = some .starting)
  candidates : ∀ service, sorted.stopCandidates[service]? =
    if service ∈ names ∧ Up (services.stateOf service) then
      (services.stateOf service).map (participantOf service)
    else sorting.stopCandidates[service]?

theorem sort_ok (ran : sort svcs sorting name = .ok sorted) : Sorted svcs [name] sorting sorted := by
  unfold sort at ran
  split at ran
  · cases ran
  · next runtime got =>
    have state : svcs.stateOf name = some runtime.state := by
      rw [stateOf, got, Option.map_some]
    have away : ∀ svc, ¬ Up (svcs.stateOf name) →
        ¬ (svc ∈ [name] ∧ Up (svcs.stateOf svc)) := by
      rintro svc idle ⟨here, up⟩
      rw [List.mem_singleton.mp here] at up
      exact idle up
    cases is : runtime.state <;> rw [is] at ran state <;> cases ran <;>
      refine ⟨by simp [state], by simp [state], fun svc => ?_⟩
    all_goals
      first
      | rw [if_neg (away svc (by rw [state]; decide))]
      | rw [get_insert]
        by_cases here : name = svc
        · subst here
          rw [if_pos rfl, if_pos ⟨List.mem_singleton.mpr rfl, by rw [state]; decide⟩, state]
          rfl
        · rw [if_neg here, if_neg fun both => here (List.mem_singleton.mp both.1).symm]

theorem Sorted.cons {mid : ShutdownSorting}
    (first : Sorted svcs [name] sorting mid) (later : Sorted svcs names mid sorted) :
    Sorted svcs (name :: names) sorting sorted where
  completed := by
    rw [later.completed, first.completed, List.append_assoc, ← List.filter_append]
    rfl
  starting := by
    rw [later.starting, first.starting, List.append_assoc, ← List.filter_append]
    rfl
  candidates := by
    intro svc
    rw [later.candidates, first.candidates]
    by_cases up : Up (svcs.stateOf svc)
    · simp only [up]
      split_ifs <;> simp_all
    · simp [up]

theorem sort_all (ran : names.foldlM (sort svcs) sorting = .ok sorted) :
    Sorted svcs names sorting sorted := by
  induction names generalizing sorting with
  | nil =>
    cases ran
    exact ⟨by simp, by simp, fun _ => by simp⟩
  | cons name names ih =>
    obtain ⟨mid, first, rest⟩ := bind_eq_ok.mp ran
    exact (sort_ok first).cons (ih rest)

end ShutdownSorting

/-! ## The waves -/

/-- Each participant stands under its own name. -/
def Keyed (remaining : OrdMap String ShutdownStopParticipant) : Prop :=
  ∀ (service : String) (participant : ShutdownStopParticipant),
    remaining[service]? = some participant → participant.service = service

theorem Keyed.of_subset {fewer : OrdMap String ShutdownStopParticipant} (keyed : Keyed remaining)
    (subset : ∀ (svc : String) (part : ShutdownStopParticipant),
      fewer[svc]? = some part → remaining[svc]? = some part) : Keyed fewer :=
  fun svc part got => keyed svc part (subset svc part got)

/-- The participants that were taken are those of the names, each of them once. -/
structure Taken (names : List String) (remaining : OrdMap String ShutdownStopParticipant)
    (taken : List ShutdownStopParticipant) (left : OrdMap String ShutdownStopParticipant) : Prop where
  names_eq : taken.map (·.service) = names
  distinct : names.Nodup
  found : ∀ participant ∈ taken, remaining[participant.service]? = some participant
  left : ∀ service, left[service]? = if service ∈ names then none else remaining[service]?

theorem Taken.of_left (first : Taken names remaining taken left)
    (got : left[svc]? = some part) : remaining[svc]? = some part := by
  rw [first.left] at got
  split_ifs at got
  exact got

theorem Taken.cons (named : part.service = name) (got : remaining[name]? = some part)
    (later : Taken names (remaining.erase name) taken left) :
    Taken (name :: names) remaining (part :: taken) left where
  names_eq := by rw [List.map_cons, named, later.names_eq]
  distinct := by
    refine List.nodup_cons.mpr ⟨fun again => ?_, later.distinct⟩
    rw [← later.names_eq] at again
    obtain ⟨p, mem, same⟩ := List.mem_map.mp again
    have erased := later.found p mem
    rw [get_erase, if_pos same.symm] at erased
    cases erased
  found := by
    intro p mem
    rcases List.mem_cons.mp mem with rfl | mem
    · rw [named]
      exact got
    · have erased := later.found p mem
      exact (get_erase_eq_some.mp erased).2
  left := by
    intro svc
    rw [later.left, get_erase]
    simp only [List.mem_cons]
    split_ifs <;> simp_all

theorem takeReady_all {wave : List ShutdownStopParticipant} (keyed : Keyed remaining)
    {out : List ShutdownStopParticipant × OrdMap String ShutdownStopParticipant}
    (ran : names.foldlM takeReady (wave, remaining) = .ok out) :
    ∃ taken, out.1 = wave ++ taken ∧ Taken names remaining taken out.2 := by
  induction names generalizing wave remaining with
  | nil =>
    cases ran
    exact ⟨[], by simp, rfl, .nil, nofun, fun _ => by simp⟩
  | cons name names ih =>
    obtain ⟨⟨wave', remaining'⟩, first, rest⟩ := bind_eq_ok.mp ran
    unfold takeReady at first
    split at first
    · cases first
    · next participant got =>
      cases first
      have fewer : Keyed (remaining.erase name) := keyed.of_subset fun svc p found' =>
        (get_erase_eq_some.mp found').2
      obtain ⟨taken, list, later⟩ := ih fewer rest
      exact ⟨participant :: taken, by rw [list]; simp, later.cons (keyed _ _ got) got⟩

/-- Waves that stop the participants in `remaining`, each of them once. -/
structure Waves (remaining : OrdMap String ShutdownStopParticipant) (waves : List ShutdownStopWave) :
    Prop where
  found : ∀ participant ∈ waves.flatMap (·.services), remaining[participant.service]? = some participant
  distinct : ((waves.flatMap (·.services)).map (·.service)).Nodup
  complete : ∀ (service : String) (participant : ShutdownStopParticipant),
    remaining[service]? = some participant → participant ∈ waves.flatMap (·.services)

theorem Waves.cons (first : Taken names remaining taken left) (later : Waves left waves) :
    Waves remaining ({ services := taken } :: waves) where
  found := by
    intro participant mem
    rcases List.mem_append.mp mem with here | there
    · exact first.found participant here
    · exact first.of_left (later.found participant there)
  distinct := by
    rw [List.flatMap_cons, List.map_append, List.nodup_append]
    refine ⟨first.names_eq ▸ first.distinct, later.distinct, ?_⟩
    -- what was taken is not left
    rintro _ here _ there rfl
    obtain ⟨p, mem, same⟩ := List.mem_map.mp there
    have left := later.found p mem
    rw [first.left, if_pos (by rw [same, ← first.names_eq]; exact here)] at left
    cases left
  complete := by
    intro svc participant got
    rw [List.flatMap_cons, List.mem_append]
    by_cases here : svc ∈ names
    · left
      rw [← first.names_eq] at here
      obtain ⟨p, mem, rfl⟩ := List.mem_map.mp here
      cases (first.found p mem).symm.trans got
      exact mem
    · right
      refine later.complete svc participant ?_
      rw [first.left, if_neg here]
      exact got

theorem Waves.nil : Waves ∅ [] := ⟨nofun, .nil, fun _ _ got => by simp at got⟩

theorem Taken.size_left (first : Taken names remaining taken left)
    (nonempty : names ≠ []) : left.size < remaining.size := by
  obtain ⟨name, mem⟩ := List.exists_mem_of_ne_nil names nonempty
  have gone : name ∉ left.keys := by
    rw [mem_keys, first.left, if_pos mem]
    simp
  have subset : name :: left.keys ⊆ remaining.keys := by
    intro svc member
    rw [mem_keys]
    rcases List.mem_cons.mp member with rfl | there
    · rw [← first.names_eq] at mem
      obtain ⟨participant, here, rfl⟩ := List.mem_map.mp mem
      exact ⟨participant, first.found participant here⟩
    · obtain ⟨participant, got⟩ := (mem_keys _ _).mp there
      exact ⟨participant, first.of_left got⟩
  have distinct : (name :: left.keys).Nodup := List.nodup_cons.mpr ⟨gone, nodup_keys left⟩
  have longer := (distinct.subperm subset).length_le
  rw [List.length_cons, Std.ExtTreeMap.length_keys, Std.ExtTreeMap.length_keys] at longer
  exact longer

/-- The waves that are taken round after round, each of what is ready then. -/
inductive TakenInWaves (services : ServiceTable) :
    OrdMap String ShutdownStopParticipant → List ShutdownStopWave → Prop
  | nil : TakenInWaves services ∅ []
  | cons {remaining left : OrdMap String ShutdownStopParticipant}
      {dependents : OrdMap String (OrdSet String)} {taken : List ShutdownStopParticipant}
      {waves : List ShutdownStopWave} (noted : dependentsByTarget services remaining.keys = .ok dependents)
      (first : Taken (readyToStop dependents remaining) remaining taken left)
      (later : TakenInWaves services left waves) :
      TakenInWaves services remaining ({ services := taken } :: waves)

theorem TakenInWaves.toWaves (taken : TakenInWaves svcs remaining waves) : Waves remaining waves := by
  induction taken with
  | nil => exact .nil
  | cons _ first _ ih => exact .cons first ih

theorem reverseDependencyWaves_ok (fuel : ℕ) (keyed : Keyed remaining) (enough : remaining.size ≤ fuel)
    (ran : reverseDependencyWaves svcs fuel remaining = .ok waves) :
    TakenInWaves svcs remaining waves := by
  induction fuel generalizing remaining waves with
  | zero =>
    cases ran
    have empty : remaining = ∅ := Std.ExtTreeMap.isEmpty_iff.mp (by
      rw [Std.ExtTreeMap.isEmpty_eq_size_beq_zero]
      simpa using enough)
    rw [empty]
    exact .nil
  | succ fuel ih =>
    unfold reverseDependencyWaves at ran
    split_ifs at ran with empty
    · cases ran
      rw [Std.ExtTreeMap.isEmpty_iff.mp empty]
      exact .nil
    · obtain ⟨dependents, noted, rest⟩ := bind_eq_ok.mp ran
      dsimp only at rest
      split_ifs at rest with stuck
      obtain ⟨⟨wave, left⟩, take, rest⟩ := bind_eq_ok.mp rest
      obtain ⟨later, plan, last⟩ := bind_eq_ok.mp rest
      cases last
      obtain ⟨taken, list, first⟩ := takeReady_all keyed take
      subst list
      have fewer := first.size_left (by simpa using stuck)
      exact .cons noted first (ih (keyed.of_subset fun _ _ => first.of_left) (by omega) plan)

/-! ## The plan -/

/-- What a plan says of the services it was made for. -/
structure Planned (services : ServiceTable) (plan : ShutdownPlan) : Prop where
  participant : ∀ participant ∈ plan.participants, ∃ state,
    services.stateOf participant.service = some state ∧ isUp state = true ∧
      participant = participantOf participant.service state
  distinct : (plan.participants.map (·.service)).Nodup
  complete : ∀ service, Up (services.stateOf service) →
    ∃ participant ∈ plan.participants, participant.service = service
  completed : ∀ service, service ∈ plan.completedToClear ↔ services.stateOf service = some .completed
  starting : ∀ service, service ∈ plan.startingToKill ↔ services.stateOf service = some .starting
  completedDistinct : plan.completedToClear.Nodup
  startingDistinct : plan.startingToKill.Nodup

theorem ServiceTable.mem_serviceNames {state : ServiceState}
    (got : svcs.stateOf svc = some state) : svc ∈ svcs.serviceNames := by
  unfold stateOf runtime at got
  rw [serviceNames, mem_keys]
  cases entry : svcs.get svc with
  | none => rw [entry] at got; cases got
  | some entry' => exact ⟨entry', entry⟩

theorem ShutdownSorting.candidate {sorting : ShutdownSorting}
    (sorted : svcs.serviceNames.foldlM (sort svcs) {} = .ok sorting)
    (got : sorting.stopCandidates[svc]? = some part) :
    ∃ state, svcs.stateOf svc = some state ∧ isUp state = true ∧ part = participantOf svc state := by
  rw [(sort_all sorted).candidates] at got
  split_ifs at got with up
  · obtain ⟨state, known, rfl⟩ := Option.map_eq_some_iff.mp got
    have isUp := up.2
    rw [known] at isUp
    exact ⟨state, known, isUp, rfl⟩
  · simp at got

/-- A plan sorts the services, and takes the candidates in waves. -/
theorem planGracefulShutdown_taken (ran : planGracefulShutdown svcs = .ok plan) :
    ∃ sorting, svcs.serviceNames.foldlM (ShutdownSorting.sort svcs) {} = .ok sorting ∧
      TakenInWaves svcs sorting.stopCandidates plan.stopWaves ∧
      plan.completedToClear = sorting.completedToClear ∧
      plan.startingToKill = sorting.startingToKill ∧ plan.ignored = sorting.ignored := by
  obtain ⟨sorting, sorted, rest⟩ := bind_eq_ok.mp ran
  obtain ⟨stopWaves, waves, last⟩ := bind_eq_ok.mp rest
  cases last
  have keyed : Keyed sorting.stopCandidates := by
    intro svc part got
    obtain ⟨state, -, -, rfl⟩ := ShutdownSorting.candidate sorted got
    rfl
  exact ⟨sorting, sorted, reverseDependencyWaves_ok _ keyed le_rfl waves, rfl, rfl, rfl⟩

theorem planGracefulShutdown_ok (ran : planGracefulShutdown svcs = .ok plan) : Planned svcs plan := by
  obtain ⟨sorting, sort, taken, completed, starting, -⟩ := planGracefulShutdown_taken ran
  have sorted := ShutdownSorting.sort_all sort
  have planned := taken.toWaves
  have named : ∀ (state : ServiceState) (svc : String), svc ∈ svcs.serviceNames.filter
      (svcs.stateOf · = some state) ↔ svcs.stateOf svc = some state := by
    intro state svc
    rw [List.mem_filter, decide_eq_true_iff, and_iff_right_iff_imp]
    exact mem_serviceNames
  refine ⟨fun participant mem => ?_, planned.distinct, fun svc up => ?_, ?_, ?_, ?_, ?_⟩
  · exact ShutdownSorting.candidate sort (planned.found participant mem)
  · cases known : svcs.stateOf svc with
    | none => rw [known] at up; cases up
    | some state =>
      refine ⟨participantOf svc state, planned.complete svc _ ?_, rfl⟩
      rw [sorted.candidates, if_pos ⟨mem_serviceNames known, up⟩, known]
      rfl
  · rw [completed, sorted.completed]
    exact named .completed
  · rw [starting, sorted.starting]
    exact named .starting
  · rw [completed, sorted.completed]
    exact (nodup_keys _).filter _
  · rw [starting, sorted.starting]
    exact (nodup_keys _).filter _

theorem Planned.up (planned : Planned svcs plan) (mem : participant ∈ plan.participants) :
    Up (svcs.stateOf participant.service) := by
  obtain ⟨state, known, up, -⟩ := planned.participant participant mem
  rw [known]
  exact up

end Peinit
