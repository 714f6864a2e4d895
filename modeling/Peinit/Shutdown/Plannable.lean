import Peinit.Lib.Peeling
import Peinit.Service.Acyclic
import Peinit.Service.Generations
import Peinit.Shutdown.Planned

/-!
# Whether a shutdown can be planned

The waves follow the dependencies that services were started with. Each snapshot that is accepted is
free of cycles, but the table holds a mixture of several. A plan fails only if the mixture has a cycle,
through a dependency that the last validation did not see.
-/

namespace Peinit

open Std.ExtTreeMap Option ServiceTable

variable {dependents : OrdMap String (OrdSet String)} {target dependent other service : String}
  {remaining : OrdMap String ShutdownStopParticipant} {ready : List String}
  {svcs : ServiceTable}

/-- What counts of a definition when a shutdown is planned. -/
structure Leaning where
  targets : List String
  builtIn : Bool
  deriving DecidableEq

def ServiceDefinition.leaning (definition : ServiceDefinition) : Leaning where
  targets := (hardDependencies definition).map (·.target)
  builtIn := definition.compiledIn

/-- `service` is to be down before `target` is stopped. -/
def RestsOn (mixture : String → Option Leaning) (service target : String) : Prop :=
  ∃ mine theirs, mixture service = some mine ∧ mixture target = some theirs ∧
    (target ∈ mine.targets ∨ mine.builtIn = false ∧ theirs.builtIn = true)

def ServiceTable.mixture (services : ServiceTable) (service : String) : Option Leaning :=
  (services.definition service).map (·.leaning)

/-! ## The waves of a mixture without cycles -/

section Waves

theorem mem_insertDependent :
    service ∈ (insertDependent dependents target dependent)[other]?.getD ∅ ↔
      service ∈ dependents[other]?.getD ∅ ∨ dependent = service ∧ target = other := by
  unfold insertDependent
  rw [OrdMap.get_insert]
  split_ifs with here
  · subst here
    rw [getD_some, OrdSet.mem_insert]
    tauto
  · simp [here]

theorem mem_foldl_insertDependent {β : Type} (target : β → String) (items : List β) :
    service ∈ (items.foldl (fun dependents item =>
        insertDependent dependents (target item) dependent) dependents)[other]?.getD ∅ ↔
      service ∈ dependents[other]?.getD ∅ ∨ dependent = service ∧ ∃ item ∈ items, target item = other := by
  induction items generalizing dependents with
  | nil => simp
  | cons item items ih =>
    rw [List.foldl_cons, ih, mem_insertDependent, List.exists_mem_cons_iff]
    tauto

theorem mem_dependentsByTarget {candidates : List String}
    (known : ∀ candidate ∈ candidates, ∃ defn, svcs.definition candidate = some defn)
    (ran : dependentsByTarget svcs candidates = .ok dependents)
    (there : target ∈ candidates) : service ∈ dependents[target]?.getD ∅ ↔
      service ∈ candidates ∧ RestsOn svcs.mixture service target := by
  obtain ⟨theirs, defined⟩ := known target there
  have leaning : svcs.mixture target = some theirs.leaning := by
    rw [mixture, defined, map_some]
  have builtIn : (∃ item ∈ candidates.filter fun service =>
      (svcs.definition service).any (·.compiledIn), item = target) ↔ theirs.compiledIn = true := by
    simp [there, defined]
  have step : ∀ dependent before after, noteDependent svcs candidates
      (candidates.filter fun service => (svcs.definition service).any (·.compiledIn)) before
      dependent = .ok after → (service ∈ after[target]?.getD ∅ ↔ service ∈ before[target]?.getD ∅ ∨
        dependent = service ∧ RestsOn svcs.mixture service target) := by
    intro dependent before after ran
    unfold noteDependent at ran
    cases defines : svcs.definition dependent with
    | none =>
      rw [defines] at ran
      cases ran
    | some defn =>
      rw [defines] at ran
      cases ran
      have mine : dependent = service → svcs.mixture service = some defn.leaning := by
        rintro rfl
        rw [mixture, defines, map_some]
      have declared : (∃ item ∈ (hardDependencies defn).filter (candidates.contains ·.target),
          item.target = target) ↔ target ∈ defn.leaning.targets := by
        simp only [List.mem_filter, List.contains_iff_mem, ServiceDefinition.leaning, List.mem_map]
        constructor
        · rintro ⟨item, ⟨mem, -⟩, same⟩
          exact ⟨item, mem, same⟩
        · rintro ⟨item, mem, same⟩
          exact ⟨item, ⟨mem, by rw [same]; exact there⟩, same⟩
      have rests : dependent = service → (RestsOn svcs.mixture service target ↔
          target ∈ defn.leaning.targets ∨ defn.compiledIn = false ∧ theirs.compiledIn = true) := by
        intro same
        unfold RestsOn
        simp only [mine same, leaning, some.injEq, exists_and_left, exists_eq_left']
        rfl
      rw [mem_foldl_insertDependent, declared]
      split_ifs with compiledIn
      · refine or_congr_right (and_congr_right fun same => ?_)
        rw [rests same]
        simp [compiledIn]
      · rw [mem_foldl_insertDependent (fun name => name), builtIn]
        refine or_assoc.trans (or_congr_right ?_)
        rw [← and_or_left]
        refine and_congr_right fun same => Or.comm.trans ?_
        rw [rests same]
        simp [compiledIn]
  rw [foldlM_collects (fun dependents : OrdMap String (OrdSet String) =>
    service ∈ dependents[target]?.getD ∅) _ step ran]
  simp

theorem mem_readyToStop (known : ∀ service ∈ remaining, ∃ defn, svcs.definition service = some defn)
    (ran : dependentsByTarget svcs remaining.keys = .ok dependents) :
    service ∈ readyToStop dependents remaining ↔ service ∈ remaining ∧
      ∀ other ∈ remaining, ¬ RestsOn svcs.mixture other service := by
  unfold readyToStop
  rw [List.mem_filter, mem_keys]
  refine and_congr_right fun there => ?_
  have noted : ∀ other, other ∈ dependents[service]?.getD ∅ ↔
      other ∈ remaining.keys ∧ RestsOn svcs.mixture other service := fun other =>
    mem_dependentsByTarget (fun service mem => known service (mem_keys.mp mem)) ran (mem_keys.mpr there)
  have entries : ((dependents[service]?).all fun entries => entries.toList.all fun dependent =>
      !remaining.contains dependent) = true ↔
        ∀ other ∈ dependents[service]?.getD ∅, other ∉ remaining := by
    cases dependents[service]? with
    | none => simp
    | some entries =>
      rw [all_some, List.all_eq_true]
      refine forall_congr' fun other => ?_
      rw [Std.ExtTreeSet.mem_toList, Bool.not_eq_true', ← Bool.not_eq_true]
      rfl
  rw [entries]
  constructor
  · intro gone other mem resting
    exact gone other ((noted other).mpr ⟨mem_keys.mpr mem, resting⟩) mem
  · intro last other mem remains
    exact last other remains ((noted other).mp mem).2

theorem takeReady_subset {wave : List ShutdownStopParticipant}
    {out : List ShutdownStopParticipant × OrdMap String ShutdownStopParticipant}
    (ran : ready.foldlM takeReady (wave, remaining) = .ok out) :
    ∀ service ∈ out.2, service ∈ remaining := by
  refine foldlM_invariant (fun state : List ShutdownStopParticipant ×
    OrdMap String ShutdownStopParticipant => ∀ service ∈ state.2, service ∈ remaining)
    (fun name _ before after inside step => ?_) (fun _ mem => mem) ran
  unfold takeReady at step
  split at step
  · cases step
  · cases step
    intro service mem
    exact inside service (mem_of_mem_erase mem)

theorem takeReady_total (wave : List ShutdownStopParticipant) (distinct : ready.Nodup)
    (inside : ∀ service ∈ ready, service ∈ remaining) :
    ∃ out, ready.foldlM takeReady (wave, remaining) = .ok out := by
  induction ready generalizing wave remaining with
  | nil => exact ⟨_, rfl⟩
  | cons name names ih =>
    obtain ⟨fresh, distinct⟩ := List.nodup_cons.mp distinct
    obtain ⟨part, got⟩ := isSome_iff_exists.mp (mem_iff_isSome_getElem?.mp (inside name (by simp)))
    have step : takeReady (wave, remaining) name = .ok (wave ++ [part], remaining.erase name) := by
      simp only [takeReady, got]
    rw [List.foldlM_cons, step]
    refine ih _ distinct fun service mem => mem_erase.mpr ⟨?_, inside service (by simp [mem])⟩
    simp only [ne_eq, compare_eq_iff_eq]
    rintro rfl
    exact fresh mem

/-- That one service that remains is to be down before another. -/
def StopsBefore (services : ServiceTable) (remaining : OrdMap String ShutdownStopParticipant)
    (service target : String) : Prop :=
  service ∈ remaining ∧ target ∈ remaining ∧ RestsOn services.mixture service target

theorem reverseDependencyWaves_eq_error (fuel : ℕ) {error : ShutdownPlanError}
    (known : ∀ service ∈ remaining, ∃ defn, svcs.definition service = some defn)
    (ran : reverseDependencyWaves svcs fuel remaining = .error error) :
    (∃ cycle, error = .dependencyCycle cycle) ∧
      ∃ service, Relation.TransGen (StopsBefore svcs remaining) service service := by
  induction fuel generalizing remaining with
  | zero => cases ran
  | succ fuel ih =>
    rw [reverseDependencyWaves] at ran
    split_ifs at ran with empty
    rcases bind_eq_error.mp ran with failed | ⟨dependents, got, ran⟩
    · obtain ⟨service, mem, _, failed⟩ := foldlM_eq_error failed
      obtain ⟨defn, defined⟩ := known service (mem_keys.mp mem)
      unfold noteDependent at failed
      rw [defined] at failed
      cases failed
    have ready : ∀ service, service ∈ readyToStop dependents remaining ↔ service ∈ remaining ∧
        ∀ other ∈ remaining, ¬ RestsOn svcs.mixture other service :=
      fun service => mem_readyToStop known got
    dsimp only at ran
    split_ifs at ran with stuck
    · -- everything that remains waits for something that remains
      cases ran
      refine ⟨⟨_, rfl⟩, ?_⟩
      by_contra acyclic
      push Not at acyclic
      obtain ⟨first, there⟩ : ∃ service, service ∈ remaining := by
        by_contra absent
        push Not at absent
        exact empty (isEmpty_iff.mpr (eq_empty_iff_forall_not_mem.mpr absent))
      have finite : {service | service ∈ remaining}.Finite :=
        (remaining.keys.toFinset.finite_toSet).subset fun service mem => by
          simpa using mem
      obtain ⟨service, member, last⟩ := exists_last_of_acyclic
        (fun service cycle => acyclic service (Relation.transGen_swap.mp cycle)) finite there
      have mem := (ready service).mpr
        ⟨member, fun other inside resting => last other inside ⟨inside, member, resting⟩⟩
      rw [List.isEmpty_iff.mp stuck] at mem
      cases mem
    · rcases bind_eq_error.mp ran with failed | ⟨⟨wave, left⟩, taken, ran⟩
      · have distinct : (readyToStop dependents remaining).Nodup := (OrdMap.nodup_keys _).filter _
        obtain ⟨out, taken⟩ := takeReady_total [] distinct fun service mem => ((ready service).mp mem).1
        cases failed.symm.trans taken
      · rcases bind_eq_error.mp ran with failed | ⟨waves, -, ran⟩
        · have fewer := takeReady_subset taken
          obtain ⟨cycle, service, around⟩ := ih (fun service mem => known service (fewer service mem))
            failed
          have wider : ∀ a b, StopsBefore svcs left a b → StopsBefore svcs remaining a b :=
            fun a b edge => ⟨fewer a edge.1, fewer b edge.2.1, edge.2.2⟩
          exact ⟨cycle, service, Relation.TransGen.mono wider _ _ around⟩
        · cases ran

theorem definition_of_candidate {sorting : ShutdownSorting}
    (sorted : svcs.serviceNames.foldlM (ShutdownSorting.sort svcs) {} = .ok sorting) :
    ∀ service ∈ sorting.stopCandidates, ∃ defn, svcs.definition service = some defn := by
  intro service mem
  have candidates := (ShutdownSorting.sort_all sorted).candidates service
  rw [mem_iff_isSome_getElem?, candidates] at mem
  split_ifs at mem
  · rw [isSome_map, stateOf, runtime, isSome_map, isSome_map] at mem
    obtain ⟨entry, got⟩ := isSome_iff_exists.mp mem
    exact ⟨entry.definition, by rw [definition, got, map_some]⟩
  · simp at mem

theorem ServiceTable.mem_serviceNames_iff :
    service ∈ svcs.serviceNames ↔ ∃ state, svcs.stateOf service = some state := by
  constructor
  · intro mem
    obtain ⟨entry, got⟩ := (OrdMap.mem_keys _ _).mp mem
    have present : svcs.get service = some entry := got
    exact ⟨entry.runtime.state, by
      rw [stateOf, runtime, present, map_some, map_some]⟩
  · rintro ⟨state, known⟩
    exact mem_serviceNames known

theorem ShutdownSorting.sort_total (svcs : ServiceTable) :
    ∃ sorting, svcs.serviceNames.foldlM (sort svcs) {} = .ok sorting := by
  have each : ∀ name ∈ svcs.serviceNames, ∀ sorting, True →
      ∃ sorted, sort svcs sorting name = .ok sorted ∧ True := by
    intro name mem sorting _
    obtain ⟨state, known⟩ := mem_serviceNames_iff.mp mem
    obtain ⟨runtime, got, -⟩ := map_eq_some_iff.mp known
    simp only [sort, got]
    split <;> exact ⟨_, rfl, trivial⟩
  obtain ⟨sorting, sorted, -⟩ := foldlM_total (fun _ => True) each trivial
  exact ⟨sorting, sorted⟩

/-- A plan fails only for a cycle among the candidates. -/
theorem planGracefulShutdown_eq_error {error : ShutdownPlanError}
    (ran : planGracefulShutdown svcs = .error error) :
    (∃ cycle, error = .dependencyCycle cycle) ∧
      ∃ sorting, svcs.serviceNames.foldlM (ShutdownSorting.sort svcs) {} = .ok sorting ∧
        ∃ service, Relation.TransGen (StopsBefore svcs sorting.stopCandidates) service service := by
  obtain ⟨sorting, sorted⟩ := ShutdownSorting.sort_total svcs
  unfold planGracefulShutdown at ran
  rw [sorted] at ran
  rcases bind_eq_error.mp ran with failed | ⟨_, found, ran⟩
  · cases failed
  cases found
  rcases bind_eq_error.mp ran with failed | ⟨waves, -, ran⟩
  · obtain ⟨cycle, around⟩ := reverseDependencyWaves_eq_error _ (definition_of_candidate sorted) failed
    exact ⟨cycle, sorting, sorted, around⟩
  · cases ran

theorem planGracefulShutdown_ne_cycle
    (acyclic : ∀ service, ¬ Relation.TransGen (RestsOn svcs.mixture) service service)
    (cycle : List String) : planGracefulShutdown svcs ≠ .error (.dependencyCycle cycle) := by
  intro ran
  obtain ⟨-, sorting, -, service, around⟩ := planGracefulShutdown_eq_error ran
  exact acyclic service (Relation.TransGen.mono (fun _ _ edge => edge.2.2) _ _ around)

end Waves

/-! ## Mixtures of generations -/

namespace ServiceTable

/-- The leanings that a service has or may come to have: that of its definition, and that of the one
that is pending. -/
def Leans (services : ServiceTable) (name : String) (leaning : Leaning) : Prop :=
  ∃ entry, services.get name = some entry ∧ (leaning = entry.definition.leaning ∨
    entry.definitionRemoved = false ∧ ∃ pending ∈ entry.pendingDefinition, leaning = pending.leaning)

/-- No mixture that moving services can bring about has a cycle. -/
def Orderly (services : ServiceTable) : Prop :=
  ∀ mixture : String → Option Leaning,
    (∀ name leaning, mixture name = some leaning → services.Leans name leaning) →
      ∀ service, ¬ Relation.TransGen (RestsOn mixture) service service

/-- The leanings that a service may have after a reload: that of the new definition; that of the one it
keeps, if it is up or left alone; and that of what was pending if it is left alone altogether. -/
def MayLean (services : ServiceTable) (read : ServiceDefinitionsRead)
    (incoming : OrdMap String ServiceDefinition) (frozen : List String) (name : String)
    (leaning : Leaning) : Prop :=
  (∃ definition, incoming[name]? = some definition ∧ leaning = definition.leaning) ∨
  (∃ entry, services.get name = some entry ∧
    (retainsDefinitionAfterRemoval entry.runtime.state = true ∨ name ∈ frozen) ∧
      leaning = entry.definition.leaning) ∨
  (incoming[name]? = none ∧ name ∈ frozen ∧ services.Leans name leaning) ∨
  (incoming[name]? = none ∧ name ∈ read.undecodable.map (·.name) ∧ leaning = ⟨[], false⟩)

/-- The definitions that a reload validates. -/
def validates (services : ServiceTable) (read : ServiceDefinitionsRead) : List ServiceDefinition :=
  definitionsWithPlaceholders (services.carriedDefinitions read) read.undecodable

/-- After the reload some mixture of what services keep and what they are given has a cycle, with a
dependency in it that the validation did not see. -/
def Entangles (services : ServiceTable) : TableEvent → Prop
  | .reload read frozen =>
    ∃ incoming, mapDefinitions (services.carriedDefinitions read) = .ok incoming ∧
      ∃ mixture : String → Option Leaning,
        (∀ name leaning, mixture name = some leaning →
          services.MayLean read incoming frozen name leaning) ∧
        ∃ service target, RestsOn mixture service target ∧
          ¬ OrderedAfter (validatedDefinitions (services.validates read)) service target ∧
          Relation.ReflTransGen (RestsOn mixture) target service
  | .transition _ _ => False

theorem Orderly.acyclic (orderly : svcs.Orderly) (svc : String) :
    ¬ Relation.TransGen (RestsOn svcs.mixture) svc svc := by
  refine orderly svcs.mixture (fun name leaning is => ?_) svc
  obtain ⟨defn, defines, rfl⟩ := map_eq_some_iff.mp is
  obtain ⟨entry, got, rfl⟩ := map_eq_some_iff.mp defines
  exact ⟨entry, got, .inl rfl⟩

theorem Orderly.mono {after : ServiceTable} (orderly : svcs.Orderly)
    (fewer : ∀ name leaning, after.Leans name leaning → svcs.Leans name leaning) :
    after.Orderly :=
  fun mixture leans => orderly mixture fun name leaning is => fewer name leaning (leans name leaning is)

/-! ### One event -/

variable {services : ServiceTable}

theorem leans_moved {entry : ServiceEntry} {tr : ServiceTransition} {leaning : Leaning}
    (leans : leaning = (entry.moved tr).definition.leaning ∨
      (entry.moved tr).definitionRemoved = false ∧
        ∃ pending ∈ (entry.moved tr).pendingDefinition, leaning = pending.leaning) :
    leaning = entry.definition.leaning ∨ entry.definitionRemoved = false ∧
      ∃ pending ∈ entry.pendingDefinition, leaning = pending.leaning := by
  unfold ServiceEntry.moved at leans
  by_cases stays : (entry.definitionRemoved || retainsDefinitionAfterRemoval tr.target) = true
  · rw [if_pos stays] at leans
    exact leans
  · rw [if_neg stays] at leans
    have present : entry.definitionRemoved = false := by
      cases removed : entry.definitionRemoved
      · rfl
      · simp [removed] at stays
    rcases pends : entry.pendingDefinition with _ | pending
    · simpa [pends] using leans
    · simp only [pends, getD_some, mem_def, reduceCtorEq, false_and, exists_false,
        and_false, or_false] at leans
      exact .inr ⟨present, pending, rfl, leans⟩

theorem mayLean_of_reloaded (keyed : services.Keyed) {read : ServiceDefinitionsRead}
    {frozen : List String} {inc : OrdMap String ServiceDefinition}
    (mapped : mapDefinitions (services.carriedDefinitions read) = .ok inc) {name : String}
    {before : Option ServiceEntry} {next : ServiceEntry} (got : services.get name = before)
    (change : EntryReloaded inc read.undecodable frozen name before (some next))
    {leaning : Leaning} (leans : leaning = next.definition.leaning ∨
      next.definitionRemoved = false ∧ ∃ pending ∈ next.pendingDefinition, leaning = pending.leaning) :
    services.MayLean read inc frozen name leaning := by
  generalize after : some next = result at change
  cases change with
  | added defn defined =>
    cases after
    simp only [ServiceEntry.fresh, mem_def, reduceCtorEq, false_and, exists_false, and_false,
      or_false] at leans
    exact .inl ⟨defn, defined, leans⟩
  | deferred entry defn defined held =>
    cases after
    rcases leans with rfl | ⟨-, pending, pends, rfl⟩
    · exact .inr (.inl ⟨entry, got, .inr held, rfl⟩)
    · rw [ServiceEntry.pending_defer pends]
      exact .inl ⟨defn, defined, rfl⟩
  | updated entry defn defined free =>
    cases after
    rcases leans with rfl | ⟨-, pending, pends, rfl⟩
    · by_cases up : retainsDefinitionAfterRemoval entry.runtime.state = true
      · refine .inr (.inl ⟨entry, got, .inl up, ?_⟩)
        rw [ServiceEntry.applyReloadedDefinition, if_pos up]
        rfl
      · refine .inl ⟨defn, defined, ?_⟩
        simp [ServiceEntry.applyReloadedDefinition, up]
    · rw [ServiceEntry.pending_applyReloadedDefinition pends]
      exact .inl ⟨defn, defined, rfl⟩
  | absent => cases after
  | held entry undefined held =>
    cases after
    exact .inr (.inr (.inl ⟨undefined, held, next, got, leans⟩))
  | builtIn entry undefined _ _ builtIn =>
    obtain ⟨defn, defined⟩ := carriedDefinitions_defines mapped got (keyed name entry got).1 builtIn
    cases undefined.symm.trans defined
  | marked entry undefined unnamed free read up =>
    cases after
    rcases leans with rfl | ⟨present, -⟩
    · exact .inr (.inl ⟨entry, got, .inl up, rfl⟩)
    · cases present
  | discarded => cases after
  | refusedUp entry undefined named free up =>
    cases after
    rcases leans with rfl | ⟨present, -⟩
    · exact .inr (.inl ⟨entry, got, .inl up, rfl⟩)
    · cases present
  | refused before message undefined named =>
    cases after
    rcases leans with rfl | ⟨present, -⟩
    · exact .inr (.inr (.inr ⟨undefined, named, rfl⟩))
    · cases present

/-! ### Runs -/

/-- As `perform`, with the reloads that pass validation. -/
def performValidated (parseError : String → Option String) (services : ServiceTable) :
    TableEvent → ServiceTable
  | .reload read frozen =>
    match services.reloadConfigWithFrozen parseError read frozen with
    | .ok out => out.1
    | .error _ => services
  | .transition service transition => services.perform (.transition service transition)

theorem performValidated_cases (perr : String → Option String) (svcs : ServiceTable)
    (event : TableEvent) :
    svcs.performValidated perr event = svcs ∨
      svcs.performValidated perr event = svcs.perform event ∧
        ∀ read frozen, event = .reload read frozen → ∃ size,
          validateServiceGraph perr (svcs.validates read) = .ok size := by
  cases event with
  | reload read frozen =>
    unfold performValidated
    dsimp only
    rcases ran : svcs.reloadConfigWithFrozen perr read frozen with error | out
    · exact .inl rfl
    · obtain ⟨size, valid, ran⟩ := bind_eq_ok.mp ran
      refine .inr ⟨?_, ?_⟩
      · unfold perform
        dsimp only
        rw [mapError_eq_ok.mp ran]
      · rintro _ _ ⟨⟩
        exact ⟨size, mapError_eq_ok.mp valid⟩
  | transition service tr => exact .inr ⟨rfl, nofun⟩

theorem Orderly.performValidated {perr : String → Option String} (keyed : services.Keyed)
    (orderly : services.Orderly) {event : TableEvent} (clear : ¬ services.Entangles event) :
    (services.performValidated perr event).Orderly := by
  rcases performValidated_cases perr services event with same | ⟨performed, valid⟩
  · rw [same]
    exact orderly
  rw [performed]
  cases event with
  | transition service tr =>
    refine orderly.mono fun name leaning leans => ?_
    obtain ⟨next, got, leans⟩ := leans
    have step := perform_cases services (.transition service tr) name
    generalize was : services.get name = before at step
    rw [got] at step
    cases step with
    | unmoved => exact ⟨next, was, leans⟩
    | moved entry => exact ⟨entry, was, leans_moved leans⟩
  | reload read frozen =>
    obtain ⟨size, valid⟩ := valid read frozen rfl
    rcases mapped : mapDefinitions (services.carriedDefinitions read) with error | inc
    · refine orderly.mono fun name leaning leans => ?_
      obtain ⟨next, got, leans⟩ := leans
      have step := perform_cases services (.reload read frozen) name
      generalize was : services.get name = before at step
      rw [got] at step
      cases step with
      | rejected => exact ⟨next, was, leans⟩
      | reloaded _ _ inc _ _ mapped' => cases mapped.symm.trans mapped'
    · intro mixture leans service cycle
      rcases transGen_cases (OrderedAfter (validatedDefinitions (services.validates read))) cycle with
        seen | ⟨s, t, edge, unseen, start, rest⟩
      · exact acyclic_of_validateServiceGraph valid service seen
      · refine clear ⟨inc, mapped, mixture, fun name leaning is => ?_, s, t, edge, unseen,
          rest.trans start⟩
        obtain ⟨next, got, leans⟩ := leans name leaning is
        have step := perform_cases services (.reload read frozen) name
        generalize was : services.get name = before at step
        rw [got] at step
        cases step with
        | rejected _ _ error _ rejects => cases mapped.symm.trans rejects
        | reloaded _ _ incoming' _ _ mapped' change =>
          obtain rfl : inc = incoming' := Except.ok.inj (mapped.symm.trans mapped')
          exact mayLean_of_reloaded keyed mapped was change leans

/-- In every run of reloads that pass validation and of transitions from the empty table in which no
reload entangles the generations, a shutdown can be planned. -/
theorem shutdown_plannable (parseError : String → Option String) (events : List TableEvent)
    (clear : Admissible (performValidated parseError)
      (fun services event => ¬ services.Entangles event) ⟨∅⟩ events) (cycle : List String) :
    planGracefulShutdown (runCalls (performValidated parseError) ⟨∅⟩ events) ≠
      .error (.dependencyCycle cycle) := by
  have inv := invariant_of_step (fun services : ServiceTable => services.Keyed ∧ services.Orderly)
    (fun services event inv clear => ⟨?_, inv.2.performValidated inv.1 clear⟩) events ⟨?_, ?_⟩ clear
  · exact planGracefulShutdown_ne_cycle inv.2.acyclic cycle
  · rcases performValidated_cases parseError services event with same | ⟨performed, -⟩
    · rw [same]
      exact inv.1
    · rw [performed]
      exact inv.1.perform event
  · intro name entry found
    cases found
  · intro mixture leans service cycle
    obtain ⟨target, ⟨mine, theirs, is, -⟩, -⟩ := Relation.TransGen.head'_iff.mp cycle
    obtain ⟨entry, found, -⟩ := leans service mine is
    cases found

/-! ### Two snapshots -/

/-- No timer schedule is faulty. -/
def noTimers (_ : String) : Option String := none

def startUp (service : String) : List TableEvent :=
  [.transition service ⟨.starting, .explicitStart⟩, .transition service ⟨.active, .explicitStart⟩]

/-- A snapshot in which one service requires another, and both are started. -/
def bothUp : List TableEvent :=
  .reload { definitions := [{ name := "a", requires := ["b"] }, { name := "b" }] } [] ::
    (startUp "b" ++ startUp "a")

theorem shutdown_plannable_bothUp :
    (runCalls (performValidated noTimers) ⟨∅⟩ bothUp).stateOf "a" = some .active ∧
    (runCalls (performValidated noTimers) ⟨∅⟩ bothUp).stateOf "b" = some .active ∧
    planGracefulShutdown (runCalls (performValidated noTimers) ⟨∅⟩ bothUp) ≠
      .error (.dependencyCycle ["a", "b"]) := by
  refine ⟨by decide +kernel, by decide +kernel, shutdown_plannable noTimers bothUp ?_ _⟩
  refine ⟨?_, id, id, id, id, trivial⟩
  rintro ⟨incoming, mapped, mixture, leans, s, t, ⟨mine, theirs, isMine, isTheirs, edge⟩, unseen, -⟩
  obtain ⟨_, mapped', defines⟩ : ∃ incoming,
      mapDefinitions [{ name := "a", requires := ["b"] }, { name := "b" }] = .ok incoming ∧
      ∀ pair ∈ incoming.toList,
        pair.1 = "a" ∧ pair.2.leaning = ⟨["b"], false⟩ ∨ pair.2.leaning = ⟨[], false⟩ := by
    decide +kernel
  cases mapped'.symm.trans mapped
  have known (name : String) (leaning : Leaning) (is : mixture name = some leaning) :
      name = "a" ∧ leaning = ⟨["b"], false⟩ ∨ leaning = ⟨[], false⟩ := by
    rcases leans name leaning is with ⟨definition, defined, rfl⟩ | ⟨entry, found, -⟩ | ⟨-, held, -⟩ |
      ⟨-, named, -⟩
    · exact defines (name, definition) ((OrdMap.mem_toList _ _ _).mpr defined)
    · cases found
    · cases held
    · cases named
  have declared : OrderedAfter (validatedDefinitions (validates ⟨∅⟩
      { definitions := [{ name := "a", requires := ["b"] }, { name := "b" }] })) "a" "b" := by
    unfold OrderedAfter
    decide +kernel
  rcases known s mine isMine with ⟨rfl, rfl⟩ | rfl
  · rcases edge with listed | ⟨-, builtIn⟩
    · obtain rfl : t = "b" := List.mem_singleton.mp listed
      exact unseen declared
    · rcases known t theirs isTheirs with ⟨-, rfl⟩ | rfl <;> cases builtIn
  · rcases edge with listed | ⟨-, builtIn⟩
    · cases listed
    · rcases known t theirs isTheirs with ⟨-, rfl⟩ | rfl <;> cases builtIn

/-- While both are up a snapshot turns the dependency round, and the second is restarted. -/
def turnedRound : List TableEvent :=
  bothUp ++ [.reload { definitions := [{ name := "a" }, { name := "b", requires := ["a"] }] } [],
    .transition "b" ⟨.stopping, .explicitStop⟩, .transition "b" ⟨.inactive, .explicitStop⟩] ++ startUp "b"

/-- Each of them rests on the other then, and no shutdown can be planned. -/
theorem shutdown_unplannable :
    planGracefulShutdown (runCalls (performValidated noTimers) ⟨∅⟩ turnedRound) =
      .error (.dependencyCycle ["a", "b"]) := by
  decide +kernel

end ServiceTable

end Peinit
