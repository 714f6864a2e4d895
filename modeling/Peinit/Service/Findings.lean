import Peinit.Service.Acyclic

/-!
# What the validator reports

Each finding says something about the definitions it names.  Not all cycles are reported: a search
that has come back from a service does not go down it again.
-/

namespace Peinit

open List

section Findings

variable {perr : String → Option String} {defs : List ServiceDefinition}
  {byName : OrdMap String ServiceDefinition}

theorem findings_of_accepted {size : ℕ} (accepted : validateServiceGraph perr defs = .ok size) :
    serviceGraphFindings perr defs = [] := by
  unfold validateServiceGraph at accepted
  split at accepted
  · assumption
  · cases accepted

/-! ## Names -/

theorem mem_foldl_insert_if (p : String → Prop) [DecidablePred p] (names : List String) (name : String) :
    ∀ set : OrdSet String,
      name ∈ names.foldl (fun set name => if p name then set.insert name else set) set ↔
        name ∈ set ∨ name ∈ names ∧ p name := by
  induction names with
  | nil => simp
  | cons first names ih =>
    intro set
    rw [foldl_cons, ih]
    split_ifs with holds
    · rw [OrdSet.mem_insert, mem_cons, or_right_comm]
      constructor
      · rintro ((rfl | later) | old)
        · exact .inr ⟨.inl rfl, holds⟩
        · exact .inr ⟨.inr later.1, later.2⟩
        · exact .inl old
      · rintro (old | ⟨rfl | later, holds⟩)
        · exact .inr old
        · exact .inl (.inl rfl)
        · exact .inl (.inr ⟨later, holds⟩)
    · refine or_congr_right ⟨fun later => ⟨mem_cons_of_mem _ later.1, later.2⟩, fun here => ?_⟩
      rcases mem_cons.mp here.1 with rfl | later
      · exact absurd here.2 holds
      · exact ⟨later, here.2⟩

theorem duplicateFindings_eq_nil : duplicateFindings defs = [] ↔ (defs.map (·.name)).Nodup := by
  rw [duplicateFindings, map_eq_nil_iff, eq_nil_iff_forall_not_mem, nodup_iff_count_le_one]
  refine forall_congr' fun name => ?_
  rw [Std.ExtTreeSet.mem_toList, mem_foldl_insert_if]
  constructor
  · intro unlisted
    by_contra twice
    have twice : 1 < (defs.map (·.name)).count name := not_le.mp twice
    exact unlisted (.inr ⟨count_pos_iff.mp (by omega), twice⟩)
  · rintro once (empty | ⟨-, twice⟩)
    · exact Std.ExtTreeSet.not_mem_empty empty
    · omega

/-! ## Definitions -/

theorem mem_missingHardDependencies {finding : ServiceGraphFinding} :
    finding ∈ missingHardDependencies defs byName ↔
      ∃ defn ∈ defs, ∃ dep ∈ hardDependencies defn,
        dep.target ∉ byName ∧
        finding = .missingHardDependency defn.name dep.target dep.kind := by
  simp only [missingHardDependencies, mem_flatMap, mem_map, mem_filter,
    Bool.not_eq_true', ← Std.ExtTreeMap.contains_iff_mem, Bool.not_eq_true, and_assoc]
  simp only [eq_comm]

theorem mem_invalidTimerScheduleFindings {finding : ServiceGraphFinding} :
    finding ∈ invalidTimerScheduleFindings perr defs ↔
      ∃ defn ∈ defs, ∃ sched message, .timer sched ∈ defn.triggers ∧
        perr sched = some message ∧
        finding = .invalidTimerSchedule defn.name sched message := by
  simp only [invalidTimerScheduleFindings, mem_flatMap, mem_filterMap]
  refine exists_congr fun defn => and_congr_right fun _ => ⟨?_, ?_⟩
  · rintro ⟨trigger, mem, got⟩
    cases trigger with
    | timer sched =>
      obtain ⟨message, failed, rfl⟩ := Option.map_eq_some_iff.mp got
      exact ⟨sched, message, mem, failed, rfl⟩
    | _ => cases got
  · rintro ⟨sched, message, mem, failed, rfl⟩
    exact ⟨_, mem, by simp [failed]⟩

end Findings

/-! ## Cycles -/

/-- The services of `cycle` depend on each other in turn. -/
structure IsOrderCycle (byName : OrdMap String ServiceDefinition) (cycle : List String) : Prop where
  nonempty : cycle ≠ []
  chain : cycle.IsChain (OrderedAfter byName)
  closes : ∀ first ∈ cycle.head?, ∀ last ∈ cycle.getLast?, OrderedAfter byName last first

section Search

variable {byName : OrdMap String ServiceDefinition}

theorem isOrderCycle_drop {stack : List String} (path : stack.IsChain (OrderedAfter byName))
    {svc : String} (next : ∀ last ∈ stack.getLast?, OrderedAfter byName last svc)
    {index : ℕ} (entered : stack.idxOf? svc = some index) :
    IsOrderCycle byName (stack.drop index) := by
  obtain ⟨inside, here, -⟩ := idxOf?_eq_some_iff.mp entered
  refine ⟨by simpa using inside, path.drop index, fun first begins last ends => ?_⟩
  rw [head?_drop, getElem?_eq_getElem inside, here] at begins
  obtain rfl := Option.some.inj begins
  rw [getLast?_drop, if_neg (not_le.mpr inside)] at ends
  exact next last ends

/-- Every cycle recorded is one. -/
def CycleSearch.Sound (byName : OrdMap String ServiceDefinition) (search : CycleSearch) : Prop :=
  ∀ cycle ∈ search.cycles, IsOrderCycle byName cycle

theorem CycleSearch.Sound.recordCycle {search : CycleSearch} (sound : search.Sound byName)
    {cycle : List String} (closed : IsOrderCycle byName cycle) : (search.recordCycle cycle).Sound byName := by
  unfold CycleSearch.recordCycle
  split_ifs with known
  · exact sound
  · intro other mem
    rcases mem_append.mp mem with mem | mem
    · exact sound other mem
    · rw [mem_singleton.mp mem]
      exact closed

theorem CycleSearch.Sound.visit (fuel : ℕ) : ∀ {stack : List String} {search : CycleSearch}
    {svc : String}, stack.IsChain (OrderedAfter byName) →
      (∀ last ∈ stack.getLast?, OrderedAfter byName last svc) → search.Sound byName →
      (CycleSearch.visit byName fuel stack search svc).Sound byName := by
  induction fuel with
  | zero => exact fun _ _ sound => sound
  | succ fuel ih =>
    intro stack search svc path next sound
    rw [CycleSearch.visit]
    split_ifs with permanent
    · exact sound
    · cases entered : stack.idxOf? svc with
      | some index => exact sound.recordCycle (isOrderCycle_drop path next entered)
      | none =>
        cases defines : byName[svc]? with
        | none => exact sound
        | some defn =>
          have longer : (stack ++ [svc]).IsChain (OrderedAfter byName) := by
            refine isChain_append.mpr ⟨path, isChain_singleton _, fun last ends first begins => ?_⟩
            obtain rfl : svc = first := by simpa using begins
            exact next last ends
          have below : CycleSearch.Sound byName
              ((existingStartOrderDependencyTargets defn byName.contains).foldl
                (CycleSearch.visit byName fuel (stack ++ [svc])) search) := by
            refine foldlRecOn _ _ sound fun search sound target mem => ih longer ?_ sound
            intro last ends
            obtain rfl : svc = last := by simpa using ends
            exact ⟨defn, defines, mem⟩
          exact below

theorem isOrderCycle_of_findCycles {cycle : List String} (got : cycle ∈ findCycles byName) :
    IsOrderCycle byName cycle := by
  have start : CycleSearch.Sound byName {} := fun _ mem => absurd mem not_mem_nil
  have sound : CycleSearch.Sound byName
      (byName.keys.foldl (CycleSearch.visit byName (byName.size + 1) []) {}) :=
    foldlRecOn _ _ start fun _ sound _ _ => sound.visit _ .nil (by simp)
  exact sound cycle got

end Search

end Peinit
