import Peinit.Service.Validate

/-!
# What the cycle search finds

The search makes a service permanent when it comes back from its dependencies. If it has recorded no
cycle, what is permanent has its dependencies among the permanent services and is on no cycle.
-/

namespace Peinit

open Std.ExtTreeMap List

variable {byName : OrdMap String ServiceDefinition} {service : String} {permanent : OrdSet String}
  {visited : List String}

/-- A service declares another one of the definitions. -/
def OrderedAfter (byName : OrdMap String ServiceDefinition) (service target : String) : Prop :=
  ∃ definition, byName[service]? = some definition ∧
    target ∈ existingStartOrderDependencyTargets definition byName.contains

theorem OrderedAfter.target {target : String}
    (edge : OrderedAfter byName service target) : ∃ defn, byName[target]? = some defn := by
  obtain ⟨defn, -, mem⟩ := edge
  have known := (mem_filter.mp (mem_eraseDups.mp mem)).2
  exact Option.isSome_iff_exists.mp (mem_iff_isSome_getElem?.mp known)

namespace CycleSearch

variable {search : CycleSearch}

/-- Everything that is permanent is done with. -/
structure Done (byName : OrdMap String ServiceDefinition) (permanent : OrdSet String) : Prop where
  closed : ∀ service ∈ permanent, ∀ target, OrderedAfter byName service target → target ∈ permanent
  acyclic : ∀ service ∈ permanent, ¬ Relation.TransGen (OrderedAfter byName) service service

theorem Done.reaches (done : Done byName permanent) {target : String}
    (inside : service ∈ permanent) (path : Relation.TransGen (OrderedAfter byName) service target) :
    target ∈ permanent := by
  induction path with
  | single edge => exact done.closed _ inside _ edge
  | tail _ edge ih => exact done.closed _ ih _ edge

theorem Done.insert (done : Done byName permanent)
    (below : ∀ target, OrderedAfter byName service target → target ∈ permanent) :
    Done byName (permanent.insert service) := by
  constructor
  · intro other mem target edge
    rw [OrdSet.mem_insert] at mem ⊢
    rcases mem with rfl | mem
    · exact .inr (below target edge)
    · exact .inr (done.closed other mem target edge)
  · intro other mem cycle
    rw [OrdSet.mem_insert] at mem
    by_cases known : other ∈ permanent
    · exact done.acyclic other known cycle
    · obtain rfl : service = other := mem.resolve_right known
      obtain ⟨target, first, rest⟩ := Relation.TransGen.head'_iff.mp cycle
      rcases Relation.reflTransGen_iff_eq_or_transGen.mp rest with rfl | path
      · exact known (below _ first)
      · exact known (done.reaches (below target first) path)

/-- Visiting `visited` has made `search` into `out`. -/
structure Extends (byName : OrdMap String ServiceDefinition) (search out : CycleSearch)
    (visited : List String) : Prop where
  cycles : out.cycles = [] → search.cycles = []
  seen : (search.cycles = [] → search.seen = []) → out.cycles = [] → out.seen = []
  /-- As long as no cycle is found. -/
  done : out.cycles = [] → search.seen = [] → Done byName search.permanent →
    Done byName out.permanent ∧ (∀ service ∈ search.permanent, service ∈ out.permanent) ∧
      ∀ service ∈ visited, service ∈ byName → service ∈ out.permanent

theorem Extends.refl (known : ∀ service ∈ visited, service ∈ byName → service ∈ search.permanent) :
    Extends byName search search visited where
  cycles := id
  seen := id
  done _ _ done := ⟨done, fun _ mem => mem, known⟩

theorem Extends.trans {mid out : CycleSearch} {more : List String}
    (first : Extends byName search mid visited) (second : Extends byName mid out more) :
    Extends byName search out (visited ++ more) where
  cycles := first.cycles ∘ second.cycles
  seen synced := second.seen (first.seen synced)
  done clean unseen done := by
    have synced := first.seen (fun _ => unseen) (second.cycles clean)
    obtain ⟨done, grows, all⟩ := first.done (second.cycles clean) unseen done
    obtain ⟨done, grows', all'⟩ := second.done clean synced done
    refine ⟨done, fun service mem => grows' service (grows service mem), ?_⟩
    intro service mem known
    rcases mem_append.mp mem with mem | mem
    · exact grows' service (all service mem known)
    · exact all' service mem known

theorem extends_foldl {f : CycleSearch → String → CycleSearch} (visited : List String)
    (step : ∀ service ∈ visited, ∀ search, Extends byName search (f search service) [service]) :
    ∀ search, Extends byName search (visited.foldl f search) visited := by
  induction visited with
  | nil => exact fun search => .refl (by simp)
  | cons service visited ih =>
    intro search
    have first := step service (by simp) search
    exact first.trans (ih (fun other mem => step other (by simp [mem])) _)

theorem extends_recordCycle (cycle : List String) (svc : String) :
    Extends byName search (search.recordCycle cycle) [svc] := by
  unfold recordCycle
  split_ifs with known
  · refine ⟨id, id, fun _ unseen => ?_⟩
    rw [unseen] at known
    cases known
  · exact ⟨by simp, by simp, by simp⟩

theorem extends_visit (fuel : ℕ) : ∀ (stack : List String) (search : CycleSearch) (svc : String),
    byName.size < fuel + stack.length → stack.Nodup → (∀ other ∈ stack, other ∈ byName) →
      Extends byName search (visit byName fuel stack search svc) [svc] := by
  induction fuel with
  | zero =>
    intro stack search svc enough distinct within
    -- the path is longer than there are services
    have short : stack.length ≤ byName.keys.length :=
      (distinct.subperm fun other mem => mem_keys.mpr (within other mem)).length_le
    rw [length_keys] at short
    omega
  | succ fuel ih =>
    intro stack search svc enough distinct within
    rw [visit]
    split_ifs with permanent
    · exact .refl (by simpa using fun _ => permanent)
    · rcases at_ : stack.idxOf? svc with _ | index
      · have fresh : svc ∉ stack := idxOf?_eq_none_iff.mp at_
        rcases defines : byName[svc]? with _ | defn
        · have unknown : svc ∉ byName := by
            rw [mem_iff_isSome_getElem?, defines]
            exact Bool.false_ne_true
          exact .refl (by simp [unknown])
        · have known : svc ∈ byName := by
            rw [mem_iff_isSome_getElem?, defines]
            rfl
          have path : (stack ++ [svc]).Nodup := by
            simpa using distinct.concat fresh
          have inside : ∀ other ∈ stack ++ [svc], other ∈ byName := by
            simp only [mem_append, mem_singleton]
            rintro other (mem | rfl)
            · exact within other mem
            · exact known
          have longer : byName.size < fuel + (stack ++ [svc]).length := by
            rw [length_append, length_singleton]
            omega
          have below : Extends byName search _ _ :=
            extends_foldl (existingStartOrderDependencyTargets defn byName.contains)
              (fun target _ search => ih (stack ++ [svc]) search target longer path inside) search
          refine ⟨below.cycles, below.seen, fun clean unseen done => ?_⟩
          obtain ⟨done, grows, all⟩ := below.done clean unseen done
          refine ⟨done.insert fun target edge => ?_, fun other mem => ?_, ?_⟩
          · obtain ⟨definition', defines', mem⟩ := id edge
            cases defines.symm.trans defines'
            obtain ⟨_, at_⟩ := edge.target
            refine all target mem ?_
            rw [mem_iff_isSome_getElem?, at_]
            rfl
          · exact (OrdSet.mem_insert _ _ _).mpr (.inr (grows other mem))
          · rintro other mem -
            exact (OrdSet.mem_insert _ _ _).mpr (.inl (mem_singleton.mp mem).symm)
      · exact extends_recordCycle _ _

end CycleSearch

theorem acyclic_of_findCycles (none_ : findCycles byName = []) (svc : String) :
    ¬ Relation.TransGen (OrderedAfter byName) svc svc := by
  intro cycle
  have search : CycleSearch.Extends byName {} _ byName.keys :=
    CycleSearch.extends_foldl (f := CycleSearch.visit byName (byName.size + 1) []) byName.keys
      (fun svc _ search => CycleSearch.extends_visit (byName.size + 1) [] search svc
        (by simp) nodup_nil (by simp)) {}
  have start : CycleSearch.Done byName ∅ := ⟨by simp, by simp⟩
  obtain ⟨done, -, all⟩ := search.done none_ rfl start
  obtain ⟨target, ⟨defn, defines, -⟩, -⟩ := Relation.TransGen.head'_iff.mp cycle
  have known : svc ∈ byName := by
    rw [mem_iff_isSome_getElem?, defines]
    rfl
  exact done.acyclic svc (all svc (mem_keys.mpr known) known) cycle

/-- The definitions that are validated, as they are executed. -/
def validatedDefinitions (definitions : List ServiceDefinition) : OrdMap String ServiceDefinition :=
  indexDefinitions (synthesiseRoleDependencies definitions)

theorem acyclic_of_validateServiceGraph {perr : String → Option String}
    {defs : List ServiceDefinition} {size : ℕ}
    (accepted : validateServiceGraph perr defs = .ok size) (svc : String) :
    ¬ Relation.TransGen (OrderedAfter (validatedDefinitions defs)) svc svc := by
  apply acyclic_of_findCycles
  have clean : serviceGraphFindings perr defs = [] := by
    unfold validateServiceGraph at accepted
    split at accepted
    · assumption
    · cases accepted
  unfold serviceGraphFindings cycleFindings at clean
  simp only [append_eq_nil_iff, map_eq_nil_iff] at clean
  exact clean.2

end Peinit
