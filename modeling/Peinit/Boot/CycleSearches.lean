import Peinit.Boot.Agreement

/-!
# The two cycle searches

The validator lists cycles, the planner orders the services and stops at the first cycle. The validator
tells the cycles it has listed apart by a canonical form that depends on where a cycle was entered. No
cycle is listed twice all the same: it is entered where the path meets it first, and a service it passes
through is not visited again.
-/

namespace Peinit

open List

namespace CycleSearch

variable {byName : OrdMap String ServiceDefinition} {stack : List String} {search : CycleSearch}
  {svc : String}

/-- The cycles listed so far are on the path, or one of their services is permanent, which none of the
path is. -/
structure Apart (stack : List String) (search : CycleSearch) : Prop where
  distinct : stack.Nodup
  fresh : ∀ service ∈ stack, service ∉ search.permanent
  simple : ∀ cycle ∈ search.cycles, cycle.Nodup
  seen : ∀ cycle ∈ search.cycles, canonicalCycle cycle ∈ search.seen
  onPath : ∀ cycle ∈ search.cycles, cycle <+ stack ∨ ∃ service ∈ cycle, service ∈ search.permanent
  apart : search.cycles.Pairwise fun one other => ¬ one ~r other

theorem eq_drop_of_perm {cycle : List String} {index : ℕ} (distinct : stack.Nodup)
    (listed : cycle <+ stack) (same : cycle ~ stack.drop index) : cycle = stack.drop index := by
  rw [← take_append_drop index stack] at listed distinct
  obtain ⟨front, back, rfl, before, after⟩ := sublist_append_iff.mp listed
  have none : front = [] := eq_nil_iff_forall_not_mem.mpr fun service mem =>
    (nodup_append.mp distinct).2.2 service (before.subset mem) service
      (same.subset (mem_append_left _ mem)) rfl
  subst none
  exact after.eq_of_length same.length_eq

namespace Apart

theorem push (apart : Apart stack search) (new : svc ∉ stack) (open_ : svc ∉ search.permanent) :
    Apart (stack ++ [svc]) search where
  distinct := by simpa using apart.distinct.concat new
  fresh := by simpa [or_imp, forall_and, open_] using apart.fresh
  simple := apart.simple
  seen := apart.seen
  onPath cycle mem := (apart.onPath cycle mem).imp_left fun sub => sub.trans (sublist_append_left _ _)
  apart := apart.apart

theorem pop (apart : Apart (stack ++ [svc]) search) :
    Apart stack { search with permanent := search.permanent.insert svc } where
  distinct := apart.distinct.of_append_left
  fresh service mem := by
    rw [OrdSet.mem_insert, not_or]
    refine ⟨?_, apart.fresh service (mem_append_left _ mem)⟩
    rintro rfl
    exact (nodup_append.mp apart.distinct).2.2 svc mem svc (by simp) rfl
  simple := apart.simple
  seen := apart.seen
  onPath cycle mem := by
    rcases apart.onPath cycle mem with sub | ⟨service, inside, permanent⟩
    · by_cases last : svc ∈ cycle
      · exact .inr ⟨svc, last, (OrdSet.mem_insert _ _ _).mpr (.inl rfl)⟩
      · obtain ⟨front, back, rfl, before, after⟩ := sublist_append_iff.mp sub
        rcases sublist_singleton.mp after with rfl | rfl
        · exact .inl (by simpa using before)
        · simp at last
    · exact .inr ⟨service, inside, (OrdSet.mem_insert _ _ _).mpr (.inr permanent)⟩
  apart := apart.apart

theorem recordCycle (apart : Apart stack search) (index : ℕ) :
    Apart stack (search.recordCycle (stack.drop index)) := by
  unfold CycleSearch.recordCycle
  split_ifs with known
  · exact apart
  · have sub : stack.drop index <+ stack := drop_sublist index stack
    refine ⟨apart.distinct, apart.fresh, ?_, ?_, ?_, ?_⟩
    · simpa [or_imp, forall_and] using ⟨apart.simple, apart.distinct.sublist sub⟩
    · simpa [or_imp, forall_and] using fun cycle mem => .inl (apart.seen cycle mem)
    · simpa [or_imp, forall_and, sub] using apart.onPath
    · refine pairwise_append.mpr ⟨apart.apart, pairwise_singleton _ _, fun one mem other is same => ?_⟩
      rw [mem_singleton.mp is] at same
      rcases apart.onPath one mem with listed | ⟨service, inside, permanent⟩
      · rw [← eq_drop_of_perm apart.distinct listed same.perm] at known
        exact known (apart.seen one mem)
      · exact apart.fresh service (sub.subset (same.perm.subset inside)) permanent

theorem visit (fuel : ℕ) : ∀ {stack : List String} {search : CycleSearch} {svc : String},
    Apart stack search → Apart stack (visit byName fuel stack search svc) := by
  induction fuel with
  | zero => exact fun apart => apart
  | succ fuel ih =>
    intro stack search svc apart
    rw [CycleSearch.visit]
    split_ifs with permanent
    · exact apart
    · cases at_ : stack.idxOf? svc with
      | some index => exact apart.recordCycle index
      | none =>
        cases byName[svc]? with
        | none => exact apart
        | some defn =>
          have entered := apart.push (idxOf?_eq_none_iff.mp at_) permanent
          exact pop (List.foldlRecOn _ _ entered fun _ apart _ _ => ih apart)

end Apart

theorem apart_findCycles (byName : OrdMap String ServiceDefinition) :
    Apart [] (byName.keys.foldl (CycleSearch.visit byName (byName.size + 1) []) {}) := by
  have start : Apart [] {} := ⟨nodup_nil, by simp, by simp, by simp, by simp, .nil⟩
  exact List.foldlRecOn _ _ start fun _ apart _ _ => apart.visit _

end CycleSearch

theorem IsOrderCycle.known {byName : OrdMap String ServiceDefinition} {cycle : List String}
    (closed : IsOrderCycle byName cycle) {svc : String} (mem : svc ∈ cycle) :
    ∃ defn, byName[svc]? = some defn := by
  obtain ⟨first, rest, rfl⟩ := exists_cons_of_ne_nil closed.nonempty
  have round := transGen_of_closed closed.chain (closed.closes first (by simp)) svc mem
  obtain ⟨_, ⟨defn, defines, -⟩, -⟩ := Relation.TransGen.head'_iff.mp round
  exact ⟨defn, defines⟩

open Phase2

theorem findCycles_ne_nil {byName : ServiceMap} {names : OrdSet String}
    (all : ∀ name, name ∈ names ↔ ∃ defn, byName[name]? = some defn) :
    findCycles byName ≠ [] ↔
      ∃ cycle, dependencyStartOrder names (orderTargets byName) = .error cycle := by
  have exactly : ∀ name, name ∈ names.toList ↔ names.contains name = true := fun _ =>
    Std.ExtTreeSet.mem_toList
  constructor
  · intro some_
    obtain ⟨cycle, listed⟩ := exists_mem_of_ne_nil _ some_
    have closed := isOrderCycle_of_findCycles listed
    obtain ⟨svc, mem⟩ := exists_mem_of_ne_nil _ closed.nonempty
    have onCycle := onCycle_of_finding listed (fun svc mem => (all svc).mpr (closed.known mem)) mem
    cases ordered : dependencyStartOrder names (orderTargets byName) with
    | ok order =>
      exact absurd onCycle (not_onCycle_of_ordered OrdSet.length_toList_lt exactly ordered svc)
    | error cycle => exact ⟨cycle, rfl⟩
  · rintro ⟨cycle, reported⟩ none
    obtain ⟨svc, onCycle⟩ := exists_onCycle_of_reported OrdSet.length_toList_lt exactly reported
    refine acyclic_of_findCycles none svc (Relation.TransGen.mono (fun _ _ edge => ?_) _ _ onCycle)
    exact orderedAfter_of_dependsWithin (fun other => (all other).mp) edge

/-- The validator lists a cycle exactly if the services cannot be ordered; what it lists are simple
cycles, none of them a rotation of another. -/
theorem cycle_searches_agree (definitions : List ServiceDefinition)
    (distinct : (definitions.map (·.name)).Nodup) :
    (findCycles (indexDefinitions definitions) ≠ [] ↔
      ∃ cycle, dependencyStartOrder (.ofList (definitions.map (·.name)))
        (orderTargets (indexDefinitions definitions)) = .error cycle) ∧
    (∀ cycle ∈ findCycles (indexDefinitions definitions),
      IsOrderCycle (indexDefinitions definitions) cycle ∧ cycle.Nodup) ∧
    (findCycles (indexDefinitions definitions)).Pairwise fun one other => ¬ one ~r other := by
  obtain ⟨byName, mapped⟩ := exists_serviceMap distinct
  have idx := indexes_of_serviceMap mapped
  rw [indexDefinitions_of_serviceMap mapped]
  have apart := CycleSearch.apart_findCycles byName
  refine ⟨findCycles_ne_nil fun name => ?_, fun cycle mem => ?_, apart.apart⟩
  · simp [idx name]
  · exact ⟨isOrderCycle_of_findCycles mem, apart.simple cycle mem⟩

theorem cycle_searches_agree_twoServices :
    ∃ cycle, dependencyStartOrder (.ofList ["a", "b"]) (orderTargets (indexDefinitions
      [{ name := "a", requires := ["b"] }, { name := "b", wants := ["a"] }])) = .error cycle :=
  (cycle_searches_agree [{ name := "a", requires := ["b"] }, { name := "b", wants := ["a"] }]
    (by decide)).1.mp (by decide +kernel)

end Peinit
