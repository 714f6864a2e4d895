import Peinit.Lib.FirstCycle
import Peinit.Lib.OrdMap

/-!
# Removing cycles one at a time

A set is freed of its cycles by ordering it, taking out the nodes of the cycle that is reported, and
starting again. A node whose cycles are all broken by taking out others is `Masked`; the others on a
cycle are taken out (`mem_removeCycles`).
-/

namespace Peinit

open OrdSet Std.ExtTreeSet

variable {K : Type} [Ord K] [Std.TransOrd K] {smaller before after : OrdSet K} {node : K}
  {cycle : List K}

/-- Take the nodes of `cycle` out. -/
def OrdSet.minus (nodes : OrdSet K) (cycle : List K) : OrdSet K :=
  cycle.foldl (fun nodes node => nodes.erase node) nodes

section Stages

variable (deps : K → List K)

/-- `after` is left when the first cycle of `before` is taken out. -/
def Follows (before after : OrdSet K) : Prop :=
  ∀ node, node ∈ after ↔ node ∈ before ∧ ¬ OnFirstCycle before.contains deps before.toList node

/-- Some removal breaks the last cycle of `node` and leaves `node`. -/
def Masked (nodes : OrdSet K) (node : K) : Prop :=
  ∃ before after, Relation.ReflTransGen (Follows deps) nodes before ∧
    Follows deps before after ∧ OnCycle before.contains deps node ∧
    node ∈ after ∧ ¬ OnCycle after.contains deps node

end Stages

variable {deps : K → List K} {nodes : OrdSet K}

/-! ## Smaller sets -/

theorem OrdSet.length_toList_lt : nodes.toList.length < nodes.size + 1 := by
  rw [length_toList]
  exact Nat.lt_succ_self _

theorem OnCycle.mono (subset : ∀ other ∈ smaller, other ∈ nodes)
    (cycle : OnCycle smaller.contains deps node) :
    OnCycle nodes.contains deps node :=
  Relation.TransGen.mono (fun _ _ edge => ⟨subset _ edge.1, subset _ edge.2.1, edge.2.2⟩) _ _ cycle

theorem IsDependencyCycle.mono (subset : ∀ other ∈ smaller, other ∈ nodes)
    (closed : IsDependencyCycle smaller.contains deps cycle) :
    IsDependencyCycle nodes.contains deps cycle := by
  have edges : ∀ x y, DependsWithin smaller.contains deps x y →
      DependsWithin nodes.contains deps x y :=
    fun _ _ edge => ⟨subset _ edge.1, subset _ edge.2.1, edge.2.2⟩
  exact ⟨closed.1, closed.2.1.imp edges,
    fun first begins last ends => edges _ _ (closed.2.2 first begins last ends)⟩

theorem OnCycle.mem (cycle : OnCycle nodes.contains deps node) : node ∈ nodes := by
  obtain ⟨_, edge, -⟩ := Relation.TransGen.head'_iff.mp cycle
  exact edge.1

theorem Follows.subset (follows : Follows deps before after) :
    ∀ node ∈ after, node ∈ before := fun node mem => ((follows node).mp mem).1

theorem subset_of_stages
    (stages : Relation.ReflTransGen (Follows deps) nodes before) :
    ∀ node ∈ before, node ∈ nodes := by
  induction stages with
  | refl => exact fun _ mem => mem
  | tail _ follows ih => exact fun node mem => ih node (follows.subset node mem)

theorem Masked.mem (masked : Masked deps nodes node) : node ∈ nodes := by
  obtain ⟨before, after, stages, follows, -, mem, -⟩ := masked
  exact subset_of_stages stages node (follows.subset node mem)

variable [Std.LawfulEqOrd K]

theorem OrdSet.mem_minus :
    node ∈ nodes.minus cycle ↔ node ∈ nodes ∧ node ∉ cycle := by
  induction cycle generalizing nodes with
  | nil => simp [minus]
  | cons first rest ih =>
    change node ∈ minus (nodes.erase first) rest ↔ _
    rw [ih, mem_erase, List.mem_cons, not_or, ne_comm]
    exact ⟨fun ⟨⟨other, mem⟩, late⟩ => ⟨mem, other, late⟩, fun ⟨mem, other, late⟩ => ⟨⟨other, mem⟩, late⟩⟩

theorem OrdSet.size_lt_of_subset
    (subset : ∀ other ∈ smaller, other ∈ nodes) (inside : node ∈ nodes) (outside : node ∉ smaller) :
    smaller.size < nodes.size := by
  have distinct : smaller.toList.Nodup := by
    have distinct := smaller.distinct_toList
    simp only [Std.compare_eq_iff_eq] at distinct
    exact distinct
  have fresh : (node :: smaller.toList).Nodup :=
    List.nodup_cons.mpr ⟨fun mem => outside (mem_toList.mp mem), distinct⟩
  have within_ : node :: smaller.toList ⊆ nodes.toList := by
    intro other mem
    rcases List.mem_cons.mp mem with rfl | mem
    · exact mem_toList.mpr inside
    · exact mem_toList.mpr (subset other (mem_toList.mp mem))
  have shorter := (fresh.subperm within_).length_le
  rwa [List.length_cons, length_toList, length_toList] at shorter

theorem Follows.unique {other : OrdSet K} (follows : Follows deps before after)
    (follows' : Follows deps before other) : after = other :=
  ext_mem fun node => (follows node).trans (follows' node).symm

theorem masked_iff (follows : Follows deps nodes after) :
    Masked deps nodes node ↔
      (OnCycle nodes.contains deps node ∧ node ∈ after ∧
        ¬ OnCycle after.contains deps node) ∨ Masked deps after node := by
  constructor
  · rintro ⟨before, later, stages, removed, cycle, stays, broken⟩
    rcases Relation.ReflTransGen.cases_head stages with rfl | ⟨next, first, rest⟩
    · obtain rfl := removed.unique follows
      exact .inl ⟨cycle, stays, broken⟩
    · obtain rfl := first.unique follows
      exact .inr ⟨before, later, rest, removed, cycle, stays, broken⟩
  · rintro (⟨cycle, stays, broken⟩ | ⟨before, later, stages, removed⟩)
    · exact ⟨nodes, after, .refl, follows, cycle, stays, broken⟩
    · exact ⟨before, later, .head follows stages, removed⟩

theorem mem_toList_iff_contains (node : K) : node ∈ nodes.toList ↔ nodes.contains node = true :=
  mem_toList

/-! ## Ordering a set -/

variable [DecidableEq K]

/-- The nodes of the set, each behind its dependencies; or the first cycle met. -/
def depthOrder (deps : K → List K) (nodes : OrdSet K) : Except (List K) (List K) :=
  nodes.toList.foldlM (visitOrder nodes.contains deps (nodes.size + 1) []) []

theorem depthOrder_eq_error (reported : depthOrder deps nodes = .error cycle) :
    (∀ node, node ∈ cycle ↔ OnFirstCycle nodes.contains deps nodes.toList node) ∧
      IsDependencyCycle nodes.contains deps cycle :=
  ⟨fun _ => mem_reported length_toList_lt mem_toList_iff_contains reported,
    isDependencyCycle_of_reported length_toList_lt mem_toList_iff_contains reported⟩

theorem depthOrder_eq_ok {order : List K} (ordered : depthOrder deps nodes = .ok order) :
    DependenciesFirst nodes.contains deps order ∧ ∀ node, ¬ OnCycle nodes.contains deps node :=
  ⟨dependenciesFirst_of_ordered length_toList_lt mem_toList_iff_contains ordered,
    not_onCycle_of_ordered length_toList_lt mem_toList_iff_contains ordered⟩

theorem depthOrder_of_acyclic (acyclic : ∀ node, ¬ OnCycle nodes.contains deps node) :
    ∃ order, depthOrder deps nodes = .ok order := by
  cases reported : depthOrder deps nodes with
  | ok order => exact ⟨order, rfl⟩
  | error cycle =>
    obtain ⟨node, cycle⟩ := exists_onCycle_of_reported length_toList_lt mem_toList_iff_contains reported
    exact absurd cycle (acyclic node)

theorem follows_minus (reported : depthOrder deps nodes = .error cycle) :
    Follows deps nodes (nodes.minus cycle) := by
  intro node
  rw [mem_minus, (depthOrder_eq_error reported).1 node]

/-! ## What is taken out -/

/-- The cycles, in the order they are taken out. -/
def removeCycles (deps : K → List K) : ℕ → OrdSet K → List (List K)
  | 0, _ => []
  | fuel + 1, nodes =>
    match depthOrder deps nodes with
    | .ok _ => []
    | .error cycle => cycle :: removeCycles deps fuel (nodes.minus cycle)

theorem size_minus_lt {fuel : ℕ}
    (reported : depthOrder deps nodes = .error cycle) (enough : nodes.size < fuel + 1) :
    (nodes.minus cycle).size < fuel := by
  obtain ⟨-, closed⟩ := depthOrder_eq_error reported
  obtain ⟨first, begins⟩ := List.exists_mem_of_ne_nil cycle closed.1
  have fewer : (nodes.minus cycle).size < nodes.size :=
    size_lt_of_subset (fun other mem => (mem_minus.mp mem).1)
      (closed.onCycle begins).mem fun mem => (mem_minus.mp mem).2 begins
  omega

theorem mem_removeCycles (fuel : ℕ) (enough : nodes.size < fuel) (node : K) :
    (∃ cycle ∈ removeCycles deps fuel nodes, node ∈ cycle) ↔
      OnCycle nodes.contains deps node ∧ ¬ Masked deps nodes node := by
  induction fuel generalizing nodes with
  | zero => exact absurd enough (Nat.not_lt_zero _)
  | succ fuel ih =>
    unfold removeCycles
    cases reported : depthOrder deps nodes with
    | ok order => simp [(depthOrder_eq_ok reported).2 node]
    | error cycle =>
      obtain ⟨-, closed⟩ := depthOrder_eq_error reported
      have subset : ∀ other ∈ nodes.minus cycle, other ∈ nodes := fun other mem => (mem_minus.mp mem).1
      simp only [List.mem_cons, exists_eq_or_imp, ih (size_minus_lt reported enough),
        masked_iff (follows_minus reported)]
      constructor
      · rintro (taken | ⟨later, unmasked⟩)
        · refine ⟨closed.onCycle taken, ?_⟩
          rintro (⟨-, stays, -⟩ | masked)
          · exact (mem_minus.mp stays).2 taken
          · exact (mem_minus.mp masked.mem).2 taken
        · refine ⟨later.mono subset, ?_⟩
          rintro (⟨-, -, broken⟩ | masked)
          · exact broken later
          · exact unmasked masked
      · rintro ⟨here, unmasked⟩
        by_cases taken : node ∈ cycle
        · exact .inl taken
        · have stays : node ∈ nodes.minus cycle := mem_minus.mpr ⟨here.mem, taken⟩
          refine .inr ⟨?_, fun masked => unmasked (.inr masked)⟩
          by_contra broken
          exact unmasked (.inl ⟨here, stays, broken⟩)

theorem isDependencyCycle_of_removed (fuel : ℕ)
    (removed : cycle ∈ removeCycles deps fuel nodes) :
    IsDependencyCycle nodes.contains deps cycle := by
  induction fuel generalizing nodes with
  | zero => cases removed
  | succ fuel ih =>
    unfold removeCycles at removed
    cases reported : depthOrder deps nodes with
    | ok order => simp [reported] at removed
    | error first =>
      simp only [reported, List.mem_cons] at removed
      rcases removed with rfl | later
      · exact (depthOrder_eq_error reported).2
      · exact IsDependencyCycle.mono (fun other mem => (mem_minus.mp mem).1) (ih later)

theorem not_onCycle_of_left (fuel : ℕ) (enough : nodes.size < fuel) {left : OrdSet K}
    (subset : ∀ node ∈ left, node ∈ nodes)
    (spared : ∀ node ∈ left, ∀ cycle ∈ removeCycles deps fuel nodes, node ∉ cycle)
    (node : K) : ¬ OnCycle left.contains deps node := by
  induction fuel generalizing nodes with
  | zero => exact absurd enough (Nat.not_lt_zero _)
  | succ fuel ih =>
    unfold removeCycles at spared
    cases reported : depthOrder deps nodes with
    | ok order => exact fun cycle => (depthOrder_eq_ok reported).2 node (cycle.mono subset)
    | error first =>
      simp only [reported, List.mem_cons, forall_eq_or_imp] at spared
      exact ih (size_minus_lt reported enough)
        (fun other mem => mem_minus.mpr ⟨subset other mem, (spared other mem).1⟩)
        fun other mem => (spared other mem).2

end Peinit
