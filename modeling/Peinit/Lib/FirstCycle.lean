import Peinit.Lib.DepthOrder
import Peinit.Lib.Fallible

/-!
# The cycle a depth-first ordering reports

Ordering depth first fails as soon as it comes back to a node of its path. That cycle follows from the
graph alone: start at the first node that leads to a cycle, and go from each node to its first
dependency that leads to one (`mem_reported`). If no node does, every node comes behind its
dependencies (`DependenciesFirst`).
-/

namespace Peinit

open List Relation.ReflTransGen

/-! ## Walks without a choice -/

section RightUnique

variable {α : Type} {r : α → α → Prop}

theorem transGen_back_of_rightUnique (unique : Relator.RightUnique r) {v x : α}
    (cycle : Relation.TransGen r v v) (reached : Relation.ReflTransGen r v x) :
    Relation.TransGen r x v := by
  induction reached with
  | refl => exact cycle
  | @tail x y _ step back =>
    obtain ⟨z, first, rest⟩ := Relation.TransGen.head'_iff.mp back
    obtain rfl : y = z := unique step first
    rcases Relation.reflTransGen_iff_eq_or_transGen.mp rest with rfl | path
    · exact cycle
    · exact path

end RightUnique

variable {α : Type} (within : α → Bool) (deps : α → List α) {x y first node v : α} {r : α → α → Prop}
  {rest temporary cycle order : List α}

/-- `x` depends on `y`, and both are in the set. -/
def DependsWithin (x y : α) : Prop :=
  within x = true ∧ within y = true ∧ y ∈ deps x

def OnCycle (x : α) : Prop := Relation.TransGen (DependsWithin within deps) x x

def LeadsToCycle (x : α) : Prop :=
  ∃ y, Relation.ReflTransGen (DependsWithin within deps) x y ∧ OnCycle within deps y

/-- `y` is the first of `nodes` in the set that leads to a cycle. -/
def FirstLeading (nodes : List α) (y : α) : Prop :=
  within y = true ∧ LeadsToCycle within deps y ∧ ∃ before after,
    nodes = before ++ y :: after ∧ ∀ z ∈ before, within z = true → ¬ LeadsToCycle within deps z

def StepsTo (x y : α) : Prop :=
  within x = true ∧ FirstLeading within deps (deps x) y

/-- `v` is on the cycle that the walk over `nodes` runs into. -/
def OnFirstCycle (nodes : List α) (v : α) : Prop :=
  ∃ start, FirstLeading within deps nodes start ∧
    Relation.ReflTransGen (StepsTo within deps) start v ∧
    Relation.TransGen (StepsTo within deps) v v

/-- Each node of the list depends on the next, and the last on the first. -/
def IsDependencyCycle (cycle : List α) : Prop :=
  cycle ≠ [] ∧ cycle.IsChain (DependsWithin within deps) ∧
    ∀ first ∈ cycle.head?, ∀ last ∈ cycle.getLast?, DependsWithin within deps last first

/-- A list in which a node stands behind its dependencies in the set. -/
inductive DependenciesFirst : List α → Prop
  | nil : DependenciesFirst []
  | append {order : List α} {x : α} : DependenciesFirst order → x ∉ order →
      (∀ y ∈ deps x, within y = true → y ∈ order) → DependenciesFirst (order ++ [x])

variable {within deps}

theorem FirstLeading.unique {nodes : List α} (first : FirstLeading within deps nodes x)
    (other : FirstLeading within deps nodes y) : x = y := by
  obtain ⟨insideX, leadsX, before, after, split, none_⟩ := first
  obtain ⟨insideY, leadsY, before', after', split', none_'⟩ := other
  rcases append_eq_append_iff.mp (split.symm.trans split') with ⟨more, rfl, rest⟩ | ⟨more, rfl, rest⟩
  · cases more with
    | nil => simpa using (cons.inj rest).1
    | cons z more =>
      obtain ⟨rfl, -⟩ := cons.inj rest
      exact absurd leadsX (none_' x (by simp) insideX)
  · cases more with
    | nil => simpa using (cons.inj rest).1.symm
    | cons z more =>
      obtain ⟨rfl, -⟩ := cons.inj rest
      exact absurd leadsY (none_ y (by simp) insideY)

theorem FirstLeading.mem {nodes : List α} (first : FirstLeading within deps nodes y) :
    y ∈ nodes := by
  obtain ⟨-, -, before, after, rfl, -⟩ := first
  simp

theorem StepsTo.unique : Relator.RightUnique (StepsTo within deps) :=
  fun _ _ _ one other => one.2.unique other.2

theorem StepsTo.depends (step : StepsTo within deps x y) :
    DependsWithin within deps x y :=
  ⟨step.1, step.2.1, step.2.mem⟩

theorem OnCycle.leads (cycle : OnCycle within deps x) :
    LeadsToCycle within deps x := ⟨x, .refl, cycle⟩

theorem LeadsToCycle.head (edge : DependsWithin within deps x y)
    (leads : LeadsToCycle within deps y) : LeadsToCycle within deps x := by
  obtain ⟨z, path, cycle⟩ := leads
  exact ⟨z, .head edge path, cycle⟩

theorem LeadsToCycle.exists_depends (leads : LeadsToCycle within deps x) :
    ∃ y, DependsWithin within deps x y ∧ LeadsToCycle within deps y := by
  obtain ⟨z, path, cycle⟩ := leads
  rcases cases_head path with rfl | ⟨y, edge, rest⟩
  · obtain ⟨y, edge, rest⟩ := Relation.TransGen.head'_iff.mp cycle
    exact ⟨y, edge, x, rest, cycle⟩
  · exact ⟨y, edge, z, rest, cycle⟩

/-! ## Dependencies first -/

namespace DependenciesFirst

variable {order : List α}

theorem nodup (sorted : DependenciesFirst within deps order) : order.Nodup := by
  induction sorted with
  | nil => exact nodup_nil
  | append _ fresh _ ih => simpa using ih.concat fresh

theorem not_leads (sorted : DependenciesFirst within deps order) :
    ∀ x ∈ order, ¬ LeadsToCycle within deps x := by
  induction sorted with
  | nil => simp
  | @append order x _ _ below ih =>
    intro y mem leads
    rcases mem_append.mp mem with mem | mem
    · exact ih y mem leads
    · obtain rfl := mem_singleton.mp mem
      obtain ⟨z, edge, leads⟩ := leads.exists_depends
      exact ih z (below z edge.2.2 edge.2.1) leads

theorem precedes (sorted : DependenciesFirst within deps order) {before after : List α}
    (split : order = before ++ x :: after) (edge : y ∈ deps x)
    (inside : within y = true) : y ∈ before := by
  induction sorted generalizing before after with
  | nil => simp at split
  | @append order z _ _ below ih =>
    rcases eq_nil_or_concat after with rfl | ⟨rest, last, rfl⟩
    · obtain ⟨rfl, same⟩ := append_inj' split rfl
      obtain rfl : z = x := by simpa using same
      exact below y edge inside
    · rw [concat_eq_append, ← cons_append, ← append_assoc] at split
      exact ih (append_inj' split rfl).1

end DependenciesFirst

/-! ## A visit that comes back to its path -/

variable (within deps) in
/-- A visit of `node`, come to along `temporary`, walks on until it is back on its path; `cycle` is the
path from there on. -/
inductive Caught : List α → α → List α → Prop
  | back {front : List α} {node : α} {rest : List α} : Caught (front ++ node :: rest) node (node :: rest)
  | down {temporary : List α} {node next : α} {cycle : List α} :
      StepsTo within deps node next → Caught (temporary ++ [node]) next cycle →
      Caught temporary node cycle

theorem reflTransGen_of_isChain
    (chain : (first :: rest).IsChain r) : ∀ x ∈ first :: rest, Relation.ReflTransGen r first x := by
  induction rest generalizing first with
  | nil => simp [refl]
  | cons second rest ih =>
    obtain ⟨step, chain⟩ := isChain_cons_cons.mp chain
    intro x mem
    rcases mem_cons.mp mem with rfl | mem
    · exact .refl
    · exact .head step (ih chain x mem)

theorem reflTransGen_getLast_of_isChain {nodes : List α} {last : α}
    (chain : nodes.IsChain r) (ends : last ∈ nodes.getLast?) :
    ∀ x ∈ nodes, Relation.ReflTransGen r x last := by
  induction nodes with
  | nil => simp
  | cons first rest ih =>
    intro x mem
    cases rest with
    | nil =>
      obtain rfl : first = last := by simpa using ends
      obtain rfl : x = first := by simpa using mem
      exact .refl
    | cons second rest =>
      obtain ⟨step, rest'⟩ := isChain_cons_cons.mp chain
      rcases mem_cons.mp mem with rfl | mem
      · exact .head step (ih rest' ends second (by simp))
      · exact ih rest' ends x mem

theorem transGen_of_closed
    (chain : (first :: rest).IsChain r)
    (closes : ∀ last ∈ (first :: rest).getLast?, r last first) :
    ∀ x ∈ first :: rest, Relation.TransGen r x x := by
  intro x mem
  obtain ⟨last, ends⟩ : ∃ last, last ∈ (first :: rest).getLast? := ⟨_, getLast?_eq_some_getLast (by simp)⟩
  have there := reflTransGen_getLast_of_isChain chain ends x mem
  have back := reflTransGen_of_isChain chain x mem
  exact .trans_right there (.trans_left (.single (closes last ends)) back)

theorem Caught.leads
    (caught : Caught within deps temporary node cycle)
    (path : (temporary ++ [node]).IsChain (DependsWithin within deps)) :
    LeadsToCycle within deps node := by
  cases caught with
  | @back front _ rest =>
    rw [append_assoc] at path
    have closed : (node :: rest ++ [node]).IsChain (DependsWithin within deps) :=
      (isChain_append.mp path).2.1
    obtain ⟨chain, -, closes⟩ := isChain_append.mp closed
    refine OnCycle.leads (transGen_of_closed chain (fun last ends => ?_) node (by simp))
    exact closes last ends node (by simp)
  | down step _ => exact .head step.depends step.2.2.1

theorem Caught.walk
    (caught : Caught within deps temporary node cycle)
    (path : (temporary ++ [node]).IsChain (StepsTo within deps)) :
    ∃ entry rest, cycle = entry :: rest ∧ cycle.IsChain (StepsTo within deps) ∧
      (∀ last ∈ cycle.getLast?, StepsTo within deps last entry) ∧
      ∀ start ∈ (temporary ++ [node]).head?, Relation.ReflTransGen (StepsTo within deps) start entry := by
  induction caught with
  | @back front node rest =>
    have closed := path
    rw [append_assoc, isChain_append] at closed
    obtain ⟨chain, -, closes⟩ := isChain_append.mp
      (show (node :: rest ++ [node]).IsChain (StepsTo within deps) from closed.2.1)
    refine ⟨node, rest, rfl, chain, fun last ends => closes last ends node (by simp), ?_⟩
    intro start first
    rcases front with _ | ⟨first', front⟩
    · obtain rfl : node = start := by simpa using first
      exact .refl
    · obtain rfl : first' = start := by simpa using first
      exact reflTransGen_of_isChain path node (by simp)
  | @down temporary node next cycle step _ ih =>
    obtain ⟨entry, rest, shape, chain, closes, reached⟩ := ih (by
      rw [isChain_append]
      refine ⟨path, isChain_singleton _, ?_⟩
      intro last ends first begins
      obtain rfl : node = last := by simpa using ends
      obtain rfl : next = first := by simpa using begins
      exact step)
    refine ⟨entry, rest, shape, chain, closes, fun start first => reached start ?_⟩
    rw [head?_append, Option.mem_def.mp first]
    rfl

theorem Caught.mem_iff (caught : Caught within deps [] node cycle)
    : v ∈ cycle ↔ Relation.ReflTransGen (StepsTo within deps) node v ∧
      Relation.TransGen (StepsTo within deps) v v := by
  obtain ⟨entry, rest, rfl, chain, closes, reached⟩ := caught.walk (isChain_singleton _)
  have reached := reached node (by simp)
  have round := transGen_of_closed chain closes
  constructor
  · exact fun mem => ⟨reached.trans (reflTransGen_of_isChain chain v mem), round v mem⟩
  · rintro ⟨path, cycle⟩
    -- the walk never leaves the cycle
    have kept : ∀ x ∈ entry :: rest, ∀ y, StepsTo within deps x y → y ∈ entry :: rest := by
      intro x mem y step
      obtain ⟨before, after, split⟩ := append_of_mem mem
      cases after with
      | nil =>
        have ends : x ∈ (entry :: rest).getLast? := by rw [split]; simp
        rw [StepsTo.unique step (closes x ends)]
        simp
      | cons z after =>
        have next : StepsTo within deps x z := by
          rw [split, isChain_append] at chain
          exact (isChain_cons_cons.mp chain.2.1).1
        rw [StepsTo.unique step next, split]
        simp
    have onward : Relation.ReflTransGen (StepsTo within deps) entry v := by
      rcases total_of_right_unique StepsTo.unique reached path with on | back
      · exact on
      · exact (transGen_back_of_rightUnique StepsTo.unique cycle back).to_reflTransGen
    clear path cycle
    induction onward with
    | refl => simp
    | tail _ step mem => exact kept _ mem _ step

theorem Caught.isDependencyCycle (caught : Caught within deps [] node cycle) :
    IsDependencyCycle within deps cycle := by
  obtain ⟨entry, rest, rfl, chain, closes, -⟩ := caught.walk (isChain_singleton _)
  refine ⟨by simp, chain.imp fun _ _ step => step.depends, ?_⟩
  intro first begins last ends
  obtain rfl : entry = first := by simpa using begins
  exact (closes last ends).depends

theorem IsDependencyCycle.onCycle
    (closed : IsDependencyCycle within deps cycle) (mem : v ∈ cycle) :
    OnCycle within deps v := by
  obtain ⟨some_, chain, closes⟩ := closed
  obtain ⟨first, rest, rfl⟩ := exists_cons_of_ne_nil some_
  exact transGen_of_closed chain (closes first (by simp)) v mem

/-! ## What the ordering returns -/

variable [DecidableEq α]

/-- The order that a visit returns lists dependencies first and adds nothing of the path to `order`;
a visit that fails has come back to its path. -/
theorem visitOrder_spec {nodes : Finset α} (bounded : ∀ node, within node = true → node ∈ nodes)
    (fuel : ℕ) : ∀ (temporary order : List α) (node : α), within node = true →
      (nodes \ temporary.toFinset).card < fuel → DependenciesFirst within deps order →
      (temporary ++ [node]).IsChain (DependsWithin within deps) →
      (∀ out, visitOrder within deps fuel temporary order node = .ok out →
        DependenciesFirst within deps out ∧ ∀ x ∈ out, x ∈ order ∨ x ∉ temporary) ∧
      ∀ cycle, visitOrder within deps fuel temporary order node = .error cycle →
        Caught within deps temporary node cycle := by
  induction fuel with
  | zero => exact fun _ _ _ _ enough => absurd enough (Nat.not_lt_zero _)
  | succ fuel ih =>
    intro temporary order node inside enough sorted path
    rw [visitOrder]
    split_ifs with known
    · refine ⟨?_, fun _ failed => by cases failed⟩
      rintro out ⟨⟩
      exact ⟨sorted, fun x mem => .inl mem⟩
    · rcases at_ : temporary.idxOf? node with _ | index
      · have fresh : node ∉ temporary := idxOf?_eq_none_iff.mp at_
        have lower : (nodes \ (temporary ++ [node]).toFinset).card < fuel := by
          have member : node ∈ nodes \ temporary.toFinset := by
            simpa [bounded node inside] using fresh
          have smaller : nodes \ (temporary ++ [node]).toFinset =
              (nodes \ temporary.toFinset).erase node := by
            ext other
            simp [and_left_comm]
          rw [smaller, Finset.card_erase_of_mem member]
          have := Finset.card_pos.mpr ⟨node, member⟩
          omega
        have longer : ∀ target ∈ deps node, within target = true →
            (temporary ++ [node] ++ [target]).IsChain (DependsWithin within deps) := by
          intro target mem within_
          rw [isChain_append]
          refine ⟨path, isChain_singleton _, ?_⟩
          intro last ends first begins
          obtain rfl : node = last := by simpa using ends
          obtain rfl : target = first := by simpa using begins
          exact ⟨inside, within_, mem⟩
        -- what the visits of the first dependencies keep
        have visits : ∀ target ∈ deps node, ∀ before after,
            DependenciesFirst within deps before ∧ (∀ x ∈ before, x ∈ order ∨ x ∉ temporary ++ [node]) →
            (if within target = true then
              visitOrder within deps fuel (temporary ++ [node]) before target
            else .ok before) = .ok after →
            DependenciesFirst within deps after ∧ ∀ x ∈ after, x ∈ order ∨ x ∉ temporary ++ [node] := by
          rintro target mem before after ⟨sorted, new⟩ visited
          split_ifs at visited with within_
          · obtain ⟨sorted', new'⟩ :=
              (ih _ before target within_ lower sorted (longer target mem within_)).1 after visited
            exact ⟨sorted', fun x mem => (new' x mem).elim (new x) .inr⟩
          · cases visited
            exact ⟨sorted, new⟩
        constructor
        · intro out returned
          obtain ⟨mid, folded, ⟨⟩⟩ := bind_eq_ok.mp returned
          obtain ⟨sorted', new⟩ := foldlM_invariant _ visits ⟨sorted, fun x mem => .inl mem⟩ folded
          have below := visited_foldlM (deps node)
            (fun target _ before after visited =>
              visited_if (visitOrder_ok fuel (temporary ++ [node]) before target after) visited)
            order mid folded
          refine ⟨sorted'.append ?_ ?_, ?_⟩
          · exact fun mem => (new node mem).elim known (by simp)
          · exact fun y mem within_ => below.lists y (mem_filter.mpr ⟨mem, within_⟩)
          · intro x mem
            rcases mem_append.mp mem with mem | mem
            · exact (new x mem).imp_right fun absent here => absent (by simp [here])
            · exact .inr (by rwa [mem_singleton.mp mem])
        · intro cycle failed
          rcases bind_eq_error.mp failed with failed | ⟨_, -, ⟨⟩⟩
          obtain ⟨before, target, after, mid, split, folded, failed⟩ := foldlM_split_error failed
          have mem : target ∈ deps node := by simp [split]
          obtain ⟨sorted', -⟩ := foldlM_invariant _
            (fun target mem => visits target (by simp [split, mem]))
            ⟨sorted, fun x mem => .inl mem⟩ folded
          have below := visited_foldlM before
            (fun target _ before after visited =>
              visited_if (visitOrder_ok fuel (temporary ++ [node]) before target after) visited)
            order mid folded
          split_ifs at failed with within_
          have caught := (ih _ mid target within_ lower sorted' (longer target mem within_)).2 cycle failed
          refine .down ⟨inside, within_, caught.leads (longer target mem within_), before, after, split,
            fun z earlier insideZ => ?_⟩ caught
          exact sorted'.not_leads z (below.lists z (mem_filter.mpr ⟨earlier, insideZ⟩))
      · refine ⟨fun _ returned => (by cases returned), ?_⟩
        rintro cycle ⟨⟩
        rw [idxOf?, findIdx?_eq_some_iff_getElem] at at_
        obtain ⟨short, here, -⟩ := at_
        have split := take_append_drop index temporary
        rw [drop_eq_getElem_cons short, eq_of_beq here] at split ⊢
        have caught : Caught within deps
            (temporary.take index ++ node :: temporary.drop (index + 1)) node
            (node :: temporary.drop (index + 1)) := .back
        rwa [split] at caught

section Ordering

variable {nodes : List α} {fuel : ℕ} (enough : nodes.length < fuel)
  (exactly : ∀ node, node ∈ nodes ↔ within node = true)

include enough exactly

theorem visitOrder_nodes (sorted : DependenciesFirst within deps order)
    (mem : node ∈ nodes) :
    (∀ out, visitOrder within deps fuel [] order node = .ok out → DependenciesFirst within deps out) ∧
    ∀ cycle, visitOrder within deps fuel [] order node = .error cycle →
      Caught within deps [] node cycle := by
  have bounded : ∀ node, within node = true → node ∈ nodes.toFinset := fun node inside =>
    mem_toFinset.mpr ((exactly node).mpr inside)
  have room : (nodes.toFinset \ ([] : List α).toFinset).card < fuel := by
    exact (toFinset_card_le nodes).trans_lt enough
  obtain ⟨returns, fails⟩ := visitOrder_spec bounded fuel [] order node ((exactly node).mp mem) room
    sorted (isChain_singleton _)
  exact ⟨fun out returned => (returns out returned).1, fails⟩

theorem dependenciesFirst_of_ordered
    (ordered : nodes.foldlM (visitOrder within deps fuel []) [] = .ok order) :
    DependenciesFirst within deps order :=
  foldlM_invariant (DependenciesFirst within deps)
    (fun _ mem _ out sorted => (visitOrder_nodes enough exactly sorted mem).1 out) .nil ordered

omit enough in
theorem visited_of_ordered {visited : List α} (mem : ∀ node ∈ visited, node ∈ nodes)
    (ordered : visited.foldlM (visitOrder within deps fuel []) [] = .ok order) :
    ∀ node ∈ visited, node ∈ order := by
  have all : Visited within [] (visited.filter (within ·)) order :=
    visited_foldlM visited (fun node here before after done => by
      have inside := (exactly node).mp (mem node here)
      rw [filter_cons_of_pos inside]
      exact visitOrder_ok fuel [] before node after inside done) [] order ordered
  exact fun node here => all.lists node (mem_filter.mpr ⟨here, (exactly node).mp (mem node here)⟩)

theorem not_onCycle_of_ordered
    (ordered : nodes.foldlM (visitOrder within deps fuel []) [] = .ok order) (v : α) :
    ¬ OnCycle within deps v := by
  intro cycle
  obtain ⟨_, edge, -⟩ := Relation.TransGen.head'_iff.mp cycle
  have mem := visited_of_ordered exactly (fun _ here => here) ordered v ((exactly v).mpr edge.1)
  exact (dependenciesFirst_of_ordered enough exactly ordered).not_leads v mem cycle.leads

theorem caught_of_reported
    (reported : nodes.foldlM (visitOrder within deps fuel []) [] = .error cycle) :
    ∃ start, FirstLeading within deps nodes start ∧ Caught within deps [] start cycle := by
  obtain ⟨before, start, after, order, split, ran, failed⟩ := foldlM_split_error reported
  have earlier : ∀ node ∈ before, node ∈ nodes := fun node here => by simp [split, here]
  have mem : start ∈ nodes := by simp [split]
  have sorted : DependenciesFirst within deps order :=
    foldlM_invariant (DependenciesFirst within deps)
      (fun _ here _ out sorted =>
        (visitOrder_nodes enough exactly sorted (earlier _ here)).1 out) .nil ran
  have caught := (visitOrder_nodes enough exactly sorted mem).2 cycle failed
  refine ⟨start, ⟨(exactly start).mp mem, caught.leads (isChain_singleton _), before, after,
    split, fun z here _ => ?_⟩, caught⟩
  exact sorted.not_leads z (visited_of_ordered exactly earlier ran z here)

theorem mem_reported
    (reported : nodes.foldlM (visitOrder within deps fuel []) [] = .error cycle) :
    v ∈ cycle ↔ OnFirstCycle within deps nodes v := by
  obtain ⟨start, first, caught⟩ := caught_of_reported enough exactly reported
  rw [caught.mem_iff]
  constructor
  · exact fun walk => ⟨start, first, walk⟩
  · rintro ⟨other, first', walk⟩
    rwa [first.unique first']

theorem exists_onCycle_of_reported
    (reported : nodes.foldlM (visitOrder within deps fuel []) [] = .error cycle) :
    ∃ v, OnCycle within deps v := by
  obtain ⟨start, ⟨-, ⟨v, -, cycle⟩, -⟩, -⟩ := caught_of_reported enough exactly reported
  exact ⟨v, cycle⟩

theorem isDependencyCycle_of_reported
    (reported : nodes.foldlM (visitOrder within deps fuel []) [] = .error cycle) :
    IsDependencyCycle within deps cycle := by
  obtain ⟨start, -, caught⟩ := caught_of_reported enough exactly reported
  exact caught.isDependencyCycle

end Ordering

end Peinit
