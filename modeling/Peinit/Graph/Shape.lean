import Peinit.Graph.Context

/-!
# What no change to a context touches

After a context is built only the status and the hold of its members change: `SameShape`.  Every
function on a context keeps it, also one that fails half-way.
-/

namespace Peinit

open Fallible Keeps GraphMember

/-- A member without its status and hold. -/
def GraphMember.fixed (member : GraphMember) : GraphMember :=
  { member with status := .dormant, heldWithoutClock := false }

/-- The contexts differ at most in the status and the holds of their members. -/
structure SameShape (c c' : GraphExecutionContext) : Prop where
  id : c'.id = c.id
  kind : c'.kind = c.kind
  dependencies : c'.dependencies = c.dependencies
  members : ∀ s : String, (c'.members[s]?).map GraphMember.fixed = (c.members[s]?).map GraphMember.fixed

instance : Std.Refl SameShape where
  refl _ := ⟨rfl, rfl, rfl, fun _ => rfl⟩

instance : IsTrans GraphExecutionContext SameShape where
  trans _ _ _ first second :=
    { id := second.id.trans first.id
      kind := second.kind.trans first.kind
      dependencies := second.dependencies.trans first.dependencies
      members s := (second.members s).trans (first.members s) }

namespace SameShape

variable {c c' : GraphExecutionContext} {s : String} {m m' : GraphMember}

theorem rfl : SameShape c c := refl_of SameShape c

theorem symm (same : SameShape c c') : SameShape c' c where
  id := same.id.symm
  kind := same.kind.symm
  dependencies := same.dependencies.symm
  members s := (same.members s).symm

theorem get (same : SameShape c c') (got : c.members[s]? = some m) :
    ∃ m', c'.members[s]? = some m' ∧ m'.fixed = m.fixed := by
  have kept := same.members s
  rw [got] at kept
  exact Option.map_eq_some_iff.mp kept

theorem write (got : c.members[s]? = some m) (kept : m'.fixed = m.fixed) :
    SameShape c (c.write s m') where
  id := Eq.refl _
  kind := Eq.refl _
  dependencies := Eq.refl _
  members a := by
    rw [GraphExecutionContext.write, OrdMap.get_insert]
    split_ifs with here
    · rw [← here, got, Option.map_some, Option.map_some, kept]
    · exact Eq.refl _

theorem memberForOperation (same : SameShape c c') (op : OperationId) :
    (c'.memberForOperation op).map fixed = (c.memberForOperation op).map fixed := by
  have values := OrdMap.map_values_congr same.members
  have got := congrArg (List.find? fun m => decide (m.operationId = op)) values
  rw [List.find?_map, List.find?_map] at got
  exact got

end SameShape

namespace GraphMember

variable {m m' : GraphMember}

theorem service_eq (h : m'.fixed = m.fixed) : m'.service = m.service := by
  have same := congrArg service h
  exact same

theorem operationId_eq (h : m'.fixed = m.fixed) : m'.operationId = m.operationId := by
  have same := congrArg operationId h
  exact same

theorem transitionCause_eq (h : m'.fixed = m.fixed) : m'.transitionCause = m.transitionCause := by
  have same := congrArg transitionCause h
  exact same

end GraphMember

/-! ## Lookups -/

section Lookup

variable {c : GraphExecutionContext} {svc : String} {op : OperationId}
  {Q : GraphMember → GraphExecutionContext → Prop}
  {E : GraphExecutionError → GraphExecutionContext → Prop}

theorem wp_requireMember : wp (requireMember svc) Q E c ↔ (∀ m, c.members[svc]? = some m → Q m c) ∧
      (c.members[svc]? = none → E (.missingMember c.id svc) c) := by
  rw [requireMember, wp_bind, wp_fetch]
  cases c.members[svc]? <;> simp

theorem wp_requireMemberForOperation : wp (requireMemberForOperation op) Q E c ↔
    (∀ m, c.memberForOperation op = some m → Q m c) ∧
      (c.memberForOperation op = none → E (.unknownAssociatedOperation op) c) := by
  rw [requireMemberForOperation, wp_bind, wp_fetch]
  cases c.memberForOperation op <;> simp

theorem run_requireMember {m : GraphMember} (got : c.members[svc]? = some m) :
    (requireMember svc).run c = (.ok m, c) := by
  rw [requireMember, run_fetch_bind, got]
  rfl

theorem run_requireMemberForOperation {m : GraphMember} (got : c.memberForOperation op = some m) :
    (requireMemberForOperation op).run c = (.ok m, c) := by
  rw [requireMemberForOperation, run_fetch_bind, got]
  rfl

end Lookup

/-! ## Every change keeps the shape -/

theorem sameShape_foldl {α : Type} {f : GraphExecutionContext → α → GraphExecutionContext}
    (step : ∀ c x, SameShape c (f c x)) (xs : List α) (c : GraphExecutionContext) :
    SameShape c (xs.foldl f c) := by
  induction xs generalizing c with
  | nil => exact SameShape.rfl
  | cons x xs ih => exact trans_of SameShape (step c x) (ih _)

theorem sameShape_noteHold (c : GraphExecutionContext) (hold : String × Bool) :
    SameShape c (c.noteHold hold) := by
  rw [GraphExecutionContext.noteHold]
  rcases got : c.members[hold.1]? with _ | m
  · exact SameShape.rfl
  · exact SameShape.write got rfl

theorem sameShape_noteHoldsWithoutClock (c : GraphExecutionContext) :
    SameShape c c.noteHoldsWithoutClock := sameShape_foldl sameShape_noteHold _ c

theorem sameShape_wake (c : GraphExecutionContext) (target : String) : SameShape c (wake c target) := by
  rw [wake]
  rcases got : c.members[target]? with _ | m
  · exact SameShape.rfl
  · dsimp only
    split_ifs
    · exact SameShape.write got rfl
    · exact SameShape.rfl

theorem sameShape_activateDependencies (c : GraphExecutionContext) (svc : String) :
    SameShape c (activateDependencies c svc) := sameShape_foldl sameShape_wake _ c

theorem keeps_requireMember (svc : String) : Keeps SameShape (requireMember svc) :=
  of_wp fun _ => wp_requireMember.mpr ⟨fun _ _ => SameShape.rfl, fun _ => SameShape.rfl⟩

theorem keeps_requireMemberForOperation (op : OperationId) :
    Keeps SameShape (requireMemberForOperation op) :=
  of_wp fun _ =>
    wp_requireMemberForOperation.mpr ⟨fun _ _ => SameShape.rfl, fun _ => SameShape.rfl⟩

theorem keeps_markRunning (svc : String) : Keeps SameShape (markRunning svc) := by
  apply of_wp
  intro c
  simp only [markRunning, wp_bind, wp_requireMember]
  exact ⟨fun m got => SameShape.write got rfl, fun _ => SameShape.rfl⟩

theorem keeps_releaseContext (slots : ℕ) (probe : String → String → LevelProbe) :
    Keeps SameShape (releaseContext slots probe) := by
  refine bind (fun c => SameShape.rfl) fun context => ?_
  refine bind (fun c => SameShape.rfl) fun ready => ?_
  refine bind (keeps_forEach (fun entry => keeps_markRunning entry.1) ready) fun _ => ?_
  refine bind (keeps_forEach
    (fun _ => (keeps_requireMember _).bind fun _ => keeps_pure _) ready) fun _ => ?_
  exact bind (fun c => sameShape_noteHoldsWithoutClock c) fun _ => keeps_pure _

theorem keeps_markTerminal (svc : String) (outcome : GraphTerminalOutcome) :
    Keeps SameShape (markTerminal svc outcome) := by
  apply of_wp
  intro c
  simp only [markTerminal, wp_bind, wp_requireMember, wp_ite]
  exact ⟨fun m got => ⟨fun _ => SameShape.rfl, fun _ => SameShape.write got rfl⟩, fun _ => SameShape.rfl⟩

theorem keeps_failDependent {propagate : String → ContextMutator (List GraphExecutionEvent)}
    (keeps : ∀ s, Keeps SameShape (propagate s)) (dependent : String) :
    Keeps SameShape (failDependent propagate dependent) := by
  refine bind (keeps_requireMember _) fun member => ?_
  refine bind (fun c => SameShape.rfl) fun context => ?_
  split_ifs
  · refine bind (keeps_markTerminal _ _) fun _ => ?_
    exact bind (keeps _) fun _ => keeps_pure _
  · exact keeps_pure _

theorem keeps_propagateVisiting (fuel : ℕ) (failedService : String) :
    Keeps SameShape (propagateVisiting fuel failedService) := by
  induction fuel generalizing failedService with
  | zero => exact keeps_pure _
  | succ fuel ih =>
    exact bind (fun c => SameShape.rfl) fun _ => keeps_forEach (keeps_failDependent ih) _

theorem keeps_endMember (svc : String) (op : OperationId)
    (outcome : GraphTerminalOutcome) : Keeps SameShape (endMember svc op outcome) := by
  refine bind (fun c => SameShape.rfl) fun _ => ?_
  refine bind (keeps_markTerminal _ _) fun _ => ?_
  split_ifs
  · refine bind (bind (fun c => SameShape.rfl) fun _ => ?_) fun _ => keeps_pure _
    exact keeps_propagateVisiting _ _
  · exact keeps_pure _

theorem keeps_applyContextTerminal (op : OperationId) (outcome : GraphTerminalOutcome) :
    Keeps SameShape (applyContextTerminal op outcome) :=
  (keeps_requireMemberForOperation _).bind fun _ => keeps_endMember _ _ _

theorem keeps_settleContext (svc : String) (outcome : GraphTerminalOutcome) :
    Keeps SameShape (settleContext svc outcome) := by
  refine bind (fun c => SameShape.rfl) fun context => ?_
  rcases context.members[svc]? with _ | member
  · exact keeps_pure _
  · dsimp only
    split_ifs
    · exact keeps_endMember _ _ _
    · exact keeps_pure _

theorem keeps_applyContextAwaitingRestart (op : OperationId) :
    Keeps SameShape (applyContextAwaitingRestart op) := by
  refine bind (keeps_requireMemberForOperation _) fun member => ?_
  refine bind ?_ fun _ c => sameShape_noteHoldsWithoutClock c
  apply of_wp
  intro c
  simp only [markAwaitingRestart, wp_bind, wp_requireMember, wp_ite]
  exact ⟨fun m got => ⟨fun _ => SameShape.rfl, fun _ => SameShape.write got rfl⟩, fun _ => SameShape.rfl⟩

theorem keeps_pruneDormantSubtree
    {pruneDependencies : String → ContextMutator (List GraphPrunedOperation)}
    (keeps : ∀ s, Keeps SameShape (pruneDependencies s)) (svc : String) :
    Keeps SameShape (pruneDormantSubtree pruneDependencies svc) := by
  intro c
  rw [pruneDormantSubtree, run_fetch_bind]
  split_ifs
  · rcases got : c.members[svc]? with _ | member
    · rw [run_bind, requireMember, run_fetch_bind, got]
      exact SameShape.rfl
    · rw [run_bind, run_requireMember got]
      have written : SameShape c (c.write svc { member with status := .pruned }) :=
        SameShape.write got rfl
      exact trans_of SameShape written ((bind (keeps svc) fun _ => keeps_pure _) _)
  · exact SameShape.rfl

theorem keeps_pruneVisiting (fuel : ℕ) (svc : String) : Keeps SameShape (pruneVisiting fuel svc) := by
  induction fuel generalizing svc with
  | zero => exact keeps_pure _
  | succ fuel ih =>
    exact bind (fun c => SameShape.rfl) fun _ => keeps_forEach (keeps_pruneDormantSubtree ih) _

theorem keeps_pruneContext (op : OperationId) : Keeps SameShape (pruneContext op) := by
  refine bind (keeps_requireMemberForOperation _) fun _ => ?_
  exact bind (fun c => SameShape.rfl) fun _ => keeps_pruneVisiting _ _

theorem keeps_markPreStartCheckPassed (op : OperationId) :
    Keeps SameShape (markPreStartCheckPassed op) := by
  apply of_wp
  intro c
  simp only [markPreStartCheckPassed, wp_bind, wp_requireMemberForOperation, wp_requireMember,
    wp_fetch, wp_ite, wp_raise, wp_update, wp_pure]
  refine ⟨fun named _ => ⟨fun m got => ⟨fun _ => SameShape.rfl, fun _ => ⟨fun _ => SameShape.rfl,
    fun _ => ?_⟩⟩, fun _ => SameShape.rfl⟩, fun _ => SameShape.rfl⟩
  have written : SameShape c (c.write named.service { m with status := .waitingForDependencies }) :=
    SameShape.write got rfl
  exact trans_of SameShape written (sameShape_activateDependencies _ _)

end Peinit
