import Peinit.Graph.Shape
import Peinit.Graph.Store
import Peinit.Lib.Run

/-!
# Calls to the graph execution store

A call that looks into contexts keeps the shape of each of them, the set of live contexts and the
associations; only the calls that build and retire contexts change these.
-/

namespace Peinit

open Fallible GraphExecutionStore

inductive GraphCall where
  | createBootContext (plan : Phase2BootPlan) (definitions : List ServiceDefinition)
  | createOnDemandContext (dispatch : OnDemandStartDispatch) (services : ServiceTable)
  | releaseReady (contextId : GraphContextId) (maxParallelStarts : ℕ)
      (probe : String → String → LevelProbe)
  | applyPreStartCheckPassed (operationId : OperationId)
  | applyOperationSatisfied (operationId : OperationId)
  | applyOperationFailed (operationId : OperationId)
  | applyOperationAwaitingRestart (operationId : OperationId)
  | settleAwaitingRestart (service : String) (outcome : GraphTerminalOutcome)
  | pruneDormantDependencies (operationId : OperationId)
  | clearRecordedOperationHold (operationId : OperationId)
  | retireDrainedContexts

namespace GraphCall

/-- The store after a call, which keeps what a failing method has written. -/
def perform (s : GraphExecutionStore) : GraphCall → GraphExecutionStore
  | createBootContext plan definitions =>
    ((GraphExecutionStore.createBootContext plan definitions).run s).2
  | createOnDemandContext dispatch services =>
    ((GraphExecutionStore.createOnDemandContext dispatch services).run s).2
  | releaseReady contextId maxParallelStarts probe =>
    ((GraphExecutionStore.releaseReady contextId maxParallelStarts probe).run s).2
  | applyPreStartCheckPassed operationId =>
    ((GraphExecutionStore.applyPreStartCheckPassed operationId).run s).2
  | applyOperationSatisfied operationId =>
    ((GraphExecutionStore.applyOperationSatisfied operationId).run s).2
  | applyOperationFailed operationId =>
    ((GraphExecutionStore.applyOperationFailed operationId).run s).2
  | applyOperationAwaitingRestart operationId =>
    ((GraphExecutionStore.applyOperationAwaitingRestart operationId).run s).2
  | settleAwaitingRestart service outcome =>
    ((GraphExecutionStore.settleAwaitingRestart service outcome).run s).2
  | pruneDormantDependencies operationId =>
    ((GraphExecutionStore.pruneDormantDependencies operationId).run s).2
  | clearRecordedOperationHold operationId => s.clearRecordedOperationHold operationId
  | retireDrainedContexts => s.retireDrainedContexts.2

end GraphCall

/-! ## Calls that look into contexts -/

/-- The stores hold the same contexts up to status and holds, and the same associations. -/
structure SameContexts (s t : GraphExecutionStore) : Prop where
  nextContextId : t.nextContextId = s.nextContextId
  associations : t.associations = s.associations
  contexts : ∀ id : GraphContextId, Option.Rel SameShape s.contexts[id]? t.contexts[id]?

namespace SameContexts

theorem optionRel_refl (o : Option GraphExecutionContext) : Option.Rel SameShape o o := by
  cases o
  · exact .none
  · exact .some SameShape.rfl

theorem rfl {s : GraphExecutionStore} : SameContexts s s :=
  ⟨Eq.refl _, Eq.refl _, fun _ => optionRel_refl _⟩

theorem trans {s t u : GraphExecutionStore} (first : SameContexts s t) (second : SameContexts t u) :
    SameContexts s u where
  nextContextId := second.nextContextId.trans first.nextContextId
  associations := second.associations.trans first.associations
  contexts id := by
    have one := first.contexts id
    have two := second.contexts id
    generalize s.contexts[id]? = before at one ⊢
    generalize t.contexts[id]? = between at one two
    generalize u.contexts[id]? = after at two ⊢
    cases one with
    | none =>
      cases two
      exact .none
    | some one =>
      cases two with
      | some two => exact .some (trans_of SameShape one two)

instance : Std.Refl SameContexts := ⟨fun _ => rfl⟩

instance : IsTrans GraphExecutionStore SameContexts := ⟨fun _ _ _ => trans⟩

theorem insert {s : GraphExecutionStore} {id : GraphContextId} {c c' : GraphExecutionContext}
    (live : s.contexts[id]? = some c) (same : SameShape c c') :
    SameContexts s { s with contexts := s.contexts.insert id c' } where
  nextContextId := Eq.refl _
  associations := Eq.refl _
  contexts a := by
    simp only [OrdMap.get_insert]
    split_ifs with here
    · rw [← here, live]
      exact .some same
    · exact optionRel_refl _

end SameContexts

namespace GraphExecutionStore

section OnContext

variable {α : Type} {m : ContextMutator α} {s : GraphExecutionStore} {cid : GraphContextId}
  {c : GraphExecutionContext}

theorem run_onContext_of_none (gone : s.contexts[cid]? = none) :
    (onContext cid m).run s = (.error (.unknownContext cid), s) := by
  simp only [onContext, gone]

theorem run_onContext (live : s.contexts[cid]? = some c) : (onContext cid m).run s =
      ((m.run c).1, { s with contexts := s.contexts.insert cid (m.run c).2 }) := by
  simp only [onContext, live]

theorem run_onContext_eq_ok {out : α} {t : GraphExecutionStore}
    (ran : (onContext cid m).run s = (.ok out, t)) : ∃ c c', s.contexts[cid]? = some c ∧
      m.run c = (.ok out, c') ∧ t = { s with contexts := s.contexts.insert cid c' } := by
  rcases live : s.contexts[cid]? with _ | c
  · rw [run_onContext_of_none live] at ran
    cases ran
  · rw [run_onContext live] at ran
    obtain ⟨result, same⟩ := Prod.mk.inj ran
    exact ⟨c, (m.run c).2, rfl, Prod.ext result rfl, same.symm⟩

theorem keeps_onContext (keeps : Keeps SameShape m) (cid : GraphContextId) :
    Keeps SameContexts (onContext cid m) := by
  intro s
  rcases live : s.contexts[cid]? with _ | c
  · rw [run_onContext_of_none live]
    exact SameContexts.rfl
  · rw [run_onContext live]
    exact SameContexts.insert live (keeps c)

end OnContext

theorem keeps_forAssociated {α : Type} {m : GraphContextId → ContextMutator (List α)}
    (keeps : ∀ cid, Keeps SameShape (m cid)) (op : OperationId) :
    Keeps SameContexts (forAssociated op m) :=
  Keeps.bind (fun _ => SameContexts.rfl) fun _ =>
    keeps_forEach (fun cid => keeps_onContext (keeps cid) cid) _

theorem keeps_releaseReady (cid : GraphContextId) (slots : ℕ) (probe : String → String → LevelProbe) :
    Keeps SameContexts (releaseReady cid slots probe) := by
  unfold releaseReady
  split_ifs
  · exact fun _ => SameContexts.rfl
  · exact keeps_onContext (keeps_releaseContext _ _) _

theorem keeps_settleAwaitingRestart (svc : String) (outcome : GraphTerminalOutcome) :
    Keeps SameContexts (settleAwaitingRestart svc outcome) :=
  Keeps.bind (fun _ => SameContexts.rfl) fun _ =>
    keeps_forEach (fun cid => keeps_onContext (keeps_settleContext svc outcome) cid) _

theorem keeps_settleFirst (events : List GraphExecutionEvent) (outcome : GraphTerminalOutcome) :
    Keeps SameContexts (settleFirst events outcome) := by
  unfold settleFirst
  cases events.head?
  · exact keeps_pure _
  · exact keeps_settleAwaitingRestart _ _

theorem keeps_applyOperationTerminal (op : OperationId) (outcome : GraphTerminalOutcome) :
    Keeps SameContexts (applyOperationTerminal op outcome) := by
  refine Keeps.bind ?_ fun events => ?_
  · exact keeps_forAssociated (fun _ => keeps_applyContextTerminal _ _) _
  · exact Keeps.bind (keeps_settleFirst _ _) fun _ => keeps_pure _

theorem keeps_applyOperationAwaitingRestart (op : OperationId) :
    Keeps SameContexts (applyOperationAwaitingRestart op) :=
  keeps_forAssociated (fun _ => (keeps_applyContextAwaitingRestart op).bind fun _ => keeps_pure _) _

theorem keeps_applyPreStartCheckPassed (op : OperationId) :
    Keeps SameContexts (applyPreStartCheckPassed op) :=
  keeps_forAssociated (fun _ => (keeps_markPreStartCheckPassed op).bind fun _ => keeps_pure _) _

theorem keeps_pruneDormantDependencies (op : OperationId) :
    Keeps SameContexts (pruneDormantDependencies op) :=
  keeps_forAssociated (fun _ => keeps_pruneContext op) _

theorem sameContexts_clearRecordedOperationHold (s : GraphExecutionStore)
    (op : OperationId) : SameContexts s (s.clearRecordedOperationHold op) := by
  rw [clearRecordedOperationHold]
  generalize s.associatedContexts op = ids
  induction ids generalizing s with
  | nil => exact SameContexts.rfl
  | cons id ids ih =>
    rw [List.foldl_cons]
    refine SameContexts.trans ?_ (ih _)
    rcases live : s.contexts[id]? with _ | c
    · exact SameContexts.rfl
    · refine SameContexts.insert live ⟨rfl, rfl, rfl, fun a => ?_⟩
      simp only [Std.ExtTreeMap.getElem?_map, Option.map_map]
      congr 1
      funext member
      dsimp only [Function.comp_apply]
      split_ifs <;> rfl

end GraphExecutionStore

end Peinit
