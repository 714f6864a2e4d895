import Peinit.Graph.Build
import Peinit.Graph.Context

/-!
# The graph execution store

All live contexts, and for each operation the contexts that have a member started by it.  A method
that borrows the store mutably and can fail is a `StoreMutator`.
-/

namespace Peinit

open Fallible

structure GraphExecutionStore where
  nextContextId : ℕ
  contexts : OrdMap GraphContextId GraphExecutionContext
  associations : OrdMap OperationId (OrdSet GraphContextId)

namespace GraphExecutionStore

abbrev StoreMutator (α : Type) : Type := Fallible GraphExecutionStore GraphExecutionError α

def new : GraphExecutionStore := ⟨0, ∅, ∅⟩

def associatedContexts (self : GraphExecutionStore) (operationId : OperationId) :
    List GraphContextId :=
  match self.associations[operationId]? with
  | some contexts => contexts.toList
  | none => []

/-! ## Contexts come and go -/

def pendingContextId (self : GraphExecutionStore) : GraphContextId := ⟨self.nextContextId⟩

/-- Note that `operationId` runs in the context `contextId`. -/
def associate (associations : OrdMap OperationId (OrdSet GraphContextId))
    (operationId : OperationId) (contextId : GraphContextId) :
    OrdMap OperationId (OrdSet GraphContextId) :=
  associations.insert operationId ((associations[operationId]?.getD ∅).insert contextId)

def insertContext (self : GraphExecutionStore) (context : GraphExecutionContext) :
    GraphExecutionStore where
  nextContextId := context.id.asU64 + 1
  associations := context.members.values.foldl
    (fun associations member => associate associations member.operationId context.id)
    self.associations
  contexts := self.contexts.insert context.id context

def createBootContext (plan : Phase2BootPlan) (definitions : List ServiceDefinition) :
    Fallible GraphExecutionStore GraphContextBuildError GraphContextId := do
  let self ← fetch
  let context ← ofExcept (bootContext self.pendingContextId plan definitions)
  update (·.insertContext context)
  return self.pendingContextId

def createOnDemandContext (dispatch : OnDemandStartDispatch) (services : ServiceTable) :
    Fallible GraphExecutionStore GraphContextBuildError GraphContextId := do
  let self ← fetch
  let context ← ofExcept (onDemandContext self.pendingContextId dispatch services)
  update (·.insertContext context)
  return self.pendingContextId

/-- Forget the contexts of `retired` among those of an operation; none left is no entry. -/
def dropRetired (retired : List GraphContextId) (contexts : OrdSet GraphContextId) :
    Option (OrdSet GraphContextId) :=
  let left := contexts.filter (· ∉ retired)
  if left.isEmpty then none else some left

/-- Drop every context whose members are all terminal, and what pointed at it. -/
def retireDrainedContexts (self : GraphExecutionStore) :
    List GraphContextId × GraphExecutionStore :=
  let retired := (self.contexts.values.filter (·.isDrained)).map (·.id)
  if retired.isEmpty then (retired, self)
  else (retired, { self with
    contexts := retired.foldl (fun contexts contextId => contexts.erase contextId) self.contexts
    associations := self.associations.filterMap fun _ contexts => dropRetired retired contexts })

/-! ## Changes inside the contexts -/

/-- Borrow a context mutably; what the borrower wrote stays, also if it failed. -/
def onContext {α : Type} (contextId : GraphContextId) (m : ContextMutator α) : StoreMutator α where
  run self := match self.contexts[contextId]? with
    | none => (.error (.unknownContext contextId), self)
    | some context =>
      let (result, context) := m.run context
      (result, { self with contexts := self.contexts.insert contextId context })

/-- Run `m` in every context of the operation, in the order of their ids. -/
def forAssociated {α : Type} (operationId : OperationId)
    (m : GraphContextId → ContextMutator (List α)) : StoreMutator (List α) := do
  let self ← fetch
  forEach (fun contextId => onContext contextId (m contextId)) (self.associatedContexts operationId)

def releaseReady (contextId : GraphContextId) (maxParallelStarts : ℕ)
    (probe : String → String → LevelProbe) : StoreMutator (List ReadyGraphOperation) :=
  if maxParallelStarts = 0 then raise .invalidMaxParallelStarts
  else onContext contextId (releaseContext maxParallelStarts probe)

def settleAwaitingRestart (service : String) (outcome : GraphTerminalOutcome) :
    StoreMutator (List GraphExecutionEvent) := do
  let self ← fetch
  forEach (fun contextId => onContext contextId (settleContext service outcome)) self.contexts.keys

/-- Settle the service's waiters in other contexts, once the operation's own contexts know. -/
def settleFirst (events : List GraphExecutionEvent) (outcome : GraphTerminalOutcome) :
    StoreMutator (List GraphExecutionEvent) :=
  match events.head? with
  | some event => settleAwaitingRestart event.service outcome
  | none => return []

def applyOperationTerminal (operationId : OperationId) (outcome : GraphTerminalOutcome) :
    StoreMutator (List GraphExecutionEvent) := do
  let events ← forAssociated operationId fun _ => applyContextTerminal operationId outcome
  let settled ← settleFirst events outcome
  return events ++ settled

def applyOperationSatisfied (operationId : OperationId) :
    StoreMutator (List GraphExecutionEvent) :=
  applyOperationTerminal operationId .satisfied

def applyOperationFailed (operationId : OperationId) : StoreMutator (List GraphExecutionEvent) :=
  applyOperationTerminal operationId .failed

def applyOperationAwaitingRestart (operationId : OperationId) :
    StoreMutator (List GraphContextId) :=
  forAssociated operationId fun contextId => do
    applyContextAwaitingRestart operationId
    return [contextId]

def applyPreStartCheckPassed (operationId : OperationId) : StoreMutator (List GraphContextId) :=
  forAssociated operationId fun contextId => do
    let changed ← markPreStartCheckPassed operationId
    return if changed then [contextId] else []

def pruneDormantDependencies (operationId : OperationId) :
    StoreMutator (List GraphPrunedOperation) :=
  forAssociated operationId fun _ => pruneContext operationId

/-! ## Holds -/

/-- Consume a hold of the operation in every context. -/
def clearRecordedOperationHold (self : GraphExecutionStore) (operationId : OperationId) :
    GraphExecutionStore :=
  let clear (context : GraphExecutionContext) : GraphExecutionContext :=
    { context with members := context.members.map fun _ member =>
        if member.operationId = operationId then { member with heldWithoutClock := false }
        else member }
  (self.associatedContexts operationId).foldl
    (fun self contextId =>
      match self.contexts[contextId]? with
      | some context => { self with contexts := self.contexts.insert contextId (clear context) }
      | none => self)
    self

end GraphExecutionStore

end Peinit
