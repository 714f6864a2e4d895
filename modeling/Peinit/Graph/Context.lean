import Peinit.Graph.Model

/-!
# What happens inside one context

Holds, release, terminal outcomes, pruning and passed checks. A function that borrows the context
mutably and can fail is a `ContextMutator`. The two recursions of the source mark a member at each
level, so the number of members bounds their depth.
-/

namespace Peinit

open Fallible

abbrev ContextMutator (α : Type) : Type := Fallible GraphExecutionContext GraphExecutionError α

def requireMember (service : String) : ContextMutator GraphMember := do
  let context ← fetch
  match context.members[service]? with
  | some member => return member
  | none => raise (.missingMember context.id service)

def requireMemberForOperation (operationId : OperationId) : ContextMutator GraphMember := do
  let context ← fetch
  match context.memberForOperation operationId with
  | some member => return member
  | none => raise (.unknownAssociatedOperation operationId)

/-! ## Holds -/

/-- What an unsatisfied edge is waiting on. -/
inductive EdgeWait where
  | settled | undecided | clocked
  deriving DecidableEq

namespace GraphExecutionContext

variable (context : GraphExecutionContext)

/-- `held target` is whether the target, waiting itself, is held only on facts with no clock. -/
def edgeWait (edge : GraphDependency) (held : String → Bool) : EdgeWait :=
  let target : Option GraphMemberStatus := (context.members[edge.target]?).map (·.status)
  match edge.level, target with
  | some _, none | some _, some .satisfied | some _, some .awaitingRestart => .undecided
  | some _, some .failed | some _, some .pruned => .settled
  | none, none | none, some .satisfied | none, some .failed | none, some .pruned => .settled
  | none, some .awaitingRestart => .undecided
  | _, some .waitingForDependencies => if held edge.target then .undecided else .clocked
  | _, some _ => .clocked

/-- The members of `visiting` are being looked at already; a cycle counts as clocked. -/
def waitsWithoutClockVisiting : ℕ → String → List String → Bool
  | 0, _, _ => false
  | fuel + 1, service, visiting =>
    match context.members[service]? with
    | none => false
    | some member =>
      if member.status ≠ .waitingForDependencies then false
      else if service ∈ visiting then false
      else
        let waits := (context.edgesOf service).map fun edge =>
          context.edgeWait edge fun target =>
            waitsWithoutClockVisiting fuel target (service :: visiting)
        waits.all (· ≠ .clocked) && waits.any (· = .undecided)

/-- Whether the start is held only on facts with no clock of their own. -/
def waitsWithoutClock (service : String) : Bool :=
  context.waitsWithoutClockVisiting (context.members.size + 1) service []

def noteHold (hold : String × Bool) : GraphExecutionContext :=
  match context.members[hold.1]? with
  | some member => context.write hold.1 { member with heldWithoutClock := hold.2 }
  | none => context

/-- Record on every waiting member whether it is held only on facts with no clock. -/
def noteHoldsWithoutClock : GraphExecutionContext :=
  let waiting := context.members.values.filter (·.status = .waitingForDependencies)
  let holds := waiting.map fun member => (member.service, context.waitsWithoutClock member.service)
  holds.foldl noteHold context

end GraphExecutionContext

/-! ## Release -/

/-- Whether one edge is settled, so that the dependent may proceed past it. -/
def dependencySettled (context : GraphExecutionContext) (dependency : GraphDependency)
    (probe : String → String → LevelProbe) : Except GraphExecutionError Bool :=
  let member := context.members[dependency.target]?
  match dependency.level with
  | none =>
    match member with
    | none => .error (.missingMember context.id dependency.target)
    | some target =>
      if dependency.kind.isHard then .ok (target.status = .satisfied)
      else .ok target.status.isTerminal
  | some level =>
    let probed := probe dependency.target level
    if dependency.kind.isHard then
      .ok (member.all (·.status = .satisfied) && probed = .satisfied)
    else .ok (member.all (·.status.isTerminal) && probed ≠ .notYetPublished)

def dependenciesSettled (context : GraphExecutionContext) (service : String)
    (probe : String → String → LevelProbe) : Except GraphExecutionError Bool :=
  (context.edgesOf service).foldlM
    (fun settled dependency =>
      if settled then dependencySettled context dependency probe else .ok false)
    true

def readyAction (context : GraphExecutionContext) (member : GraphMember)
    (probe : String → String → LevelProbe) :
    Except GraphExecutionError (Option ReadyGraphOperationAction) :=
  match member.status with
  | .waitingForPreStartCheck => .ok (some .preStartCheck)
  | .waitingForDependencies => do
      let settled ← dependenciesSettled context member.service probe
      return if settled then some .start else none
  | _ => .ok none

/-- The members that can go on, by their place in the plan, at most `limit` of them. -/
def readyMembers (context : GraphExecutionContext) (limit : ℕ) (probe : String → String → LevelProbe) :
    Except GraphExecutionError (List (String × ReadyGraphOperationAction)) :=
  if limit = 0 then .ok []
  else do
    let found ← context.members.values.mapM fun member => do
      let action ← readyAction context member probe
      return action.map fun action => (member.sequence, member.service, action)
    let ready := found.filterMap id
    return ((ready.insertionSort (fun a b => a.1 ≤ b.1)).take limit).map (·.2)

def availableSlots (context : GraphExecutionContext) (maxParallelStarts : ℕ) : ℕ :=
  maxParallelStarts - context.members.values.countP (·.status = .running)

def markRunning (service : String) : ContextMutator (List Unit) := do
  let member ← requireMember service
  update (·.write service { member with status := .running })
  return []

def readyOperation (contextId : GraphContextId) (ready : String × ReadyGraphOperationAction) :
    ContextMutator (List ReadyGraphOperation) := do
  let member ← requireMember ready.1
  return [{
    contextId
    service := ready.1
    operationId := member.operationId
    reservedJobId := member.reservedJobId
    transitionCause := member.transitionCause
    action := ready.2
    releasedFromHold := member.heldWithoutClock }]

/-- Release what is ready, up to the free slots. -/
def releaseContext (maxParallelStarts : ℕ) (probe : String → String → LevelProbe) :
    ContextMutator (List ReadyGraphOperation) := do
  let context ← fetch
  let ready ← ofExcept (readyMembers context (availableSlots context maxParallelStarts) probe)
  let _ ← forEach (fun entry => markRunning entry.1) ready
  let operations ← forEach (readyOperation context.id) ready
  update (·.noteHoldsWithoutClock)
  return operations

/-! ## Terminal outcomes -/

def markTerminal (service : String) (outcome : GraphTerminalOutcome) : ContextMutator Unit := do
  let member ← requireMember service
  let context ← fetch
  if member.status.isTerminal then
    raise (.memberAlreadyTerminal context.id service member.status)
  else update (·.write service { member with status := outcome.status })

def markAwaitingRestart (service : String) : ContextMutator Unit := do
  let member ← requireMember service
  let context ← fetch
  if member.status.isTerminal then
    raise (.memberAlreadyTerminal context.id service member.status)
  else update (·.write service { member with status := .awaitingRestart, heldWithoutClock := false })

def hardDependents (context : GraphExecutionContext) (failedService : String) : List String :=
  ((context.edgesOnto failedService).filter (·.kind.isHard)).filterMap fun edge =>
    match context.members[edge.dependent]? with
    | some member => if member.status.isWaitingOrRunning then some edge.dependent else none
    | none => none

/-- Fail one dependent, if it can still fail, and go on from it. -/
def failDependent (propagate : String → ContextMutator (List GraphExecutionEvent))
    (dependent : String) : ContextMutator (List GraphExecutionEvent) := do
  let member ← requireMember dependent
  let context ← fetch
  if member.status.isWaitingOrRunning then
    markTerminal dependent .failed
    let events ← propagate dependent
    return { contextId := context.id
             service := dependent
             operationId := member.operationId
             outcome := .failed } :: events
  else return []

def propagateVisiting : ℕ → String → ContextMutator (List GraphExecutionEvent)
  | 0, _ => return []
  | fuel + 1, failedService => do
      let context ← fetch
      forEach (failDependent fun dependent => propagateVisiting fuel dependent)
        (hardDependents context failedService)

def propagateHardDependencyFailure (failedService : String) :
    ContextMutator (List GraphExecutionEvent) := do
  let context ← fetch
  propagateVisiting context.members.size failedService

/-- Give `service` its outcome; a failure goes on to its hard dependents. -/
def endMember (service : String) (operationId : OperationId) (outcome : GraphTerminalOutcome) :
    ContextMutator (List GraphExecutionEvent) := do
  let context ← fetch
  markTerminal service outcome
  let event : GraphExecutionEvent := { contextId := context.id, service, operationId, outcome }
  if outcome = .failed then
    let events ← propagateHardDependencyFailure service
    return event :: events
  else return [event]

def applyContextTerminal (operationId : OperationId) (outcome : GraphTerminalOutcome) :
    ContextMutator (List GraphExecutionEvent) := do
  let member ← requireMemberForOperation operationId
  endMember member.service operationId outcome

def settleContext (service : String) (outcome : GraphTerminalOutcome) :
    ContextMutator (List GraphExecutionEvent) := do
  let context ← fetch
  match context.members[service]? with
  | some member =>
    if member.status = .awaitingRestart then endMember service member.operationId outcome
    else return []
  | none => return []

def applyContextAwaitingRestart (operationId : OperationId) : ContextMutator Unit := do
  let member ← requireMemberForOperation operationId
  markAwaitingRestart member.service
  update (·.noteHoldsWithoutClock)

/-! ## Pruning -/

def canPruneDormantMember (context : GraphExecutionContext) (service : String) : Bool :=
  match context.members[service]? with
  | none => false
  | some member =>
    member.status = .dormant &&
      ((context.edgesOnto service).filterMap fun edge => context.members[edge.dependent]?).all
        (·.status.allowsPruning)

/-- Prune one member, if nothing keeps it, and go on with its dependencies. -/
def pruneDormantSubtree (pruneDependencies : String → ContextMutator (List GraphPrunedOperation))
    (service : String) : ContextMutator (List GraphPrunedOperation) := do
  let context ← fetch
  if canPruneDormantMember context service then
    let member ← requireMember service
    update (·.write service { member with status := .pruned })
    let pruned ← pruneDependencies service
    return { contextId := context.id, service, operationId := member.operationId } :: pruned
  else return []

def pruneVisiting : ℕ → String → ContextMutator (List GraphPrunedOperation)
  | 0, _ => return []
  | fuel + 1, service => do
      let context ← fetch
      forEach (pruneDormantSubtree fun target => pruneVisiting fuel target)
        ((context.edgesOf service).map (·.target))

def pruneDependenciesForService (service : String) :
    ContextMutator (List GraphPrunedOperation) := do
  let context ← fetch
  pruneVisiting context.members.size service

def pruneContext (operationId : OperationId) : ContextMutator (List GraphPrunedOperation) := do
  let member ← requireMemberForOperation operationId
  pruneDependenciesForService member.service

/-! ## Passed pre-start checks -/

/-- Make a dormant member wait for its check. -/
def wake (context : GraphExecutionContext) (target : String) : GraphExecutionContext :=
  match context.members[target]? with
  | some member =>
    if member.status = .dormant then
      context.write target { member with status := .waitingForPreStartCheck }
    else context
  | none => context

/-- Wake the dormant dependencies of `service`. -/
def activateDependencies (context : GraphExecutionContext) (service : String) :
    GraphExecutionContext :=
  ((context.edgesOf service).map (·.target)).foldl wake context

def markPreStartCheckPassed (operationId : OperationId) : ContextMutator Bool := do
  let named ← requireMemberForOperation operationId
  let member ← requireMember named.service
  let context ← fetch
  if member.status.isTerminal then
    raise (.memberAlreadyTerminal context.id named.service member.status)
  else if member.status = .waitingForDependencies then return false
  else
    update (·.write named.service { member with status := .waitingForDependencies })
    update (activateDependencies · named.service)
    return true

end Peinit
