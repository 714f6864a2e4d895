import Peinit.Ids
import Peinit.Lib.Fallible
import Peinit.Service.Definition

/-!
# Graph execution contexts

A context is one execution of a dependency graph: its members and the edges between them.  The edges
are fixed when it is built; the status of the members changes, and whether a waiting member's clock is
stopped.
-/

namespace Peinit

inductive GraphContextKind where
  | boot
  | onDemand (requestedService : String) (requestedOperationId : OperationId)
  deriving DecidableEq

inductive GraphMemberStatus where
  /-- Not yet asked for by any dependent. -/
  | dormant
  | waitingForPreStartCheck
  | waitingForDependencies
  | running
  /-- The start failed, but the service is going to start again under another operation. -/
  | awaitingRestart
  | satisfied
  | failed
  | pruned
  deriving DecidableEq

namespace GraphMemberStatus

def isTerminal : GraphMemberStatus → Bool
  | .satisfied | .failed | .pruned => true
  | _ => false

/-- The statuses in which a start can still fail because of its dependencies. -/
def isWaitingOrRunning : GraphMemberStatus → Bool
  | .waitingForDependencies | .running => true
  | _ => false

/-- The statuses of a dependent that do not keep a dormant dependency alive. -/
def allowsPruning : GraphMemberStatus → Bool
  | .dormant | .satisfied | .failed | .pruned => true
  | _ => false

end GraphMemberStatus

structure GraphMember where
  service : String
  operationId : OperationId
  reservedJobId : Option JobId
  transitionCause : TransitionCause
  sequence : ℕ
  status : GraphMemberStatus
  /-- Whether the last look at this member found it held only on facts with no clock. -/
  heldWithoutClock : Bool
  deriving DecidableEq

structure GraphDependency where
  dependent : String
  target : String
  level : Option String
  kind : ServiceDependencyKind
  deriving DecidableEq

def ServiceDependencyKind.isHard : ServiceDependencyKind → Bool
  | .requires | .bindsTo => true
  | .wants => false

inductive LevelProbe where
  | satisfied | notYetPublished | absent
  deriving DecidableEq

structure GraphExecutionContext where
  id : GraphContextId
  kind : GraphContextKind
  members : OrdMap String GraphMember
  dependencies : List GraphDependency
  deriving DecidableEq

namespace GraphExecutionContext

def memberForOperation (context : GraphExecutionContext) (operationId : OperationId) :
    Option GraphMember :=
  context.members.values.find? fun member => member.operationId = operationId

def isDrained (context : GraphExecutionContext) : Bool :=
  context.members.values.all fun member => member.status.isTerminal

def edgesOf (context : GraphExecutionContext) (service : String) : List GraphDependency :=
  context.dependencies.filter fun edge => edge.dependent = service

def edgesOnto (context : GraphExecutionContext) (service : String) : List GraphDependency :=
  context.dependencies.filter fun edge => edge.target = service

def write (context : GraphExecutionContext) (service : String) (member : GraphMember) :
    GraphExecutionContext :=
  { context with members := context.members.insert service member }

def setStatus (context : GraphExecutionContext) (service : String) (status : GraphMemberStatus) :
    GraphExecutionContext :=
  match context.members[service]? with
  | some member => context.write service { member with status }
  | none => context

end GraphExecutionContext

inductive GraphTerminalOutcome where
  | satisfied | failed
  deriving DecidableEq

def GraphTerminalOutcome.status : GraphTerminalOutcome → GraphMemberStatus
  | .satisfied => .satisfied
  | .failed => .failed

structure GraphExecutionEvent where
  contextId : GraphContextId
  service : String
  operationId : OperationId
  outcome : GraphTerminalOutcome
  deriving DecidableEq

structure GraphPrunedOperation where
  contextId : GraphContextId
  service : String
  operationId : OperationId
  deriving DecidableEq

inductive ReadyGraphOperationAction where
  | preStartCheck | start
  deriving DecidableEq

structure ReadyGraphOperation where
  contextId : GraphContextId
  service : String
  operationId : OperationId
  reservedJobId : Option JobId
  transitionCause : TransitionCause
  action : ReadyGraphOperationAction
  /-- The start was held on facts with no clock and is released now. -/
  releasedFromHold : Bool
  deriving DecidableEq

inductive GraphContextBuildError where
  | missingServiceDefinition (service : String)
  | duplicateServiceMember (service : String)
  | missingDependencyOperationOutcome (service : String)
  deriving DecidableEq

inductive GraphExecutionError where
  | unknownContext (contextId : GraphContextId)
  | invalidMaxParallelStarts
  | unknownAssociatedOperation (operationId : OperationId)
  | missingMember (contextId : GraphContextId) (service : String)
  | memberAlreadyTerminal (contextId : GraphContextId) (service : String) (status : GraphMemberStatus)
  deriving DecidableEq

end Peinit
