import Peinit.Graph.Model
import Peinit.StartPlan.Closure

/-!
# Building a context

The boot context is built from the boot plan, an on-demand one from a dispatched start plan. Members
that nothing depends on are released first; the others stay dormant until a dependent asks for them.
-/

namespace Peinit

/-! ## The boot plan -/

inductive StartCause where
  | explicitStart | dependencyStart
  deriving DecidableEq

inductive BlockedReason where
  | hardDependencyUnavailable (target : String) (kind : ServiceDependencyKind)
  | hardDependencyBlocked (target : String) (kind : ServiceDependencyKind)
  | cycleDetected (services : List String)
  | conflictingBootService (target : String)
  | validationError (message : String)
  deriving DecidableEq

def BlockedReason.transitionCause : BlockedReason → TransitionCause
  | .hardDependencyUnavailable .. | .hardDependencyBlocked .. => .dependencyFailure
  | .cycleDetected .. => .cycleDetected
  | .conflictingBootService .. | .validationError .. => .validationError

structure PreparedStart where
  service : String
  operationId : OperationId
  jobId : JobId
  cause : StartCause
  deriving DecidableEq

structure BlockedService where
  service : String
  operationId : OperationId
  reason : BlockedReason
  deriving DecidableEq

structure Phase2BootPlan where
  starts : List PreparedStart
  blocked : List BlockedService
  deriving DecidableEq

/-! ## Members and edges -/

abbrev GraphMembers : Type := OrdMap String GraphMember

def insertMember (members : GraphMembers) (member : GraphMember) :
    Except GraphContextBuildError GraphMembers :=
  if members.contains member.service then .error (.duplicateServiceMember member.service)
  else .ok (members.insert member.service member)

def definitionsByName (definitions : List ServiceDefinition) : OrdMap String ServiceDefinition :=
  definitions.foldl (fun byName definition => byName.insert definition.name definition) ∅

/-- The edge declared by a member, unless it has no level and leaves the context. -/
def declaredEdge (members : GraphMembers) (service : String) (dependency : ServiceDependency) :
    Option GraphDependency :=
  if !members.contains dependency.target && dependency.level.isNone then none
  else some {
    dependent := service
    target := dependency.target
    level := dependency.level
    kind := dependency.kind }

def pushNew (dependencies : List GraphDependency) (dependency : GraphDependency) :
    List GraphDependency :=
  if dependency ∈ dependencies then dependencies else dependencies ++ [dependency]

def contextDependencies (members : GraphMembers) (definition : String → Option ServiceDefinition) :
    Except GraphContextBuildError (List GraphDependency) :=
  members.keys.foldlM
    (fun dependencies service =>
      match definition service with
      | none => .error (.missingServiceDefinition service)
      | some definition =>
        .ok (((allDeclaredDependencies definition).filterMap (declaredEdge members service)).foldl
          pushNew dependencies))
    []

/-- Make a root of every dormant member that nothing depends on. -/
def activateRoots (members : GraphMembers) (dependencies : List GraphDependency) : GraphMembers :=
  members.map fun _ member =>
    if member.status = .dormant ∧ member.service ∉ dependencies.map (·.target) then
      { member with status := .waitingForPreStartCheck }
    else member

/-! ## The boot context -/

def transitionCauseForPhase2Start : StartCause → TransitionCause
  | .explicitStart => .explicitStart
  | .dependencyStart => .dependencyStart

def startMember (start : PreparedStart) (sequence : ℕ) : GraphMember where
  service := start.service
  operationId := start.operationId
  reservedJobId := some start.jobId
  transitionCause := transitionCauseForPhase2Start start.cause
  sequence := sequence
  status := .dormant
  heldWithoutClock := false

def blockedMember (blocked : BlockedService) (sequence : ℕ) : GraphMember where
  service := blocked.service
  operationId := blocked.operationId
  reservedJobId := none
  transitionCause := blocked.reason.transitionCause
  sequence := sequence
  status := .failed
  heldWithoutClock := false

def bootMembers (plan : Phase2BootPlan) : Except GraphContextBuildError GraphMembers := do
  let members ← plan.starts.zipIdx.foldlM
    (fun members (start, sequence) => insertMember members (startMember start sequence)) ∅
  plan.blocked.zipIdx.foldlM
    (fun members (blocked, offset) =>
      insertMember members (blockedMember blocked (plan.starts.length + offset))) members

def bootContext (id : GraphContextId) (plan : Phase2BootPlan)
    (definitions : List ServiceDefinition) : Except GraphContextBuildError GraphExecutionContext := do
  let members ← bootMembers plan
  let byName := definitionsByName definitions
  let dependencies ← contextDependencies members fun service => byName[service]?
  return { id, kind := .boot, members := activateRoots members dependencies, dependencies }

/-! ## On-demand contexts -/

/-- The operation a planned start runs under, and the outcomes left for the later starts. -/
def startOutcome (dispatch : OnDemandStartDispatch) (start : PlannedStart)
    (outcomes : List OperationRequestOutcome) :
    Except GraphContextBuildError (OperationRequestOutcome × List OperationRequestOutcome) :=
  if start.service = dispatch.plan.requested then .ok (dispatch.requestedOperation, outcomes)
  else
    match outcomes with
    | [] => .error (.missingDependencyOperationOutcome start.service)
    | outcome :: outcomes => .ok (outcome, outcomes)

def inBackoff (services : ServiceTable) (service : String) : Bool :=
  (services.runtime service).any fun runtime => runtime.state = .backoff

def isMerge : OperationConflictDecision → Bool
  | .mergeIntoExisting _ => true
  | _ => false

/-- A dependency in backoff waits for its restart, a merged start is on its way already. -/
def plannedStatus (dispatch : OnDemandStartDispatch) (services : ServiceTable)
    (start : PlannedStart) (outcome : OperationRequestOutcome) : GraphMemberStatus :=
  if inBackoff services start.service && start.service ≠ dispatch.plan.requested then
    .awaitingRestart
  else if isMerge outcome.decision then .running
  else .dormant

def plannedMember (dispatch : OnDemandStartDispatch) (services : ServiceTable)
    (start : PlannedStart) (sequence : ℕ) (outcome : OperationRequestOutcome) : GraphMember where
  service := start.service
  operationId := outcome.returnedOperationId
  reservedJobId := none
  transitionCause := start.transitionCause
  sequence := sequence
  status := plannedStatus dispatch services start outcome
  heldWithoutClock := inBackoff services start.service

def plannedMembers (dispatch : OnDemandStartDispatch) (services : ServiceTable) :
    Except GraphContextBuildError GraphMembers := do
  let (members, _) ← dispatch.plan.starts.zipIdx.foldlM
    (fun (members, outcomes) (start, sequence) => do
      let (outcome, outcomes) ← startOutcome dispatch start outcomes
      let members ← insertMember members (plannedMember dispatch services start sequence outcome)
      return (members, outcomes))
    ((∅ : GraphMembers), dispatch.dependencyOperations)
  return members

def blockedRequestedStatus (dispatch : OnDemandStartDispatch) : GraphMemberStatus :=
  if dispatch.requestedOperation.returnedOperationId = dispatch.requestedOperation.storedOperationId
  then .failed
  else .running

/-- The only member of a context whose requested start is blocked. -/
def blockedRequestedMember (dispatch : OnDemandStartDispatch) : GraphMember where
  service := dispatch.plan.requested
  operationId := dispatch.requestedOperation.returnedOperationId
  reservedJobId := none
  transitionCause := .dependencyFailure
  sequence := 0
  status := blockedRequestedStatus dispatch
  heldWithoutClock := false

def onDemandMembers (dispatch : OnDemandStartDispatch) (services : ServiceTable) :
    Except GraphContextBuildError GraphMembers := do
  let members ← plannedMembers dispatch services
  if members.isEmpty then insertMember members (blockedRequestedMember dispatch) else return members

def onDemandContext (id : GraphContextId) (dispatch : OnDemandStartDispatch)
    (services : ServiceTable) : Except GraphContextBuildError GraphExecutionContext := do
  let members ← onDemandMembers dispatch services
  let dependencies ← contextDependencies members services.definition
  return {
    id
    kind := .onDemand dispatch.plan.requested dispatch.requestedOperation.returnedOperationId
    members := activateRoots members dependencies
    dependencies }

end Peinit
