import Peinit.Graph.Build
import Peinit.Ids
import Peinit.StartPlan.Plan

/-!
# Planning the boot

The boot starts the services with a boot trigger and what they depend on, apart from those that cannot
be started. A full boot with a critical service on a cycle or in a conflict is planned again in safe
mode, with fewer services. Warnings and identities of starts are not modelled.
-/

namespace Peinit

inductive BootMode where
  | full | safe | recovery
  deriving DecidableEq

namespace Phase2

abbrev ServiceMap : Type := OrdMap String ServiceDefinition

structure BlockedServiceDraft where
  service : String
  /-- The cause the service fails with. -/
  reason : BlockedReason
  /-- Everything else that was found, in the order it was found in. -/
  additionalReasons : List BlockedReason
  deriving DecidableEq

abbrev BlockedServices : Type := OrdMap String BlockedServiceDraft

inductive SafeModeDowngrade where
  | criticalCycle (services : List String)
  | criticalBootConflict (service target : String)
  deriving DecidableEq

inductive BootPlanError where
  | invalidMaxParallelStarts
  | duplicateService (service : String)
  | missingServiceDefinition (service : String)
  | operationIdAllocation (error : IdAllocationError)
  | jobIdAllocation (error : IdAllocationError)
  deriving DecidableEq

/-! ## Blocking a service -/

def failedCausePrecedence : BlockedReason → ℕ
  | .cycleDetected .. => 3
  | .conflictingBootService .. | .validationError .. => 2
  | .hardDependencyUnavailable .. | .hardDependencyBlocked .. => 1

/-- Record a finding; the one of the highest precedence is the reason. -/
def blockService (blocked : BlockedServices) (service : String) (reason : BlockedReason) :
    BlockedServices :=
  match blocked[service]? with
  | none => blocked.insert service { service, reason, additionalReasons := [] }
  | some existing =>
    if existing.reason = reason ∨ reason ∈ existing.additionalReasons then blocked
    else if failedCausePrecedence existing.reason < failedCausePrecedence reason then
      blocked.insert service
        { existing with reason, additionalReasons := existing.additionalReasons ++ [existing.reason] }
    else
      blocked.insert service
        { existing with additionalReasons := existing.additionalReasons ++ [reason] }

/-! ## The closure -/

structure BootClosure where
  included : OrdSet String := ∅
  blocked : BlockedServices := ∅

def isCritical (definition : ServiceDefinition) : Bool := definition.errorControl = .critical

def dependencyEligible (mode : BootMode) (definition : ServiceDefinition) : Bool :=
  mode = .full || (definition.hasBootTrigger && (definition.safeMode || isCritical definition))

def bootRoots (mode : BootMode) (services : List ServiceDefinition) : List String :=
  (services.filter fun service =>
    !service.disabled && dependencyEligible mode service && service.hasBootTrigger).map (·.name)

/-- Whether a dependency on the definition is followed. -/
def isPulledIn (mode : BootMode) (target : ServiceDefinition) : Bool :=
  !target.disabled && dependencyEligible mode target

section Collect

variable (mode : BootMode) (byName : ServiceMap)

def includeHardDependency (includeService : String → BootClosure → BootClosure)
    (definition : ServiceDefinition) (closure : BootClosure) (dependency : ServiceDependency) :
    BootClosure :=
  let unavailable := { closure with
    blocked := blockService closure.blocked definition.name
      (.hardDependencyUnavailable dependency.target dependency.kind) }
  match byName[dependency.target]? with
  | none => unavailable
  | some target =>
    if isPulledIn mode target then includeService target.name closure
    -- Safe mode drops the edge onto a service it leaves out, and only that one.
    else if !target.disabled && mode ≠ .full then closure
    else unavailable

def includeWantedDependency (includeService : String → BootClosure → BootClosure)
    (closure : BootClosure) (declared : String) : BootClosure :=
  match byName[(splitTarget declared).1]? with
  | none => closure
  | some target => if isPulledIn mode target then includeService target.name closure else closure

/-- Fuel bounds the depth; each level includes a service. -/
def includeClosure : ℕ → String → BootClosure → BootClosure
  | 0, _, closure => closure
  | fuel + 1, service, closure =>
    if service ∈ closure.included then closure
    else
      let closure := { closure with included := closure.included.insert service }
      match byName[service]? with
      | none => closure
      | some definition =>
        definition.wants.foldl (includeWantedDependency mode byName (includeClosure fuel))
          ((hardDependencies definition).foldl
            (includeHardDependency mode byName (includeClosure fuel) definition) closure)

/-- Block `service` if a hard dependency of it is blocked; the flag says that something changed. -/
def blockDependent (state : BlockedServices × Bool) (service : String) : BlockedServices × Bool :=
  if service ∈ state.1 then state
  else match byName[service]? with
    | none => state
    | some definition =>
      match (hardDependencies definition).find? fun dependency =>
        state.1.contains dependency.target with
      | none => state
      | some dependency =>
        (blockService state.1 definition.name
          (.hardDependencyBlocked dependency.target dependency.kind), true)

def propagateRound (included : OrdSet String) (blocked : BlockedServices) : BlockedServices × Bool :=
  included.toList.foldl (blockDependent byName) (blocked, false)

/-- Rounds until one blocks nothing more. -/
def propagateBlocked (included : OrdSet String) (blocked : BlockedServices) : BlockedServices :=
  settle (propagateRound byName included) (included.toList.length + 1) blocked

def collectBootClosure (services : List ServiceDefinition) : BootClosure :=
  let closure := (bootRoots mode services).foldl
    (fun closure root => includeClosure mode byName (byName.size + 1) root closure) {}
  { closure with blocked := propagateBlocked byName closure.included closure.blocked }

end Collect

/-! ## Conflicts -/

section Passes

variable (byName : ServiceMap) (included : OrdSet String)

/-- The services `definition` conflicts with, whichever of the two says so, in order. -/
def symmetricConflicts (definition : ServiceDefinition) : List String :=
  let named := byName.values.filter fun other =>
    other.name ≠ definition.name && other.conflicts.contains definition.name
  let conflicts : OrdSet String := (definition.conflicts ++ named.map (·.name)).foldl (·.insert ·) ∅
  conflicts.toList

/-- The conflicts of `service` with other services of the boot. -/
def bootConflicts (definition : ServiceDefinition) : List String :=
  (symmetricConflicts byName definition).filter fun target =>
    included.contains target && byName[target]?.any (·.hasBootTrigger)

def blockConflictsOf (blocked : BlockedServices) (service : String) : BlockedServices :=
  match byName[service]? with
  | none => blocked
  | some definition =>
    if definition.hasBootTrigger then
      (bootConflicts byName included definition).foldl (fun blocked target =>
        blockService (blockService blocked service (.conflictingBootService target)) target
          (.conflictingBootService service)) blocked
    else blocked

def blockUnresolvableConflicts (blocked : BlockedServices) : BlockedServices :=
  included.toList.foldl (blockConflictsOf byName included) blocked

/-- Each pair once, in the order of the pairs. -/
def sortedPairs (pairs : List (String × String)) : List (String × String) :=
  let sorted : OrdMap String (OrdSet String) := pairs.foldl (fun sorted pair =>
    sorted.insert pair.1 ((sorted.getD pair.1 ∅).insert pair.2)) ∅
  sorted.toList.flatMap fun (service, targets) => targets.toList.map fun target => (service, target)

def criticalBootConflicts : List (String × String) :=
  sortedPairs (included.toList.flatMap fun service =>
    match byName[service]? with
    | none => []
    | some definition =>
      if definition.hasBootTrigger && isCritical definition then
        (bootConflicts byName included definition).map fun target =>
          if definition.name ≤ target then (definition.name, target) else (target, definition.name)
      else [])

/-! ## Validation -/

def orderTargets (service : String) : List String :=
  (byName[service]?.map startOrderDependencyTargets).getD []

def dependencyOrder (startable : OrdSet String) : Except (List String) (List String) :=
  dependencyStartOrder startable (orderTargets byName)

def invalidTimerMessage (schedule message : String) : String :=
  "Timer schedule " ++ schedule.quote ++ " is invalid: " ++ message

def blockTimerSchedulesOf (parseError : String → Option String) (blocked : BlockedServices)
    (definition : ServiceDefinition) : BlockedServices :=
  definition.triggers.foldl (fun blocked trigger =>
    match trigger with
    | .timer schedule => match parseError schedule with
      | some message => blockService blocked definition.name
          (.validationError (invalidTimerMessage schedule message))
      | none => blocked
    | _ => blocked) blocked

/-- Of every definition, in the closure or not. -/
def blockInvalidTimerSchedules (parseError : String → Option String) (blocked : BlockedServices) :
    BlockedServices :=
  byName.values.foldl (blockTimerSchedulesOf parseError) blocked

def healthCheckTypeMessage (serviceType : ServiceType) : String :=
  "HealthCheck declared on a " ++
    (match serviceType with | .simple => "Simple" | .oneshot => "Oneshot") ++
    " service; health checks are scheduled for Simple services only"

def healthCheckWindowMessage (definition : ServiceDefinition) : String :=
  "HealthCheck timing violates RestartWindow: retries " ++ toString definition.healthCheckRetries ++
    " * interval " ++ toString definition.healthCheckIntervalSecs ++ " >= window " ++
    toString definition.restartWindowSecs

def blockHealthCheckOf (blocked : BlockedServices) (service : String) : BlockedServices :=
  match byName[service]? with
  | none => blocked
  | some definition =>
    if definition.healthCheck.isNone then blocked
    else if definition.serviceType ≠ .simple then
      blockService blocked service (.validationError (healthCheckTypeMessage definition.serviceType))
    else if definition.restartWindowSecs ≤ healthCheckFailureWindowSecs definition then
      blockService blocked service (.validationError (healthCheckWindowMessage definition))
    else blocked

def blockInvalidHealthChecks (blocked : BlockedServices) : BlockedServices :=
  included.toList.foldl (blockHealthCheckOf byName) blocked

def blockCycle (blocked : BlockedServices) (services : List String) : BlockedServices :=
  services.foldl (fun blocked service => blockService blocked service (.cycleDetected services)) blocked

/-- Fuel bounds the number of cycles; each one takes a service out. -/
def blockDependencyCycles : ℕ → OrdSet String → BlockedServices → BlockedServices
  | 0, _, blocked => blocked
  | fuel + 1, remaining, blocked =>
    if remaining.isEmpty then blocked
    else match dependencyOrder byName remaining with
      | .ok _ => blocked
      | .error services => blockDependencyCycles fuel
          (services.foldl (fun remaining service => remaining.erase service) remaining)
          (blockCycle blocked services)

def startableServices (blocked : BlockedServices) : OrdSet String :=
  included.filter fun service => !blocked.contains service

/-- Order what is not blocked; should there be a cycle, block it and try again.  Fuel bounds the
number of rounds. -/
def startOrder : ℕ → BlockedServices → List String × BlockedServices
  | 0, blocked => ([], blocked)
  | fuel + 1, blocked =>
    let blocked := propagateBlocked byName included blocked
    match dependencyOrder byName (startableServices included blocked) with
    | .ok order => (order, blocked)
    | .error services => startOrder fuel (blockCycle blocked services)

def startOrderAfterValidation (parseError : String → Option String) (blocked : BlockedServices) :
    List String × BlockedServices :=
  let blocked := blockInvalidTimerSchedules byName parseError blocked
  let blocked := blockInvalidHealthChecks byName included blocked
  let blocked := blockDependencyCycles byName (included.size + 1) included blocked
  startOrder byName included (included.size + 1) blocked

end Passes

/-! ## The graph -/

structure StartableService where
  name : String
  cause : StartCause
  deriving DecidableEq

structure Phase2BootGraph where
  orderedStartable : List StartableService
  blocked : List BlockedServiceDraft
  deriving DecidableEq

def addService (byName : ServiceMap) (service : ServiceDefinition) : Except BootPlanError ServiceMap :=
  if byName.contains service.name then .error (.duplicateService service.name)
  else .ok (byName.insert service.name service)

def serviceMap (services : List ServiceDefinition) : Except BootPlanError ServiceMap :=
  services.foldlM addService ∅

def startableService (byName : ServiceMap) (service : String) :
    Except BootPlanError StartableService :=
  match byName[service]? with
  | none => .error (.missingServiceDefinition service)
  | some definition => .ok {
      name := service
      cause := if definition.hasBootTrigger then .explicitStart else .dependencyStart }

def buildPhase2BootGraph (parseError : String → Option String) (mode : BootMode)
    (services : List ServiceDefinition) : Except BootPlanError Phase2BootGraph := do
  let byName ← serviceMap services
  let closure := collectBootClosure mode byName services
  let blocked := blockUnresolvableConflicts byName closure.included closure.blocked
  let (order, blocked) := startOrderAfterValidation byName closure.included parseError blocked
  let orderedStartable ← order.mapM (startableService byName)
  return { orderedStartable, blocked := blocked.values }

/-! ## Safe mode -/

/-- Fuel bounds the number of cycles, as when they are blocked. -/
def criticalCycles (byName : ServiceMap) : ℕ → OrdSet String → List (List String)
  | 0, _ => []
  | fuel + 1, remaining =>
    if remaining.isEmpty then []
    else match dependencyStartOrder remaining (fun service =>
        (orderTargets byName service).filter remaining.contains) with
      | .ok _ => []
      | .error services =>
        let later := criticalCycles byName fuel
          (services.foldl (fun remaining service => remaining.erase service) remaining)
        if services.any fun service => byName[service]?.any isCritical then services :: later
        else later

def safeModeDowngradeFindings (services : List ServiceDefinition) :
    Except BootPlanError (List SafeModeDowngrade) := do
  let byName ← serviceMap services
  let closure := collectBootClosure .full byName services
  return (criticalBootConflicts byName closure.included).map
      (fun (service, target) => .criticalBootConflict service target) ++
    (criticalCycles byName (closure.included.size + 1) closure.included).map .criticalCycle

/-! ## The plan -/

structure PlannedBlock extends BlockedService where
  additionalReasons : List BlockedReason
  deriving DecidableEq

structure BootPlan where
  mode : BootMode
  observedAtNs : ℕ
  maxParallelStarts : ℕ
  starts : List PreparedStart
  blocked : List PlannedBlock
  /-- Why a full boot became a safe one. -/
  safeModeDowngrade : List SafeModeDowngrade
  deriving DecidableEq

def preparedStart (service : StartableService) (operationId : OperationId) (jobId : JobId) :
    PreparedStart where
  service := service.name
  operationId
  jobId
  cause := service.cause

def plannedBlock (draft : BlockedServiceDraft) (operationId : OperationId) : PlannedBlock where
  service := draft.service
  operationId
  reason := draft.reason
  additionalReasons := draft.additionalReasons

structure IdAllocators where
  operationIds : OperationIdAllocator := {}
  jobIds : JobIdAllocator := {}
  deriving DecidableEq

/-- Only a full boot is downgraded. -/
def downgradeFindings (mode : BootMode) (services : List ServiceDefinition) :
    Except BootPlanError (List SafeModeDowngrade) :=
  if mode = .full then safeModeDowngradeFindings services else .ok []

/-- Give every start and every blocked service its identifiers. -/
def numberPlan (mode : BootMode) (safeModeDowngrade : List SafeModeDowngrade)
    (graph : Phase2BootGraph) (maxParallelStarts observedAtNs : ℕ) (ids : IdAllocators) :
    Except BootPlanError (BootPlan × IdAllocators) := do
  let order := graph.orderedStartable
  let (jobIds, nextJobIds) ← (ids.jobIds.allocateBatch order.length observedAtNs).mapError
    .jobIdAllocation
  let (operationIds, nextOperationIds) ← (ids.operationIds.allocateBatch
    (order.length + graph.blocked.length) observedAtNs).mapError .operationIdAllocation
  return ({ mode
            observedAtNs
            maxParallelStarts
            starts := ((order.zip operationIds).zip jobIds).map
              fun ((service, operationId), jobId) => preparedStart service operationId jobId
            blocked := (graph.blocked.zip (operationIds.drop order.length)).map
              fun (draft, operationId) => plannedBlock draft operationId
            safeModeDowngrade },
    { operationIds := nextOperationIds, jobIds := nextJobIds })

/-- The plan, and the allocators after it. -/
def preparePhase2BootPlan (parseError : String → Option String) (mode : BootMode)
    (services : List ServiceDefinition) (maxParallelStarts observedAtNs : ℕ) (ids : IdAllocators) :
    Except BootPlanError (BootPlan × IdAllocators) :=
  if maxParallelStarts = 0 then .error .invalidMaxParallelStarts
  else if mode = .recovery then
    .ok ({ mode, observedAtNs, maxParallelStarts, starts := [], blocked := [],
           safeModeDowngrade := [] }, ids)
  else do
    let services := synthesiseRoleDependencies services
    let safeModeDowngrade ← downgradeFindings mode services
    let effectiveMode := if safeModeDowngrade.isEmpty then mode else .safe
    let graph ← buildPhase2BootGraph parseError effectiveMode services
    numberPlan effectiveMode safeModeDowngrade graph maxParallelStarts observedAtNs ids

end Phase2

end Peinit
