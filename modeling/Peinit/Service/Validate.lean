import Peinit.Service.Role

/-!
# Validation of a definition set

A set of definitions is accepted if nothing is found wrong with it once its roles are resolved. Warnings
are not modelled. `parseError schedule` is the message if a timer schedule does not parse.
-/

namespace Peinit

inductive ServiceGraphFinding where
  | invalidServiceName (service : String)
  | duplicateService (service : String)
  | missingHardDependency (service target : String) (kind : ServiceDependencyKind)
  | cycle (services : List String)
  | conflictingBootServices (service target : String)
  | invalidHealthCheckRestartWindow (service : String) (retries intervalSecs restartWindowSecs : ℕ)
  | invalidTimerSchedule (service schedule message : String)
  | unschedulableHealthCheck (service : String) (serviceType : ServiceType)
  deriving DecidableEq

def isValidServiceName (value : String) : Bool :=
  !value.isEmpty && value.utf8ByteSize ≤ 128 &&
    value.toList.all fun c => c.isAlphanum || c ∈ ['.', '_', '-']

/-! ## Cycles -/

/-- The start of a rotation of the cycle that does not depend on where it was entered. -/
def canonicalCycle (cycle : List String) : List String :=
  match cycle with
  | [] => []
  | first :: _ => (List.range cycle.length).tail.foldl (fun best index =>
      let rotated := cycle.drop index ++ cycle.take index
      if cycle[index]?.any (· < first) || decide (rotated < best) then rotated else best) cycle

structure CycleSearch where
  permanent : OrdSet String := ∅
  /-- The canonical forms of the cycles found. -/
  seen : List (List String) := []
  cycles : List (List String) := []

namespace CycleSearch

def recordCycle (search : CycleSearch) (cycle : List String) : CycleSearch :=
  if canonicalCycle cycle ∈ search.seen then search
  else { search with
    seen := search.seen ++ [canonicalCycle cycle], cycles := search.cycles ++ [cycle] }

/-- Go down the dependencies of `service`, with `stack` the path to it.  Fuel bounds the path, on which
no service stands twice. -/
def visit (byName : OrdMap String ServiceDefinition) : ℕ → List String → CycleSearch → String →
    CycleSearch
  | 0, _, search, _ => search
  | fuel + 1, stack, search, service =>
    if service ∈ search.permanent then search
    else match stack.idxOf? service with
      | some index => search.recordCycle (stack.drop index)
      | none => match byName[service]? with
        | none => search
        | some definition =>
          let search := (existingStartOrderDependencyTargets definition byName.contains).foldl
            (visit byName fuel (stack ++ [service])) search
          { search with permanent := search.permanent.insert service }

end CycleSearch

def findCycles (byName : OrdMap String ServiceDefinition) : List (List String) :=
  (byName.keys.foldl (CycleSearch.visit byName (byName.size + 1) []) {}).cycles

/-! ## Findings -/

/-- The first definition of each name. -/
def indexDefinitions (definitions : List ServiceDefinition) : OrdMap String ServiceDefinition :=
  definitions.foldl (fun byName definition => byName.insertIfNew definition.name definition) ∅

def duplicateFindings (definitions : List ServiceDefinition) : List ServiceGraphFinding :=
  let duplicates : OrdSet String := (definitions.map (·.name)).foldl (fun duplicates name =>
    if (definitions.map (·.name)).count name > 1 then duplicates.insert name else duplicates) ∅
  duplicates.toList.map .duplicateService

def invalidServiceNameFindings (definitions : List ServiceDefinition) : List ServiceGraphFinding :=
  (definitions.filter fun definition => !isValidServiceName definition.name).map
    fun definition => .invalidServiceName definition.name

def missingHardDependencies (definitions : List ServiceDefinition)
    (byName : OrdMap String ServiceDefinition) : List ServiceGraphFinding :=
  definitions.flatMap fun definition =>
    ((hardDependencies definition).filter fun dependency => !byName.contains dependency.target).map
      fun dependency => .missingHardDependency definition.name dependency.target dependency.kind

/-- Each pair once, the lesser name first, in the order of the pairs. -/
def conflictingBootServices (byName : OrdMap String ServiceDefinition) : List ServiceGraphFinding :=
  let booted := byName.values.filter (·.hasBootTrigger)
  let pairs : List (String × String) := booted.flatMap fun definition =>
    (definition.conflicts.filter fun target =>
      byName[target]?.any (·.hasBootTrigger)).map fun target =>
        if definition.name ≤ target then (definition.name, target) else (target, definition.name)
  let sorted : OrdMap String (OrdSet String) := pairs.foldl (fun sorted pair =>
    sorted.insert pair.1 ((sorted.getD pair.1 ∅).insert pair.2)) ∅
  sorted.toList.flatMap fun (service, targets) =>
    targets.toList.map fun target => .conflictingBootServices service target

/-- Health checks are scheduled for simple services only. -/
def healthCheckIsScheduled (definition : ServiceDefinition) : Bool :=
  definition.healthCheck.isSome && definition.serviceType = .simple

def healthCheckFailureWindowSecs (definition : ServiceDefinition) : ℕ :=
  min (definition.healthCheckRetries * definition.healthCheckIntervalSecs) (2 ^ 64 - 1)

def healthCheckRestartWindowFindings (definitions : List ServiceDefinition) :
    List ServiceGraphFinding :=
  (definitions.filter fun definition => healthCheckIsScheduled definition &&
      definition.restartWindowSecs ≤ healthCheckFailureWindowSecs definition).map fun definition =>
    .invalidHealthCheckRestartWindow definition.name definition.healthCheckRetries
      definition.healthCheckIntervalSecs definition.restartWindowSecs

def unschedulableHealthCheckFindings (definitions : List ServiceDefinition) :
    List ServiceGraphFinding :=
  (definitions.filter fun definition =>
      definition.healthCheck.isSome && !healthCheckIsScheduled definition).map fun definition =>
    .unschedulableHealthCheck definition.name definition.serviceType

def invalidTimerScheduleFindings (parseError : String → Option String)
    (definitions : List ServiceDefinition) : List ServiceGraphFinding :=
  definitions.flatMap fun definition => definition.triggers.filterMap fun
    | .timer schedule =>
      (parseError schedule).map (.invalidTimerSchedule definition.name schedule)
    | _ => none

def cycleFindings (byName : OrdMap String ServiceDefinition) : List ServiceGraphFinding :=
  (findCycles byName).map .cycle

/-- What is wrong with the definitions, as they will be executed. -/
def serviceGraphFindings (parseError : String → Option String)
    (definitions : List ServiceDefinition) : List ServiceGraphFinding :=
  let definitions := synthesiseRoleDependencies definitions
  let byName := indexDefinitions definitions
  invalidServiceNameFindings definitions ++ duplicateFindings definitions ++
    missingHardDependencies definitions byName ++ conflictingBootServices byName ++
    healthCheckRestartWindowFindings definitions ++ unschedulableHealthCheckFindings definitions ++
    invalidTimerScheduleFindings parseError definitions ++ cycleFindings byName

/-- The number of services, or the findings. -/
def validateServiceGraph (parseError : String → Option String)
    (definitions : List ServiceDefinition) : Except (List ServiceGraphFinding) ℕ :=
  match serviceGraphFindings parseError definitions with
  | [] => .ok (indexDefinitions (synthesiseRoleDependencies definitions)).size
  | findings => .error findings

end Peinit
