import Peinit.Lib.OrdMap
import Peinit.Service.State

/-!
# Service definitions and the service table

What a definition declares about other services, and the table that holds each definition next to its
runtime state.  A declared dependency may name a readiness level after a colon.
-/

namespace Peinit

inductive ServiceType where
  | simple | oneshot
  deriving DecidableEq

inductive ServiceTrigger where
  | boot
  | bootSettled
  | ttyReleased
  | timer (schedule : String)
  | other (name : String)
  deriving DecidableEq

inductive Readiness where
  | alive | notify
  deriving DecidableEq

inductive RestartPolicy where
  | never | onFailure | always
  deriving DecidableEq

inductive ErrorControl where
  | normal | critical
  deriving DecidableEq

inductive NotifyAccess where
  | main
  deriving DecidableEq

inductive ServiceCheckKind where
  | path | file | directory | registry
  deriving DecidableEq

structure ServiceCheck where
  kind : ServiceCheckKind
  argument : String
  deriving DecidableEq

inductive ServiceSecurityDescriptor where
  | default
  | registryBinary (bytes : List UInt8)
  deriving DecidableEq

structure ServiceEnvironmentVariable where
  name : String
  value : String
  deriving DecidableEq

structure ServiceRuntimeDirectory where
  name : String
  deriving DecidableEq

/-- A service definition; the defaults are those of a definition that says nothing else. -/
structure ServiceDefinition where
  name : String
  imagePath : String := ""
  arguments : List String := []
  serviceType : ServiceType := .simple
  triggers : List ServiceTrigger := []
  disabled : Bool := false
  safeMode : Bool := false
  identity : String := "SYSTEM"
  requiredPrivileges : List String := []
  requires : List String := []
  wants : List String := []
  bindsTo : List String := []
  conflicts : List String := []
  /-- The roles this service fills. -/
  provides : List String := []
  onFailure : Option String := none
  readiness : Readiness := .notify
  notifyAccess : NotifyAccess := .main
  remainAfterExit : Bool := false
  successExitCodes : List ℤ := []
  execStartPre : List String := []
  execStartPost : List String := []
  hookIdentity : Option String := none
  execReload : Option String := none
  preStartCheckTimeoutSecs : ℕ := 5
  startTimeoutSecs : ℕ := 30
  stopTimeoutSecs : ℕ := 10
  watchdogTimeoutSecs : ℕ := 0
  healthCheck : Option String := none
  healthCheckIntervalSecs : ℕ := 30
  healthCheckTimeoutSecs : ℕ := 5
  healthCheckRetries : ℕ := 3
  fdStoreMax : ℕ := 0
  environment : List ServiceEnvironmentVariable := []
  workingDirectory : String := "/"
  runtimeDirectories : List ServiceRuntimeDirectory := []
  limitNofile : Option ℕ := none
  limitCore : Option ℕ := none
  conditions : List ServiceCheck := []
  asserts : List ServiceCheck := []
  displayName : Option String := none
  description : Option String := none
  restartPolicy : RestartPolicy := .onFailure
  restartMaxRetries : ℕ := 5
  restartWindowSecs : ℕ := 120
  restartDelaySecs : ℕ := 1
  errorControl : ErrorControl := .normal
  serviceSecurity : ServiceSecurityDescriptor := .default
  timerPersistent : Bool := true
  timerJitterSecs : ℕ := 0
  /-- The terminal the service runs on. -/
  consolePath : Option String := none
  consolePrecedence : ℕ := 0
  /-- The definition is built into the program and is in no registry snapshot. -/
  compiledIn : Bool := false
  deriving DecidableEq

def ServiceDefinition.hasBootTrigger (definition : ServiceDefinition) : Bool :=
  definition.triggers.any (· = .boot)

/-! ## Declared dependencies -/

inductive ServiceDependencyKind where
  | requires | wants | bindsTo
  deriving DecidableEq

structure ServiceDependency where
  target : String
  /-- The readiness level the target must have published, when one is named. -/
  level : Option String
  kind : ServiceDependencyKind
  deriving DecidableEq

/-- Split a declared dependency at its first colon.  An empty level is none. -/
def splitTarget (declared : String) : String × Option String :=
  match declared.toList.span (· ≠ ':') with
  | (_, []) => (declared, none)
  | (service, _ :: []) => (String.ofList service, none)
  | (service, _ :: level) => (String.ofList service, some (String.ofList level))

def dependency (declared : String) (kind : ServiceDependencyKind) : ServiceDependency where
  target := (splitTarget declared).1
  level := (splitTarget declared).2
  kind := kind

def hardDependencies (definition : ServiceDefinition) : List ServiceDependency :=
  definition.requires.map (dependency · .requires) ++ definition.bindsTo.map (dependency · .bindsTo)

def allDeclaredDependencies (definition : ServiceDefinition) : List ServiceDependency :=
  definition.requires.map (dependency · .requires) ++ definition.wants.map (dependency · .wants) ++
    definition.bindsTo.map (dependency · .bindsTo)

/-- The services this one must be ordered after, without their levels. -/
def startOrderDependencyTargets (definition : ServiceDefinition) : List String :=
  (definition.requires ++ definition.bindsTo ++ definition.wants).map fun declared =>
    (splitTarget declared).1

/-- Those among them that exist, each once. -/
def existingStartOrderDependencyTargets (definition : ServiceDefinition) (contains : String → Bool) :
    List String :=
  ((startOrderDependencyTargets definition).filter contains).eraseDups

/-! ## The table -/

inductive LeakedCgroupKind where
  | serviceTree | health | hooks | helper
  deriving DecidableEq

structure LeakedCgroup where
  path : String
  kind : LeakedCgroupKind
  detectedAtNs : ℕ
  deriving DecidableEq

/-- When a service entered stopping, by when it has to be down, and why. -/
structure ServiceStoppingTimeoutEvidence where
  startedAtNs : ℕ
  dueAtNs : ℕ
  cause : TransitionCause
  deriving DecidableEq

structure ServiceRuntimeSnapshot where
  state : ServiceState := .inactive
  cause : Option TransitionCause := none
  generation : ℕ := 0
  cgroupGeneration : ℕ := 0
  dependentSatisfiedSinceNs : Option ℕ := none
  consecutiveRestartFailures : ℕ := 0
  restartBackoffUntilNs : Option ℕ := none
  /-- The readiness levels last published. -/
  levels : OrdSet String := ∅
  /-- The service has said that it is going down by itself. -/
  stoppingAcknowledged : Bool := false
  stoppingTimeout : Option ServiceStoppingTimeoutEvidence := none
  pendingTimer : Bool := false
  leakedCgroups : List LeakedCgroup := []

structure ServiceEntry where
  definition : ServiceDefinition
  /-- The definition to be taken over once the service is down. -/
  pendingDefinition : Option ServiceDefinition := none
  runtime : ServiceRuntimeSnapshot
  definitionRemoved : Bool := false

/-- Whether the entry satisfies a dependent that asks for `level`. -/
def ServiceEntry.satisfies (entry : ServiceEntry) (level : Option String) : Bool :=
  entry.runtime.state.satisfiesDependents &&
    match level with
    | none => true
    | some wanted => entry.runtime.levels.contains wanted

structure ServiceTable where
  entries : OrdMap String ServiceEntry

namespace ServiceTable

def get (services : ServiceTable) (service : String) : Option ServiceEntry :=
  services.entries[service]?

def definition (services : ServiceTable) (service : String) : Option ServiceDefinition :=
  (services.get service).map (·.definition)

def runtime (services : ServiceTable) (service : String) : Option ServiceRuntimeSnapshot :=
  (services.get service).map (·.runtime)

end ServiceTable

end Peinit
