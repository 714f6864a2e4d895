import Peinit.Ids
import Peinit.Lib.FixedWidth
import Peinit.Service.Definition

/-!
# Moving a service

`transitionService` is the one way a service's state changes. What the old state stood for is
forgotten; once the service is down a pending definition is taken over, or a withdrawn one discarded.
Each service has a cgroup of its own, named by an encoding of the service's name; a tree that could not
be removed is left behind, and the service moves on to the next generation.
-/

namespace Peinit

/-! ## Cgroup paths -/

def isCgroupSafe (byte : UInt8) : Bool :=
  let c := Char.ofNat byte.toNat
  byte < 128 && (c.isAlphanum || c == '.' || c == '_' || c == '-')

def hexDigit (n : UInt8) : Char := "0123456789ABCDEF".toList.getD n.toNat '0'

def encodeServiceCgroupId (service : String) : String :=
  String.ofList (service.toUTF8.data.toList.flatMap fun byte =>
    if isCgroupSafe byte then [Char.ofNat byte.toNat]
    else ['%', hexDigit (byte >>> 4), hexDigit (byte &&& 15)])

def serviceCgroupRootPath (service : String) (generation : ℕ) : String :=
  let root := "/sys/fs/cgroup/peinit/" ++ encodeServiceCgroupId service
  if generation = 0 then root else root ++ "%gen" ++ toString generation

inductive ServiceCgroupKind where
  | main | hooks | health
  deriving DecidableEq

def ServiceCgroupKind.pathComponent : ServiceCgroupKind → String
  | .main => "main"
  | .hooks => "hooks"
  | .health => "health"

def serviceJobCgroupPath (service : String) (generation : ℕ) (kind : ServiceCgroupKind) : String :=
  serviceCgroupRootPath service generation ++ "/" ++ kind.pathComponent

/-- Every submitted job has a cgroup of its own, named by its identifier. -/
def submittedJobCgroupPath (jobId : JobId) : String :=
  "/sys/fs/cgroup/peinit/jobs/" ++ jobId.toCanonicalString

/-- Whether a leaked path is the given tree's root, or something inside it. -/
def leakAffectsTree (path root : String) : Bool :=
  path = root || (root ++ "/").toList.isPrefixOf path.toList

/-! ## Transitions -/

structure ServiceTransition where
  target : ServiceState
  cause : TransitionCause
  deriving DecidableEq

structure ServiceTransitionEvent where
  service : String
  origin : ServiceState
  target : ServiceState
  cause : TransitionCause
  generation : ℕ
  deriving DecidableEq

inductive ServiceTableError where
  | duplicateService (service : String)
  | unknownService (service : String)
  | definitionRemoved (service : String)
  | invalidTransition (service : String) (origin target : ServiceState) (cause : TransitionCause)
  deriving DecidableEq

structure ServiceTableTransition where
  event : ServiceTransitionEvent
  discardedDefinitionRemoved : Bool
  /-- The terminal that the service let go of. -/
  releasedTty : Option String
  deriving DecidableEq

/-- Whether a service in this state may still have a process on its terminal. -/
def holdsTty : ServiceState → Bool
  | .starting | .active | .reloading | .stopping | .backoff => true
  | _ => false

/-- Whether an entry is kept although its definition is withdrawn: there is something to supervise. -/
def retainsDefinitionAfterRemoval : ServiceState → Bool
  | .starting | .active | .reloading | .stopping => true
  | _ => false

namespace ServiceRuntimeSnapshot

def moved (runtime : ServiceRuntimeSnapshot) (transition : ServiceTransition) :
    ServiceRuntimeSnapshot :=
  let runtime := if transition.target = .starting then
      { runtime with generation := runtime.generation + 1, stoppingAcknowledged := false,
                     pendingTimer := false }
    else runtime
  let runtime := if transition.target = .stopping ∨ runtime.state = .stopping then
      { runtime with stoppingTimeout := none }
    else runtime
  let runtime := { runtime with state := transition.target, cause := some transition.cause }
  let runtime := if runtime.state.satisfiesDependents then runtime
    else { runtime with dependentSatisfiedSinceNs := none, levels := ∅ }
  let runtime := if transition.target ≠ .backoff then { runtime with restartBackoffUntilNs := none }
    else runtime
  if transition.target = .inactive ∧ transition.cause ∈ [.cleanExit, .explicitReset] then
    { runtime with consecutiveRestartFailures := 0 }
  else runtime

@[simp] theorem moved_state (runtime : ServiceRuntimeSnapshot) (tr : ServiceTransition) :
    (runtime.moved tr).state = tr.target := by
  unfold moved
  dsimp only
  split_ifs <;> rfl

end ServiceRuntimeSnapshot

namespace ServiceEntry

def moved (entry : ServiceEntry) (transition : ServiceTransition) : ServiceEntry :=
  let entry := { entry with runtime := entry.runtime.moved transition }
  if entry.definitionRemoved || retainsDefinitionAfterRemoval transition.target then entry
  else { entry with definition := entry.pendingDefinition.getD entry.definition
                    pendingDefinition := none }

@[simp] theorem moved_runtime (entry : ServiceEntry) (tr : ServiceTransition) :
    (entry.moved tr).runtime = entry.runtime.moved tr := by
  unfold moved
  dsimp only
  split_ifs <;> rfl

@[simp] theorem moved_definitionRemoved (entry : ServiceEntry) (tr : ServiceTransition) :
    (entry.moved tr).definitionRemoved = entry.definitionRemoved := by
  unfold moved
  dsimp only
  split_ifs <;> rfl

end ServiceEntry

namespace ServiceTable

variable (services : ServiceTable)

def set (service : String) (entry : ServiceEntry) : ServiceTable :=
  ⟨services.entries.insert service entry⟩

def discard (service : String) : ServiceTable := ⟨services.entries.erase service⟩

def stateOf (service : String) : Option ServiceState := (services.runtime service).map (·.state)

def serviceNames : List String := services.entries.keys

def moveEntry (service : String) (entry : ServiceEntry) (transition : ServiceTransition) :
    ServiceTable :=
  if entry.definitionRemoved && !retainsDefinitionAfterRemoval transition.target then
    services.discard service
  else services.set service (entry.moved transition)

def transitionService (service : String) (transition : ServiceTransition) :
    Except ServiceTableError (ServiceTable × ServiceTableTransition) :=
  match services.get service with
  | none => .error (.unknownService service)
  | some entry =>
    if isAllowedTransition entry.runtime.state transition.target transition.cause then
      let moved := entry.moved transition
      .ok (services.moveEntry service entry transition,
        { event :=
            { service, origin := entry.runtime.state, target := transition.target,
              cause := transition.cause, generation := moved.runtime.generation }
          discardedDefinitionRemoved :=
            entry.definitionRemoved && !retainsDefinitionAfterRemoval transition.target
          releasedTty :=
            if holdsTty entry.runtime.state && !holdsTty transition.target then
              entry.definition.consolePath
            else none })
    else .error (.invalidTransition service entry.runtime.state transition.target transition.cause)

def updateRuntime (service : String) (f : ServiceRuntimeSnapshot → ServiceRuntimeSnapshot) :
    Except ServiceTableError ServiceTable :=
  match services.get service with
  | none => .error (.unknownService service)
  | some entry => .ok (services.set service { entry with runtime := f entry.runtime })

def recordStoppingTimeout (service : String) (evidence : ServiceStoppingTimeoutEvidence) :
    Except ServiceTableError ServiceTable :=
  services.updateRuntime service fun runtime => { runtime with stoppingTimeout := some evidence }

/-- A leak is recorded once; one in the tree in use moves the service on to the next tree. -/
def recordLeakedCgroup (service : String) (path : String) (kind : LeakedCgroupKind)
    (detectedAtNs : ℕ) : Except ServiceTableError ServiceTable :=
  services.updateRuntime service fun runtime =>
    if runtime.leakedCgroups.any fun leak => leak.path = path ∧ leak.kind = kind then runtime
    else { runtime with
      leakedCgroups := runtime.leakedCgroups ++ [{ path, kind, detectedAtNs }]
      cgroupGeneration :=
        if leakAffectsTree path (serviceCgroupRootPath service runtime.cgroupGeneration) then
          saturatingAdd runtime.cgroupGeneration 1
        else runtime.cgroupGeneration }

/-! ## What a move does to the table -/

variable {services} {svc other : String} {entry : ServiceEntry} {tr : ServiceTransition}

theorem get_set (e : ServiceEntry) :
    (services.set svc e).get other = if svc = other then some e else services.get other :=
  OrdMap.get_insert _ _ _ _

theorem get_discard :
    (services.discard svc).get other = if svc = other then none else services.get other :=
  OrdMap.get_erase _ _ _

theorem get_moveEntry_ne (away : other ≠ svc) :
    (services.moveEntry svc entry tr).get other = services.get other := by
  unfold moveEntry
  split_ifs
  · rw [get_discard, if_neg (Ne.symm away)]
  · rw [get_set, if_neg (Ne.symm away)]

theorem get_moveEntry : (services.moveEntry svc entry tr).get svc =
      if entry.definitionRemoved && !retainsDefinitionAfterRemoval tr.target then none
      else some (entry.moved tr) := by
  unfold moveEntry
  split_ifs
  · rw [get_discard, if_pos rfl]
  · rw [get_set, if_pos rfl]

theorem transitionService_eq_ok {out : ServiceTable × ServiceTableTransition} :
    services.transitionService svc tr = .ok out →
      ∃ entry, services.get svc = some entry ∧
        isAllowedTransition entry.runtime.state tr.target tr.cause = true ∧
        out.1 = services.moveEntry svc entry tr := by
  unfold transitionService
  intro ok
  rcases got : services.get svc with _ | entry <;> rw [got] at ok
  · cases ok
  · dsimp only at ok
    by_cases allowed : isAllowedTransition entry.runtime.state tr.target tr.cause = true
    · rw [if_pos allowed] at ok
      cases ok
      exact ⟨entry, rfl, allowed, rfl⟩
    · rw [if_neg allowed] at ok
      cases ok

theorem transitionService_ok (got : services.get svc = some entry)
    (allowed : isAllowedTransition entry.runtime.state tr.target tr.cause = true) :
    ∃ t, services.transitionService svc tr = .ok (services.moveEntry svc entry tr, t) := by
  unfold transitionService
  rw [got]
  dsimp only
  rw [if_pos allowed]
  exact ⟨_, rfl⟩

theorem updateRuntime_eq_ok {f : ServiceRuntimeSnapshot → ServiceRuntimeSnapshot} {out : ServiceTable} :
    services.updateRuntime svc f = .ok out ↔ ∃ entry, services.get svc = some entry ∧
      out = services.set svc { entry with runtime := f entry.runtime } := by
  unfold updateRuntime
  rcases services.get svc with _ | entry
  · simp
  · simp [eq_comm]

end ServiceTable

end Peinit
