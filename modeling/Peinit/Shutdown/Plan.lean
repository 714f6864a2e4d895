import Peinit.Shutdown.Model

/-!
# Planning a shutdown

Services that are up are stopped in waves.  A wave takes everything nothing else still rests on by a
hard dependency, and what is built into the program outlasts everything that is not.
-/

namespace Peinit

/-- The services sorted by what the shutdown does with them. -/
structure ShutdownSorting where
  completedToClear : List String := []
  startingToKill : List String := []
  stopCandidates : OrdMap String ShutdownStopParticipant := ∅
  ignored : List ShutdownIgnoredService := []

def ShutdownSorting.sort (services : ServiceTable) (sorting : ShutdownSorting) (service : String) :
    Except ShutdownPlanError ShutdownSorting :=
  match services.runtime service with
  | none => .error (.missingRuntime service)
  | some runtime =>
    match runtime.state with
    | .completed => .ok { sorting with completedToClear := sorting.completedToClear ++ [service] }
    | .starting => .ok { sorting with startingToKill := sorting.startingToKill ++ [service] }
    | .active | .reloading | .stopping =>
      .ok { sorting with
        stopCandidates := sorting.stopCandidates.insert service
          { service, state := runtime.state, alreadyStopping := runtime.state = .stopping } }
    | .inactive | .backoff | .failed | .abandoned | .skipped =>
      .ok { sorting with ignored := sorting.ignored ++ [{ service, state := runtime.state }] }

def insertDependent (dependents : OrdMap String (OrdSet String)) (target dependent : String) :
    OrdMap String (OrdSet String) :=
  dependents.insert target ((dependents[target]?.getD ∅).insert dependent)

/-- Note whom `dependent` rests on: what it declares, and what is built in if it is not itself. -/
def noteDependent (services : ServiceTable) (candidates restsOn : List String)
    (dependents : OrdMap String (OrdSet String)) (dependent : String) :
    Except ShutdownPlanError (OrdMap String (OrdSet String)) :=
  match services.definition dependent with
  | none => .error (.missingDefinition dependent)
  | some definition =>
    let dependents := if definition.compiledIn then dependents
      else restsOn.foldl (insertDependent · · dependent) dependents
    .ok (((hardDependencies definition).filter (candidates.contains ·.target)).foldl
      (fun dependents dependency => insertDependent dependents dependency.target dependent) dependents)

def dependentsByTarget (services : ServiceTable) (candidates : List String) :
    Except ShutdownPlanError (OrdMap String (OrdSet String)) :=
  let restsOn := candidates.filter fun service => (services.definition service).any (·.compiledIn)
  candidates.foldlM (noteDependent services candidates restsOn) ∅

/-- Those whose dependents are all gone. -/
def readyToStop (dependents : OrdMap String (OrdSet String))
    (remaining : OrdMap String ShutdownStopParticipant) : List String :=
  remaining.keys.filter fun service =>
    (dependents[service]?).all fun entries => entries.toList.all fun dependent =>
      !remaining.contains dependent

/-- Move a ready service from what remains to the wave. -/
def takeReady (state : List ShutdownStopParticipant × OrdMap String ShutdownStopParticipant)
    (service : String) :
    Except ShutdownPlanError (List ShutdownStopParticipant × OrdMap String ShutdownStopParticipant) :=
  match state.2[service]? with
  | none => .error (.missingReadyService service)
  | some participant => .ok (state.1 ++ [participant], state.2.erase service)

/-- Every wave takes something, so the number of candidates is enough fuel. -/
def reverseDependencyWaves (services : ServiceTable) :
    ℕ → OrdMap String ShutdownStopParticipant → Except ShutdownPlanError (List ShutdownStopWave)
  | 0, _ => .ok []
  | fuel + 1, remaining =>
    if remaining.isEmpty then .ok []
    else do
      let dependents ← dependentsByTarget services remaining.keys
      let ready := readyToStop dependents remaining
      if ready.isEmpty then .error (.dependencyCycle remaining.keys)
      else do
        let (wave, remaining) ← ready.foldlM takeReady ([], remaining)
        let waves ← reverseDependencyWaves services fuel remaining
        return { services := wave } :: waves

def planGracefulShutdown (services : ServiceTable) : Except ShutdownPlanError ShutdownPlan := do
  let sorting ← services.serviceNames.foldlM (ShutdownSorting.sort services) {}
  let stopWaves ← reverseDependencyWaves services sorting.stopCandidates.size sorting.stopCandidates
  return { completedToClear := sorting.completedToClear
           startingToKill := sorting.startingToKill
           stopWaves
           ignored := sorting.ignored }

end Peinit
