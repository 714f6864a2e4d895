import Peinit.Job.Store
import Peinit.Operation.Store
import Peinit.Service.Table

/-!
# The state of a shutdown

A graceful shutdown is planned once: what is starting is killed, what is up is stopped in waves. The
runtime keeps the plan, the wave that is being stopped, and until when each service has.
-/

namespace Peinit

inductive ShutdownKind where
  | poweroff | reboot | halt
  deriving DecidableEq

structure ShutdownSettings where
  globalTimeoutSecs : ℕ := 90
  postKillTimeoutSecs : ℕ := 5
  deriving DecidableEq

/-! ## The plan -/

structure ShutdownStopParticipant where
  service : String
  /-- The state the service was in when the shutdown was planned. -/
  state : ServiceState
  alreadyStopping : Bool
  deriving DecidableEq

structure ShutdownStopWave where
  services : List ShutdownStopParticipant
  deriving DecidableEq

structure ShutdownIgnoredService where
  service : String
  state : ServiceState
  deriving DecidableEq

structure ShutdownPlan where
  completedToClear : List String
  startingToKill : List String
  stopWaves : List ShutdownStopWave
  ignored : List ShutdownIgnoredService
  deriving DecidableEq

def ShutdownPlan.participants (plan : ShutdownPlan) : List ShutdownStopParticipant :=
  plan.stopWaves.flatMap (·.services)

inductive ShutdownPlanError where
  | missingRuntime (service : String)
  | missingDefinition (service : String)
  | missingReadyService (service : String)
  | dependencyCycle (services : List String)
  deriving DecidableEq

/-! ## The runtime -/

structure ShutdownStopDeadline where
  service : String
  cgroupId : String
  startedAtNs : ℕ
  dueAtNs : ℕ
  wave : ℕ
  operationId : Option OperationId
  deriving DecidableEq

structure ShutdownPostKillDeadline where
  service : String
  cgroupId : String
  dueAtNs : ℕ
  deriving DecidableEq

inductive ShutdownFinalizationState where
  | waitingForServices
  | ready
  | failed (message : String) (nextRetryAtNs : ℕ)
  | completed
  deriving DecidableEq

structure ShutdownRuntime where
  kind : ShutdownKind
  initiatedAtNs : ℕ
  globalDeadlineNs : ℕ
  /-- The global timeout fires once. -/
  globalTimeoutFired : Bool
  plan : ShutdownPlan
  currentWave : ℕ
  stopDeadlines : List ShutdownStopDeadline
  postKillDeadlines : List ShutdownPostKillDeadline
  finalization : ShutdownFinalizationState
  deriving DecidableEq

inductive ShutdownError where
  | alreadyInProgress (kind : ShutdownKind)
  | plan (error : ShutdownPlanError)
  | serviceTable (error : ServiceTableError)
  | operationStore (error : OperationStoreError)
  | jobStore (error : JobStoreError)
  | missingRunningService (service : String)
  | missingJobRecord (id : JobId)
  | jobNotRunning (id : JobId)
  | missingProcessHandle (id : JobId)
  | noShutdownInProgress
  deriving DecidableEq

end Peinit
