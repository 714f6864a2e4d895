import Mathlib

/-!
# Service states

The states of a service, the causes a move between them is recorded under, and the table of moves
the state machine accepts.
-/

namespace Peinit

inductive ServiceState where
  | inactive | starting | active | reloading | stopping | completed | backoff | failed | abandoned
  | skipped
  deriving DecidableEq

inductive TransitionCause where
  | explicitStart | dependencyStart | restartPolicy | bindsToRecovery | explicitStop
  | explicitReload | explicitReset | conflictEviction | bindsToPropagation | timer | shutdownWave
  | processCrash | cleanExit | cleanExitRestart | readinessTimeout | watchdogTimeout
  | healthCheckFailure | preHookFailure | parentSetupFailure | preExecFailure | dependencyFailure
  | restartBudgetExhausted | cycleDetected | validationError | assertionError | conditionSkipped
  | ttyUnavailable | processUnkillable | internalError
  deriving DecidableEq

namespace ServiceState

/-- The states a dependent can run on.  A reload is not an outage. -/
def satisfiesDependents : ServiceState → Bool
  | .active | .reloading | .completed | .skipped => true
  | _ => false

end ServiceState

def startSucceeded : TransitionCause → Bool
  | .explicitStart | .dependencyStart | .restartPolicy | .bindsToRecovery | .timer => true
  | _ => false

def isStartupRetryCause : TransitionCause → Bool
  | .readinessTimeout | .preHookFailure | .processCrash | .preExecFailure
  | .parentSetupFailure => true
  | _ => false

def isStopCause : TransitionCause → Bool
  | .explicitStop | .conflictEviction | .bindsToPropagation | .shutdownWave => true
  | _ => false

/-- Whether a service may move from `origin` to `target` for `cause`. -/
def isAllowedTransition (origin target : ServiceState) (cause : TransitionCause) : Bool :=
  match origin, target with
  | .inactive, .starting =>
    cause ∈ [.explicitStart, .dependencyStart, .timer]
  | .inactive, .skipped => cause ∈ [.conditionSkipped, .ttyUnavailable]
  | .inactive, .failed =>
    cause ∈ [.validationError, .assertionError, .cycleDetected, .dependencyFailure]
  | .starting, .active => startSucceeded cause
  | .starting, .completed => startSucceeded cause
  | .starting, .skipped => cause = .conditionSkipped
  | .starting, .backoff => isStartupRetryCause cause
  | .starting, .stopping => cause = .explicitStop
  | .starting, .failed =>
    cause ∈ [.assertionError, .readinessTimeout, .preHookFailure, .parentSetupFailure,
      .preExecFailure, .processCrash, .shutdownWave, .dependencyFailure, .validationError,
      .cycleDetected, .restartBudgetExhausted, .internalError]
  | .active, .reloading => cause = .explicitReload
  | .active, .stopping => isStopCause cause
  | .active, .backoff =>
    cause ∈ [.processCrash, .cleanExitRestart, .healthCheckFailure, .watchdogTimeout]
  | .active, .failed =>
    cause ∈ [.processCrash, .healthCheckFailure, .watchdogTimeout, .restartBudgetExhausted,
      .internalError]
  | .active, .inactive => cause = .cleanExit
  | .backoff, .starting => cause = .restartPolicy
  | .backoff, .inactive => cause = .explicitStop
  | .backoff, .skipped => cause ∈ [.conditionSkipped, .ttyUnavailable]
  | .backoff, .failed => cause = .internalError
  | .reloading, .active => cause = .explicitReload
  | .reloading, .stopping => isStopCause cause
  | .reloading, .backoff => cause = .processCrash
  | .reloading, .failed => cause ∈ [.processCrash, .restartBudgetExhausted, .internalError]
  | .stopping, .inactive => cause ∈ [.explicitStop, .shutdownWave]
  | .stopping, .failed => cause ∈ [.conflictEviction, .bindsToPropagation, .internalError]
  | .stopping, .abandoned => cause = .processUnkillable
  | .stopping, .starting => cause = .explicitStart
  | .completed, .inactive => cause ∈ [.cleanExit, .explicitStop, .shutdownWave]
  | .completed, .starting => cause ∈ [.explicitStart, .timer]
  | .failed, .starting => cause ∈ [.explicitStart, .bindsToRecovery, .timer]
  | .failed, .inactive => cause = .explicitReset
  | .failed, .abandoned => cause = .processUnkillable
  | .abandoned, .inactive => cause = .explicitReset
  | .skipped, .inactive => cause ∈ [.explicitReset, .explicitStart]
  | _, _ => false

end Peinit
