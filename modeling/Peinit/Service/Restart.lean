import Peinit.Service.Table

/-!
# Restarting after a failure

What happens to a service that has failed: it waits and is started again, or stays failed.  The wait
doubles with every failure in a row, up to a minute.
-/

namespace Peinit

inductive RestartConsultation where
  | restartEligible | alwaysOnly | budgetExempt | never
  deriving DecidableEq

def TransitionCause.restartConsultation : TransitionCause → RestartConsultation
  | .processCrash | .watchdogTimeout | .healthCheckFailure | .readinessTimeout | .preHookFailure
  | .preExecFailure | .parentSetupFailure => .restartEligible
  | .cleanExitRestart => .alwaysOnly
  | .bindsToRecovery => .budgetExempt
  | _ => .never

inductive RestartEvaluationAction where
  | backoff (cause : TransitionCause) (delaySecs nextConsecutiveFailures : ℕ)
  | fail (cause : TransitionCause) (state : ServiceState)
  deriving DecidableEq

def maxRestartDelaySecs : ℕ := 60

def u32Max : ℕ := 2 ^ 32 - 1

def isSuccessExitCode (definition : ServiceDefinition) (exitCode : ℤ) : Bool :=
  exitCode = 0 || definition.successExitCodes.contains exitCode

def restartDelaySecs (baseDelaySecs consecutiveFailures : ℕ) : ℕ :=
  let multiplier := if consecutiveFailures < 64 then 2 ^ consecutiveFailures else u64Max
  min (saturatingMul baseDelaySecs multiplier) maxRestartDelaySecs

def evaluateRestartAfterFailure (definition : ServiceDefinition) (cause : TransitionCause)
    (exitCode : Option ℤ) (consecutiveFailures : ℕ) : RestartEvaluationAction :=
  if cause.restartConsultation = .never then .fail cause .failed
  else if cause = .cleanExitRestart ∧ definition.restartPolicy ≠ .always then .fail cause .failed
  else if definition.restartPolicy = .never then .fail cause .failed
  else if definition.restartPolicy = .onFailure ∧ cause = .processCrash ∧
      exitCode.any (isSuccessExitCode definition) then .fail cause .failed
  -- a console that was logged out of is no failure
  else if cause = .cleanExitRestart ∧ definition.consolePath.isSome then
    .backoff cause (min definition.restartDelaySecs maxRestartDelaySecs) 0
  else if definition.restartMaxRetries ≤ consecutiveFailures then
    .fail .restartBudgetExhausted .failed
  else .backoff cause (restartDelaySecs definition.restartDelaySecs consecutiveFailures)
    (min (consecutiveFailures + 1) u32Max)

namespace ServiceTable

variable (services : ServiceTable)

def transitionServiceToRestartBackoff (service : String) (cause : TransitionCause)
    (backoffUntilNs : ℕ) : Except ServiceTableError (ServiceTable × ServiceTableTransition) := do
  let (moved, transition) ← services.transitionService service ⟨.backoff, cause⟩
  match moved.get service with
  | none => .error (.unknownService service)
  | some entry => .ok (moved.set service
      { entry with runtime := { entry.runtime with
          consecutiveRestartFailures :=
            if cause = .cleanExitRestart ∧ entry.definition.consolePath.isSome then 0
            else min (entry.runtime.consecutiveRestartFailures + 1) u32Max
          restartBackoffUntilNs := some backoffUntilNs } }, transition)

end ServiceTable

end Peinit
