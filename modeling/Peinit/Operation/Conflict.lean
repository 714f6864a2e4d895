import Peinit.Operation.Record

/-!
# The conflict table

What happens to a request for a service that already has a live operation.  The table looks at one
existing operation; the store decides which one it is shown.
-/

namespace Peinit

inductive OperationConflictRejection where
  | resetWhileOperationInProgress
  | unsupportedActiveConflict (existingType : OperationType) (existingState : OperationState)
      (requestedType : OperationType)
  deriving DecidableEq

inductive OperationConflictDecision where
  | createNew
  | mergeIntoExisting (existingId : OperationId)
  | cancelExistingThenCreate (existingId : OperationId)
  | abortExistingThenCreate (existingId : OperationId)
  | cancelExistingThenQueue (existingId : OperationId)
  | queueNew
  | reject (rejection : OperationConflictRejection)
  deriving DecidableEq

def resolveOperationConflict (existing : Option OperationRecord) (requestedType : OperationType) :
    OperationConflictDecision :=
  match existing with
  | none => .createNew
  | some existing =>
    if existing.state.isTerminal then .createNew
    else if requestedType = .reset then .reject .resetWhileOperationInProgress
    else
      match existing.operationType, existing.state, requestedType with
      | .start, _, .start | .stop, _, .stop | .reload, _, .reload | .restart, _, .start =>
        .mergeIntoExisting existing.id
      | .start, .pending, .stop | .restart, .pending, .stop | .reload, .pending, .stop
      | .reload, .pending, .restart => .cancelExistingThenCreate existing.id
      | .start, .running, .stop | .restart, .running, .stop | .reload, .running, .stop
      | .reload, .running, .restart => .abortExistingThenCreate existing.id
      | .stop, _, .start | .stop, _, .restart | .restart, _, .restart
      | .start, .running, .restart => .queueNew
      | .start, .pending, .restart => .cancelExistingThenQueue existing.id
      | existingType, existingState, requestedType =>
        .reject (.unsupportedActiveConflict existingType existingState requestedType)

namespace OperationRecord

variable {r : OperationRecord} {requestedType : OperationType} {id : OperationId}

theorem resolve_existing (live : r.state.isTerminal = false)
    (decision : resolveOperationConflict (some r) requestedType = .mergeIntoExisting id ∨
      resolveOperationConflict (some r) requestedType = .cancelExistingThenCreate id ∨
      resolveOperationConflict (some r) requestedType = .abortExistingThenCreate id ∨
      resolveOperationConflict (some r) requestedType = .cancelExistingThenQueue id) : r.id = id := by
  rcases OperationState.pending_or_running live with state | state <;> cases type : r.operationType <;>
    cases requestedType <;> simp [resolveOperationConflict, state, type] at decision <;>
    exact decision

theorem resolve_stop_merge (live : r.state.isTerminal = false) :
    (∃ id, resolveOperationConflict (some r) .stop = .mergeIntoExisting id) ↔
      r.operationType = .stop := by
  rcases OperationState.pending_or_running live with state | state <;> cases type : r.operationType <;>
    simp [resolveOperationConflict, state, type]

theorem resolve_stop (live : r.state.isTerminal = false) (other : r.operationType ≠ .stop) :
    resolveOperationConflict (some r) .stop = .cancelExistingThenCreate r.id ∨
      resolveOperationConflict (some r) .stop = .abortExistingThenCreate r.id ∨
      ∃ rejection, resolveOperationConflict (some r) .stop = .reject rejection := by
  rcases OperationState.pending_or_running live with state | state <;> cases type : r.operationType <;>
    simp_all [resolveOperationConflict]

end OperationRecord

end Peinit
