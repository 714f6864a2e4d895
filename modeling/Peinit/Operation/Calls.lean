import Peinit.Lib.Run
import Peinit.Operation.StoreCases

/-!
# Calls of the operation store

`Effect s call t` holds when the call made in `s` may leave `t`. Every invariant of runs of the store is
proved by cases on it.
-/

namespace Peinit.OperationStore

open Fallible

variable {s : OperationStore} {id : OperationId} {r : OperationRecord}

/-- A call of a method that can change the store. -/
inductive StoreCall where
  | requestOperation (request : OperationRequest)
  | mergeRequestInto (request : OperationRequest) (existingId : OperationId)
  | observeShutdownStop (id : OperationId) (service : String) (createdAtNs : ℕ)
  | restartLifetimeClock (id : OperationId) (atNs : ℕ)
  | startOperation (id : OperationId) (startedAtNs : ℕ)
  | completeOperation (id : OperationId) (completedAtNs : ℕ) (result : String)
  | failOperation (id : OperationId) (completedAtNs : ℕ) (failureReason : String)
  | cancelOperation (id : OperationId) (completedAtNs : ℕ) (reason : String)
  | abortOperation (id : OperationId) (completedAtNs : ℕ) (reason : String)
  | clearQueuedBehind (id : OperationId)
  | requeueBehindHead (id : OperationId)
  | purgeTerminalCompletedAtOrBefore (cutoffNs : ℕ)
  | purgeTerminalRetainedUntil (nowNs retentionNs : ℕ)
  deriving DecidableEq

/-- The store after a call, whether it returned or failed. -/
def perform (self : OperationStore) : StoreCall → OperationStore
  | .requestOperation request => ((requestOperation request).run self).2
  | .mergeRequestInto request existingId => ((mergeRequestInto request existingId).run self).2
  | .observeShutdownStop id service createdAtNs =>
    ((observeShutdownStop id service createdAtNs).run self).2
  | .restartLifetimeClock id atNs => ((restartLifetimeClock id atNs).run self).2
  | .startOperation id startedAtNs => ((startOperation id startedAtNs).run self).2
  | .completeOperation id completedAtNs result =>
    ((completeOperation id completedAtNs result).run self).2
  | .failOperation id completedAtNs reason => ((failOperation id completedAtNs reason).run self).2
  | .cancelOperation id completedAtNs reason =>
    ((cancelOperation id completedAtNs reason).run self).2
  | .abortOperation id completedAtNs reason =>
    ((abortOperation id completedAtNs reason).run self).2
  | .clearQueuedBehind id => self.clearQueuedBehind id
  | .requeueBehindHead id => self.requeueBehindHead id
  | .purgeTerminalCompletedAtOrBefore cutoffNs =>
    ((purgeTerminalCompletedAtOrBefore cutoffNs).run self).2
  | .purgeTerminalRetainedUntil nowNs retentionNs =>
    ((purgeTerminalRetainedUntil nowNs retentionNs).run self).2

/-- What a call can make of the store `s`. -/
inductive Effect (s : OperationStore) : StoreCall → OperationStore → Prop
  /-- The call failed, or there was nothing to do. -/
  | unchanged (call : StoreCall) : Effect s call s
  | requested {request : OperationRequest} {decision : OperationConflictDecision}
      {t : OperationStore} (unused : s.records[request.id]? = none)
      (resolved : s.resolveRequest request = .ok decision) (applied : Applied s request decision t) :
      Effect s (.requestOperation request) t
  | absorbed {request : OperationRequest} {existingId : OperationId} {r : OperationRecord}
      (unused : s.records[request.id]? = none) (known : s.records[existingId]? = some r)
      (live : r.state.isTerminal = false) :
      Effect s (.mergeRequestInto request existingId)
        (s.revise request.id (mergedRecord request existingId))
  | observed {id : OperationId} {service : String} {createdAtNs : ℕ}
      (unused : s.records[id]? = none) :
      Effect s (.observeShutdownStop id service createdAtNs)
        (s.enlist (.new id .stop service .shutdown none createdAtNs) .back)
  | clockRestarted {id : OperationId} {atNs : ℕ} {r : OperationRecord}
      (known : s.records[id]? = some r) (pending : r.state = .pending) :
      Effect s (.restartLifetimeClock id atNs)
        (s.revise id { r with lifetimeFromNs := max atNs r.createdAtNs })
  | started {id : OperationId} {startedAtNs : ℕ} {r : OperationRecord}
      (known : s.records[id]? = some r) (pending : r.state = .pending) :
      Effect s (.startOperation id startedAtNs)
        (s.revise id { r with state := .running, startedAtNs := some startedAtNs })
  | retired {call : StoreCall} {id : OperationId} {r : OperationRecord} {final : OperationState}
      {completedAtNs : ℕ} {result : String} (known : s.records[id]? = some r)
      (live : r.state.isTerminal = false) (created : r.createdAtNs ≤ completedAtNs)
      (ended : final.isTerminal = true) :
      Effect s call (s.retire id (r.ended final completedAtNs result))
  | cleared (id : OperationId) : Effect s (.clearQueuedBehind id) (s.clearQueuedBehind id)
  | requeued {id : OperationId} {r : OperationRecord} (known : s.records[id]? = some r) :
      Effect s (.requeueBehindHead id)
        (s.queueBehind id ((s.activeForService r.service).find? fun active => active ≠ id))
  | purged (call : StoreCall) (cutoffNs : ℕ) : Effect s call (s.purged cutoffNs)

theorem effect_of_retires {m : Mutator OperationEvent} {final : OperationState} {doneNs : ℕ}
    {result : String} (retires : Retires m id final doneNs result)
    (ended : final.isTerminal = true) (call : StoreCall) : Effect s call (m.run s).2 := by
  rcases retires s with ⟨r, event, known, live, created, run⟩ | ⟨e, run⟩ <;> rw [run]
  · exact .retired known live created ended
  · exact .unchanged call

theorem perform_effect (s : OperationStore) (call : StoreCall) : Effect s call (s.perform call) := by
  cases call with
  | requestOperation req =>
    rcases requestOperation_cases req s with
      ⟨_, _, t, unused, resolved, applied, run⟩ | ⟨e, run⟩ <;> simp only [perform, run]
    · exact .requested unused resolved applied
    · exact .unchanged _
  | mergeRequestInto req existingId =>
    rcases mergeRequestInto_cases req existingId s with
      ⟨r, _, unused, known, live, run⟩ | ⟨e, run⟩ <;> simp only [perform, run]
    · exact .absorbed unused known live
    · exact .unchanged _
  | observeShutdownStop id svc createdAtNs =>
    rcases observeShutdownStop_cases id svc createdAtNs s with ⟨_, unused, run⟩ | ⟨e, run⟩ <;>
      simp only [perform, run]
    · exact .observed unused
    · exact .unchanged _
  | restartLifetimeClock id atNs =>
    rcases restartLifetimeClock_revises id atNs s with ⟨r, _, known, pending, run⟩ | ⟨e, run⟩ <;>
      simp only [perform, run]
    · exact .clockRestarted known pending
    · exact .unchanged _
  | startOperation id startNs =>
    rcases startOperation_revises id startNs s with ⟨r, _, known, pending, run⟩ | ⟨e, run⟩ <;>
      simp only [perform, run]
    · exact .started known pending
    · exact .unchanged _
  | completeOperation id doneNs result =>
    exact effect_of_retires (completeOperation_retires doneNs result) rfl _
  | failOperation id doneNs reason =>
    exact effect_of_retires (failOperation_retires doneNs reason) rfl _
  | cancelOperation id doneNs reason =>
    exact effect_of_retires (cancelOperation_retires doneNs reason) rfl _
  | abortOperation id doneNs reason =>
    exact effect_of_retires (abortOperation_retires doneNs reason) rfl _
  | clearQueuedBehind id => exact .cleared id
  | requeueBehindHead id =>
    simp only [perform, requeueBehindHead]
    cases known : s.records[id]? with
    | none => exact .unchanged _
    | some r => exact .requeued known
  | purgeTerminalCompletedAtOrBefore cutoffNs =>
    obtain ⟨ids, run⟩ := run_purgeTerminalCompletedAtOrBefore cutoffNs s
    simp only [perform, run]
    exact .purged _ cutoffNs
  | purgeTerminalRetainedUntil nowNs retentionNs =>
    obtain ⟨ids, run⟩ := run_purgeTerminalRetainedUntil nowNs retentionNs s
    simp only [perform, run]
    split_ifs
    · exact .unchanged _
    · exact .purged _ _

end Peinit.OperationStore
