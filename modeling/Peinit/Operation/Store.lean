import Peinit.Operation.Conflict

/-!
# The operation store

The store keeps the records, for each service the list of its live operations in the order they are to
run, and for each queued one what it waits for. A method that borrows the store mutably and can fail is
a `Mutator`.
-/

namespace Peinit

inductive OperationStoreError where
  | duplicateOperationId (id : OperationId)
  | unknownOperation (id : OperationId)
  | invalidActiveIndex (service : String) (id : OperationId)
  | invalidEventRecord (id : OperationId) (state : OperationState) (reason : String)
  | conflictRejected (rejection : OperationConflictRejection)
  | transition (error : OperationTransitionError)
  deriving DecidableEq

structure OperationStore where
  records : OrdMap OperationId OperationRecord
  activeByService : OrdMap String (List OperationId)
  /-- Operations the conflict table queued, each with the operation it waits for. -/
  queuedBehind : OrdMap OperationId OperationId
  deriving DecidableEq

inductive InsertPosition where
  | front | back
  deriving DecidableEq

/-- The list `active` with `id` inserted. -/
def InsertPosition.place (position : InsertPosition) (id : OperationId)
    (active : List OperationId) : List OperationId :=
  match position with
  | .front => id :: active
  | .back => active ++ [id]

namespace InsertPosition

variable {position : InsertPosition} {id other : OperationId} {active : List OperationId}

@[simp] theorem mem_place : other ∈ position.place id active ↔ other = id ∨ other ∈ active := by
  cases position <;> simp [place, or_comm]

theorem nodup_place (fresh : id ∉ active) (nodup : active.Nodup) : (position.place id active).Nodup := by
  cases position
  · exact nodup.cons fresh
  · rw [place, ← List.concat_eq_append]
    exact nodup.concat fresh

end InsertPosition

structure OperationRequest where
  id : OperationId
  operationType : OperationType
  service : String
  source : OperationSource
  caller : Option TokenSummary
  createdAtNs : ℕ
  deriving DecidableEq

/-! ## Events -/

inductive OperationEventDetail where
  | requested
  | started
  | completed (durationNs : ℕ) (result : String)
  | failed (durationNs : ℕ) (failureReason : String)
  | merged (mergedInto : OperationId)
  | cancelled (reason : String)
  | aborted (durationNs : ℕ) (reason : String)
  deriving DecidableEq

structure OperationEvent where
  operationId : OperationId
  operationType : OperationType
  service : String
  source : OperationSource
  caller : Option TokenSummary
  state : OperationState
  detail : OperationEventDetail
  deriving DecidableEq

namespace OperationEvent

def new (record : OperationRecord) (detail : OperationEventDetail) : OperationEvent where
  operationId := record.id
  operationType := record.operationType
  service := record.service
  source := record.source
  caller := record.caller
  state := record.state
  detail := detail

def invalidRecord (record : OperationRecord) (reason : String) : OperationStoreError :=
  .invalidEventRecord record.id record.state reason

def duration (record : OperationRecord) (reason : String) : Except OperationStoreError ℕ :=
  match record.durationNs with
  | some durationNs => .ok durationNs
  | none => .error (invalidRecord record reason)

def result (record : OperationRecord) (reason : String) : Except OperationStoreError String :=
  match record.result with
  | some result => .ok result
  | none => .error (invalidRecord record reason)

def requested (record : OperationRecord) : OperationEvent := new record .requested

def started (record : OperationRecord) : OperationEvent := new record .started

def completed (record : OperationRecord) : Except OperationStoreError OperationEvent := do
  let durationNs ← duration record "completed operation has duration"
  let result ← result record "completed operation has result"
  return new record (.completed durationNs result)

def failed (record : OperationRecord) : Except OperationStoreError OperationEvent := do
  let durationNs ← duration record "failed operation has duration"
  let failureReason ← result record "failed operation has failure reason"
  return new record (.failed durationNs failureReason)

def merged (record : OperationRecord) : Except OperationStoreError OperationEvent :=
  match record.mergedInto with
  | some mergedInto => .ok (new record (.merged mergedInto))
  | none => .error (invalidRecord record "merged operation records target")

def cancelled (record : OperationRecord) : Except OperationStoreError OperationEvent := do
  let reason ← result record "cancelled operation has reason"
  return new record (.cancelled reason)

def aborted (record : OperationRecord) : Except OperationStoreError OperationEvent := do
  let durationNs ← duration record "aborted operation has duration"
  let reason ← result record "aborted operation has reason"
  return new record (.aborted durationNs reason)

end OperationEvent

structure OperationRequestOutcome where
  returnedOperationId : OperationId
  storedOperationId : OperationId
  decision : OperationConflictDecision
  events : List OperationEvent
  deriving DecidableEq

namespace OperationStore

open Fallible

/-- A method that borrows the store mutably. -/
abbrev Mutator (α : Type) : Type := Fallible OperationStore OperationStoreError α

def new : OperationStore := ⟨∅, ∅, ∅⟩

/-! ## The active lists and the queue -/

def activeForService (self : OperationStore) (service : String) : List OperationId :=
  self.activeByService[service]?.getD []

def currentForService (self : OperationStore) (service : String) : Option OperationRecord :=
  (self.activeForService service).findSome? fun id => self.records[id]?

def ensureUnusedId (id : OperationId) : Mutator Unit := do
  let self ← fetch
  if self.records.contains id then raise (.duplicateOperationId id) else pure ()

def insertActive (self : OperationStore) (service : String) (id : OperationId)
    (position : InsertPosition) : OperationStore :=
  let active := self.activeForService service
  { self with activeByService := self.activeByService.insert service (position.place id active) }

def removeActive (self : OperationStore) (service : String) (id : OperationId) : OperationStore :=
  let self := { self with queuedBehind := self.queuedBehind.erase id }
  match self.activeByService[service]? with
  | none => self
  | some active =>
    let active := active.filter (· ≠ id)
    if active.isEmpty then { self with activeByService := self.activeByService.erase service }
    else { self with activeByService := self.activeByService.insert service active }

/-- Whether `id` still waits for a live predecessor. -/
def isQueuedBehindLive (self : OperationStore) (id : OperationId) : Bool :=
  self.queuedBehind[id]?.any fun behind =>
    self.records[behind]?.any fun operation => !operation.state.isTerminal

/-- Queued operations whose predecessor has finished: still pending, and now at the head of their
service's active list. -/
def readyQueuedOperations (self : OperationStore) : List OperationRecord :=
  (self.queuedBehind.toList.filter fun (id, behind) =>
      (self.records[behind]?.all fun operation => operation.state.isTerminal) &&
        self.records[id]?.any fun operation =>
          operation.state = .pending &&
            (self.currentForService operation.service).any fun head => head.id = operation.id)
    |>.filterMap fun (id, _) => self.records[id]?

def clearQueuedBehind (self : OperationStore) (id : OperationId) : OperationStore :=
  { self with queuedBehind := self.queuedBehind.erase id }

/-- Make `id` wait for `head`, if there is one. -/
def queueBehind (self : OperationStore) (id : OperationId) (head : Option OperationId) :
    OperationStore :=
  match head with
  | some head => { self with queuedBehind := self.queuedBehind.insert id head }
  | none => self

def requeueBehindHead (self : OperationStore) (id : OperationId) : OperationStore :=
  match self.records[id]? with
  | none => self
  | some record =>
    self.queueBehind id ((self.activeForService record.service).find? fun active => active ≠ id)

/-! ## Transitions of stored operations -/

/-- Borrow the record of `id` mutably; what the borrower wrote stays, also if it failed. -/
def onRecord {α : Type} (id : OperationId)
    (m : Fallible OperationRecord OperationStoreError α) : Mutator α where
  run self := match self.records[id]? with
    | none => (.error (.unknownOperation id), self)
    | some record =>
      let (result, record) := m.run record
      (result, { self with records := self.records.insert id record })

def restartLifetimeClock (id : OperationId) (atNs : ℕ) : Mutator Unit :=
  onRecord id (mapError .transition (OperationRecord.restartLifetimeClock atNs))

def startOperation (id : OperationId) (startedAtNs : ℕ) : Mutator OperationEvent :=
  onRecord id do
    mapError .transition (OperationRecord.start startedAtNs)
    let record ← fetch
    return .started record

/-- Take the operation `id` to its end by `transition`, report it by `event` and drop it from the
active list of its service. -/
def endOperation (id : OperationId) (transition : OperationRecord.Transition)
    (event : OperationRecord → Except OperationStoreError OperationEvent) :
    Mutator OperationEvent := do
  let event ← onRecord id do
    mapError .transition transition
    let record ← fetch
    ofExcept (event record)
  update (·.removeActive event.service id)
  return event

def completeOperation (id : OperationId) (completedAtNs : ℕ) (result : String) :
    Mutator OperationEvent :=
  endOperation id (OperationRecord.complete completedAtNs result) OperationEvent.completed

def failOperation (id : OperationId) (completedAtNs : ℕ) (failureReason : String) :
    Mutator OperationEvent :=
  endOperation id (OperationRecord.fail completedAtNs failureReason) OperationEvent.failed

def cancelOperation (id : OperationId) (completedAtNs : ℕ) (reason : String) :
    Mutator OperationEvent :=
  endOperation id (OperationRecord.cancel completedAtNs reason) OperationEvent.cancelled

def abortOperation (id : OperationId) (completedAtNs : ℕ) (reason : String) :
    Mutator OperationEvent :=
  endOperation id (OperationRecord.abort completedAtNs reason) OperationEvent.aborted

/-! ## Requests -/

def recordFromRequest (request : OperationRequest) : OperationRecord :=
  .new request.id request.operationType request.service request.source request.caller request.createdAtNs

def insertRequested (request : OperationRequest) (decision : OperationConflictDecision)
    (position : InsertPosition) : Mutator OperationRequestOutcome := do
  let record := recordFromRequest request
  update fun self => { self with records := self.records.insert record.id record }
  update (·.insertActive record.service record.id position)
  return { returnedOperationId := record.id, storedOperationId := record.id, decision,
           events := [.requested record] }

def mergeRequest (request : OperationRequest) (decision : OperationConflictDecision)
    (existingId : OperationId) : Mutator OperationRequestOutcome := do
  let record := recordFromRequest request
  match (OperationRecord.mergeInto existingId record.createdAtNs).run record with
  | (.error error, _) => raise (.transition error)
  | (.ok (), merged) => do
    let event ← ofExcept (OperationEvent.merged merged)
    update fun self => { self with records := self.records.insert merged.id merged }
    return { returnedOperationId := existingId, storedOperationId := merged.id, decision,
             events := [.requested record, event] }

inductive ExistingTermination where
  | cancel (reason : String)
  | abort (reason : String)
  deriving DecidableEq

def terminateExisting (id : OperationId) (completedAtNs : ℕ) :
    ExistingTermination → Mutator OperationEvent
  | .cancel reason =>
    endOperation id (OperationRecord.cancel completedAtNs reason) OperationEvent.cancelled
  | .abort reason =>
    endOperation id (OperationRecord.abort completedAtNs reason) OperationEvent.aborted

def replaceExisting (request : OperationRequest) (decision : OperationConflictDecision)
    (existingId : OperationId) (termination : ExistingTermination) (position : InsertPosition) :
    Mutator OperationRequestOutcome := do
  let terminated ← terminateExisting existingId request.createdAtNs termination
  let outcome ← insertRequested request decision position
  return { outcome with events := terminated :: outcome.events }

/-- The first active operation that the request can merge into. -/
def findMerge (self : OperationStore) (request : OperationRequest) :
    List OperationId → Except OperationStoreError (Option OperationConflictDecision)
  | [] => .ok none
  | id :: ids =>
    match self.records[id]? with
    | none => .error (.invalidActiveIndex request.service id)
    | some existing =>
      match resolveOperationConflict (some existing) request.operationType with
      | .mergeIntoExisting existingId => .ok (some (.mergeIntoExisting existingId))
      | _ => self.findMerge request ids

def resolveRequest (self : OperationStore) (request : OperationRequest) :
    Except OperationStoreError OperationConflictDecision := do
  let activeIds := self.activeForService request.service
  match ← self.findMerge request activeIds with
  | some decision => return decision
  | none =>
    let existing := activeIds.head?.bind fun id => self.records[id]?
    return resolveOperationConflict existing request.operationType

/-- Carry out a decision that was taken in the store `self`. -/
def applyDecision (self : OperationStore) (request : OperationRequest)
    (decision : OperationConflictDecision) : Mutator OperationRequestOutcome :=
  match decision with
  | .createNew => insertRequested request decision .back
  | .queueNew => do
    let head := (self.currentForService request.service).map (·.id)
    let outcome ← insertRequested request decision .back
    update (·.queueBehind outcome.storedOperationId head)
    return outcome
  | .mergeIntoExisting existingId => mergeRequest request decision existingId
  | .cancelExistingThenCreate existingId =>
    replaceExisting request decision existingId (.cancel "superseded_by_later_operation") .front
  | .abortExistingThenCreate existingId =>
    replaceExisting request decision existingId (.abort "superseded_by_later_operation") .front
  | .cancelExistingThenQueue existingId => do
    let outcome ←
      replaceExisting request decision existingId (.cancel "superseded_by_restart") .back
    let queued := outcome.storedOperationId
    let self ← fetch
    -- the source indexes the map: the record was inserted by the line above
    let head := (self.records[queued]?.bind fun record => self.currentForService record.service)
      |>.map (·.id) |>.filter (· ≠ queued)
    update (·.queueBehind queued head)
    return outcome
  | .reject rejection => raise (.conflictRejected rejection)

def requestOperation (request : OperationRequest) : Mutator OperationRequestOutcome := do
  ensureUnusedId request.id
  let self ← fetch
  let decision ← ofExcept (self.resolveRequest request)
  applyDecision self request decision

/-- Merge the request into `existingId` whatever the conflict table would have decided. -/
def mergeRequestInto (request : OperationRequest) (existingId : OperationId) :
    Mutator OperationRequestOutcome := do
  ensureUnusedId request.id
  let self ← fetch
  match self.records[existingId]? with
  | none => raise (.unknownOperation existingId)
  | some existing =>
    if existing.state.isTerminal then
      raise (.invalidEventRecord existingId existing.state
        "a request can only merge into an operation that is still live")
    else mergeRequest request (.mergeIntoExisting existingId) existingId

/-- A stop owned by the shutdown wave planner; it supersedes nothing. -/
def observeShutdownStop (id : OperationId) (service : String) (createdAtNs : ℕ) :
    Mutator OperationRequestOutcome := do
  ensureUnusedId id
  insertRequested
    { id, operationType := .stop, service, source := .shutdown, caller := none, createdAtNs }
    .createNew .back

/-! ## Retention -/

def purgeTerminalCompletedAtOrBefore (cutoffNs : ℕ) : Mutator (List OperationId) := do
  let self ← fetch
  let purged := self.records.toList.filterMap fun (id, record) =>
    if record.state.isTerminal ∧ record.completedAtNs.any (· ≤ cutoffNs) then some id else none
  update fun self =>
    { self with records := purged.foldl (fun records id => records.erase id) self.records }
  return purged

def purgeTerminalRetainedUntil (nowNs retentionNs : ℕ) : Mutator (List OperationId) :=
  if nowNs < retentionNs then pure []
  else purgeTerminalCompletedAtOrBefore (nowNs - retentionNs)

end OperationStore

end Peinit
