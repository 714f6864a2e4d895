import Peinit.Operation.Store

/-!
# What the store's mutators do

A mutator fails and writes nothing, or enlists a new operation, absorbs a merged request, revises or
retires a live operation, or edits the queue.
-/

namespace Peinit.OperationStore

open Fallible OperationRecord OrdMap

variable {tr : OperationRecord.Transition}
  {event : OperationRecord → Except OperationStoreError OperationEvent} {completedAtNs : ℕ}
  {result : String}

variable {s t : OperationStore} {id : OperationId} {r : OperationRecord}

/-! ## The changes -/

/-- The record of `id` becomes `record`. -/
def revise (self : OperationStore) (id : OperationId) (record : OperationRecord) :
    OperationStore :=
  { self with records := self.records.insert id record }

/-- A new operation joins its service's active list. -/
def enlist (self : OperationStore) (record : OperationRecord) (position : InsertPosition) :
    OperationStore :=
  (self.revise record.id record).insertActive record.service record.id position

/-- The operation `id` leaves its service's active list and the queue, with `record` as its last
word. -/
def retire (self : OperationStore) (id : OperationId) (record : OperationRecord) :
    OperationStore :=
  (self.revise id record).removeActive record.service id

@[simp] theorem revise_records : (s.revise id r).records = s.records.insert id r := rfl

@[simp] theorem revise_activeByService : (s.revise id r).activeByService = s.activeByService := rfl

@[simp] theorem revise_activeForService (svc : String) :
    (s.revise id r).activeForService svc = s.activeForService svc := rfl

@[simp] theorem enlist_records (position : InsertPosition) :
    (s.enlist r position).records = s.records.insert r.id r := rfl

theorem enlist_activeByService (position : InsertPosition) (svc : String) :
    (s.enlist r position).activeByService[svc]? =
      if r.service = svc then some (position.place r.id (s.activeForService svc))
      else s.activeByService[svc]? := by
  simp only [enlist, insertActive, get_insert]
  split_ifs with same
  · rw [← same, revise_activeForService]
  · rfl

theorem enlist_activeForService (position : InsertPosition) (svc : String) :
    (s.enlist r position).activeForService svc =
      if r.service = svc then position.place r.id (s.activeForService svc)
      else s.activeForService svc := by
  unfold activeForService
  rw [enlist_activeByService]
  split_ifs <;> rfl

theorem retire_activeByService (svc : String) : (s.retire id r).activeByService[svc]? =
      if r.service = svc then
        s.activeByService[svc]?.bind fun active =>
          if (active.filter (· ≠ id)).isEmpty then none else some (active.filter (· ≠ id))
      else s.activeByService[svc]? := by
  simp only [retire, removeActive, revise_activeByService]
  cases h : s.activeByService[r.service]? with
  | none =>
    split_ifs with same
    · rw [← same, h]
      rfl
    · rfl
  | some active =>
    dsimp only
    split_ifs with empty same same
    · rw [get_erase, if_pos same, ← same, h, Option.bind_some, if_pos empty]
    · rw [get_erase, if_neg same]
    · rw [get_insert, if_pos same, ← same, h, Option.bind_some, if_neg empty]
    · rw [get_insert, if_neg same]

theorem retire_activeForService (svc : String) : (s.retire id r).activeForService svc =
      if r.service = svc then (s.activeForService svc).filter (· ≠ id)
      else s.activeForService svc := by
  unfold activeForService
  rw [retire_activeByService]
  split_ifs with same
  · cases s.activeByService[svc]? with
    | none => rfl
    | some active =>
      rw [Option.bind_some, Option.getD_some]
      split_ifs with empty
      · rw [List.isEmpty_iff.mp empty, Option.getD_none]
      · rfl
  · rfl

@[simp] theorem retire_records : (s.retire id r).records = s.records.insert id r := by
  simp only [retire, removeActive]
  split
  · rfl
  · split <;> rfl

@[simp] theorem retire_queuedBehind : (s.retire id r).queuedBehind = s.queuedBehind.erase id := by
  simp only [retire, removeActive]
  split
  · rfl
  · split <;> rfl

@[simp] theorem queueBehind_records (head : Option OperationId) :
    (s.queueBehind id head).records = s.records := by
  cases head <;> rfl

@[simp] theorem queueBehind_activeByService (head : Option OperationId) :
    (s.queueBehind id head).activeByService = s.activeByService := by
  cases head <;> rfl

@[simp] theorem queueBehind_activeForService (head : Option OperationId) (svc : String) :
    (s.queueBehind id head).activeForService svc = s.activeForService svc := by
  cases head <;> rfl

/-! ## Transitions -/

section OnRecord

variable {α : Type} {m : Fallible OperationRecord OperationStoreError α} {a : α}
  {e : OperationStoreError} {r' : OperationRecord}

theorem run_onRecord_unknown (unknown : s.records[id]? = none) :
    (onRecord id m).run s = (.error (.unknownOperation id), s) := by
  simp only [onRecord, unknown]

theorem run_onRecord_ok (known : s.records[id]? = some r) (run : m.run r = (.ok a, r')) :
    (onRecord id m).run s = (.ok a, s.revise id r') := by
  simp only [onRecord, known, run, revise]

theorem run_onRecord_refused (known : s.records[id]? = some r) (run : m.run r = (.error e, r)) :
    (onRecord id m).run s = (.error e, s) := by
  simp only [onRecord, known, run, insert_of_get known]

end OnRecord

/-- `m` either retires the live operation `id` in the state `final`, or fails and writes nothing. -/
def Retires (m : Mutator OperationEvent) (id : OperationId) (final : OperationState)
    (completedAtNs : ℕ) (result : String) : Prop :=
  ∀ s : OperationStore,
    (∃ r event, s.records[id]? = some r ∧ r.state.isTerminal = false ∧
      r.createdAtNs ≤ completedAtNs ∧
      m.run s = (.ok event, s.retire id (r.ended final completedAtNs result))) ∨
    ∃ e, m.run s = (.error e, s)

theorem run_endOperation {detail : OperationEventDetail}
    (known : s.records[id]? = some r) (run : tr.run r = (.ok (), r'))
    (reported : event r' = .ok (.new r' detail)) :
    (endOperation id tr event).run s = (.ok (.new r' detail), s.retire id r') := by
  refine (run_bind_of_ok (run_onRecord_ok known ?_)).trans rfl
  rw [run_bind_of_ok (run_mapError_of_ok run), run_fetch_bind, run_ofExcept, reported]

theorem endOperation_retires {final : OperationState}
    (ends : OperationRecord.Ends final completedAtNs result tr)
    (reports : ∀ r : OperationRecord, ∃ detail,
      event (r.ended final completedAtNs result) =
        .ok (.new (r.ended final completedAtNs result) detail)) :
    Retires (endOperation id tr event) id final completedAtNs result := by
  intro s
  cases known : s.records[id]? with
  | none => exact .inr ⟨_, run_bind_of_error (run_onRecord_unknown known)⟩
  | some r =>
    rcases ends r with ⟨live, created, run⟩ | ⟨e, run⟩
    · obtain ⟨detail, reported⟩ := reports r
      exact .inl ⟨r, .new (r.ended final completedAtNs result) detail, rfl, live, created,
        run_endOperation known run reported⟩
    · exact .inr ⟨_, run_bind_of_error
        (run_onRecord_refused known (run_bind_of_error (run_mapError_of_error run)))⟩

theorem completeOperation_retires (doneNs : ℕ) (result : String) :
    Retires (completeOperation id doneNs result) id .completed doneNs result :=
  endOperation_retires (finish_ends _ _ .completed .complete) fun _ => ⟨_, rfl⟩

theorem failOperation_retires (doneNs : ℕ) (result : String) :
    Retires (failOperation id doneNs result) id .failed doneNs result :=
  endOperation_retires (finish_ends _ _ .failed .fail) fun _ => ⟨_, rfl⟩

theorem cancelOperation_retires (doneNs : ℕ) (result : String) :
    Retires (cancelOperation id doneNs result) id .cancelled doneNs result :=
  endOperation_retires (ends_of_expected _ _ rfl .cancel .cancelled) fun _ => ⟨_, rfl⟩

theorem abortOperation_retires (doneNs : ℕ) (result : String) :
    Retires (abortOperation id doneNs result) id .aborted doneNs result :=
  endOperation_retires (ends_of_expected _ _ rfl .abort .aborted) fun _ => ⟨_, rfl⟩

/-- `m` either revises the pending operation `id` by `change`, or fails and writes nothing. -/
def Revises {α : Type} (m : Mutator α) (id : OperationId)
    (change : OperationRecord → OperationRecord) : Prop :=
  ∀ s : OperationStore,
    (∃ r a, s.records[id]? = some r ∧ r.state = .pending ∧ m.run s = (.ok a, s.revise id (change r))) ∨
    ∃ e, m.run s = (.error e, s)

theorem startOperation_revises (id : OperationId) (startNs : ℕ) :
    Revises (startOperation id startNs) id fun r =>
      { r with state := .running, startedAtNs := some startNs } := by
  intro s
  cases known : s.records[id]? with
  | none => exact .inr ⟨_, run_onRecord_unknown known⟩
  | some r =>
    rcases start_cases r startNs with ⟨pending, run⟩ | ⟨e, run⟩
    · exact .inl ⟨r, _, rfl, pending, run_onRecord_ok known (run_bind_of_ok (run_mapError_of_ok run))⟩
    · exact .inr ⟨_, run_onRecord_refused known (run_bind_of_error (run_mapError_of_error run))⟩

theorem restartLifetimeClock_revises (id : OperationId) (atNs : ℕ) :
    Revises (restartLifetimeClock id atNs) id fun r =>
      { r with lifetimeFromNs := max atNs r.createdAtNs } := by
  intro s
  cases known : s.records[id]? with
  | none => exact .inr ⟨_, run_onRecord_unknown known⟩
  | some r =>
    rcases restartLifetimeClock_cases r atNs with ⟨pending, run⟩ | ⟨e, run⟩
    · exact .inl ⟨r, _, rfl, pending, run_onRecord_ok known (run_mapError_of_ok run)⟩
    · exact .inr ⟨_, run_onRecord_refused known (run_mapError_of_error run)⟩

/-! ## Requests -/

section RecordFromRequest

variable (req : OperationRequest)

@[simp] theorem recordFromRequest_id : (recordFromRequest req).id = req.id := rfl

@[simp] theorem recordFromRequest_service : (recordFromRequest req).service = req.service := rfl

@[simp] theorem recordFromRequest_state : (recordFromRequest req).state = .pending := rfl

@[simp] theorem recordFromRequest_operationType :
    (recordFromRequest req).operationType = req.operationType := rfl

end RecordFromRequest

theorem get_enlistRequest (req : OperationRequest) (position : InsertPosition) (id : OperationId) :
    (s.enlist (recordFromRequest req) position).records[id]? =
      if req.id = id then some (recordFromRequest req) else s.records[id]? :=
  get_insert _ _ _ _

def mergedRecord (request : OperationRequest) (existingId : OperationId) : OperationRecord :=
  { recordFromRequest request with
    state := .merged, completedAtNs := some request.createdAtNs, mergedInto := some existingId }

theorem run_mergeRequest (req : OperationRequest) (decision : OperationConflictDecision)
    (existingId : OperationId) :
    (mergeRequest req decision existingId).run s =
      (.ok { returnedOperationId := existingId, storedOperationId := req.id, decision,
             events := [.requested (recordFromRequest req),
               .new (mergedRecord req existingId) (.merged existingId)] },
        s.revise req.id (mergedRecord req existingId)) := by
  unfold mergeRequest
  simp only [run_mergeInto (recordFromRequest req) existingId rfl]
  rfl

theorem run_ensureUnusedId_bind {α : Type} (next : Unit → Mutator α) :
    (ensureUnusedId id >>= next).run s =
      if s.records[id]? = none then (next ()).run s else (.error (.duplicateOperationId id), s) := by
  unfold ensureUnusedId
  rw [run_bind, run_fetch_bind, Std.ExtTreeMap.contains_eq_isSome_getElem?]
  cases s.records[id]? <;> rfl

/-- What an accepted request has made of the store `s`, by the decision taken. -/
inductive Applied (s : OperationStore) (request : OperationRequest) :
    OperationConflictDecision → OperationStore → Prop
  | createNew : Applied s request .createNew (s.enlist (recordFromRequest request) .back)
  | queueNew :
      Applied s request .queueNew
        ((s.enlist (recordFromRequest request) .back).queueBehind request.id
          ((s.currentForService request.service).map (·.id)))
  | merged (existingId : OperationId) :
      Applied s request (.mergeIntoExisting existingId)
        (s.revise request.id (mergedRecord request existingId))
  | cancelled (existingId : OperationId) (r : OperationRecord)
      (known : s.records[existingId]? = some r) (live : r.state.isTerminal = false) :
      Applied s request (.cancelExistingThenCreate existingId)
        ((s.retire existingId
          (r.ended .cancelled request.createdAtNs "superseded_by_later_operation")).enlist
            (recordFromRequest request) .front)
  | aborted (existingId : OperationId) (r : OperationRecord)
      (known : s.records[existingId]? = some r) (live : r.state.isTerminal = false) :
      Applied s request (.abortExistingThenCreate existingId)
        ((s.retire existingId
          (r.ended .aborted request.createdAtNs "superseded_by_later_operation")).enlist
            (recordFromRequest request) .front)
  | requeued (existingId : OperationId) (r : OperationRecord) (enlisted : OperationStore)
      (known : s.records[existingId]? = some r) (live : r.state.isTerminal = false)
      (stored : enlisted = (s.retire existingId
        (r.ended .cancelled request.createdAtNs "superseded_by_restart")).enlist
          (recordFromRequest request) .back) :
      Applied s request (.cancelExistingThenQueue existingId)
        (enlisted.queueBehind request.id
          (((enlisted.currentForService request.service).map (·.id)).filter (· ≠ request.id)))

def ExistingTermination.final : ExistingTermination → OperationState
  | .cancel _ => .cancelled
  | .abort _ => .aborted

def ExistingTermination.reason : ExistingTermination → String
  | .cancel reason | .abort reason => reason

theorem terminateExisting_retires (doneNs : ℕ) (termination : ExistingTermination) :
    Retires (terminateExisting id doneNs termination) id termination.final doneNs termination.reason := by
  cases termination with
  | cancel reason => exact cancelOperation_retires doneNs reason
  | abort reason => exact abortOperation_retires doneNs reason

theorem replaceExisting_cases (req : OperationRequest) (decision : OperationConflictDecision)
    (existingId : OperationId) (termination : ExistingTermination) (position : InsertPosition)
    (s : OperationStore) :
    (∃ r outcome, s.records[existingId]? = some r ∧ r.state.isTerminal = false ∧
      outcome.storedOperationId = req.id ∧
      (replaceExisting req decision existingId termination position).run s =
        (.ok outcome, (s.retire existingId
          (r.ended termination.final req.createdAtNs termination.reason)).enlist
            (recordFromRequest req) position)) ∨
    ∃ e, (replaceExisting req decision existingId termination position).run s = (.error e, s) := by
  rcases terminateExisting_retires req.createdAtNs termination s with
    ⟨r, event, known, live, _, run⟩ | ⟨e, run⟩
  · exact .inl ⟨r, _, known, live, rfl, (run_bind_of_ok run).trans rfl⟩
  · exact .inr ⟨e, run_bind_of_error run⟩

theorem applyDecision_cases (req : OperationRequest) (decision : OperationConflictDecision)
    (s : OperationStore) :
    (∃ outcome t, Applied s req decision t ∧ (s.applyDecision req decision).run s = (.ok outcome, t)) ∨
    ∃ e, (s.applyDecision req decision).run s = (.error e, s) := by
  cases decision with
  | createNew => exact .inl ⟨_, _, .createNew, rfl⟩
  | queueNew => exact .inl ⟨_, _, .queueNew, rfl⟩
  | mergeIntoExisting existingId =>
    exact .inl ⟨_, _, .merged existingId, run_mergeRequest req _ existingId⟩
  | cancelExistingThenCreate existingId =>
    rcases replaceExisting_cases req _ existingId (.cancel _) .front s with
      ⟨r, outcome, known, live, _, run⟩ | refused
    · exact .inl ⟨outcome, _, .cancelled existingId r known live, run⟩
    · exact .inr refused
  | abortExistingThenCreate existingId =>
    rcases replaceExisting_cases req _ existingId (.abort _) .front s with
      ⟨r, outcome, known, live, _, run⟩ | refused
    · exact .inl ⟨outcome, _, .aborted existingId r known live, run⟩
    · exact .inr refused
  | cancelExistingThenQueue existingId =>
    rcases replaceExisting_cases req (.cancelExistingThenQueue existingId) existingId
      (.cancel "superseded_by_restart") .back s with ⟨r, outcome, known, live, stored, run⟩ | ⟨e, run⟩
    · refine .inl ⟨outcome, _, .requeued existingId r _ known live rfl, ?_⟩
      unfold applyDecision
      rw [run_bind_of_ok run, run_fetch_bind, stored, enlist_records, get_insert,
        if_pos (recordFromRequest_id req)]
      rfl
    · exact .inr ⟨e, run_bind_of_error run⟩
  | reject rejection => exact .inr ⟨_, rfl⟩

theorem requestOperation_cases (req : OperationRequest) (s : OperationStore) :
    (∃ decision outcome t, s.records[req.id]? = none ∧
      s.resolveRequest req = .ok decision ∧ Applied s req decision t ∧
      (requestOperation req).run s = (.ok outcome, t)) ∨
    ∃ e, (requestOperation req).run s = (.error e, s) := by
  unfold requestOperation
  rw [run_ensureUnusedId_bind]
  split_ifs with unused
  · rw [run_fetch_bind]
    cases resolved : s.resolveRequest req with
    | error e => exact .inr ⟨e, rfl⟩
    | ok decision =>
      rcases applyDecision_cases req decision s with ⟨outcome, t, applied, run⟩ | refused
      · exact .inl ⟨decision, outcome, t, unused, rfl, applied, run⟩
      · exact .inr refused
  · exact .inr ⟨_, rfl⟩

theorem mergeRequestInto_cases (req : OperationRequest) (existingId : OperationId) (s : OperationStore) :
    (∃ r outcome, s.records[req.id]? = none ∧ s.records[existingId]? = some r ∧
      r.state.isTerminal = false ∧
      (mergeRequestInto req existingId).run s =
        (.ok outcome, s.revise req.id (mergedRecord req existingId))) ∨
    ∃ e, (mergeRequestInto req existingId).run s = (.error e, s) := by
  unfold mergeRequestInto
  rw [run_ensureUnusedId_bind]
  split_ifs with unused
  · rw [run_fetch_bind]
    cases known : s.records[existingId]? with
    | none => exact .inr ⟨_, rfl⟩
    | some r =>
      cases live : r.state.isTerminal with
      | true => exact .inr ⟨_, by simp only [live]; rfl⟩
      | false =>
        refine .inl ⟨r, ?_⟩
        simp only [live]
        exact ⟨_, unused, trivial, trivial, run_mergeRequest req _ existingId⟩
  · exact .inr ⟨_, rfl⟩

theorem observeShutdownStop_cases (id : OperationId) (svc : String) (createdAtNs : ℕ)
    (s : OperationStore) :
    (∃ outcome, s.records[id]? = none ∧
      (observeShutdownStop id svc createdAtNs).run s =
        (.ok outcome, s.enlist (.new id .stop svc .shutdown none createdAtNs) .back)) ∨
    ∃ e, (observeShutdownStop id svc createdAtNs).run s = (.error e, s) := by
  unfold observeShutdownStop
  rw [run_ensureUnusedId_bind]
  split_ifs with unused
  · exact .inl ⟨_, unused, rfl⟩
  · exact .inr ⟨_, rfl⟩

/-! ## Retention -/

def purgeable (cutoffNs : ℕ) (r : OperationRecord) : Bool :=
  r.state.isTerminal && r.completedAtNs.any (· ≤ cutoffNs)

/-- The store without the records a purge at `cutoffNs` drops. -/
def purged (self : OperationStore) (cutoffNs : ℕ) : OperationStore :=
  { self with records := self.records.filter fun _ r => !purgeable cutoffNs r }

theorem run_purgeTerminalCompletedAtOrBefore (cutoffNs : ℕ) (s : OperationStore) :
    ∃ ids, (purgeTerminalCompletedAtOrBefore cutoffNs).run s = (.ok ids, s.purged cutoffNs) := by
  refine ⟨_, Prod.ext rfl ?_⟩
  refine congrArg (fun records => { s with records }) (Std.ExtTreeMap.ext_getElem? fun id => ?_)
  rw [get_foldl_erase, get_filter]
  trans if ∃ r, s.records[id]? = some r ∧ purgeable cutoffNs r = true then none else s.records[id]?
  · refine if_congr ?_ rfl rfl
    simp [purgeable]
  cases s.records[id]? with
  | none => simp
  | some r => cases h : purgeable cutoffNs r <;> simp [h, Option.filter]

theorem run_purgeTerminalRetainedUntil (nowNs retentionNs : ℕ) (s : OperationStore) :
    ∃ ids, (purgeTerminalRetainedUntil nowNs retentionNs).run s =
      (.ok ids, if nowNs < retentionNs then s else s.purged (nowNs - retentionNs)) := by
  unfold purgeTerminalRetainedUntil
  split_ifs
  · exact ⟨[], rfl⟩
  · exact run_purgeTerminalCompletedAtOrBefore _ s

/-! ## Failures -/

theorem atomic_of_retires {m : Mutator OperationEvent} {final : OperationState}
    (retires : Retires m id final completedAtNs result) : Atomic m :=
  atomic_of_cases fun s => (retires s).imp_left fun ⟨_, event, _, _, _, run⟩ => ⟨event, _, run⟩

/-- A mutator that fails leaves the store as it was, whatever store it was called on. -/
theorem mutators_atomic : (∀ request, Atomic (requestOperation request)) ∧
    (∀ request existingId, Atomic (mergeRequestInto request existingId)) ∧
    (∀ id startedAtNs, Atomic (startOperation id startedAtNs)) ∧
    (∀ id completedAtNs result, Atomic (completeOperation id completedAtNs result)) ∧
    (∀ id completedAtNs reason, Atomic (failOperation id completedAtNs reason)) ∧
    (∀ id completedAtNs reason, Atomic (cancelOperation id completedAtNs reason)) ∧
    (∀ id completedAtNs reason, Atomic (abortOperation id completedAtNs reason)) := by
  refine ⟨fun request => ?_, fun request existingId => ?_, fun id startedAtNs => ?_,
    fun id at_ text => atomic_of_retires (completeOperation_retires at_ text),
    fun id at_ text => atomic_of_retires (failOperation_retires at_ text),
    fun id at_ text => atomic_of_retires (cancelOperation_retires at_ text),
    fun id at_ text => atomic_of_retires (abortOperation_retires at_ text)⟩
  · exact atomic_of_cases fun s => (requestOperation_cases request s).imp_left
      fun ⟨_, outcome, t, _, _, _, run⟩ => ⟨outcome, t, run⟩
  · exact atomic_of_cases fun s => (mergeRequestInto_cases request existingId s).imp_left
      fun ⟨_, outcome, _, _, _, run⟩ => ⟨outcome, _, run⟩
  · exact atomic_of_cases fun s => (startOperation_revises id startedAtNs s).imp_left
      fun ⟨_, event, _, _, run⟩ => ⟨event, _, run⟩

end Peinit.OperationStore
