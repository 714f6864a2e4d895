import Peinit.Operation.Queue
import Peinit.Service.State

/-!
# Promotion of queued operations

When the operation a queued one waits for has ended, the queued one is admitted afresh against the state
its service is in now. That state and the outcome of planning and dispatching a start are given.

A start whose service is still stopping is requeued behind the head of its list. It is the head, so it
comes to wait for an operation that stands behind it, or for nothing.
-/

namespace Peinit

open Fallible OperationStore

inductive PromotedOperationOutcome where
  | controlBoundary | startPlan | deferred | completed | failed
  deriving DecidableEq

inductive PromotionError where
  | operationStore (error : OperationStoreError)
  /-- The start could not be planned, dispatched or gated. -/
  | lifecycle
  deriving DecidableEq

/-- What the start plan of a promoted operation came to. -/
inductive QueuedStart where
  /-- Its definition did not pass validation. -/
  | refused (findings : String)
  /-- It was dispatched, by these calls of the store. -/
  | dispatched (calls : List StoreCall)
  deriving DecidableEq

/-- What promotion finds outside the store when it comes to an operation. -/
structure Surroundings where
  state : Option ServiceState
  start : Except PromotionError QueuedStart

def OperationType.debug : OperationType → String
  | .start => "Start"
  | .stop => "Stop"
  | .restart => "Restart"
  | .reload => "Reload"
  | .reset => "Reset"

def ServiceState.debug : ServiceState → String
  | .inactive => "Inactive"
  | .starting => "Starting"
  | .active => "Active"
  | .reloading => "Reloading"
  | .stopping => "Stopping"
  | .completed => "Completed"
  | .backoff => "Backoff"
  | .failed => "Failed"
  | .abandoned => "Abandoned"
  | .skipped => "Skipped"

/-- What is to be done with a promoted operation. -/
inductive PromotionAction where
  /-- Hand it to the control boundary: it acts on the service's process. -/
  | handOver
  /-- Plan the start it stands for. -/
  | planStart
  /-- Leave it to the backoff deadline. -/
  | leave
  /-- Queue it again. -/
  | requeue
  | complete (result : String)
  | fail (reason : String)
  deriving DecidableEq

def promotionAction (operationType : OperationType) (state : Option ServiceState) :
    PromotionAction :=
  match operationType, state with
  | .stop, some .active | .stop, some .reloading | .stop, some .starting | .stop, some .stopping
  | .restart, some .active | .restart, some .reloading | .restart, some .starting
  | .restart, some .stopping | .reload, some .active | .reload, some .reloading
  | .reload, some .starting | .reload, some .stopping => .handOver
  | .start, some .inactive | .start, some .completed | .start, some .failed | .start, some .skipped
  | .restart, some .inactive | .restart, some .completed | .restart, some .failed
  | .restart, some .skipped => .planStart
  | .start, some .backoff | .restart, some .backoff => .leave
  | .stop, some .inactive | .stop, some .completed | .stop, some .failed | .stop, some .skipped
  | .stop, some .backoff => .complete "inactive"
  | .start, some .active | .start, some .reloading | .start, some .starting => .complete "active"
  | .start, some .stopping => .requeue
  | operationType, some state =>
    .fail ("invalid_state: " ++ operationType.debug ++ " is not admitted while the service is " ++
      state.debug)
  | _, none => .fail "unknown_service: the service is no longer defined"

/-- A step of promotion on the operation store. -/
abbrev Promotion (α : Type) : Type := Fallible OperationStore PromotionError α

def promoteFail (id : OperationId) (nowNs : ℕ) (reason : String) :
    Promotion PromotedOperationOutcome := do
  let _ ← mapError .operationStore (failOperation id nowNs reason)
  return .failed

def promoteOne (found : Surroundings) (operation : OperationRecord) (nowNs : ℕ) :
    Promotion PromotedOperationOutcome :=
  match promotionAction operation.operationType found.state with
  | .handOver => return .controlBoundary
  | .planStart =>
    match found.start with
    | .error error => raise error
    | .ok (.refused findings) =>
      promoteFail operation.id nowNs ("invalid_state: start definition validation failed: " ++ findings)
    | .ok (.dispatched calls) => do
      update (runCalls perform · calls)
      return .startPlan
  | .leave => return .deferred
  | .requeue => do
    update (·.requeueBehindHead operation.id)
    return .deferred
  | .complete result => do
    let _ ← mapError .operationStore (completeOperation operation.id nowNs result)
    return .completed
  | .fail reason => promoteFail operation.id nowNs reason

/-- One round of the promotion loop. -/
def promote (found : Surroundings) (operation : OperationRecord) (nowNs : ℕ) :
    Promotion PromotedOperationOutcome := do
  update (·.clearQueuedBehind operation.id)
  promoteOne found operation nowNs

def promoteAll (found : OperationRecord → Surroundings) (nowNs : ℕ) :
    List OperationRecord → Promotion (List PromotedOperationOutcome)
  | [] => return []
  | operation :: ready => do
    let outcome ← promote (found operation) operation nowNs
    let outcomes ← promoteAll found nowNs ready
    return outcome :: outcomes

/-- Admit every queued operation whose predecessor has finished.  The loop works on a copy of the
store that is committed only when all of it succeeded. -/
def promoteQueuedOperations (found : OperationRecord → Surroundings) (nowNs : ℕ) :
    Promotion (List PromotedOperationOutcome) where
  run self :=
    match (promoteAll found nowNs self.readyQueuedOperations).run self with
    | (.ok outcomes, work) => (.ok outcomes, work)
    | (.error error, _) => (.error error, self)

/-! ## Promotion as calls of the store -/

variable {s t : OperationStore} {found : Surroundings} {operation : OperationRecord} {nowNs : ℕ}
  {outcome : PromotedOperationOutcome}

theorem promotionAction_requeue (operationType : OperationType) (state : Option ServiceState) :
    promotionAction operationType state = .requeue ↔ operationType = .start ∧ state = some .stopping := by
  cases operationType <;> rcases state with _ | state <;> try cases state
  all_goals simp [promotionAction]

theorem run_discarded {m : Mutator OperationEvent} {answer : PromotedOperationOutcome}
    (run : (do let _ ← mapError PromotionError.operationStore m; return answer : Promotion _).run s =
      (.ok outcome, t)) : t = (m.run s).2 := by
  obtain ⟨event, u, ran, last⟩ := run_bind_eq_ok.mp run
  cases last
  rw [run_mapError_eq_ok.mp ran]

/-- What the callers keep to when an operation is promoted: a start is not requeued from the head of
its list, and the calls that dispatch a start keep to the discipline of the queue. -/
def PromotionDiscipline (s : OperationStore) (found : Surroundings) (operation : OperationRecord) :
    Prop :=
  (operation.operationType = .start → found.state = some .stopping →
    QueueDiscipline s (.requeueBehindHead operation.id)) ∧
  ∀ calls, found.start = .ok (.dispatched calls) →
    Admissible perform QueueDiscipline (s.clearQueuedBehind operation.id) calls

theorem promote_calls (run : (promote found operation nowNs).run s = (.ok outcome, t)) :
    ∃ calls, t = runCalls perform s (.clearQueuedBehind operation.id :: calls) ∧
      (PromotionDiscipline s found operation →
        Admissible perform QueueDiscipline s (.clearQueuedBehind operation.id :: calls)) := by
  unfold promote promoteOne at run
  cases action : promotionAction operation.operationType found.state with
  | planStart =>
    rw [action] at run
    cases planned : found.start with
    | error error =>
      rw [planned] at run
      cases run
    | ok start =>
      rw [planned] at run
      cases start with
      | refused findings =>
        exact ⟨[.failOperation operation.id nowNs _], run_discarded run,
          fun _ => ⟨trivial, trivial, trivial⟩⟩
      | dispatched calls =>
        cases run
        exact ⟨calls, rfl, fun discipline => ⟨trivial, discipline.2 calls planned⟩⟩
  | requeue =>
    rw [action] at run
    cases run
    obtain ⟨start, stopping⟩ := (promotionAction_requeue _ _).mp action
    exact ⟨[.requeueBehindHead operation.id], rfl,
      fun discipline => ⟨trivial, discipline.1 start stopping, trivial⟩⟩
  | complete result =>
    rw [action] at run
    exact ⟨[.completeOperation operation.id nowNs result], run_discarded run,
      fun _ => ⟨trivial, trivial, trivial⟩⟩
  | fail reason =>
    rw [action] at run
    exact ⟨[.failOperation operation.id nowNs reason], run_discarded run,
      fun _ => ⟨trivial, trivial, trivial⟩⟩
  | _ =>
    rw [action] at run
    cases run
    exact ⟨[], rfl, fun _ => ⟨trivial, trivial⟩⟩

/-! ## Runs with promotions -/

/-- A step of the queue's life: a call of the store, or the promotion of one operation. -/
inductive QueueStep where
  | call (call : StoreCall)
  | promote (found : Surroundings) (operation : OperationRecord) (nowNs : ℕ)

/-- The store after a step; a promotion that fails is not committed. -/
def performStep (s : OperationStore) : QueueStep → OperationStore
  | .call call => s.perform call
  | .promote found operation nowNs =>
    match (promote found operation nowNs).run s with
    | (.ok _, work) => work
    | (.error _, _) => s

def StepDiscipline (s : OperationStore) : QueueStep → Prop
  | .call call => QueueDiscipline s call
  | .promote found operation _ => PromotionDiscipline s found operation

/-- A step makes calls of the store, which keep the discipline if the step does. -/
theorem performStep_calls (s : OperationStore) (step : QueueStep) :
    ∃ calls, performStep s step = runCalls perform s calls ∧
      (StepDiscipline s step → Admissible perform QueueDiscipline s calls) := by
  cases step with
  | call call => exact ⟨[call], rfl, fun kept => ⟨kept, trivial⟩⟩
  | promote found operation nowNs =>
    rcases run : (promote found operation nowNs).run s with ⟨_ | outcome, t⟩ <;>
      simp only [performStep, run]
    · exact ⟨[], rfl, fun _ => trivial⟩
    · obtain ⟨calls, rfl, disciplined⟩ := promote_calls run
      exact ⟨_, rfl, disciplined⟩

theorem promoteAll_run {got : OperationRecord → Surroundings} {ready : List OperationRecord}
    {outcomes : List PromotedOperationOutcome}
    (run : (promoteAll got nowNs ready).run s = (.ok outcomes, t)) :
    t = runCalls performStep s (ready.map fun operation => .promote (got operation) operation nowNs) := by
  induction ready generalizing s outcomes with
  | nil =>
    cases run
    rfl
  | cons operation ready ih =>
    obtain ⟨outcome, u, first, rest⟩ := run_bind_eq_ok.mp run
    obtain ⟨later, v, rest, last⟩ := run_bind_eq_ok.mp rest
    cases last
    have step : performStep s (.promote (got operation) operation nowNs) = u := by
      simp only [performStep, first]
    rw [List.map_cons, runCalls, List.foldl_cons, step]
    exact ih rest

theorem queueOrdered_run (steps : List QueueStep)
    (discipline : Admissible performStep StepDiscipline new steps) :
    Indexed (runCalls performStep new steps) ∧ QueueOrdered (runCalls performStep new steps) := by
  refine invariant_of_step (fun s => Indexed s ∧ QueueOrdered s) ?_ steps
    ⟨indexed_new, by simp [new], by simp [new]⟩ discipline
  intro s step inv kept
  obtain ⟨calls, is, disciplined⟩ := performStep_calls s step
  rw [is]
  exact invariant_of_step (fun s => Indexed s ∧ QueueOrdered s)
    (fun s call inv discipline => ⟨inv.1.effect (perform_effect s call),
      inv.2.effect inv.1 (perform_effect s call) discipline⟩)
    calls inv (disciplined kept)

theorem indexed_performStep (s : OperationStore) (step : QueueStep) (indexed : Indexed s) :
    Indexed (performStep s step) := by
  obtain ⟨calls, is, -⟩ := performStep_calls s step
  rw [is]
  exact invariant_of_calls Indexed (fun s call indexed => indexed.effect (perform_effect s call))
    calls indexed

/-- Whatever a pass finds and plans, and also if it fails, it leaves the active lists exact. -/
theorem promotion_pass_keeps_lists (steps : List QueueStep) (found : OperationRecord → Surroundings)
    (nowNs : ℕ) :
    Indexed ((promoteQueuedOperations found nowNs).run (runCalls performStep new steps)).2 := by
  have idx := invariant_of_calls Indexed indexed_performStep steps indexed_new
  generalize runCalls performStep new steps = s at idx
  rcases pass : (promoteAll found nowNs s.readyQueuedOperations).run s with ⟨error | outcomes, t⟩
  · simpa only [promoteQueuedOperations, pass] using idx
  · simp only [promoteQueuedOperations, pass]
    rw [promoteAll_run pass]
    exact invariant_of_calls Indexed indexed_performStep _ idx

/-- The operation waits for a live operation that stands before it in the list of its service. -/
def WaitsInOrder (s : OperationStore) (operation : OperationRecord) : Prop :=
  ∃ (behind : OperationId) (live : OperationRecord), s.queuedBehind[operation.id]? = some behind ∧
    s.records[behind]? = some live ∧ live.state.isTerminal = false ∧
    [behind, operation.id].Sublist (s.activeForService operation.service)

theorem promote_stopping (idx : Indexed s) (known : s.records[operation.id]? = some operation)
    (pending : operation.state = .pending) (start : operation.operationType = .start)
    (stopping : found.state = some .stopping) (nowNs : ℕ) :
    ∃ t, (promote found operation nowNs).run s = (.ok .deferred, t) ∧
      (WaitsInOrder t operation ↔ (s.activeForService operation.service).head? ≠ some operation.id) := by
  have action := (promotionAction_requeue operation.operationType found.state).mpr ⟨start, stopping⟩
  refine ⟨(s.clearQueuedBehind operation.id).requeueBehindHead operation.id, ?_, ?_⟩
  · unfold promote promoteOne
    rw [action]
    rfl
  · have requeued : (s.clearQueuedBehind operation.id).requeueBehindHead operation.id =
        (s.clearQueuedBehind operation.id).queueBehind operation.id
          ((s.activeForService operation.service).find? fun active => active ≠ operation.id) := by
      simp only [requeueBehindHead, show (s.clearQueuedBehind operation.id).records[operation.id]? =
        some operation from known]
      rfl
    have active : operation.id ∈ s.activeForService operation.service :=
      idx.mem_active.mpr ⟨operation, known, rfl, by simp [pending]⟩
    rw [requeued, WaitsInOrder, queueBehind_records, queueBehind_activeForService]
    constructor
    · rintro ⟨behind, live, _, _, _, before⟩ head
      exact not_sublist_head (idx.nodup _) head before
    · intro notHead
      obtain ⟨behind, found⟩ : ∃ behind, ((s.activeForService operation.service).find?
          fun active => active ≠ operation.id) = some behind := by
        cases list : s.activeForService operation.service with
        | nil => simp [list] at active
        | cons first rest =>
          refine ⟨first, List.find?_cons_of_pos ?_⟩
          simp only [list] at notHead
          simpa using notHead
      obtain ⟨live, knownLive, _, unended⟩ := idx.mem_active.mp (List.mem_of_find?_eq_some found)
      refine ⟨behind, live, ?_, knownLive, unended, sublist_of_find active notHead found⟩
      rw [found]
      exact (OrdMap.get_insert _ _ _ _).trans (if_pos rfl)

/-- In every run of calls and promotions that keeps the discipline, no head of a list waits for a
live operation, and a service whose active operations are all queued has one that is ready.  A start
that promotion defers because its service is stopping waits for a live operation before it exactly if
it was not the head of its list. -/
theorem queue_never_stuck (steps : List QueueStep)
    (discipline : Admissible performStep StepDiscipline new steps) :
    let s := runCalls performStep new steps
    (∀ service id, (s.activeForService service).head? = some id → s.isQueuedBehindLive id = false) ∧
    (∀ service, s.activeForService service ≠ [] →
      (∀ id ∈ s.activeForService service, ∃ behind : OperationId, s.queuedBehind[id]? = some behind) →
      ∃ r ∈ s.readyQueuedOperations, r.service = service) ∧
    (∀ (found : Surroundings) (operation : OperationRecord) (nowNs : ℕ),
      s.records[operation.id]? = some operation → operation.state = .pending →
      operation.operationType = .start → found.state = some .stopping →
      ∃ t, (promote found operation nowNs).run s = (.ok .deferred, t) ∧
        (WaitsInOrder t operation ↔
          (s.activeForService operation.service).head? ≠ some operation.id)) := by
  obtain ⟨indexed, ordered⟩ := queueOrdered_run steps discipline
  exact ⟨fun service id => ordered.head_not_waiting indexed,
    fun service => ordered.ready_of_all_queued indexed,
    fun found operation nowNs known pending start stopping =>
      promote_stopping indexed known pending start stopping nowNs⟩

/-- A start queued behind a stop that then completes. -/
def startAfterStop : List QueueStep := [.call (.requestOperation ⟨⟨1⟩, .stop, "web", .admin, none, 10⟩),
    .call (.requestOperation ⟨⟨2⟩, .start, "web", .admin, none, 20⟩),
    .call (.completeOperation ⟨1⟩ 30 "inactive")]

theorem queue_never_stuck_startAfterStop :
    ∃ r ∈ (runCalls performStep new startAfterStop).readyQueuedOperations, r.service = "web" := by
  have discipline : Admissible performStep StepDiscipline new startAfterStop :=
    ⟨OrdMap.get_ne_some (by decide +kernel), OrdMap.get_ne_some (by decide +kernel), trivial, trivial⟩
  have list : (runCalls performStep new startAfterStop).activeForService "web" = [⟨2⟩] := by
    decide +kernel
  refine (queue_never_stuck startAfterStop discipline).2.1 "web" (by simp [list]) fun id active => ?_
  rw [list, List.mem_singleton] at active
  exact ⟨⟨1⟩, by rw [active]; decide +kernel⟩

/-- A stop that a start and a restart are queued behind fails while its service is still stopping;
then the start is promoted. -/
def promotedWhileStopping : List QueueStep :=
  [.call (.requestOperation ⟨⟨1⟩, .stop, "web", .admin, none, 10⟩),
    .call (.requestOperation ⟨⟨2⟩, .start, "web", .admin, none, 20⟩),
    .call (.requestOperation ⟨⟨3⟩, .restart, "web", .admin, none, 30⟩),
    .call (.failOperation ⟨1⟩ 40 "internal error"),
    .promote ⟨some .stopping, .error .lifecycle⟩ (.new ⟨2⟩ .start "web" .admin none 20) 50]

/-- The start was ready; it now heads its list and waits for the live restart behind it, which waits
for an operation that has ended, and nothing is ready. -/
theorem promoted_while_stopping_strands_start :
    OperationRecord.new ⟨2⟩ .start "web" .admin none 20 ∈
      (runCalls performStep new (promotedWhileStopping.take 4)).readyQueuedOperations ∧
    (runCalls performStep new promotedWhileStopping).activeForService "web" = [⟨2⟩, ⟨3⟩] ∧
    (runCalls performStep new promotedWhileStopping).isQueuedBehindLive ⟨2⟩ = true ∧
    (runCalls performStep new promotedWhileStopping).queuedBehind.toList = [(⟨2⟩, ⟨3⟩), (⟨3⟩, ⟨1⟩)] ∧
    (runCalls performStep new promotedWhileStopping).readyQueuedOperations = [] := by
  decide +kernel

end Peinit
