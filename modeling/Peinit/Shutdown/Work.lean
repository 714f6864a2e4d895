import Peinit.Ids
import Peinit.Shutdown.Plan
import Peinit.Submitted.Store

/-!
# The supervisor's work during a shutdown

A step works on a copy of the stores and keeps it only if everything succeeded. The process controller
is taken to succeed, and its answers are given to a step. For each service that a shutdown stops an
operation observes it: requested when the shutdown begins, started with its wave, ended when the
service is down. `signals` is kept for the statements: what each participant was asked to stop in.
-/

namespace Peinit

/-- A participant whose stop was begun, and the table it was begun in. -/
structure StopSignal where
  wave : ℕ
  service : String
  services : ServiceTable

structure ShutdownWork where
  services : ServiceTable
  operations : OperationStore
  operationIds : OperationIdAllocator := {}
  jobs : JobStore
  /-- By when the stop that an operation asked for has to be over. -/
  stopTimeouts : OrdMap OperationId ℕ := ∅
  submitted : SubmittedJobStore := .new
  pendingSubmittedLaunches : List JobId := []
  /-- The processes that are not set up yet, by the descriptor that will tell. -/
  pendingProcessSetups : OrdMap ℤ PendingLaunchSetup := ∅
  shutdown : Option ShutdownRuntime := none
  signals : List StopSignal := []

/-- What the process controller finds when it is asked. -/
structure ProcessAnswers where
  cgroupPopulated : String → Bool
  /-- Whether a cgroup cannot be removed yet. -/
  cgroupBusy : String → Bool

inductive SupervisorError where
  | shutdown (error : ShutdownError)
  | jobStore (error : JobStoreError)
  | submitted (error : SubmittedJobStoreError)
  | requestIdAllocation (error : IdAllocationError)
  deriving DecidableEq

namespace ShutdownWork

variable (work : ShutdownWork)

def onOperations {α : Type} (m : OperationStore.Mutator α) : Except ShutdownError ShutdownWork :=
  match m.run work.operations with
  | (.ok _, operations) => .ok { work with operations }
  | (.error e, _) => .error (.operationStore e)

def moveService (service : String) (transition : ServiceTransition) :
    Except ShutdownError ShutdownWork :=
  match work.services.transitionService service transition with
  | .ok (services, _) => .ok { work with services }
  | .error e => .error (.serviceTable e)

def finishJob (finish : JobStore → Except JobStoreError (JobStore × JobRecord)) :
    Except ShutdownError ShutdownWork :=
  match finish work.jobs with
  | .ok (jobs, _) => .ok { work with jobs }
  | .error e => .error (.jobStore e)

/-! ## Jobs of a service -/

/-- Collect the job if it is in the state asked for. -/
def collectInState (state : JobState) (matching : List JobId) (id : JobId) :
    Except ShutdownError (List JobId) :=
  match work.jobs.get id with
  | none => .error (.missingJobRecord id)
  | some job => .ok (if job.state = state then matching ++ [id] else matching)

def activeJobsInState (service : String) (state : JobState) : Except ShutdownError (List JobId) :=
  (work.jobs.activeForService service).foldlM (work.collectInState state) []

/-! ## The operations that observe the shutdown -/

/-- The operation by which the shutdown observes `service`. -/
def activeStop (service : String) : Option OperationId :=
  (work.operations.activeForService service).find? fun id =>
    (work.operations.records[id]?).any fun operation => operation.source = .shutdown

/-- Request the operation `observer.2` for the participant `observer.1`. -/
def observeStop (nowNs : ℕ) (observer : ShutdownStopParticipant × OperationId) :
    Except ShutdownError ShutdownWork :=
  work.onOperations (OperationStore.observeShutdownStop observer.2 observer.1.service nowNs)

def requestStops (plan : ShutdownPlan) (nowNs : ℕ) : Except SupervisorError ShutdownWork := do
  let (ids, operationIds) ← (work.operationIds.allocateBatch plan.participants.length nowNs).mapError
    SupervisorError.requestIdAllocation
  ((plan.participants.zip ids).foldlM (fun (work : ShutdownWork) => work.observeStop nowNs)
    { work with operationIds }).mapError .shutdown

/-- The operation may have expired since it was requested; the stop goes on without it. -/
def startStop (service : String) (nowNs : ℕ) : Except ShutdownError ShutdownWork :=
  match work.activeStop service with
  | some id =>
    if (work.operations.records[id]?).any fun operation => operation.state = .pending then
      work.onOperations (OperationStore.startOperation id nowNs)
    else .ok work
  | none => .ok work

def failStop (nowNs : ℕ) (reason : String) (service : String) : Except ShutdownError ShutdownWork :=
  match work.activeStop service with
  | some id => work.onOperations (OperationStore.failOperation id nowNs reason)
  | none => .ok work

/-- The live operations that observe the shutdown, with their services. -/
def observations : List (OperationId × String) :=
  ((work.operations.activeByService.values.flatten.filterMap fun id => work.operations.records[id]?)
    |>.filter (·.source = .shutdown)).map fun operation => (operation.id, operation.service)

/-- End the operation of a service that is down. -/
def settleObservation (nowNs : ℕ) (observation : OperationId × String) :
    Except ShutdownError ShutdownWork :=
  match work.services.stateOf observation.2 with
  | none | some .inactive | some .skipped =>
    work.onOperations (OperationStore.completeOperation observation.1 nowNs "inactive")
  | some .failed | some .abandoned =>
    work.onOperations (OperationStore.failOperation observation.1 nowNs "service failed during shutdown")
  | _ => .ok work

def settleStopped (nowNs : ℕ) : Except ShutdownError ShutdownWork :=
  work.observations.foldlM (fun (work : ShutdownWork) => work.settleObservation nowNs) work

end ShutdownWork

end Peinit
