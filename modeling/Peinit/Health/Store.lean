import Peinit.Job.Store
import Peinit.Lib.FixedWidth

/-!
# The health checks that are scheduled

For each service whose checks are scheduled there is a record: when the next check is due, and the check
that is under way. The timeout of a check stands there and nowhere else.
-/

namespace Peinit

structure RunningHealthCheckInvocation where
  jobId : JobId
  healthCgroupId : String
  timeoutDueAtNs : ℕ
  deriving DecidableEq

inductive HealthCheckInvocation where
  | pending (jobId : JobId) (healthCgroupId : String)
  | running (check : RunningHealthCheckInvocation)
  deriving DecidableEq

def HealthCheckInvocation.jobId : HealthCheckInvocation → JobId
  | .pending jobId _ => jobId
  | .running check => check.jobId

structure HealthCheckRecord where
  service : String
  activationGeneration : ℕ
  cgroupGeneration : ℕ
  nextIntervalDueAtNs : ℕ
  invocation : Option HealthCheckInvocation := none
  deriving DecidableEq

structure HealthCheckIntervalDeadline where
  service : String
  activationGeneration : ℕ
  cgroupGeneration : ℕ
  dueAtNs : ℕ
  deriving DecidableEq

structure HealthCheckTimeoutDeadline where
  service : String
  activationGeneration : ℕ
  cgroupGeneration : ℕ
  jobId : JobId
  healthCgroupId : String
  dueAtNs : ℕ
  deriving DecidableEq

structure HealthCheckStore where
  records : OrdMap String HealthCheckRecord := ∅

namespace HealthCheckStore

variable (health : HealthCheckStore)

/-- The check under way is kept if it is of the same activation and in the same cgroup tree. -/
def scheduleInterval (service : String) (activationGeneration cgroupGeneration dueAtNs : ℕ) :
    HealthCheckStore where
  records := health.records.insert service
    { service, activationGeneration, cgroupGeneration
      nextIntervalDueAtNs := dueAtNs
      invocation := (health.records[service]?.filter fun record =>
        record.activationGeneration = activationGeneration ∧
          record.cgroupGeneration = cgroupGeneration).bind (·.invocation) }

def cancelService (service : String) : HealthCheckStore where
  records := health.records.erase service

def hasInvocation (service : String) (activationGeneration : ℕ) : Bool :=
  health.records[service]?.any fun record =>
    record.activationGeneration = activationGeneration && record.invocation.isSome

/-- Put the check under way into the record of `service`. -/
def setInvocation (service : String) (invocation : Option HealthCheckInvocation) : HealthCheckStore :=
  match health.records[service]? with
  | none => health
  | some record => ⟨health.records.insert service { record with invocation }⟩

/-- Nothing is recorded if the activation has ended or a check is under way. -/
def recordPendingInvocation (service : String) (activationGeneration : ℕ) (jobId : JobId)
    (healthCgroupId : String) : HealthCheckStore :=
  match health.records[service]? with
  | none => health
  | some record =>
    if record.activationGeneration ≠ activationGeneration ∨ record.invocation.isSome then health
    else health.setInvocation service (some (.pending jobId healthCgroupId))

/-- The first record, in the order of the services, whose check is the job. -/
def serviceByJob (jobId : JobId) : Option (String × HealthCheckInvocation) :=
  health.records.toList.findSome? fun (service, record) =>
    match record.invocation with
    | some invocation => if invocation.jobId = jobId then some (service, invocation) else none
    | none => none

/-- A check that was running already is forgotten. -/
def markInvocationRunning (jobId : JobId) (timeoutDueAtNs : ℕ) : HealthCheckStore :=
  match health.serviceByJob jobId with
  | none => health
  | some (service, .pending jobId healthCgroupId) =>
    health.setInvocation service (some (.running { jobId, healthCgroupId, timeoutDueAtNs }))
  | some (service, .running _) => health.setInvocation service none

/-- The store without the check, and whether it was there. -/
def removeInvocation (jobId : JobId) : HealthCheckStore × Bool :=
  match health.serviceByJob jobId with
  | none => (health, false)
  | some (service, _) => (health.setInvocation service none, true)

def intervalDeadlines : List HealthCheckIntervalDeadline :=
  health.records.values.map fun record =>
    { service := record.service
      activationGeneration := record.activationGeneration
      cgroupGeneration := record.cgroupGeneration
      dueAtNs := record.nextIntervalDueAtNs }

def dueIntervalDeadlines (nowNs : ℕ) : List HealthCheckIntervalDeadline :=
  health.intervalDeadlines.filter (·.dueAtNs ≤ nowNs)

def timeoutDeadlines : List HealthCheckTimeoutDeadline :=
  health.records.values.filterMap fun record =>
    match record.invocation with
    | some (.running check) => some
        { service := record.service
          activationGeneration := record.activationGeneration
          cgroupGeneration := record.cgroupGeneration
          jobId := check.jobId
          healthCgroupId := check.healthCgroupId
          dueAtNs := check.timeoutDueAtNs }
    | _ => none

def dueTimeoutDeadlines (nowNs : ℕ) : List HealthCheckTimeoutDeadline :=
  health.timeoutDeadlines.filter (·.dueAtNs ≤ nowNs)

end HealthCheckStore

end Peinit
