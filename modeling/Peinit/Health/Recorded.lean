import Peinit.Health.Work
import Peinit.Service.Generations

/-!
# Checks and their records

The job of a check and its record are in two stores. `HealthInv` ties them together: a service has one
live check at most, and while it is active the check stands in its record. Every step is put together
from a few changes that keep it.
-/

namespace Peinit

variable {invocation : HealthCheckInvocation} {record : HealthCheckRecord} {state : JobState}
  {health : HealthCheckStore} {svc : String} {jobs : JobStore} {id : JobId}

namespace HealthCheckStore

variable {other : String} {jobId : JobId}

@[simp] theorem get_cancelService : (health.cancelService svc).records[other]? =
      if svc = other then none else health.records[other]? :=
  OrdMap.get_erase _ _ _

theorem get_scheduleInterval (gen cgroupGeneration dueAtNs : ℕ) :
    (health.scheduleInterval svc gen cgroupGeneration dueAtNs).records[other]? =
      if svc = other then some
        { service := svc, activationGeneration := gen, cgroupGeneration
          nextIntervalDueAtNs := dueAtNs
          invocation := (health.records[svc]?.filter fun record =>
            record.activationGeneration = gen ∧ record.cgroupGeneration = cgroupGeneration).bind
              (·.invocation) }
      else health.records[other]? :=
  OrdMap.get_insert _ _ _ _

theorem get_setInvocation (check : Option HealthCheckInvocation) :
    (health.setInvocation svc check).records[other]? =
      if svc = other then health.records[other]?.map fun record => { record with invocation := check }
      else health.records[other]? := by
  unfold setInvocation
  cases got : health.records[svc]? with
  | none =>
    split_ifs with here
    · subst here
      simp [got]
    · rfl
  | some record =>
    refine (OrdMap.get_insert _ _ _ _).trans ?_
    split_ifs with here
    · subst here
      simp [got]
    · rfl

theorem exists_serviceByJob
    (known : health.records[svc]? = some record) (held : record.invocation = some invocation) :
    ∃ got, health.serviceByJob invocation.jobId = some got := by
  have mem : (svc, record) ∈ health.records.toList := (OrdMap.mem_toList _ _ _).mpr known
  apply Option.isSome_iff_exists.mp
  refine List.findSome?_isSome_iff.mpr ⟨_, mem, ?_⟩
  simp [held]

theorem mem_timeoutDeadlines {check : RunningHealthCheckInvocation}
    (known : health.records[svc]? = some record)
    (held : record.invocation = some (.running check)) :
    ∃ due ∈ health.timeoutDeadlines, due.jobId = check.jobId := by
  refine ⟨⟨record.service, record.activationGeneration, record.cgroupGeneration, check.jobId,
    check.healthCgroupId, check.timeoutDueAtNs⟩, ?_, rfl⟩
  apply List.mem_filterMap.mpr
  exact ⟨record, (OrdMap.mem_values _ _).mpr ⟨svc, known⟩, by simp [held]⟩

/-- What a record holds for a check in `state`. -/
def Represents (id : JobId) : JobState → HealthCheckInvocation → Prop
  | .created, .pending jobId _ => jobId = id
  | .running, .running check => check.jobId = id
  | _, _ => False

theorem Represents.jobId_eq {id : JobId}
    (represents : Represents id state invocation) : invocation.jobId = id := by
  cases state <;> cases invocation <;> first | exact represents | exact represents.elim

/-- The record of `service` is of the activation `generation` and holds the check. -/
def Recorded (health : HealthCheckStore) (service : String) (generation : ℕ) (id : JobId)
    (state : JobState) : Prop :=
  ∃ record invocation, health.records[service]? = some record ∧
    record.activationGeneration = generation ∧ record.invocation = some invocation ∧
    Represents id state invocation

/-- The record of `service` holds the invocation. -/
def Holds (health : HealthCheckStore) (service : String) (invocation : HealthCheckInvocation) : Prop :=
  ∃ record, health.records[service]? = some record ∧ record.invocation = some invocation

theorem holds_of_serviceByJob (got : health.serviceByJob jobId = some (svc, invocation)) :
    health.Holds svc invocation ∧ invocation.jobId = jobId := by
  obtain ⟨⟨name, record⟩, mem, here⟩ := List.exists_of_findSome?_eq_some got
  have known := (OrdMap.mem_toList _ _ _).mp mem
  cases held : record.invocation with
  | none => simp [held] at here
  | some other =>
    simp only [held] at here
    split_ifs at here with same
    cases here
    exact ⟨⟨record, known, held⟩, same⟩

end HealthCheckStore

namespace JobStore

variable {after : JobStore}

def IsCheckOf (jobs : JobStore) (id : JobId) (service : String) : Prop :=
  ∃ job, jobs.get id = some job ∧ job.jobType = .healthCheck ∧ job.service = some service

def NoCheck (jobs : JobStore) (service : String) : Prop := ∀ id, ¬ jobs.IsCheckOf id service

/-- Checks may have ended; nothing else has happened to them. -/
def ChecksEnded (jobs after : JobStore) : Prop :=
  ∀ id job, after.get id = some job → job.jobType = .healthCheck → jobs.get id = some job

theorem ChecksEnded.isCheckOf (ended : jobs.ChecksEnded after) (live : after.IsCheckOf id svc) :
    jobs.IsCheckOf id svc := by
  obtain ⟨job, got, type, own⟩ := live
  exact ⟨job, ended id job got type, type, own⟩

theorem Finished.checksEnded {job : JobRecord} (done : Finished jobs id after job) :
    jobs.ChecksEnded after := by
  intro other job' got _
  rw [done.records] at got
  split_ifs at got
  exact got

end JobStore

def ServiceTable.IsActive (services : ServiceTable) (service : String) : Prop :=
  ∃ entry, services.get service = some entry ∧ entry.runtime.state = .active

/-- The live checks of a service and its record. -/
structure Tied (services : ServiceTable) (jobs : JobStore) (health : HealthCheckStore)
    (service : String) : Prop where
  one : ∀ id id', jobs.IsCheckOf id service → jobs.IsCheckOf id' service → id = id'
  recorded : ∀ id job entry, jobs.get id = some job → job.jobType = .healthCheck →
    job.service = some service → services.get service = some entry →
    entry.runtime.state = .active → health.Recorded service entry.runtime.generation id job.state
  owned : ∀ check, health.Holds service check → ∀ job, jobs.get check.jobId = some job →
    job.jobType = .healthCheck → job.service = some service
  named : ∀ record : HealthCheckRecord, health.records[service]? = some record → record.service = service

structure HealthInv (services : ServiceTable) (jobs : JobStore) (health : HealthCheckStore) : Prop where
  keyed : ∀ id job, jobs.get id = some job → job.jobType = .healthCheck → job.id = id
  tied : ∀ service, Tied services jobs health service

variable {svcs after : ServiceTable} {jobs' : JobStore} {health' : HealthCheckStore} {job : JobRecord}

/-- What the ties of a service depend on: its record, and the jobs that are checks of it or that its
record names. -/
theorem Tied.frame (tied : Tied svcs jobs health svc)
    (records : health'.records[svc]? = health.records[svc]?)
    (checks : ∀ id job, jobs'.get id = some job → job.jobType = .healthCheck →
      (job.service = some svc ∨ ∃ check, health.Holds svc check ∧ check.jobId = id) →
      jobs.get id = some job) : Tied svcs jobs' health' svc := by
  have before {id : JobId} (live : jobs'.IsCheckOf id svc) : jobs.IsCheckOf id svc := by
    obtain ⟨job, got, type, own⟩ := live
    exact ⟨job, checks id job got type (.inl own), type, own⟩
  refine ⟨fun id id' first second => tied.one id id' (before first) (before second),
    fun id job entry got type own known active => ?_, fun check ⟨record, there, held⟩ job got type => ?_,
    fun record there => tied.named record (records ▸ there)⟩
  · obtain ⟨record, check, there, rest⟩ :=
      tied.recorded id job entry (checks id job got type (.inl own)) type own known active
    exact ⟨record, check, records.trans there, rest⟩
  · have holds : health.Holds svc check := ⟨record, records ▸ there, held⟩
    exact tied.owned check holds job (checks _ job got type (.inr ⟨check, holds, rfl⟩)) type

namespace HealthInv

theorem service_of_holds (inv : HealthInv svcs jobs health) {other : String}
    (live : jobs.IsCheckOf id svc)
    (holds : health.Holds other invocation) (same : invocation.jobId = id) : other = svc := by
  obtain ⟨job, got, type, own⟩ := live
  have owner := (inv.tied other).owned invocation holds job (same ▸ got) type
  exact Option.some.inj (owner.symm.trans own)

theorem jobs_ended (inv : HealthInv svcs jobs health) (ended : jobs.ChecksEnded jobs') :
    HealthInv svcs jobs' health where
  keyed id job got type := inv.keyed id job (ended id job got type) type
  tied svc := (inv.tied svc).frame rfl fun id job got type _ => ended id job got type

theorem services_moved (inv : HealthInv svcs jobs health)
    (kept : ∀ svc entry, after.get svc = some entry → entry.runtime.state = .active →
      jobs.NoCheck svc ∨ ∃ old, svcs.get svc = some old ∧ old.runtime.state = .active ∧
        old.runtime.generation = entry.runtime.generation) : HealthInv after jobs health where
  keyed := inv.keyed
  tied svc := by
    have tied := inv.tied svc
    refine ⟨tied.one, fun id job entry got type own known active => ?_, tied.owned, tied.named⟩
    rcases kept svc entry known active with none | ⟨old, before, up, same⟩
    · exact absurd ⟨job, got, type, own⟩ (none id)
    · exact same ▸ tied.recorded id job old got type own before up

theorem of_service (inv : HealthInv svcs jobs health) (svc : String)
    (keyed : ∀ id job, jobs'.get id = some job → job.jobType = .healthCheck → job.id = id)
    (here : Tied svcs jobs' health' svc)
    (away : ∀ other ≠ svc, health'.records[other]? = health.records[other]?)
    (checks : ∀ other ≠ svc, ∀ id job, jobs'.get id = some job → job.jobType = .healthCheck →
      (job.service = some other ∨ ∃ check, health.Holds other check ∧ check.jobId = id) →
      jobs.get id = some job) : HealthInv svcs jobs' health' := by
  refine ⟨keyed, fun other => ?_⟩
  by_cases same : other = svc
  · exact same ▸ here
  · exact (inv.tied other).frame (away other same) (checks other same)

theorem cancel (inv : HealthInv svcs jobs health) (idle : svcs.IsActive svc → jobs.NoCheck svc) :
    HealthInv svcs jobs (health.cancelService svc) := by
  have gone (record : HealthCheckRecord) : (health.cancelService svc).records[svc]? ≠ some record := by
    simp
  refine inv.of_service svc inv.keyed ⟨(inv.tied svc).one, ?_, ?_, ?_⟩ (fun other away => ?_)
    fun _ _ _ _ got _ _ => got
  · intro id job entry got type own known active
    exact absurd ⟨job, got, type, own⟩ (idle ⟨entry, known, active⟩ id)
  · rintro check ⟨record, there, -⟩
    exact absurd there (gone record)
  · exact fun record there => absurd there (gone record)
  · rw [HealthCheckStore.get_cancelService, if_neg (Ne.symm away)]

/-- The service has no check but this one, in the store of jobs and in its record. -/
theorem put (inv : HealthInv svcs jobs health) (health' : HealthCheckStore)
    (records : ∀ other, jobs'.get other = if id = other then some job else jobs.get other)
    (own : job.service = some svc) (key : job.id = id)
    (only : ∀ other, jobs.IsCheckOf other svc → other = id)
    (fresh : ∀ other check, other ≠ svc → health.Holds other check → check.jobId ≠ id)
    (away : ∀ other ≠ svc, health'.records[other]? = health.records[other]?)
    (named : ∀ record : HealthCheckRecord, health'.records[svc]? = some record → record.service = svc)
    (held : ∀ check, health'.Holds svc check → check.jobId = id ∨ health.Holds svc check)
    (recorded : ∀ entry, svcs.get svc = some entry → entry.runtime.state = .active →
      health'.Recorded svc entry.runtime.generation id job.state) : HealthInv svcs jobs' health' := by
  have cases {other : JobId} {job' : JobRecord} (got : jobs'.get other = some job') :
      id = other ∧ job = job' ∨ jobs.get other = some job' := by
    rw [records] at got
    split_ifs at got with here
    · exact .inl ⟨here, Option.some.inj got⟩
    · exact .inr got
  have mine {other : JobId} (live : jobs'.IsCheckOf other svc) : other = id := by
    obtain ⟨job', got, type', own'⟩ := live
    obtain ⟨rfl, -⟩ | before := cases got
    · rfl
    · exact only other ⟨job', before, type', own'⟩
  refine inv.of_service svc ?_
    ⟨fun x y first second => (mine first).trans (mine second).symm, ?_, ?_, named⟩ away ?_
  · intro other job' got type'
    obtain ⟨rfl, rfl⟩ | before := cases got
    · exact key
    · exact inv.keyed other job' before type'
  · intro other job' entry got type' own' known active
    obtain rfl := mine ⟨job', got, type', own'⟩
    rw [records, if_pos rfl] at got
    cases got
    exact recorded entry known active
  · intro check holds job' got type'
    obtain ⟨-, rfl⟩ | before := cases got
    · exact own
    · obtain same | was := held check holds
      · rw [same, records, if_pos rfl] at got
        cases got
        exact own
      · exact (inv.tied svc).owned check was job' before type'
  · intro other away x job' got type' ties
    obtain ⟨rfl, rfl⟩ | before := cases got
    · obtain own' | ⟨check, holds, same⟩ := ties
      · exact absurd (Option.some.inj (own'.symm.trans own)) away
      · exact absurd same (fresh other check away holds)
    · exact before

end HealthInv

end Peinit
