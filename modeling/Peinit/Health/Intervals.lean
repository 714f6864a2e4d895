import Peinit.Health.Steps

/-!
# Intervals

The intervals that are due are processed one after the other.  What is done for one service leaves the
others alone, and a check is created only for a service that has none.
-/

namespace Peinit

open HealthCheckStore List

variable {commandError : String → Option String}
  {allocate : String → Except IdAllocationError JobId} {nowNs : ℕ}

theorem HealthCheckStore.services_intervalDeadlines {health : HealthCheckStore}
    (named : ∀ (svc : String) (record : HealthCheckRecord),
      health.records[svc]? = some record → record.service = svc) :
    health.intervalDeadlines.map (·.service) = health.records.keys := by
  rw [intervalDeadlines, OrdMap.values, map_map, map_map, ← Std.ExtTreeMap.map_fst_toList_eq_keys]
  apply map_congr_left
  rintro ⟨svc, record⟩ mem
  exact named svc record ((OrdMap.mem_toList _ _ _).mp mem)

namespace HealthWork

variable {work after : HealthWork}

/-! ## Intervals -/

theorem createHealthCheckJob_ok {defn : ServiceDefinition} {gen cgroupGeneration : ℕ}
    (ran : work.createHealthCheckJob commandError allocate defn gen cgroupGeneration nowNs = .ok after) :
    ∃ job cgroupId, allocate defn.name = .ok job.id ∧ job.service = some defn.name ∧
      job.jobType = .healthCheck ∧ work.jobs.createJob job = .ok after.jobs ∧
      after.services = work.services ∧
      after.health = work.health.recordPendingInvocation defn.name gen job.id cgroupId := by
  unfold createHealthCheckJob at ran
  split at ran
  · cases ran
  · split at ran
    · cases ran
    · obtain ⟨jobId, allocated, ran⟩ := bind_eq_ok.mp ran
      obtain ⟨jobs, created, rest⟩ := bind_eq_ok.mp ran
      cases rest
      exact ⟨_, _, mapError_eq_ok.mp allocated, rfl, rfl, mapError_eq_ok.mp created, rfl, rfl⟩

/-- What holds while the intervals that are due are processed. -/
structure IntervalsLeft (allocate : String → Except IdAllocationError JobId) (work : HealthWork)
    (deadlines : List HealthCheckIntervalDeadline) : Prop where
  consistent : work.Consistent
  apart : (deadlines.map (·.service)).Nodup
  scheduled : ∀ deadline ∈ deadlines, ∃ record : HealthCheckRecord,
    work.health.records[deadline.service]? = some record ∧
    record.activationGeneration = deadline.activationGeneration ∧
    record.cgroupGeneration = deadline.cgroupGeneration
  idle : ∀ deadline ∈ deadlines, ∀ entry, work.services.get deadline.service = some entry →
    entry.runtime.state = .active → healthEnabled entry.definition = false →
    work.jobs.NoCheck deadline.service
  unused : ∀ other invocation, work.health.Holds other invocation → ∀ service,
    allocate service = .ok invocation.jobId → (work.jobs.get invocation.jobId).isSome

namespace IntervalsLeft

variable {due : HealthCheckIntervalDeadline} {dues : List HealthCheckIntervalDeadline}

theorem rest (left : IntervalsLeft allocate work (due :: dues)) (sound : after.Consistent)
    (svcs : after.services = work.services)
    (records : ∀ other, other ≠ due.service → after.health.records[other]? = work.health.records[other]?)
    (jobs : ∀ id other, other ≠ due.service → after.jobs.IsCheckOf id other →
      work.jobs.IsCheckOf id other)
    (unused : ∀ other check, after.health.Holds other check → ∀ svc,
      allocate svc = .ok check.jobId → (after.jobs.get check.jobId).isSome) :
    IntervalsLeft allocate after dues := by
  have apart := left.apart
  rw [map_cons, nodup_cons] at apart
  have away : ∀ other ∈ dues, other.service ≠ due.service := fun other mem same =>
    apart.1 (same ▸ mem_map_of_mem mem)
  refine ⟨sound, apart.2, fun other mem => ?_, fun other mem entry known active disabled => ?_, unused⟩
  · rw [records other.service (away other mem)]
    exact left.scheduled other (mem_cons_of_mem _ mem)
  · rw [svcs] at known
    have none := left.idle other (mem_cons_of_mem _ mem) entry known active disabled
    exact fun id live => none id (jobs id other.service (away other mem) live)

theorem cancelled (left : IntervalsLeft allocate work (due :: dues))
    (idle : work.services.IsActive due.service → work.jobs.NoCheck due.service) :
    IntervalsLeft allocate (work.cancelService due.service) dues := by
  apply left.rest (left.consistent.cancelService idle) rfl (fun other away => ?_)
    (fun _ _ _ live => live)
  · rintro other check ⟨record, there, held⟩
    have there : (work.health.cancelService due.service).records[other]? = some record := there
    rw [get_cancelService] at there
    split_ifs at there
    exact left.unused other check ⟨record, there, held⟩
  · exact get_cancelService.trans (if_neg (Ne.symm away))

/-- The work in which the next check of the service is scheduled. -/
abbrev rescheduled (work : HealthWork) (deadline : HealthCheckIntervalDeadline) (dueAtNs : ℕ) :
    HealthWork :=
  { work with
    health := work.health.scheduleInterval deadline.service deadline.activationGeneration
      deadline.cgroupGeneration dueAtNs }

theorem scheduled_again (left : IntervalsLeft allocate work (due :: dues)) (dueAtNs : ℕ) :
    (rescheduled work due dueAtNs).Consistent ∧
      ∀ other check, (rescheduled work due dueAtNs).health.Holds other check →
        work.health.Holds other check := by
  obtain ⟨record, there, gen, tree⟩ := left.scheduled due (by simp)
  refine ⟨⟨left.consistent.services, left.consistent.checks.schedule fun _ _ record' there' => ?_⟩, ?_⟩
  · cases there.symm.trans there'
    exact ⟨gen, tree⟩
  · rintro other check ⟨record', there', held⟩
    rw [get_scheduleInterval] at there'
    split_ifs at there' with here
    · cases there'
      obtain ⟨before, got, held⟩ := Option.bind_eq_some_iff.mp held
      exact ⟨before, here ▸ (Option.filter_eq_some_iff.mp got).1, held⟩
    · exact ⟨record', there', held⟩

theorem create (left : IntervalsLeft allocate work (due :: dues)) {entry : ServiceEntry}
    {dueAtNs : ℕ} (known : work.services.get due.service = some entry)
    (active : entry.runtime.state = .active)
    (current : entry.runtime.generation = due.activationGeneration)
    (free : (rescheduled work due dueAtNs).health.hasInvocation due.service
      due.activationGeneration = false)
    (ran : (rescheduled work due dueAtNs).createHealthCheckJob commandError allocate
      entry.definition due.activationGeneration due.cgroupGeneration nowNs = .ok after) :
    IntervalsLeft allocate after dues := by
  obtain ⟨sound, held⟩ := left.scheduled_again dueAtNs
  obtain ⟨job, cgroupId, allocated, own, type, created, svcs, health⟩ := createHealthCheckJob_ok ran
  rw [(left.consistent.services due.service entry known).1] at allocated own health
  obtain ⟨record, there, gen⟩ : ∃ record : HealthCheckRecord,
      (rescheduled work due dueAtNs).health.records[due.service]? = some record ∧
        record.activationGeneration = due.activationGeneration :=
    ⟨_, (get_scheduleInterval _ _ _).trans (if_pos rfl), rfl⟩
  have empty : record.invocation = none := by
    unfold hasInvocation at free
    rw [there] at free
    simpa [gen] using free
  -- the record holds no check, so there is none
  have none : work.jobs.NoCheck due.service := by
    rintro id ⟨job, live, type, own⟩
    obtain ⟨record', check, got, -, holds, -⟩ :=
      (sound.checks.tied due.service).recorded id job entry live type own known active
    cases there.symm.trans got
    cases empty.symm.trans holds
  obtain ⟨fresh, -, records, -⟩ := JobStore.createJob_ok created
  have new : ∀ other check, (rescheduled work due dueAtNs).health.Holds other check →
      check.jobId ≠ job.id := by
    intro other check holds same
    have live := left.unused other check (held other check holds) due.service
      (allocated.trans (by rw [same]))
    rw [same, fresh] at live
    cases live
  have put := sound.checks.created cgroupId none created own there empty
    (fun entry' known' => by
      cases known.symm.trans known'
      exact gen.trans current.symm) new
  rw [gen, ← health] at put
  have recorded := recordPendingInvocation_of_free there empty job.id cgroupId
  rw [gen, ← health] at recorded
  have away : ∀ other, other ≠ due.service →
      after.health.records[other]? = (rescheduled work due dueAtNs).health.records[other]? := by
    intro other away
    rw [recorded]
    exact away_setInvocation away
  refine left.rest ⟨svcs ▸ sound.services, svcs ▸ put⟩ svcs ?_ ?_ ?_
  · intro other elsewhere
    rw [away other elsewhere, get_scheduleInterval, if_neg (Ne.symm elsewhere)]
  · rintro id other away ⟨job', got, type', own'⟩
    rw [records] at got
    split_ifs at got
    · cases got
      exact absurd (Option.some.inj (own'.symm.trans own)) away
    · exact ⟨job', got, type', own'⟩
  · intro other check holds service' allocates
    rw [records]
    split_ifs with same
    · rfl
    · refine left.unused other check (held other check ?_) service' allocates
      rw [recorded] at holds
      by_cases here : other = due.service
      · subst here
        cases holds_setInvocation holds
        exact absurd rfl same
      · obtain ⟨record', got, inside⟩ := holds
        rw [away_setInvocation here] at got
        exact ⟨record', got, inside⟩

theorem step (left : IntervalsLeft allocate work (due :: dues))
    (ran : processDueHealthCheckInterval commandError allocate nowNs work due = .ok after) :
    IntervalsLeft allocate after dues := by
  unfold processDueHealthCheckInterval at ran
  cases known : work.services.get due.service with
  | none =>
    rw [known] at ran
    cases ran
    apply left.cancelled
    rintro ⟨entry, got, -⟩
    cases known.symm.trans got
  | some entry =>
    rw [known] at ran
    dsimp only at ran
    by_cases over_ : entry.runtime.generation ≠ due.activationGeneration ∨
        entry.runtime.state ≠ .active
    · rw [if_pos over_] at ran
      cases ran
      -- a live check of the activation would be in the record, which is of another one
      apply left.cancelled
      rintro ⟨entry', got, active⟩ id ⟨job, live, type, own⟩
      cases known.symm.trans got
      obtain ⟨record, there, gen, -⟩ := left.scheduled due (by simp)
      obtain ⟨record', check, there', current, -⟩ := (left.consistent.checks.tied
        due.service).recorded id job entry live type own known active
      cases there.symm.trans there'
      exact over_.elim (fun other => other (current.symm.trans gen)) (· active)
    rw [if_neg over_] at ran
    simp only [not_or, not_not] at over_
    cases enabled : healthEnabled entry.definition with
    | false =>
      rw [enabled] at ran
      cases ran
      exact left.cancelled fun _ => left.idle due (by simp) entry known over_.2 enabled
    | true =>
      rw [enabled] at ran
      rw [if_neg (by simp)] at ran
      split_ifs at ran with overlap
      · cases ran
        obtain ⟨sound, held⟩ := left.scheduled_again _
        apply left.rest sound rfl (fun other away => ?_) (fun _ _ _ live => live)
        · intro other check holds
          exact left.unused other check (held other check holds)
        · rw [get_scheduleInterval, if_neg (Ne.symm away)]
      · exact left.create known over_.2 over_.1 (by simpa using overlap) ran

theorem run {dues : List HealthCheckIntervalDeadline} {work : HealthWork}
    (left : IntervalsLeft allocate work dues)
    (ran : dues.foldlM (processDueHealthCheckInterval commandError allocate nowNs) work =
      .ok after) : after.Consistent := by
  induction dues generalizing work with
  | nil =>
    cases ran
    exact left.consistent
  | cons due dues ih =>
    obtain ⟨mid, first, rest⟩ := bind_eq_ok.mp ran
    exact ih (left.step first) rest

end IntervalsLeft

/-- No check is lost sight of by the intervals: services whose checks are no longer wanted have none,
and the identifiers that are allocated are new. -/
structure IntervalsMild (work : HealthWork) (allocate : String → Except IdAllocationError JobId)
    (nowNs : ℕ) : Prop where
  idle : ∀ deadline ∈ work.health.dueIntervalDeadlines nowNs, ∀ entry,
    work.services.get deadline.service = some entry → entry.runtime.state = .active →
    healthEnabled entry.definition = false → work.jobs.NoCheck deadline.service
  fresh : ∀ service id, allocate service = .ok id → ∀ other invocation,
    work.health.Holds other invocation → invocation.jobId ≠ id

theorem Consistent.processDueHealthCheckIntervals (sound : work.Consistent)
    (mild : work.IntervalsMild allocate nowNs)
    (ran : work.processDueHealthCheckIntervals commandError allocate nowNs = .ok after) :
    after.Consistent := by
  have named : ∀ record ∈ work.health.records.values,
      work.health.records[record.service]? = some record := by
    intro record mem
    obtain ⟨svc, there⟩ := (OrdMap.mem_values _ _).mp mem
    rw [(sound.checks.tied svc).named record there]
    exact there
  refine IntervalsLeft.run ⟨sound, ?_, fun due mem => ?_, mild.idle, ?_⟩ ran
  · refine List.Nodup.sublist (filter_sublist.map _) ?_
    rw [services_intervalDeadlines fun svc => (sound.checks.tied svc).named]
    exact OrdMap.nodup_keys _
  · obtain ⟨there, -⟩ := mem_filter.mp mem
    obtain ⟨record, inside, rfl⟩ := mem_map.mp there
    exact ⟨record, named record inside, rfl, rfl⟩
  · intro other check holds svc allocates
    exact absurd rfl (mild.fresh svc _ allocates other check holds)

end HealthWork

end Peinit
