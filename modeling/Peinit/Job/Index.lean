import Peinit.Job.Store
import Peinit.Lib.Fallible

/-!
# The index of live jobs

A job has a record as long as it is live.  The index lists the jobs of each service, and a service has
one main job at most.
-/

namespace Peinit

open OrdMap

variable {expected : JobState} {action : JobTransitionAction} {endNs pid startNs : ℕ}
  {out : JobStore × JobRecord} {cause : String} {pidfd : ℤ} {job ended : JobRecord}

namespace JobRecord

theorem finish_ok
    {finished : JobRecord → JobRecord} (ran : job.finish expected action endNs finished = .ok ended) :
    job.state = expected ∧ ended = finished { job with endedAtNs := some endNs } := by
  unfold finish at ran
  split_ifs at ran with state
  split at ran
  · split_ifs at ran
    cases ran
    exact ⟨not_not.mp state, rfl⟩
  · cases ran
    exact ⟨not_not.mp state, rfl⟩

theorem finish_of_state {finished : JobRecord → JobRecord} (state : job.state = expected)
    (created : job.createdAtNs ≤ endNs)
    (started : ∀ startNs, job.startedAtNs = some startNs → startNs ≤ endNs) :
    job.finish expected action endNs finished = .ok (finished { job with endedAtNs := some endNs }) := by
  unfold finish
  rw [if_neg (not_not.mpr state), if_neg (not_lt.mpr created)]
  split
  · next startNs got => rw [if_neg (not_lt.mpr (started startNs got))]
  · rfl

end JobRecord

namespace JobStore

variable {jobs after : JobStore} {id : JobId} {service : String}

/-- The lists name exactly the live jobs of each service, once, and one of them is its main job at
most. -/
structure Indexed (jobs : JobStore) : Prop where
  mem_active : ∀ {service : String} {id : JobId}, id ∈ jobs.activeForService service ↔
    ∃ job, jobs.get id = some job ∧ job.service = some service
  nodup : ∀ service : String, (jobs.activeForService service).Nodup
  oneMain : ∀ {service : String} {id id' : JobId} {job job' : JobRecord}, jobs.get id = some job →
    jobs.get id' = some job' → job.service = some service → job'.service = some service →
    job.jobType = .serviceMain → job'.jobType = .serviceMain → id = id'

theorem indexed_new : Indexed new where
  mem_active := by simp [new, activeForService, get]
  nodup := by simp [new, activeForService]
  oneMain := by simp [new, get]

structure Finished (jobs : JobStore) (id : JobId) (after : JobStore) (job : JobRecord) : Prop where
  known : jobs.get id = some job
  records : ∀ other, after.get other = if id = other then none else jobs.get other
  active : ∀ service, after.activeForService service =
    if job.service = some service then (jobs.activeForService service).filter (· ≠ id)
    else jobs.activeForService service
  released : after.releasedPidfds = jobs.releasedPidfds ++ job.pidfd.toList

theorem Finished.kept {job' : JobRecord} {other : JobId} (done : Finished jobs id after job)
    (known : jobs.get other = some job') (differs : job ≠ job') : after.get other = some job' := by
  rw [done.records, if_neg ?_]
  · exact known
  · rintro rfl
    exact differs (Option.some.inj (done.known.symm.trans known))

theorem removeActive_activeForService (svc other : String) (id : JobId) :
    (jobs.removeActive svc id).activeForService other =
      if svc = other then (jobs.activeForService other).filter (· ≠ id)
      else jobs.activeForService other := by
  unfold removeActive
  cases got : jobs.activeByService[svc]? with
  | none =>
    split_ifs with here
    · subst here
      simp [activeForService, got]
    · rfl
  | some active =>
    unfold activeForService
    dsimp only
    split_ifs with empty here here
    · subst here
      rw [get_erase, if_pos rfl, got, Option.getD_some, empty]
      rfl
    · rw [get_erase, if_neg here]
    · subst here
      rw [get_insert, if_pos rfl, got, Option.getD_some, Option.getD_some]
    · rw [get_insert, if_neg here]

theorem removeActive_records (svc : String) (id : JobId) :
    (jobs.removeActive svc id).records = jobs.records := by
  unfold removeActive
  split <;> rfl

theorem removeActive_releasedPidfds (svc : String) (id : JobId) :
    (jobs.removeActive svc id).releasedPidfds = jobs.releasedPidfds := by
  unfold removeActive
  split <;> rfl

theorem finishJob_ok {finish : JobRecord → Except JobTransitionError JobRecord}
    (keeps : ∀ job ended, finish job = .ok ended → ended.service = job.service ∧ ended.pidfd = job.pidfd)
    (ran : jobs.finishJob id finish = .ok out) :
    ∃ job, Finished jobs id out.1 job ∧ finish job = .ok out.2 := by
  unfold finishJob at ran
  split at ran
  · cases ran
  · next job known =>
    split at ran
    · cases ran
    · next ended finished =>
      obtain ⟨same, descriptor⟩ := keeps job ended finished
      cases ran
      refine ⟨job, ⟨known, fun other => ?_, fun service => ?_, ?_⟩, ?_⟩
      · split
        · rw [get, removeActive_records]
          exact get_erase _ _ _
        · exact get_erase _ _ _
      · split
        · next own got =>
          rw [removeActive_activeForService, ← same, got]
          simp only [Option.some.injEq]
          rfl
        · next got =>
          rw [← same, got]
          rfl
      · rw [← descriptor]
        split
        · exact removeActive_releasedPidfds _ _
        · rfl
      · rw [finished]
        split <;> rfl

/-- The ways a job ends: from the state it has to be in, and without a change of whose it is. -/
structure EndedAs (jobs : JobStore) (id : JobId) (expected : JobState) (out : JobStore × JobRecord)
    (job : JobRecord) : Prop extends Finished jobs id out.1 job where
  state : job.state = expected
  service : out.2.service = job.service
  jobType : out.2.jobType = job.jobType
  pidfd : out.2.pidfd = job.pidfd
  id : out.2.id = job.id
  endedAt : out.2.endedAtNs.isSome = true

structure Keeps (finished : JobRecord → JobRecord) : Prop where
  service : ∀ job, (finished job).service = job.service := by exact fun _ => rfl
  jobType : ∀ job, (finished job).jobType = job.jobType := by exact fun _ => rfl
  pidfd : ∀ job, (finished job).pidfd = job.pidfd := by exact fun _ => rfl
  id : ∀ job, (finished job).id = job.id := by exact fun _ => rfl
  endedAt : ∀ job, (finished job).endedAtNs = job.endedAtNs := by exact fun _ => rfl

theorem endedAs_of_finish {finished : JobRecord → JobRecord}
    (ran : jobs.finishJob id (·.finish expected action endNs finished) = .ok out)
    (keeps : Keeps finished) : ∃ job, EndedAs jobs id expected out job := by
  obtain ⟨job, done, ended⟩ := finishJob_ok (fun job ended ran => by
    rw [(JobRecord.finish_ok ran).2, keeps.service, keeps.pidfd]
    exact ⟨rfl, rfl⟩) ran
  obtain ⟨state, same⟩ := JobRecord.finish_ok ended
  exact ⟨job, ⟨done, state, by rw [same, keeps.service], by rw [same, keeps.jobType],
    by rw [same, keeps.pidfd], by rw [same, keeps.id], by rw [same, keeps.endedAt]; rfl⟩⟩

theorem completeJob_ok {exitCode : ℤ} (ran : jobs.completeJob id endNs exitCode = .ok out) :
    ∃ job, EndedAs jobs id .running out job :=
  endedAs_of_finish ran {}

theorem failJobBeforeStart_ok (ran : jobs.failJobBeforeStart id endNs cause = .ok out) :
    ∃ job, EndedAs jobs id .created out job :=
  endedAs_of_finish ran {}

theorem failRunningJob_ok {exit : Option JobExit}
    (ran : jobs.failRunningJob id endNs exit cause = .ok out) :
    ∃ job, EndedAs jobs id .running out job :=
  endedAs_of_finish ran {}

theorem abandonJob_ok (ran : jobs.abandonJob id endNs cause = .ok out) :
    ∃ job, EndedAs jobs id .running out job :=
  endedAs_of_finish ran {}

theorem Indexed.finished (idx : Indexed jobs) (done : Finished jobs id after job) : Indexed after where
  mem_active := by
    intro service other
    rw [done.active, done.records]
    by_cases here : id = other
    · subst here
      by_cases own : job.service = some service
      · simp [own]
      · rw [if_neg own, idx.mem_active, done.known]
        simp [own]
    · rw [if_neg here, ← idx.mem_active]
      by_cases own : job.service = some service
      · rw [if_pos own]
        simp [Ne.symm here]
      · rw [if_neg own]
  nodup := by
    intro service
    rw [done.active]
    split_ifs
    · exact (idx.nodup service).filter _
    · exact idx.nodup service
  oneMain := by
    intro service a b job₁ job₂ foundA foundB
    rw [done.records] at foundA foundB
    split_ifs at foundA foundB
    exact idx.oneMain foundA foundB

/-- Jobs have ended, and nothing else has happened to them. -/
structure Ended (before after : JobStore) : Prop where
  sub : ∀ {id : JobId} {job : JobRecord}, after.get id = some job → before.get id = some job
  indexed : Indexed before → Indexed after
  active : ∀ service : String, after.activeForService service ⊆ before.activeForService service

namespace Ended

theorem refl (jobs : JobStore) : Ended jobs jobs := ⟨id, id, fun _ _ => id⟩

theorem trans {a b c : JobStore} (first : Ended a b) (second : Ended b c) : Ended a c where
  sub got := first.sub (second.sub got)
  indexed idx := second.indexed (first.indexed idx)
  active service := List.Subset.trans (second.active service) (first.active service)

theorem of_finished (done : Finished jobs id after job) : Ended jobs after where
  sub := by
    intro other job' got
    rw [done.records] at got
    split_ifs at got
    exact got
  indexed idx := idx.finished done
  active service := by
    rw [done.active]
    split_ifs
    · exact List.filter_subset_self _
    · exact List.Subset.refl _

end Ended

theorem startJob_ok (ran : jobs.startJob id pid pidfd startNs = .ok after) :
    ∃ job started, jobs.get id = some job ∧ started.service = job.service ∧
      started.jobType = job.jobType ∧
      (∀ other, after.get other = if id = other then some started else jobs.get other) ∧
      (∀ service, after.activeForService service = jobs.activeForService service) ∧
      job.state = .created ∧ job.createdAtNs ≤ startNs ∧
      started = { job with
        state := .running, pid := some pid, pidfd := some pidfd, startedAtNs := some startNs } ∧
      after.releasedPidfds = jobs.releasedPidfds := by
  unfold startJob at ran
  split at ran
  · cases ran
  · next job known =>
    split at ran
    · cases ran
    · next started start =>
      cases ran
      unfold JobRecord.start at start
      split_ifs at start with state created
      have same := Except.ok.inj start
      exact ⟨job, started, known, by rw [← same], by rw [← same],
        fun other => get_insert _ _ _ _, fun _ => rfl, not_not.mp state, not_lt.mp created,
        same.symm, rfl⟩

theorem setTokenSummary_cases (jobs : JobStore) (id : JobId) (tokenSummary : TokenSummary) :
    let after := jobs.setTokenSummary id tokenSummary
    after = jobs ∨ ∃ job, jobs.get id = some job ∧
      (∀ other, after.get other = if id = other then some { job with tokenSummary } else jobs.get other) ∧
      (∀ service, after.activeForService service = jobs.activeForService service) ∧
      after.releasedPidfds = jobs.releasedPidfds := by
  unfold setTokenSummary
  cases known : jobs.get id with
  | none => exact .inl rfl
  | some job => exact .inr ⟨job, rfl, fun other => get_insert _ _ _ _, fun _ => rfl, rfl⟩

/-- A record is replaced by one of the same service and type. -/
theorem Indexed.replaced {next : JobRecord} (idx : Indexed jobs) (known : jobs.get id = some job)
    (records : ∀ other, after.get other = if id = other then some next else jobs.get other)
    (service : next.service = job.service) (type : next.jobType = job.jobType)
    (active : ∀ service, after.activeForService service = jobs.activeForService service) :
    Indexed after := by
  have same : ∀ {other : JobId} {job' : JobRecord}, after.get other = some job' →
      ∃ before, jobs.get other = some before ∧ before.service = job'.service ∧
        before.jobType = job'.jobType := by
    intro other job' got
    rw [records] at got
    split_ifs at got with here
    · cases got
      exact ⟨job, here ▸ known, service.symm, type.symm⟩
    · exact ⟨job', got, rfl, rfl⟩
  constructor
  · intro s other
    rw [active, idx.mem_active, records]
    by_cases here : id = other
    · subst here
      simp [known, service]
    · rw [if_neg here]
  · intro s
    rw [active]
    exact idx.nodup s
  · intro s a b job₁ job₂ foundA foundB ownA ownB mainA mainB
    obtain ⟨before₁, found₁, service₁, type₁⟩ := same foundA
    obtain ⟨before₂, found₂, service₂, type₂⟩ := same foundB
    exact idx.oneMain found₁ found₂ (service₁.trans ownA) (service₂.trans ownB)
      (type₁.trans mainA) (type₂.trans mainB)

theorem Indexed.started (idx : Indexed jobs)
    (ran : jobs.startJob id pid pidfd startNs = .ok after) : Indexed after := by
  obtain ⟨job, started, known, service, type, records, active, -⟩ := startJob_ok ran
  exact idx.replaced known records service type active

theorem Indexed.currentServiceMainJob (idx : Indexed jobs) (known : jobs.get id = some job)
    (own : job.service = some service) (main : job.jobType = .serviceMain) :
    jobs.currentServiceMainJob service = some id := by
  unfold JobStore.currentServiceMainJob
  have mem := idx.mem_active.mpr ⟨job, known, own⟩
  cases got : (jobs.activeForService service).find? fun id =>
      (jobs.get id).any fun record => record.jobType = .serviceMain with
  | none =>
    have absent := List.find?_eq_none.mp got id mem
    rw [known] at absent
    simp [main] at absent
  | some other =>
    obtain ⟨job', known', own'⟩ := idx.mem_active.mp (List.mem_of_find?_eq_some got)
    have isMain := List.find?_some got
    rw [known'] at isMain
    rw [idx.oneMain known' known own' own (by simpa using isMain) main]

theorem Indexed.enlist (idx : Indexed jobs) (fresh : jobs.get job.id = none)
    (records : ∀ other, after.get other = if job.id = other then some job else jobs.get other)
    (active : ∀ service, after.activeForService service = if job.service = some service then
      jobs.activeForService service ++ [job.id] else jobs.activeForService service)
    (noMain : ∀ service, job.service = some service → job.jobType = .serviceMain →
      jobs.currentServiceMainJob service = none) : Indexed after := by
  have unlisted : ∀ service, job.id ∉ jobs.activeForService service := by
    intro service mem
    obtain ⟨job', known, -⟩ := idx.mem_active.mp mem
    cases fresh.symm.trans known
  constructor
  · intro s other
    rw [active, records]
    by_cases here : job.id = other
    · subst here
      by_cases mine : job.service = some s <;> simp [mine, unlisted]
    · rw [if_neg here, ← idx.mem_active]
      split_ifs
      · simp [Ne.symm here]
      · rfl
  · intro s
    rw [active]
    split_ifs
    · rw [List.nodup_append]
      refine ⟨idx.nodup s, by simp, ?_⟩
      rintro _ mem _ last rfl
      rw [List.mem_singleton.mp last] at mem
      exact unlisted s mem
    · exact idx.nodup s
  · intro s a b job₁ job₂ foundA foundB ownA ownB mainA mainB
    -- an older main job would have been found
    have older : ∀ {other : JobId} {job' : JobRecord}, jobs.get other = some job' →
        job'.service = some s → job'.jobType = .serviceMain → job.service = some s →
          job.jobType ≠ .serviceMain := by
      intro other job' known own' main' mine main
      have got := idx.currentServiceMainJob known own' main'
      rw [noMain s mine main] at got
      cases got
    rw [records] at foundA foundB
    split_ifs at foundA foundB with hereA hereB hereB
    · exact hereA.symm.trans hereB
    · cases foundA
      exact absurd mainA (older foundB ownB mainB ownA)
    · cases foundB
      exact absurd mainB (older foundA ownA mainA ownB)
    · exact idx.oneMain foundA foundB ownA ownB mainA mainB

theorem activeForService_enlist (records : OrdMap JobId JobRecord) (id : JobId) (s : String) :
    activeForService
      { jobs with
        records
        activeByService := jobs.activeByService.insert service (jobs.activeForService service ++ [id]) } s =
      if some service = some s then jobs.activeForService s ++ [id] else jobs.activeForService s := by
  unfold activeForService
  rw [get_insert]
  split_ifs <;> simp_all

theorem createJob_ok (ran : jobs.createJob job = .ok after) :
    jobs.get job.id = none ∧ job.state = .created ∧
      (∀ other, after.get other = if job.id = other then some job else jobs.get other) ∧
      after.releasedPidfds = jobs.releasedPidfds ∧ (Indexed jobs → Indexed after) := by
  unfold createJob at ran
  obtain ⟨used, ran⟩ := if_error_eq_ok.mp ran
  obtain ⟨state, ran⟩ := if_error_eq_ok.mp ran
  have fresh : jobs.get job.id = none := Std.ExtTreeMap.getElem?_eq_none used
  have records : ∀ other, (jobs.records.insert job.id job)[other]? =
      if job.id = other then some job else jobs.get other := fun other => get_insert _ _ _ _
  split at ran
  · next own =>
    cases ran
    exact ⟨fresh, not_not.mp state, records, rfl, fun idx =>
      idx.enlist fresh records (fun _ => by simp [own]; rfl) (by simp [own])⟩
  · next service own =>
    split at ran
    · cases ran
    · next free =>
      cases ran
      refine ⟨fresh, not_not.mp state, records, rfl, fun idx => idx.enlist fresh records ?_ ?_⟩
      · exact own ▸ activeForService_enlist _ _
      · intro s mine main
        cases own.symm.trans mine
        rwa [if_pos main] at free

theorem Indexed.created (idx : Indexed jobs) (ran : jobs.createJob job = .ok after) : Indexed after :=
  (createJob_ok ran).2.2.2.2 idx

end JobStore

end Peinit
