import Peinit.Lib.Fallible
import Peinit.Submitted.Definition

/-!
# The deadlines of a submitted job

A deadline is so many seconds after an instant.  The seconds are any 64-bit number; they are turned
into nanoseconds by a product that wraps around, and only then added.
-/

namespace Peinit

open SubmittedJobDefinition.Parse SubmittedJobStore

variable {object : JsonObject} {value : Option ℕ} {definition : SubmittedJobDefinition}
  {entry : SubmittedJobEntry} {submitted after : SubmittedJobStore} {nowNs : ℕ}

/-- The instant `secs` seconds after `fromNs`, or the last one there is. -/
def exactDeadlineNs (fromNs secs : ℕ) : ℕ := min (2 ^ 64 - 1) (fromNs + secs * 10 ^ 9)

theorem wrapped_eq_exact_iff {secs : ℕ} : (∀ fromNs, fromNs < 2 ^ 64 →
      saturatingAdd fromNs (wrappingMul secs nanosPerSec) = exactDeadlineNs fromNs secs) ↔
    secs * 10 ^ 9 < 2 ^ 64 := by
  unfold saturatingAdd wrappingMul exactDeadlineNs u64Max nanosPerSec
  constructor
  · intro exact_
    -- from the first instant on the product itself is the deadline, and a wrapped one is even
    have first := exact_ 0 (by norm_num)
    omega
  · omega

/-! ## What the store computes -/

/-- Every deadline that the store computes for a job with the definition is exact. -/
structure DeadlinesExact (definition : SubmittedJobDefinition) : Prop where
  timeout : ∀ (entry : SubmittedJobEntry) (startedAtNs : ℕ), entry.definition = definition →
    startedAtNs < 2 ^ 64 → ∀ deadline ∈ entryDeadlines entry (some startedAtNs),
      deadline.kind = .timeout → deadline.dueAtNs = exactDeadlineNs startedAtNs definition.timeoutSecs
  readiness : ∀ (entry : SubmittedJobEntry) (startedAtNs : ℕ), entry.definition = definition →
    startedAtNs < 2 ^ 64 → ∀ deadline ∈ entryDeadlines entry (some startedAtNs),
      deadline.kind = .readinessTimeout →
        deadline.dueAtNs = exactDeadlineNs startedAtNs definition.readinessTimeoutSecs
  stop : ∀ (submitted after : SubmittedJobStore) (id : JobId) (cause : SubmittedJobCause) (nowNs : ℕ)
    (entry : SubmittedJobEntry), submitted.get id = some entry → entry.definition = definition →
    entry.outcome = none → entry.stop = none → nowNs < 2 ^ 64 →
    submitted.beginStop id cause nowNs = .ok after →
      ((after.get id).bind (·.stop)).map (·.dueAtNs) =
        some (exactDeadlineNs nowNs definition.stopTimeoutSecs)
  /-- The time after a kill is a setting of peinit's own, a 32-bit number. -/
  kill : ∀ (submitted after : SubmittedJobStore) (id : JobId) (nowNs postKillTimeoutSecs : ℕ)
    (entry : SubmittedJobEntry), submitted.get id = some entry → entry.definition = definition →
    entry.stop.isSome → nowNs < 2 ^ 64 → postKillTimeoutSecs < 2 ^ 32 →
    submitted.recordKill id nowNs postKillTimeoutSecs = .ok after →
      ((after.get id).bind (·.stop)).map (·.dueAtNs) = some (exactDeadlineNs nowNs postKillTimeoutSecs)

/-- The timeouts that are used fit as nanoseconds. -/
structure TimeoutsFit (definition : SubmittedJobDefinition) : Prop where
  timeout : definition.timeoutSecs * 10 ^ 9 < 2 ^ 64
  readiness : definition.readiness = .notify → definition.readinessTimeoutSecs * 10 ^ 9 < 2 ^ 64
  stop : definition.stopTimeoutSecs * 10 ^ 9 < 2 ^ 64

/-- The deadlines of an entry, by what they are for. -/
inductive DeadlineOf (entry : SubmittedJobEntry) (startedAtNs : Option ℕ) : SubmittedJobDeadline → Prop
  | cleanup (dueAtNs : ℕ) (busy : entry.cgroupCleanupDueAtNs = some dueAtNs) :
      DeadlineOf entry startedAtNs ⟨entry.jobId, .cgroupCleanup, dueAtNs⟩
  | stopKill (stop : SubmittedJobStop) (live : entry.outcome = none) (stopped : entry.stop = some stop)
      (phase : stop.phase = .terminating) :
      DeadlineOf entry startedAtNs ⟨entry.jobId, .stopKill, stop.dueAtNs⟩
  | postKill (stop : SubmittedJobStop) (live : entry.outcome = none) (stopped : entry.stop = some stop)
      (phase : stop.phase = .killed) :
      DeadlineOf entry startedAtNs ⟨entry.jobId, .postKill, stop.dueAtNs⟩
  | timeout (since : ℕ) (live : entry.outcome = none) (running : entry.stop = none)
      (started : startedAtNs = some since) (limited : 0 < entry.definition.timeoutSecs) :
      DeadlineOf entry startedAtNs ⟨entry.jobId, .timeout,
        saturatingAdd since (wrappingMul entry.definition.timeoutSecs nanosPerSec)⟩
  | readiness (since : ℕ) (live : entry.outcome = none) (running : entry.stop = none)
      (started : startedAtNs = some since)
      (waiting : entry.definition.readiness = .notify ∧ entry.ready = some false) :
      DeadlineOf entry startedAtNs ⟨entry.jobId, .readinessTimeout,
        saturatingAdd since (wrappingMul entry.definition.readinessTimeoutSecs nanosPerSec)⟩

theorem mem_entryDeadlines {startNs : Option ℕ} {deadline : SubmittedJobDeadline} :
    deadline ∈ entryDeadlines entry startNs ↔ DeadlineOf entry startNs deadline := by
  unfold entryDeadlines
  constructor
  · intro mem
    rcases List.mem_append.mp mem with cleanup | mem
    · obtain ⟨due, busy, rfl⟩ : ∃ due, entry.cgroupCleanupDueAtNs = some due ∧
          ⟨entry.jobId, .cgroupCleanup, due⟩ = deadline := by simpa using cleanup
      exact .cleanup due busy
    · by_cases ended : entry.outcome.isSome = true
      · rw [if_pos ended] at mem
        cases mem
      · rw [if_neg ended] at mem
        have live : entry.outcome = none := by simpa using ended
        cases stopped : entry.stop with
        | some stop =>
          rw [stopped] at mem
          rw [List.mem_singleton.mp mem]
          cases phase : stop.phase with
          | terminating => exact .stopKill stop live stopped phase
          | killed => exact .postKill stop live stopped phase
        | none =>
          rw [stopped] at mem
          cases startNs with
          | none => cases mem
          | some since =>
            rcases List.mem_append.mp mem with timed | ready
            · by_cases limited : 0 < entry.definition.timeoutSecs
              · rw [if_pos limited] at timed
                rw [List.mem_singleton.mp timed]
                exact .timeout since live stopped rfl limited
              · rw [if_neg limited] at timed
                cases timed
            · by_cases waiting : entry.definition.readiness = .notify ∧ entry.ready = some false
              · rw [if_pos waiting] at ready
                rw [List.mem_singleton.mp ready]
                exact .readiness since live stopped rfl waiting
              · rw [if_neg waiting] at ready
                cases ready
  · intro is
    cases is with
    | cleanup dueAtNs busy => simp [busy]
    | stopKill stop live stopped phase => simp [live, stopped, phase]
    | postKill stop live stopped phase => simp [live, stopped, phase]
    | timeout since live running started limited => simp [live, running, started, limited]
    | readiness since live running started waiting => simp [live, running, started, waiting]

/-! ## Exactness -/

theorem stop_beginStop {id : JobId} {cause : SubmittedJobCause} (got : submitted.get id = some entry)
    (live : entry.outcome = none) (running : entry.stop = none)
    (ran : submitted.beginStop id cause nowNs = .ok after) :
    ((after.get id).bind (·.stop)).map (·.dueAtNs) = some
      (saturatingAdd nowNs (wrappingMul entry.definition.stopTimeoutSecs nanosPerSec)) := by
  unfold beginStop at ran
  rw [got] at ran
  simp only [live, running] at ran
  cases ran
  rw [SubmittedJobStore.get, OrdMap.get_insert, if_pos rfl]
  rfl

theorem stop_recordKill {id : JobId}
    {killSecs : ℕ} (got : submitted.get id = some entry) (stopping : entry.stop.isSome)
    (ran : submitted.recordKill id nowNs killSecs = .ok after) :
    ((after.get id).bind (·.stop)).map (·.dueAtNs) = some
      (saturatingAdd nowNs (wrappingMul killSecs nanosPerSec)) := by
  obtain ⟨stop, stopped⟩ := Option.isSome_iff_exists.mp stopping
  unfold recordKill at ran
  rw [got] at ran
  cases ran
  rw [SubmittedJobStore.get, OrdMap.get_insert, if_pos rfl, stopped]
  rfl

theorem DeadlinesExact.of_fit (fit : TimeoutsFit definition) : DeadlinesExact definition where
  timeout := by
    intro entry startNs same within due mem kind
    cases mem_entryDeadlines.mp mem with
    | timeout since live running started limited =>
      cases started
      rw [same]
      exact wrapped_eq_exact_iff.mpr fit.timeout startNs within
    | _ => cases kind
  readiness := by
    intro entry startNs same within due mem kind
    cases mem_entryDeadlines.mp mem with
    | readiness since live running started waiting =>
      cases started
      rw [same]
      exact wrapped_eq_exact_iff.mpr (fit.readiness (same ▸ waiting.1)) startNs within
    | _ => cases kind
  stop := by
    intro submitted after id cause nowNs entry got same live running within ran
    rw [stop_beginStop got live running ran, same, wrapped_eq_exact_iff.mpr fit.stop nowNs within]
  kill := by
    intro submitted after id nowNs killSecs entry got same stopping within small ran
    rw [stop_recordKill got stopping ran, wrapped_eq_exact_iff.mpr (by omega) nowNs within]

theorem TimeoutsFit.of_exact (exact_ : DeadlinesExact definition) : TimeoutsFit definition where
  timeout := by
    by_cases limited : 0 < definition.timeoutSecs
    · refine wrapped_eq_exact_iff.mp fun startNs within => ?_
      have mem : DeadlineOf { jobId := ⟨0⟩, definition } (some startNs) _ :=
        .timeout startNs rfl rfl rfl limited
      exact exact_.timeout _ startNs rfl within _ (mem_entryDeadlines.mpr mem) rfl
    · omega
  readiness := by
    intro notify
    refine wrapped_eq_exact_iff.mp fun startNs within => ?_
    have mem : DeadlineOf { jobId := ⟨0⟩, definition, ready := some false } (some startNs) _ :=
      .readiness startNs rfl rfl rfl ⟨notify, rfl⟩
    exact exact_.readiness _ startNs rfl within _ (mem_entryDeadlines.mpr mem) rfl
  stop := by
    refine wrapped_eq_exact_iff.mp fun nowNs within => ?_
    have got : get ⟨(∅ : OrdMap JobId SubmittedJobEntry).insert ⟨0⟩
        { jobId := ⟨0⟩, definition }⟩ ⟨0⟩ = some { jobId := ⟨0⟩, definition } := by
      rw [SubmittedJobStore.get, OrdMap.get_insert, if_pos rfl]
    obtain ⟨after, ran⟩ : ∃ after, beginStop
        ⟨(∅ : OrdMap JobId SubmittedJobEntry).insert ⟨0⟩ { jobId := ⟨0⟩, definition }⟩ ⟨0⟩
          .explicitStop nowNs = .ok after := by
      exact ⟨_, rfl⟩
    have due := exact_.stop _ after ⟨0⟩ .explicitStop nowNs _ got rfl rfl rfl within ran
    rw [stop_beginStop got rfl rfl ran, Option.some.injEq] at due
    exact due

/-- The deadlines of a job are exact if and only if its timeouts fit as nanoseconds. -/
theorem submitted_deadlines_exact_iff (definition : SubmittedJobDefinition) :
    DeadlinesExact definition ↔ TimeoutsFit definition :=
  ⟨.of_exact, .of_fit⟩

/-- A request for a job that may run for `secs` seconds. -/
def timedRequest (secs : UInt64) : JsonObject :=
  [("image_path", .string "/bin/true"), ("timeout", .posInt secs)]

/-- A job that may run for 18446744074 seconds is accepted, and is stopped before one that may run for
one second. -/
theorem longer_timeout_earlier_deadline :
    ∃ long short, parseSubmittedJobDefinition id (timedRequest 18446744074) 0 = .ok long ∧
      parseSubmittedJobDefinition id (timedRequest 1) 0 = .ok short ∧ ¬ DeadlinesExact long ∧
      entryDeadlines { jobId := ⟨0⟩, definition := long } (some 0) =
        [⟨⟨0⟩, .timeout, 290448384⟩] ∧
      entryDeadlines { jobId := ⟨0⟩, definition := short } (some 0) =
        [⟨⟨0⟩, .timeout, 1000000000⟩] := by
  refine ⟨{ imagePath := "/bin/true", timeoutSecs := 18446744074 },
    { imagePath := "/bin/true", timeoutSecs := 1 }, by decide +kernel, by decide +kernel, fun exact_ => ?_,
    by decide +kernel, by decide +kernel⟩
  have fit := (TimeoutsFit.of_exact exact_).timeout
  norm_num at fit

end Peinit
