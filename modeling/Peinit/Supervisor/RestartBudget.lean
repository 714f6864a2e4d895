import Peinit.Health.Steps

/-!
# The restart budget

The policy is asked with the number of failures in a row, and a service that is to be started again
waits in Backoff. Between two events that take the number back to zero it is in Backoff at most as
often as its definition allows, and each wait is twice the one before, up to a minute.
-/

namespace Peinit

open ServiceTable ServiceEntry

variable {entry : ServiceEntry} {cause : TransitionCause} {untilNs : ℕ}
  {out : ServiceTable × ServiceTableTransition}

/-- How a main process has ended. -/
structure EndedJob where
  endedAtNs : ℕ
  exitCode : Option ℤ := none
  exitSignal : Option ℤ := none
  failureCause : Option String := none
  deriving DecidableEq

def EndedJob.isSuccessFor (ended : EndedJob) (definition : ServiceDefinition) : Bool :=
  ended.exitSignal.isNone && ended.failureCause.isNone &&
    ended.exitCode.any (isSuccessExitCode definition)

namespace ServiceTable

variable (services : ServiceTable)

/-! ## Failures -/

def transitionAfterFailure (service : String) (cause : TransitionCause) (failedAtNs : ℕ)
    (exitCode : Option ℤ) : Except ServiceTableError (ServiceTable × ServiceTableTransition) :=
  match services.get service with
  | none => .error (.unknownService service)
  | some entry =>
    match evaluateRestartAfterFailure entry.definition cause exitCode
        entry.runtime.consecutiveRestartFailures with
    | .backoff cause delaySecs _ =>
      services.transitionServiceToRestartBackoff service cause (deadlineNs failedAtNs delaySecs)
    | .fail cause state => services.transitionService service ⟨state, cause⟩

def applyWatchdogTimeoutTransition (service : String) (nowNs : ℕ) :
    Except ServiceTableError (ServiceTable × ServiceTableTransition) :=
  services.transitionAfterFailure service .watchdogTimeout nowNs none

/-- A service whose definition has been withdrawn is not restarted. -/
def applyRestartEvaluation (service : String) (ended : EndedJob) (cause : TransitionCause) :
    Except ServiceTableError (ServiceTable × ServiceTableTransition) :=
  if (services.get service).any (·.definitionRemoved) then
    match cause with
    | .cleanExitRestart => services.transitionService service ⟨.inactive, .cleanExit⟩
    | cause => services.transitionService service ⟨.failed, cause⟩
  else services.transitionAfterFailure service cause ended.endedAtNs ended.exitCode

def applyActiveSimpleExit (service : String) (definition : ServiceDefinition) (ended : EndedJob) :
    Except ServiceTableError (ServiceTable × ServiceTableTransition) :=
  if ended.isSuccessFor definition then
    if definition.restartPolicy = .always then
      services.applyRestartEvaluation service ended .cleanExitRestart
    else services.transitionService service ⟨.inactive, .cleanExit⟩
  else services.applyRestartEvaluation service ended .processCrash

def applyReloadingSimpleExit (service : String) (ended : EndedJob) :
    Except ServiceTableError (ServiceTable × ServiceTableTransition) :=
  services.applyRestartEvaluation service ended .processCrash

/-! ## The counter -/

def resetRestartFailuresAfterWindow (service : String) : Except ServiceTableError ServiceTable :=
  services.updateRuntime service fun runtime => { runtime with consecutiveRestartFailures := 0 }

def consumeRestartBackoff (service : String) : Except ServiceTableError ServiceTable :=
  services.updateRuntime service fun runtime => { runtime with restartBackoffUntilNs := none }

end ServiceTable

/-! ## Runs -/

inductive RestartEvent where
  /-- A start fails: a hook, the launch, the process before it is ready, or readiness that is late. -/
  | startFails (service : String) (cause : TransitionCause) (exitCode : Option ℤ) (failedAtNs : ℕ)
  | mainExits (service : String) (ended : EndedJob)
  | watchdogTimesOut (service : String) (nowNs : ℕ)
  /-- A health check has failed as often as the definition lets it. -/
  | healthFails (service : String) (observedAtNs : ℕ)
  | windowPasses (service : String)
  /-- The restart is admitted; the start that follows is a move. -/
  | relaunches (service : String)
  /-- Starts, stops, reloads, resets and whatever else moves a service to another state than Backoff. -/
  | moves (service : String) (transition : ServiceTransition) (away : transition.target ≠ .backoff)

namespace RestartEvent

def failedAtNs : RestartEvent → ℕ
  | .startFails _ _ _ failedAtNs => failedAtNs
  | .mainExits _ ended => ended.endedAtNs
  | .watchdogTimesOut _ nowNs => nowNs
  | .healthFails _ observedAtNs => observedAtNs
  | .windowPasses _ | .relaunches _ | .moves _ _ _ => 0

/-- The table after the event, and the move that was made. -/
def apply (services : ServiceTable) :
    RestartEvent → Except ServiceTableError (ServiceTable × Option ServiceTransitionEvent)
  | .startFails service cause exitCode failedAtNs =>
    (services.transitionAfterFailure service cause failedAtNs exitCode).map moved
  | .mainExits service ended =>
    match services.get service with
    | none => .error (.unknownService service)
    | some entry =>
      match entry.runtime.state, entry.definition.serviceType with
      | .active, .simple => (services.applyActiveSimpleExit service entry.definition ended).map moved
      | .reloading, .simple => (services.applyReloadingSimpleExit service ended).map moved
      -- a start that fails and the end of a stop are other events; any other exit comes too late
      | _, _ => .ok (services, none)
  | .watchdogTimesOut service nowNs =>
    (services.applyWatchdogTimeoutTransition service nowNs).map moved
  | .healthFails service observedAtNs =>
    (services.transitionAfterFailure service .healthCheckFailure observedAtNs none).map moved
  | .windowPasses service => (services.resetRestartFailuresAfterWindow service).map (·, none)
  | .relaunches service => (services.consumeRestartBackoff service).map (·, none)
  | .moves service transition _ => (services.transitionService service transition).map moved
where
  moved (out : ServiceTable × ServiceTableTransition) : ServiceTable × Option ServiceTransitionEvent :=
    (out.1, some out.2.event)

end RestartEvent

/-- A wait in Backoff. -/
structure ScheduledBackoff where
  failedAtNs : ℕ
  untilNs : Option ℕ
  deriving DecidableEq

/-- The table, and the waits of one service since its counter was last taken back. -/
structure RestartHistory where
  services : ServiceTable
  backoffs : List ScheduledBackoff := []

/-- A clean exit or a reset to Inactive, or the logout from a terminal. -/
def takesBack (definition : ServiceDefinition) (moved : ServiceTransitionEvent) : Prop :=
  moved.target = .inactive ∧ moved.cause ∈ [.cleanExit, .explicitReset] ∨
    moved.target = .backoff ∧ moved.cause = .cleanExitRestart ∧ definition.consolePath.isSome

instance (definition : ServiceDefinition) (moved : ServiceTransitionEvent) :
    Decidable (takesBack definition moved) := inferInstanceAs (Decidable (_ ∨ _))

namespace RestartHistory

/-- The waits after a move of the service. -/
def noted (history : RestartHistory) (service : String) (failedAtNs : ℕ) (after : ServiceTable)
    (moved : ServiceTransitionEvent) : List ScheduledBackoff :=
  match after.get service with
  | none => []
  | some entry =>
    if takesBack entry.definition moved then []
    else if moved.target = .backoff then
      history.backoffs ++ [⟨failedAtNs, entry.runtime.restartBackoffUntilNs⟩]
    else history.backoffs

/-- The history of `service` after a move of some service. -/
def record (service : String) (history : RestartHistory) (failedAtNs : ℕ) (after : ServiceTable)
    (moved : ServiceTransitionEvent) : RestartHistory :=
  ⟨after, if moved.service = service then history.noted service failedAtNs after moved
    else history.backoffs⟩

/-- The history of `service` after the event; what is refused changes nothing. -/
def perform (service : String) (history : RestartHistory) (event : RestartEvent) : RestartHistory :=
  match event.apply history.services with
  | .error _ => history
  | .ok (after, some moved) => history.record service event.failedAtNs after moved
  | .ok (after, none) =>
    match event with
    | .windowPasses reset => ⟨after, if reset = service then [] else history.backoffs⟩
    | _ => ⟨after, history.backoffs⟩

end RestartHistory

/-! ## The delay -/

theorem restartDelaySecs_eq (base failures : ℕ) : restartDelaySecs base failures = min 60 (base * 2 ^ failures) := by
  unfold restartDelaySecs saturatingMul maxRestartDelaySecs
  dsimp only
  have large : 60 ≤ u64Max := by decide
  split_ifs with small
  · omega
  · rcases Nat.eq_zero_or_pos base with rfl | pos
    · simp
    · have shifted : 2 ^ 64 ≤ 2 ^ failures := Nat.pow_le_pow_right (by decide) (by omega)
      have doubled : 2 ^ failures ≤ base * 2 ^ failures := Nat.le_mul_of_pos_left _ pos
      have saturated : u64Max ≤ base * u64Max := Nat.le_mul_of_pos_left _ pos
      omega

theorem deadlineNs_of_le_minute {failedAtNs secs : ℕ} (short : secs ≤ 60) :
    deadlineNs failedAtNs secs = min (failedAtNs + secs * nanosPerSec) u64Max := by
  unfold deadlineNs saturatingAdd saturatingMul
  have fits : secs * nanosPerSec ≤ u64Max := (Nat.mul_le_mul_right _ short).trans (by decide)
  rw [Nat.min_eq_left fits]

/-! ## Steps -/

theorem evaluateRestartAfterFailure_cases (defn : ServiceDefinition) (cause : TransitionCause)
    (exitCode : Option ℤ) (failures : ℕ) :
    (∃ cause', evaluateRestartAfterFailure defn cause exitCode failures = .fail cause' .failed) ∨
    ∃ delaySecs next,
      evaluateRestartAfterFailure defn cause exitCode failures = .backoff cause delaySecs next ∧
      (cause = .cleanExitRestart ∧ defn.consolePath.isSome ∨
        ¬ (cause = .cleanExitRestart ∧ defn.consolePath.isSome) ∧
          failures < defn.restartMaxRetries ∧
          delaySecs = restartDelaySecs defn.restartDelaySecs failures) := by
  unfold evaluateRestartAfterFailure
  split_ifs with _ _ _ _ terminal spent
  · exact .inl ⟨_, rfl⟩
  · exact .inl ⟨_, rfl⟩
  · exact .inl ⟨_, rfl⟩
  · exact .inl ⟨_, rfl⟩
  · exact .inr ⟨_, _, rfl, .inl terminal⟩
  · exact .inl ⟨_, rfl⟩
  · exact .inr ⟨_, _, rfl, .inr ⟨terminal, by omega, rfl⟩⟩

/-- The service has this definition, is to keep it, and has failed so often in a row. -/
structure ServiceEntry.Counts (definition : ServiceDefinition) (failures : ℕ) (entry : ServiceEntry) :
    Prop where
  defined : entry.definition = definition
  settled : entry.pendingDefinition = none
  present : entry.definitionRemoved = false
  counted : entry.runtime.consecutiveRestartFailures = failures

theorem ServiceEntry.Counts.moved {defn : ServiceDefinition} {failures : ℕ}
    (counts : entry.Counts defn failures) (tr : ServiceTransition) :
    (entry.moved tr).Counts defn
      (if tr.target = .inactive ∧ tr.cause ∈ [.cleanExit, .explicitReset] then 0
        else failures) := by
  refine ⟨?_, ?_, ?_, ?_⟩
  · unfold ServiceEntry.moved
    dsimp only
    split_ifs
    · exact counts.defined
    · rw [counts.settled]
      exact counts.defined
  · unfold ServiceEntry.moved
    dsimp only
    split_ifs
    · exact counts.settled
    · rfl
  · rw [moved_definitionRemoved]
    exact counts.present
  · simp only [moved_runtime, ServiceRuntimeSnapshot.moved, ← counts.counted]
    split_ifs <;> rfl

namespace ServiceTable

variable {svcs : ServiceTable} {svc other : String} {tr : ServiceTransition}

theorem cause_of_transition (ran : svcs.transitionService svc tr = .ok out) :
    out.2.event.cause = tr.cause := by
  unfold transitionService at ran
  split at ran
  · cases ran
  · split at ran
    · cases ran
      rfl
    · cases ran

theorem get_of_transition (ran : svcs.transitionService svc tr = .ok out)
    (got : svcs.get svc = some entry) (present : entry.definitionRemoved = false) :
    out.1.get svc = some (entry.moved tr) := by
  obtain ⟨entry', found', -, next⟩ := transitionService_eq_ok ran
  obtain rfl : entry = entry' := Option.some.inj (got.symm.trans found')
  rw [next, get_moveEntry, present]
  rfl

theorem get_of_restartBackoff (ran : svcs.transitionServiceToRestartBackoff svc cause untilNs = .ok out)
    (got : svcs.get svc = some entry) (present : entry.definitionRemoved = false) :
    out.2.event.target = .backoff ∧ out.2.event.cause = cause ∧
      out.1.get svc = some { entry.moved ⟨.backoff, cause⟩ with
        runtime := { entry.runtime.moved ⟨.backoff, cause⟩ with
          consecutiveRestartFailures :=
            if cause = .cleanExitRestart ∧
              (entry.moved ⟨.backoff, cause⟩).definition.consolePath.isSome then 0
            else min ((entry.runtime.moved ⟨.backoff, cause⟩).consecutiveRestartFailures + 1) u32Max
          restartBackoffUntilNs := some untilNs } } := by
  obtain ⟨moved, first, rest⟩ := bind_eq_ok.mp ran
  dsimp only at rest
  rw [get_of_transition first got present] at rest
  cases rest
  refine ⟨(event_of_transition first).2, cause_of_transition first, ?_⟩
  rw [get_set, if_pos rfl, moved_runtime]

theorem restartBackoff_only (ran : svcs.transitionServiceToRestartBackoff svc cause untilNs = .ok out) :
    out.2.event.service = svc ∧ ∀ other ≠ svc, out.1.get other = svcs.get other := by
  obtain ⟨moved, first, rest⟩ := bind_eq_ok.mp ran
  dsimp only at rest
  split at rest
  · cases rest
  · cases rest
    refine ⟨(event_of_transition first).1, fun other away => ?_⟩
    rw [get_set, if_neg (Ne.symm away)]
    exact get_of_transition_ne first away

end ServiceTable

/-- The waits so far are within the budget, and as long as they are to be. -/
structure RestartHistory.Budgeted (service : String) (definition : ServiceDefinition)
    (history : RestartHistory) : Prop where
  counts : ∃ entry, history.services.get service = some entry ∧
    entry.Counts definition history.backoffs.length
  within : history.backoffs.length ≤ definition.restartMaxRetries
  scheduled : ∀ k backoff, history.backoffs[k]? = some backoff → backoff.untilNs =
    some (min (backoff.failedAtNs + min 60 (definition.restartDelaySecs * 2 ^ k) * nanosPerSec) u64Max)

namespace RestartHistory.Budgeted

variable {svc name : String} {defn : ServiceDefinition} {history : RestartHistory}
  {after : ServiceTable} {failedAtNs : ℕ}

theorem of_same (budgeted : history.Budgeted svc defn) (got : after.get svc = some entry)
    (counts : entry.Counts defn history.backoffs.length) :
    Budgeted svc defn ⟨after, history.backoffs⟩ :=
  ⟨⟨entry, got, counts⟩, budgeted.within, budgeted.scheduled⟩

theorem of_reset (got : after.get svc = some entry)
    (counts : entry.Counts defn 0) : Budgeted svc defn ⟨after, []⟩ :=
  ⟨⟨entry, got, counts⟩, Nat.zero_le _, fun k backoff mem => by simp at mem⟩

theorem away (budgeted : history.Budgeted svc defn) (same : after.get svc = history.services.get svc) :
    Budgeted svc defn ⟨after, history.backoffs⟩ := by
  obtain ⟨entry, got, counts⟩ := budgeted.counts
  exact budgeted.of_same (same.trans got) counts

theorem moves (budgeted : history.Budgeted svc defn) {tr : ServiceTransition}
    (ran : history.services.transitionService name tr = .ok out)
    (away : tr.target ≠ .backoff) :
    (history.record svc failedAtNs out.1 out.2.event).Budgeted svc defn := by
  have event := event_of_transition ran
  unfold record
  rw [event.1]
  split_ifs with here
  · subst here
    obtain ⟨entry, got, counts⟩ := budgeted.counts
    have moved := get_of_transition ran got counts.present
    have counts' := counts.moved tr
    rw [← event.2] at away
    rw [← event.2, ← cause_of_transition ran] at counts'
    unfold noted
    rw [moved]
    dsimp only
    by_cases reset : out.2.event.target = .inactive ∧
        out.2.event.cause ∈ [.cleanExit, .explicitReset]
    · rw [if_pos reset] at counts'
      rw [if_pos (.inl reset)]
      exact of_reset moved counts'
    · have keeps : ¬ takesBack (entry.moved tr).definition out.2.event :=
        not_or.mpr ⟨reset, fun terminal => away terminal.1⟩
      rw [if_neg reset] at counts'
      rw [if_neg keeps, if_neg away]
      exact budgeted.of_same moved counts'
  · exact budgeted.away (get_of_transition_ne ran (Ne.symm here))

theorem waits (budgeted : history.Budgeted svc defn)
    (fits : defn.restartMaxRetries ≤ u32Max) {delaySecs : ℕ}
    (ran : history.services.transitionServiceToRestartBackoff svc cause
      (deadlineNs failedAtNs delaySecs) = .ok out)
    (evaluated : cause = .cleanExitRestart ∧ defn.consolePath.isSome ∨
      ¬ (cause = .cleanExitRestart ∧ defn.consolePath.isSome) ∧
        history.backoffs.length < defn.restartMaxRetries ∧
        delaySecs = restartDelaySecs defn.restartDelaySecs history.backoffs.length) :
    (history.record svc failedAtNs out.1 out.2.event).Budgeted svc defn := by
  obtain ⟨entry, got, counts⟩ := budgeted.counts
  obtain ⟨target, because, waiting⟩ := get_of_restartBackoff ran got counts.present
  have moved := counts.moved ⟨.backoff, cause⟩
  rw [if_neg (fun reset => nomatch reset.1)] at moved
  have counted := moved.counted
  rw [moved_runtime] at counted
  rw [moved.defined, counted] at waiting
  unfold record noted
  rw [(restartBackoff_only ran).1, if_pos rfl, waiting]
  dsimp only
  rcases evaluated with terminal | ⟨ordinary, below, delay⟩
  · have back : takesBack (entry.moved ⟨.backoff, cause⟩).definition out.2.event :=
      .inr ⟨target, because.trans terminal.1, moved.defined ▸ terminal.2⟩
    rw [if_pos terminal] at waiting
    rw [if_pos back]
    exact of_reset waiting ⟨moved.defined, moved.settled, moved.present, rfl⟩
  · have keeps : ¬ takesBack (entry.moved ⟨.backoff, cause⟩).definition out.2.event := by
      rintro (reset | terminal)
      · exact absurd (target.symm.trans reset.1) (by decide)
      · exact ordinary ⟨because.symm.trans terminal.2.1, moved.defined ▸ terminal.2.2⟩
    have next : min (history.backoffs.length + 1) u32Max = history.backoffs.length + 1 := by omega
    rw [if_neg ordinary, next] at waiting
    rw [if_neg keeps, if_pos target]
    refine ⟨⟨_, waiting, moved.defined, moved.settled, moved.present, ?_⟩, ?_, ?_⟩
    · rw [List.length_append]
      rfl
    · rw [List.length_append]
      exact below
    · intro k backoff mem
      rcases Nat.lt_or_ge k history.backoffs.length with earlier | last
      · rw [List.getElem?_append_left earlier] at mem
        exact budgeted.scheduled k backoff mem
      · rw [List.getElem?_append_right last, List.getElem?_singleton] at mem
        split_ifs at mem with is
        cases mem
        obtain rfl : k = history.backoffs.length := by omega
        rw [delay, restartDelaySecs_eq, deadlineNs_of_le_minute (Nat.min_le_left _ _)]

theorem fails (budgeted : history.Budgeted svc defn)
    (fits : defn.restartMaxRetries ≤ u32Max) {exitCode : Option ℤ}
    (ran : history.services.transitionAfterFailure name cause failedAtNs exitCode = .ok out) :
    (history.record svc failedAtNs out.1 out.2.event).Budgeted svc defn := by
  unfold transitionAfterFailure at ran
  split at ran
  · cases ran
  next failed there =>
  rcases evaluateRestartAfterFailure_cases failed.definition cause exitCode
    failed.runtime.consecutiveRestartFailures with
    ⟨cause', fail⟩ | ⟨delaySecs, next, backoff, again⟩
  · rw [fail] at ran
    exact budgeted.moves ran (fun is => nomatch is)
  · rw [backoff] at ran
    by_cases here : name = svc
    · subst here
      obtain ⟨entry, got, counts⟩ := budgeted.counts
      obtain rfl : failed = entry := Option.some.inj (there.symm.trans got)
      rw [counts.defined, counts.counted] at again
      exact budgeted.waits fits ran again
    · obtain ⟨event, same⟩ := restartBackoff_only ran
      unfold record
      rw [event, if_neg here]
      exact budgeted.away (same svc (Ne.symm here))

theorem exits (budgeted : history.Budgeted svc defn)
    (fits : defn.restartMaxRetries ≤ u32Max) {ended : EndedJob}
    (ran : history.services.applyRestartEvaluation name ended cause = .ok out) :
    (history.record svc ended.endedAtNs out.1 out.2.event).Budgeted svc defn := by
  unfold applyRestartEvaluation at ran
  split at ran
  · split at ran
    · exact budgeted.moves ran (fun is => nomatch is)
    · exact budgeted.moves ran (fun is => nomatch is)
  · exact budgeted.fails fits ran

theorem writes (budgeted : history.Budgeted svc defn)
    {f : ServiceRuntimeSnapshot → ServiceRuntimeSnapshot}
    (keeps : ∀ runtime, (f runtime).consecutiveRestartFailures = runtime.consecutiveRestartFailures)
    (ran : history.services.updateRuntime name f = .ok after) :
    Budgeted svc defn ⟨after, history.backoffs⟩ := by
  obtain ⟨written, there, rfl⟩ := updateRuntime_eq_ok.mp ran
  by_cases here : name = svc
  · subst here
    obtain ⟨entry, got, counts⟩ := budgeted.counts
    obtain rfl : written = entry := Option.some.inj (there.symm.trans got)
    refine budgeted.of_same (by rw [get_set, if_pos rfl]) ?_
    exact ⟨counts.defined, counts.settled, counts.present, (keeps _).trans counts.counted⟩
  · exact budgeted.away (by rw [get_set, if_neg here])

theorem perform (budgeted : history.Budgeted svc defn)
    (fits : defn.restartMaxRetries ≤ u32Max) (event : RestartEvent) :
    (history.perform svc event).Budgeted svc defn := by
  unfold RestartHistory.perform
  rcases ran : event.apply history.services with error | ⟨after, moved⟩
  · exact budgeted
  cases event with
  | mainExits name ended =>
    unfold RestartEvent.apply at ran
    dsimp only at ran
    split at ran
    · cases ran
    split at ran
    · obtain ⟨out, exits, is⟩ := map_eq_ok.mp ran
      cases is
      unfold applyActiveSimpleExit at exits
      split at exits
      · split at exits
        · exact budgeted.exits fits exits
        · exact budgeted.moves exits (fun is => nomatch is)
      · exact budgeted.exits fits exits
    · obtain ⟨out, exits, is⟩ := map_eq_ok.mp ran
      cases is
      exact budgeted.exits fits exits
    · cases ran
      exact budgeted.away rfl
  | windowPasses name =>
    obtain ⟨out, reset, is⟩ := map_eq_ok.mp ran
    cases is
    obtain ⟨written, there, rfl⟩ := updateRuntime_eq_ok.mp reset
    dsimp only
    split_ifs with here
    · subst here
      obtain ⟨entry, got, counts⟩ := budgeted.counts
      obtain rfl : written = entry := Option.some.inj (there.symm.trans got)
      refine of_reset (by rw [get_set, if_pos rfl]) ?_
      exact ⟨counts.defined, counts.settled, counts.present, rfl⟩
    · exact budgeted.away (by rw [get_set, if_neg here])
  | relaunches name =>
    obtain ⟨out, consumed, is⟩ := map_eq_ok.mp ran
    cases is
    refine budgeted.writes ?_ consumed
    intro runtime
    rfl
  | moves name tr away =>
    obtain ⟨out, moves, is⟩ := map_eq_ok.mp ran
    cases is
    exact budgeted.moves moves away
  | _ =>
    obtain ⟨out, fails, is⟩ := map_eq_ok.mp ran
    cases is
    exact budgeted.fails fits fails

end RestartHistory.Budgeted

/-! ## The result -/

/-- A service that starts with no failures, whatever happens: since its counter was last taken back it has
been in Backoff at most `restartMaxRetries` times, and the `k`-th wait after that ends `base * 2 ^ k`
seconds after the failure, or a minute if that is less. -/
theorem restart_budget_honoured {services : ServiceTable} {service : String} {entry : ServiceEntry}
    (found : services.get service = some entry) (settled : entry.pendingDefinition = none)
    (present : entry.definitionRemoved = false)
    (fits : entry.definition.restartMaxRetries ≤ u32Max)
    (fresh : entry.runtime.consecutiveRestartFailures = 0) (events : List RestartEvent) :
    let waits := (runCalls (RestartHistory.perform service) ⟨services, []⟩ events).backoffs
    waits.length ≤ entry.definition.restartMaxRetries ∧
      ∀ k wait, waits[k]? = some wait → wait.untilNs = some (min
        (wait.failedAtNs + min 60 (entry.definition.restartDelaySecs * 2 ^ k) * nanosPerSec) u64Max) := by
  have start : RestartHistory.Budgeted service entry.definition ⟨services, []⟩ :=
    .of_reset found ⟨rfl, settled, present, fresh⟩
  have final := invariant_of_calls (RestartHistory.Budgeted service entry.definition)
    (fun history event budgeted => budgeted.perform fits event) events start
  exact ⟨final.within, final.scheduled⟩

/-- A service that crashes while it starts, and again once it is up. -/
def crashTwice : List RestartEvent := [.moves "web" ⟨.starting, .explicitStart⟩ (by decide),
    .startFails "web" .processCrash (some 1) 5000000000,
    .relaunches "web",
    .moves "web" ⟨.starting, .restartPolicy⟩ (by decide),
    .moves "web" ⟨.active, .restartPolicy⟩ (by decide),
    .mainExits "web" ⟨9000000000, some 1, none, none⟩]

theorem restart_budget_honoured_crashTwice : (runCalls (RestartHistory.perform "web")
      ⟨(⟨∅⟩ : ServiceTable).set "web" (.fresh { name := "web" }), []⟩ crashTwice).backoffs =
        [⟨5000000000, some 6000000000⟩, ⟨9000000000, some 11000000000⟩] ∧
      (runCalls (RestartHistory.perform "web")
        ⟨(⟨∅⟩ : ServiceTable).set "web" (.fresh { name := "web" }), []⟩ crashTwice).backoffs.length ≤ 5 :=
  have found : ((⟨∅⟩ : ServiceTable).set "web" (.fresh { name := "web" })).get "web" =
      some (.fresh { name := "web" }) := by rw [ServiceTable.get_set, if_pos rfl]
  ⟨by decide +kernel, (restart_budget_honoured found rfl rfl (by decide) rfl crashTwice).1⟩

end Peinit
