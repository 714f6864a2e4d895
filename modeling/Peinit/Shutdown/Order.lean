import Peinit.Shutdown.Begun
import Peinit.Shutdown.Observers

/-!
# The order of a shutdown

A wave is begun when all earlier ones are down, the final action is taken when everyone is, and while
the shutdown waits there is something that will bring it on: a step that ends the last job it waits for
has to ask whether it can go on.
-/

namespace Peinit

open List

variable {svc : String} {svcs : ServiceTable} {jobs : JobStore} {nowNs : ℕ}

/-- A timer will bring the shutdown on. -/
def ShutdownRuntime.TimerPending (r : ShutdownRuntime) : Prop :=
  r.globalTimeoutFired = false ∨ r.stopDeadlines ≠ [] ∨ r.postKillDeadlines ≠ []

theorem ShutdownRuntime.Covers.timerPending {r : ShutdownRuntime}
    (covers : r.Covers svc) : r.TimerPending := by
  rcases covers with ⟨d, mem, -⟩ | ⟨d, mem, -⟩
  · exact .inr (.inl (ne_nil_of_mem mem))
  · exact .inr (.inr (ne_nil_of_mem mem))

namespace ShutdownWork

variable {w mid next : ShutdownWork} {r r' : ShutdownRuntime}

def EveryoneDown (services : ServiceTable) (plan : ShutdownPlan) : Prop :=
  ∀ participant ∈ plan.participants, Down (services.stateOf participant.service)

/-- Something will bring a shutdown that waits for its services on. -/
def WillGoOn (w : ShutdownWork) (r : ShutdownRuntime) : Prop :=
  r.finalization = .waitingForServices → r.TimerPending ∨ w.liveSubmittedJobsRemain = true

/-- Nothing is left to wait for. -/
structure AllDone (w : ShutdownWork) (r : ShutdownRuntime) : Prop where
  down : EveryoneDown w.services r.plan
  stop : r.stopDeadlines = []
  postKill : r.postKillDeadlines = []
  submitted : w.liveSubmittedJobsRemain = false

/-- What holds between the steps of a shutdown, and within them. -/
structure Orderly (w : ShutdownWork) (r : ShutdownRuntime) : Prop where
  passed : ∀ k, k < r.currentWave → WaveDown w.services r.plan k
  known : ∀ participant ∈ r.plan.participants,
    Up (w.services.stateOf participant.service) ∨ Down (w.services.stateOf participant.service)
  -- after the global timeout no participant runs, and each that is up has a deadline
  stopped : r.globalTimeoutFired = true → ∀ participant ∈ r.plan.participants,
    ¬ Running (w.services.stateOf participant.service)
  covered : r.globalTimeoutFired = true → ∀ participant ∈ r.plan.participants,
    Up (w.services.stateOf participant.service) → r.Covers participant.service
  signalled : ∀ signal ∈ w.signals, ∀ k, k < signal.wave → WaveDown signal.services r.plan k

/-! ## Phases that only settle services -/

theorem Orderly.settle (orderly : Orderly w r) (same : SamePlan r r')
    (settle : ∀ part ∈ r.plan.participants,
      Settles (w.services.stateOf part.service) (next.services.stateOf part.service))
    (signals : next.signals = w.signals)
    (covers : r.globalTimeoutFired = true → ∀ part ∈ r.plan.participants,
      Up (next.services.stateOf part.service) → r.Covers part.service →
        r'.Covers part.service) : Orderly next r' where
  passed := by
    intro k low participants mem part member
    rw [same.wave] at low
    rw [same.plan] at mem
    exact (settle part (ShutdownPlan.mem_participants mem member)).down
      (orderly.passed k low participants mem part member)
  known := by
    rw [same.plan]
    exact fun part mem => (settle part mem).upOrDown (orderly.known part mem)
  stopped := by
    rw [same.plan, same.fired]
    exact fun fired part mem => (settle part mem).stopped (orderly.stopped fired part mem)
  covered := by
    rw [same.plan, same.fired]
    intro fired part mem up
    refine covers fired part mem up (orderly.covered fired part mem ?_)
    by_contra idle
    exact (settle part mem).notUp idle up
  signalled := by
    rw [signals, same.plan]
    exact orderly.signalled

theorem Orderly.submittedOnly (orderly : Orderly w r) (only : SubmittedOnly w next) :
    Orderly next r :=
  orderly.settle (.refl r) (fun _ _ => by rw [only.services]; exact .refl _) only.signals
    fun _ _ _ _ => id

theorem Orderly.exit {stopTimeouts : OrdMap OperationId ℕ}
    (orderly : Orderly w r) (taken : TakenDown w.services svc svcs) :
    Orderly { w with services := svcs, stopTimeouts, jobs, shutdown := some (withoutDeadlines r svc) }
      (withoutDeadlines r svc) := by
  refine orderly.settle ⟨rfl, rfl, rfl, rfl⟩ (fun p _ => taken.settle p.service) rfl ?_
  intro _ part _ up covers
  have away : part.service ≠ svc := fun same => taken.not_up (same ▸ up)
  rcases covers with ⟨d, mem, named⟩ | ⟨d, mem, named⟩
  · exact .inl ⟨d, mem_filter.mpr ⟨mem, by simpa [named] using away⟩, named⟩
  · exact .inr ⟨d, mem_filter.mpr ⟨mem, by simpa [named] using away⟩, named⟩

theorem covers_killedAtDeadline {killSecs : ℕ} (covers : r.Covers svc) :
    (killedAtDeadline nowNs killSecs (r.afterStops nowNs) (r.dueStops nowNs)).Covers svc := by
  rcases covers with ⟨d, mem, named⟩ | ⟨d, mem, named⟩
  · by_cases due : d.dueAtNs ≤ nowNs
    · have killed : d ∈ r.dueStops nowNs := mem_filter.mpr ⟨mem, decide_eq_true due⟩
      obtain ⟨d', member, same⟩ := exists_killedAtDeadline nowNs killSecs _ killed _
      exact .inr ⟨d', member, same.trans named⟩
    · refine .inl ⟨d, ?_, named⟩
      rw [killedAtDeadline_stopDeadlines]
      exact mem_filter.mpr ⟨mem, by simpa using due⟩
  · exact .inr ⟨d, subset_killedAtDeadline nowNs killSecs _ _ mem, named⟩

theorem Orderly.postKill (orderly : Orderly w r)
    (killed : PostKilledAll (r.duePostKills nowNs) w.services svcs w.jobs jobs) :
    Orderly { w with jobs, services := svcs, shutdown := some (r.afterPostKills nowNs) }
      (r.afterPostKills nowNs) := by
  refine orderly.settle ⟨rfl, rfl, rfl, rfl⟩ (fun p _ => killed.settle p.service) rfl ?_
  intro fired part mem up covers
  rcases covers with stop | ⟨d, member, named⟩
  · exact .inl stop
  · -- a deadline that was due has taken its service down
    by_cases due : d.dueAtNs ≤ nowNs
    · refine absurd up (named ▸ killed.not_up d (mem_filter.mpr ⟨member, decide_eq_true due⟩) ?_)
      rw [named]
      exact orderly.stopped fired part mem
    · exact .inr ⟨d, mem_filter.mpr ⟨member, by simpa using due⟩, named⟩

theorem Orderly.fire (orderly : Orderly w r)
    (got : w.shutdown = some { r with globalTimeoutFired := true })
    (killed : Killed w.remainingShutdownServices w
      { r with globalTimeoutFired := true, stopDeadlines := [] } next r') : Orderly next r' := by
  have remaining : ∀ part ∈ r.plan.participants,
      part.service ∈ w.remainingShutdownServices ∨ Down (w.services.stateOf part.service) := by
    intro part mem
    by_cases left : (w.services.stateOf part.service).any
        fun state => !serviceDoneForShutdown state
    · left
      rw [remainingShutdownServices, got]
      exact mem_map.mpr ⟨part, mem_filter.mpr ⟨mem, left⟩, rfl⟩
    · right
      unfold Down
      cases state : w.services.stateOf part.service with
      | none => rfl
      | some state' => simpa [state] using left
  have settle := killed.asked.settle
  have plan : r'.plan = r.plan := killed.same.plan
  refine ⟨?_, ?_, ?_, ?_, ?_⟩
  · rw [plan, show r'.currentWave = r.currentWave from killed.same.wave]
    exact fun k low => (orderly.passed k low).settle settle
  · rw [plan]
    exact fun p mem => (settle p.service).upOrDown (orderly.known p mem)
  · rw [plan]
    intro _ p mem
    rcases remaining p mem with left | down
    · exact killed.stopped p.service left
    · exact fun running => not_down_of_up (up_of_running running) ((settle p.service).down down)
  · rw [plan]
    intro _ p mem up
    rcases remaining p mem with left | down
    · exact .inr (killed.covered p.service left)
    · exact absurd ((settle p.service).down down) (not_down_of_up up)
  · rw [killed.signals, plan]
    exact orderly.signalled

/-! ## Advancing -/

theorem nothingPending_iff : w.nothingPending r = true ↔
    r.stopDeadlines = [] ∧ r.postKillDeadlines = [] ∧ w.liveSubmittedJobsRemain = false := by
  unfold nothingPending
  simp [and_assoc]

/-- Where a shutdown that was asked to go on stands: in order, with something that will bring it on,
and ready only if it was before or nothing is left to wait for. -/
theorem Orderly.advanced (orderly : Orderly w r) (advanced : Advanced w r next r') :
    Orderly next r' ∧ WillGoOn next r' ∧
      (r'.finalization = .ready → r.finalization = .ready ∨ AllDone next r') := by
  have settle := advanced.settle
  have inOrder : Orderly next r' := by
    refine ⟨?_, ?_, ?_, ?_, ?_⟩
    · rw [advanced.plan]
      intro k low
      by_cases old : k < r.currentWave
      · exact (orderly.passed k old).settle settle
      · exact advanced.passed k (not_lt.mp old) low
    · rw [advanced.plan]
      exact fun p mem => (settle p.service).upOrDown (orderly.known p mem)
    · rw [advanced.plan, advanced.fired]
      exact fun fired p mem => (settle p.service).stopped (orderly.stopped fired p mem)
    · rw [advanced.plan, advanced.fired]
      intro fired p mem up
      have before : Up (w.services.stateOf p.service) := by
        by_contra idle
        exact (settle p.service).notUp idle up
      rcases orderly.covered fired p mem before with ⟨d, member, named⟩ | postKill
      · exact .inl ⟨d, advanced.grows member, named⟩
      · exact .inr (advanced.postKill ▸ postKill)
    · rw [advanced.plan]
      intro signal mem k low
      rcases advanced.signals signal mem with old | ⟨settled, passed⟩
      · exact orderly.signalled signal old k low
      · by_cases before : k < r.currentWave
        · exact (orderly.passed k before).settle settled
        · exact passed k (not_lt.mp before) low
  refine ⟨inOrder, fun waiting => ?_, fun ready => ?_⟩
  · have pending : next.nothingPending r' = false → r'.TimerPending ∨
        next.liveSubmittedJobsRemain = true := by
      intro some_
      by_contra none
      rw [not_or, Bool.not_eq_true] at none
      obtain ⟨noTimer, noJob⟩ := none
      unfold ShutdownRuntime.TimerPending at noTimer
      push Not at noTimer
      rw [nothingPending_iff.mpr ⟨noTimer.2.1, noTimer.2.2, noJob⟩] at some_
      cases some_
    rcases advanced.stuck waiting with incomplete | some_
    · -- someone in the current wave is up, and has a deadline if the global timeout has fired
      unfold waveComplete at incomplete
      split at incomplete
      · exact pending incomplete
      · next participants mem =>
        obtain ⟨p, member, notDone⟩ := all_eq_false.mp incomplete
        have inPlan := ShutdownPlan.mem_participants mem member
        rcases inOrder.known p inPlan with up | down
        · cases fired : r'.globalTimeoutFired with
          | false => exact .inl (.inl fired)
          | true => exact .inl (inOrder.covered fired p inPlan up).timerPending
        · exact absurd down notDone
    · exact pending some_
  · rcases advanced.finalization with same | ⟨-, none, last, down⟩
    · exact .inl (same ▸ ready)
    · right
      obtain ⟨stop, postKill, submitted⟩ := nothingPending_iff.mp none
      refine ⟨fun p mem => ?_, stop, postKill, submitted⟩
      obtain ⟨wave, isWave, member⟩ := mem_flatMap.mp mem
      obtain ⟨k, got⟩ := mem_iff_getElem?.mp isWave
      rcases Nat.lt_or_ge k r'.currentWave with before | after
      · exact inOrder.passed k before wave got p member
      · rw [advanced.plan] at got
        have within : k < r.plan.stopWaves.length := (List.getElem?_eq_some_iff.mp got).1
        have here : k = r'.currentWave := by omega
        subst here
        exact down wave got p member

theorem Orderly.advance (orderly : Orderly w r) (got : w.shutdown = some r)
    (ran : w.advanceShutdownProgress nowNs = .ok next) :
    ∃ r', next.shutdown = some r' ∧ Orderly next r' ∧ WillGoOn next r' ∧
      (r'.finalization = .ready → r.finalization = .ready ∨ AllDone next r') := by
  obtain ⟨settled, r₁, r', advanced, ⟨operations, rfl⟩, found₁, moved, rfl⟩ :=
    advanceShutdownProgress_ok ran
  cases got.symm.trans found₁
  have begun : Orderly { w with operations } r :=
    ⟨orderly.passed, orderly.known, orderly.stopped, orderly.covered, orderly.signalled⟩
  obtain ⟨inOrder, goesOn, ready⟩ := begun.advanced moved
  exact ⟨r', rfl, ⟨inOrder.passed, inOrder.known, inOrder.stopped, inOrder.covered,
    inOrder.signalled⟩, goesOn, fun is => (ready is).imp id fun done =>
      ⟨done.down, done.stop, done.postKill, done.submitted⟩⟩

end ShutdownWork

end Peinit
