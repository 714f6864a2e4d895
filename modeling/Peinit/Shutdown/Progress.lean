import Peinit.Shutdown.Effects
import Peinit.Shutdown.Spread

/-!
# How a shutdown advances

What beginning the stop of a participant, of a wave and of the waves after it changes, and where the
shutdown stands when it cannot advance any further.
-/

namespace Peinit

open ServiceTable

variable {plan : ShutdownPlan} {wave nowNs : ℕ} {participant : ShutdownStopParticipant}
  {svc : String} {out : ShutdownWork × List ShutdownStopDeadline} {before after : ServiceTable}
  {dues deadlines' : List ShutdownStopDeadline} {mid : ShutdownWork} {r r' : ShutdownRuntime}

theorem ShutdownPlan.mem_participants {participants : ShutdownStopWave}
    (mem : plan.stopWaves[wave]? = some participants)
    (member : participant ∈ participants.services) : participant ∈ plan.participants :=
  List.mem_flatMap.mpr ⟨participants, List.mem_of_getElem? mem, member⟩

namespace ShutdownWork

variable {w next : ShutdownWork}

/-! ## The stop of one participant -/

theorem retainedStopDeadline_service {out : ShutdownStopDeadline × Option String}
    (ran : w.retainedStopDeadline svc wave nowNs = .ok out) : out.1.service = svc := by
  obtain ⟨cgroupId, -, rest⟩ := bind_eq_ok.mp ran
  dsimp only at rest
  split at rest
  · split at rest <;> cases rest <;> rfl
  · split at rest
    · cases rest
    · split at rest
      · cases rest
        rfl
      · split_ifs at rest <;> cases rest <;> rfl

theorem retainStop_eq_ok {out : ShutdownWork × ShutdownStopDeadline}
    (ran : w.retainStop wave nowNs svc = .ok out) :
    out.2.service = svc ∧ OperationsOnly (w.signal wave svc) out.1 := by
  obtain ⟨⟨due, reason⟩, retained, rest⟩ := bind_eq_ok.mp ran
  obtain ⟨started, start, last⟩ := bind_eq_ok.mp rest
  cases last
  exact ⟨retainedStopDeadline_service retained, startStop_ok start⟩

theorem onlyAsked_recordStoppingTimeout {entry : ServiceEntry} {evidence : ServiceStoppingTimeoutEvidence}
    (got : before.get svc = some entry)
    (allowed : isAllowedTransition entry.runtime.state .stopping .shutdownWave = true)
    (recorded : (before.moveEntry svc entry ⟨.stopping, .shutdownWave⟩).recordStoppingTimeout
      svc evidence = .ok after) :
    OnlyAsked before after ∧ after.stateOf svc = some .stopping := by
  obtain ⟨moved, kept, rfl⟩ := updateRuntime_eq_ok.mp recorded
  rw [get_moveEntry_stopping] at kept
  cases kept
  have stop := askedToStop_moved allowed
  refine ⟨.of_others got (get_set_self _ _ _)
    ⟨stop.running, stop.stopping, stop.definitionRemoved, stop.definition⟩ fun other away => ?_, ?_⟩
  · rw [get_set, if_neg (Ne.symm away), get_moveEntry_ne away]
  · rw [stateOf_of_get (get_set_self _ _ _)]
    exact congrArg some stop.stopping

theorem requestStop_eq_ok {out : ShutdownWork × ShutdownStopDeadline}
    (ran : w.requestStop wave nowNs svc = .ok out) :
    out.2.service = svc ∧ Running (w.services.stateOf svc) ∧
      ∃ svcs, OnlyAsked w.services svcs ∧ svcs.stateOf svc = some .stopping ∧
        OperationsOnly { w.signal wave svc with services := svcs } out.1 := by
  obtain ⟨target, -, rest⟩ := bind_eq_ok.mp ran
  obtain ⟨moved, move, rest⟩ := bind_eq_ok.mp rest
  obtain ⟨entry, got, allowed, rfl⟩ := moveService_eq_ok.mp move
  obtain ⟨dueAtNs, -, rest⟩ := bind_eq_ok.mp rest
  obtain ⟨svcs, recorded, rest⟩ := bind_eq_ok.mp rest
  obtain ⟨started, start, rest⟩ := bind_eq_ok.mp rest
  obtain ⟨cgroupId, -, last⟩ := bind_eq_ok.mp rest
  cases last
  have recorded := mapError_eq_ok.mp recorded
  obtain ⟨asked, stopping⟩ := onlyAsked_recordStoppingTimeout got allowed recorded
  refine ⟨rfl, ?_, svcs, asked, stopping, startStop_ok start⟩
  have state : w.services.stateOf svc = some entry.runtime.state := stateOf_of_get got
  rw [state]
  exact running_of_stopping_allowed allowed

/-- What beginning to stop a participant does: nothing if it is down; else there is a deadline for it,
and it was stopping already or has been asked to stop. -/
inductive ParticipantStopped (wave : ℕ) (participant : ShutdownStopParticipant) (w : ShutdownWork)
    (deadlines : List ShutdownStopDeadline) : ShutdownWork → List ShutdownStopDeadline → Prop
  | passed (done : Down (w.services.stateOf participant.service)) :
      ParticipantStopped wave participant w deadlines w deadlines
  | retained (operations : OperationStore) (deadline : ShutdownStopDeadline)
      (waiting : ¬ Down (w.services.stateOf participant.service))
      (stopping : participant.alreadyStopping = true)
      (named : deadline.service = participant.service) :
      ParticipantStopped wave participant w deadlines
        { w.signal wave participant.service with operations } (deadlines ++ [deadline])
  | asked (operations : OperationStore) (deadline : ShutdownStopDeadline) (services : ServiceTable)
      (waiting : ¬ Down (w.services.stateOf participant.service))
      (running : participant.alreadyStopping = false)
      (asked : OnlyAsked w.services services)
      (named : deadline.service = participant.service) :
      ParticipantStopped wave participant w deadlines
        { w.signal wave participant.service with services, operations } (deadlines ++ [deadline])

theorem stopParticipant_cases (ran : stopParticipant wave nowNs (w, dues) participant = .ok out) :
    ParticipantStopped wave participant w dues out.1 out.2 := by
  unfold stopParticipant at ran
  by_cases done : w.participantDone participant.service = true
  · rw [if_pos done] at ran
    cases ran
    exact .passed done
  · rw [if_neg done] at ran
    obtain ⟨⟨after, due⟩, stopped, last⟩ := bind_eq_ok.mp ran
    cases last
    unfold beginParticipantStop at stopped
    cases stopping : participant.alreadyStopping with
    | true =>
      rw [if_pos stopping] at stopped
      obtain ⟨named, operations, rfl⟩ := retainStop_eq_ok stopped
      exact .retained operations due done stopping named
    | false =>
      rw [if_neg (by rw [stopping]; decide)] at stopped
      obtain ⟨named, -, svcs, asked, -, operations, rfl⟩ := requestStop_eq_ok stopped
      exact .asked operations due svcs done stopping asked named

/-! ## A wave -/

/-- What beginning a wave changes. -/
structure WaveBegun (plan : ShutdownPlan) (wave : ℕ) (w : ShutdownWork) (deadlines : List ShutdownStopDeadline)
    (next : ShutdownWork) (deadlines' : List ShutdownStopDeadline) : Prop where
  asked : OnlyAsked w.services next.services
  jobs : next.jobs = w.jobs
  submitted : next.submitted = w.submitted
  shutdown : next.shutdown = w.shutdown
  grows : deadlines ⊆ deadlines'
  added : ∀ deadline ∈ deadlines', deadline ∈ deadlines ∨
    ¬ Down (w.services.stateOf deadline.service) ∧
      ∃ participant ∈ plan.participants, participant.service = deadline.service
  signals : ∀ signal ∈ next.signals, signal ∈ w.signals ∨
    signal.wave = wave ∧ ServicesSettle w.services signal.services

theorem WaveBegun.settle (begun : WaveBegun plan wave w dues next deadlines') :
    ServicesSettle w.services next.services := begun.asked.settle

theorem WaveBegun.refl (plan : ShutdownPlan) (wave : ℕ) (w : ShutdownWork)
    (dues : List ShutdownStopDeadline) : WaveBegun plan wave w dues w dues :=
  ⟨.refl _, rfl, rfl, rfl, fun _ => id, fun _ => .inl, fun _ => .inl⟩

theorem WaveBegun.stop {between : List ShutdownStopDeadline}
    (planned : participant ∈ plan.participants) (begun : WaveBegun plan wave w dues mid between)
    (stopped : ParticipantStopped wave participant mid between next deadlines') :
    WaveBegun plan wave w dues next deadlines' := by
  have extended : ∀ due : ShutdownStopDeadline, due.service = participant.service →
      ¬ Down (mid.services.stateOf participant.service) → ∀ d ∈ between ++ [due],
      d ∈ dues ∨ ¬ Down (w.services.stateOf d.service) ∧
        ∃ participant ∈ plan.participants, participant.service = d.service := by
    intro due named waiting d listed
    rcases List.mem_append.mp listed with old | new
    · exact begun.added d old
    · rw [List.mem_singleton.mp new, named]
      exact .inr ⟨fun down => waiting ((begun.settle _).down down), participant, planned, rfl⟩
  have signalled : ∀ signal ∈ mid.signals ++ [⟨wave, participant.service, mid.services⟩],
      signal ∈ w.signals ∨ signal.wave = wave ∧ ServicesSettle w.services signal.services := by
    intro signal listed
    rcases List.mem_append.mp listed with old | new
    · exact begun.signals signal old
    · rw [List.mem_singleton.mp new]
      exact .inr ⟨rfl, begun.settle⟩
  cases stopped with
  | passed done => exact begun
  | retained operations due waiting stopping named =>
    exact ⟨begun.asked, begun.jobs, begun.submitted, begun.shutdown,
      fun d mem => List.mem_append_left _ (begun.grows mem), extended due named waiting,
      signalled⟩
  | asked operations due svcs waiting running asked named =>
    exact ⟨begun.asked.trans asked, begun.jobs, begun.submitted, begun.shutdown,
      fun d mem => List.mem_append_left _ (begun.grows mem), extended due named waiting,
      signalled⟩

theorem beginStopWave_invariant (ran : w.beginStopWave plan wave nowNs dues = .ok out)
    (Inv : ShutdownWork → List ShutdownStopDeadline → Prop) (inv : Inv w dues)
    (step : ∀ participants, plan.stopWaves[wave]? = some participants →
      ∀ participant ∈ participants.services, ∀ mid ds after ds', Inv mid ds →
        ParticipantStopped wave participant mid ds after ds' → Inv after ds') : Inv out.1 out.2 := by
  unfold beginStopWave at ran
  split at ran
  · cases ran
    exact inv
  · next participants mem =>
    exact foldlM_invariant (fun state => Inv state.1 state.2)
      (fun participant member state after held stopped =>
        step participants mem participant member _ _ _ _ held (stopParticipant_cases stopped))
      inv ran

theorem beginStopWave_ok (ran : w.beginStopWave plan wave nowNs dues = .ok out) :
    WaveBegun plan wave w dues out.1 out.2 :=
  beginStopWave_invariant ran (WaveBegun plan wave w dues) (.refl plan wave w dues)
    fun _ mem _ member _ _ _ _ begun stopped =>
      begun.stop (ShutdownPlan.mem_participants mem member) stopped

theorem beginStopWave_more
    (ran : w.beginStopWave plan wave nowNs dues = .ok out) :
    ∃ more, out.2 = dues ++ more ∧ (more.map (·.service)).Sublist (plan.waveServices wave) := by
  unfold beginStopWave at ran
  unfold ShutdownPlan.waveServices
  split at ran
  · cases ran
    exact ⟨[], (List.append_nil _).symm, List.nil_sublist _⟩
  · next participants planned =>
    rw [planned, Option.elim_some]
    generalize participants.services = svcs at ran
    induction svcs generalizing w dues with
    | nil =>
      cases ran
      exact ⟨[], (List.append_nil _).symm, List.nil_sublist _⟩
    | cons part svcs ih =>
      obtain ⟨⟨mid, between⟩, first, rest⟩ := bind_eq_ok.mp ran
      obtain ⟨more, same, few⟩ := ih rest
      cases stopParticipant_cases first with
      | passed done => exact ⟨more, same, few.cons _⟩
      | retained operations due waiting stopping named
      | asked operations due services' waiting running asked named =>
        refine ⟨due :: more, same.trans (List.append_assoc dues [due] more), ?_⟩
        rw [List.map_cons, named]
        exact few.cons_cons _

/-! ## The waves in a row -/

def WaveDown (services : ServiceTable) (plan : ShutdownPlan) (wave : ℕ) : Prop :=
  ∀ participants, plan.stopWaves[wave]? = some participants →
    ∀ participant ∈ participants.services, Down (services.stateOf participant.service)

theorem WaveDown.settle (down : WaveDown before plan wave) (settle : ServicesSettle before after) :
    WaveDown after plan wave :=
  fun participants mem participant member =>
    (settle participant.service).down (down participants mem participant member)

theorem waveDown_of_waveComplete {shutdown : ShutdownRuntime}
    (complete : w.waveComplete shutdown wave = true) : WaveDown w.services shutdown.plan wave := by
  intro participants mem participant member
  unfold waveComplete at complete
  rw [mem] at complete
  exact List.all_eq_true.mp complete participant member

/-- What advancing changes, and why it stops. -/
structure Advanced (w : ShutdownWork) (r : ShutdownRuntime) (next : ShutdownWork)
    (r' : ShutdownRuntime) : Prop where
  asked : OnlyAsked w.services next.services
  jobs : next.jobs = w.jobs
  submitted : next.submitted = w.submitted
  plan : r'.plan = r.plan
  fired : r'.globalTimeoutFired = r.globalTimeoutFired
  postKill : r'.postKillDeadlines = r.postKillDeadlines
  grows : r.stopDeadlines ⊆ r'.stopDeadlines
  spread : Spread r → Spread r'
  added : ∀ deadline ∈ r'.stopDeadlines, deadline ∈ r.stopDeadlines ∨
    ¬ Down (w.services.stateOf deadline.service) ∧
      ∃ participant ∈ r.plan.participants, participant.service = deadline.service
  wave : r.currentWave ≤ r'.currentWave
  passed : ∀ k, r.currentWave ≤ k → k < r'.currentWave → WaveDown next.services r.plan k
  signals : ∀ signal ∈ next.signals, signal ∈ w.signals ∨
    ServicesSettle w.services signal.services ∧
      ∀ k, r.currentWave ≤ k → k < signal.wave → WaveDown signal.services r.plan k
  finalization : r'.finalization = r.finalization ∨
    r'.finalization = .ready ∧ next.nothingPending r' = true ∧
      r.plan.stopWaves.length ≤ r'.currentWave + 1 ∧ WaveDown next.services r.plan r'.currentWave
  stuck : r'.finalization = .waitingForServices →
    next.waveComplete r' r'.currentWave = false ∨ next.nothingPending r' = false

theorem Advanced.settle (advanced : Advanced w r next r') :
    ServicesSettle w.services next.services := advanced.asked.settle

theorem Advanced.stay {finalization : ShutdownFinalizationState}
    (may : finalization = r.finalization ∨ finalization = .ready ∧ w.nothingPending r = true ∧
      r.plan.stopWaves.length ≤ r.currentWave + 1 ∧ WaveDown w.services r.plan r.currentWave)
    (stuck : finalization = .waitingForServices →
      w.waveComplete r r.currentWave = false ∨ w.nothingPending r = false) :
    Advanced w r w { r with finalization } where
  asked := .refl _
  jobs := rfl
  submitted := rfl
  plan := rfl
  fired := rfl
  postKill := rfl
  grows := fun _ => id
  spread spread := ⟨spread.participants, spread.postKill, spread.stop, spread.begun⟩
  added := fun _ => .inl
  wave := le_rfl
  passed := fun _ low high => absurd high (Nat.not_lt.mpr low)
  signals := fun _ => .inl
  finalization := may
  stuck := stuck

theorem Advanced.after_wave (down : WaveDown w.services r.plan r.currentWave)
    (more : ∃ more, dues = r.stopDeadlines ++ more ∧
      (more.map (·.service)).Sublist (r.plan.waveServices (r.currentWave + 1)))
    (begun : WaveBegun r.plan (r.currentWave + 1) w r.stopDeadlines mid dues)
    (later : Advanced mid
      { r with currentWave := r.currentWave + 1, stopDeadlines := dues } next r') :
    Advanced w r next r' where
  asked := begun.asked.trans later.asked
  jobs := later.jobs.trans begun.jobs
  submitted := later.submitted.trans begun.submitted
  plan := later.plan
  fired := later.fired
  postKill := later.postKill
  grows := fun _ mem => later.grows (begun.grows mem)
  spread spread := by
    obtain ⟨more, rfl, few⟩ := more
    exact later.spread (spread.wave few)
  added := by
    intro due listed
    rcases later.added due listed with earlier | ⟨waiting, planned⟩
    · exact begun.added due earlier
    · exact .inr ⟨fun down => waiting ((begun.settle _).down down), planned⟩
  wave := le_of_lt later.wave
  passed := by
    intro k low high
    rcases Nat.eq_or_lt_of_le low with rfl | above
    · exact down.settle (begun.settle.trans later.settle)
    · exact later.passed k above high
  signals := by
    intro signal listed
    rcases later.signals signal listed with old | ⟨settle, earlier⟩
    · rcases begun.signals signal old with older | ⟨wave, settle⟩
      · exact .inl older
      · refine .inr ⟨settle, fun k low high => ?_⟩
        have here : k = r.currentWave := by omega
        subst here
        exact down.settle settle
    · refine .inr ⟨begun.settle.trans settle, fun k low high => ?_⟩
      rcases Nat.eq_or_lt_of_le low with rfl | above
      · exact down.settle (begun.settle.trans settle)
      · exact earlier k above high
  finalization := later.finalization
  stuck := later.stuck

theorem advanceWaves_ok (fuel : ℕ) {out : ShutdownWork × ShutdownRuntime} (some_ : 0 < fuel)
    (enough : r.plan.stopWaves.length < r.currentWave + fuel)
    (ran : advanceWaves nowNs fuel w r = .ok out) : Advanced w r out.1 out.2 := by
  induction fuel generalizing w r with
  | zero => exact absurd some_ (lt_irrefl 0)
  | succ fuel ih =>
    unfold advanceWaves at ran
    by_cases complete : w.waveComplete r r.currentWave = true
    · rw [if_neg (by rw [complete]; decide)] at ran
      have down := waveDown_of_waveComplete complete
      dsimp only at ran
      by_cases last : r.plan.stopWaves.length ≤ r.currentWave + 1
      · rw [if_pos last] at ran
        by_cases ready : w.nothingPending r = true ∧ r.finalization = .waitingForServices
        · rw [if_pos ready] at ran
          cases ran
          exact .stay (.inr ⟨rfl, ready.1, last, down⟩) (fun waiting => nomatch waiting)
        · rw [if_neg ready] at ran
          cases ran
          refine .stay (.inl rfl) fun waiting => .inr ?_
          cases pending : w.nothingPending r
          · rfl
          · exact absurd ⟨pending, waiting⟩ ready
      · split_ifs at ran with skip
        · exact .after_wave down ⟨[], by simp, by simp⟩ (.refl r.plan _ w r.stopDeadlines)
            (ih (by omega) (by dsimp only; omega) ran)
        · obtain ⟨⟨mid, dues⟩, begun, rest⟩ := bind_eq_ok.mp ran
          exact .after_wave down (beginStopWave_more begun) (beginStopWave_ok begun) (ih (by omega) (by dsimp only; omega) rest)
    · rw [if_pos (by rw [Bool.not_eq_true] at complete; rw [complete]; decide)] at ran
      cases ran
      exact .stay (.inl rfl) fun _ => .inl (Bool.not_eq_true _ ▸ complete)

theorem advanceShutdownProgress_ok (ran : w.advanceShutdownProgress nowNs = .ok next) :
    ∃ settled r r' advanced, OperationsOnly w settled ∧ w.shutdown = some r ∧
      Advanced settled r advanced r' ∧ next = { advanced with shutdown := some r' } := by
  obtain ⟨settled, settle, rest⟩ := bind_eq_ok.mp ran
  obtain ⟨operations, rfl⟩ := settleStopped_ok settle
  split at rest
  · cases rest
  · next r got =>
    obtain ⟨⟨advanced, r'⟩, waves, last⟩ := bind_eq_ok.mp rest
    cases last
    refine ⟨_, r, r', advanced, ⟨operations, rfl⟩, got, ?_, rfl⟩
    exact advanceWaves_ok _ (Nat.succ_pos _) (by omega) waves

end ShutdownWork

end Peinit
