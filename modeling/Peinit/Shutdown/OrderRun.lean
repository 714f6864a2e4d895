import Peinit.Shutdown.Order

/-!
# Runs of a shutdown

A run is made of the steps of the shutdown itself and of whatever the rest of the supervisor does to
its stores in between.
-/

namespace Peinit

open Fallible

variable {cfg : ShutdownSettings} {nowNs dueAtNs : ℕ} {answers : ProcessAnswers} {service : String}
  {w mid next : ShutdownWork} {r r' : ShutdownRuntime}

namespace ShutdownWork

/-! ## What the steps do before they advance -/

/-- The same shutdown, in order, up to what a phase may change. -/
structure OrderlyPhase (r : ShutdownRuntime) (mid : ShutdownWork) (r' : ShutdownRuntime) : Prop where
  shutdown : mid.shutdown = some r'
  orderly : Orderly mid r'
  finalization : r'.finalization = r.finalization

theorem OrderlyPhase.operations (phase : OrderlyPhase r w r') (only : OperationsOnly w next) :
    OrderlyPhase r next r' := by
  obtain ⟨operations, rfl⟩ := only
  have orderly := phase.orderly
  exact ⟨phase.shutdown, ⟨orderly.passed, orderly.known, orderly.stopped, orderly.covered,
    orderly.signalled⟩, phase.finalization⟩

theorem OrderlyPhase.submitted (phase : OrderlyPhase r w r') (only : SubmittedOnly w next) :
    OrderlyPhase r next r' :=
  ⟨only.shutdown.trans phase.shutdown, phase.orderly.submittedOnly only, phase.finalization⟩

theorem applyShutdownJobExit_orderly {jobs : JobStore} {ended : JobRecord} (orderly : Orderly w r)
    (got : w.shutdown = some r) (ran : { w with jobs }.applyShutdownJobExit ended = .ok mid) :
    ∃ r', OrderlyPhase r mid r' := by
  cases own : ended.service with
  | none =>
    unfold applyShutdownJobExit at ran
    rw [own] at ran
    cases ran
    exact ⟨r, got, ⟨orderly.passed, orderly.known, orderly.stopped, orderly.covered,
      orderly.signalled⟩, rfl⟩
  | some service =>
    obtain ⟨r₁, svcs, stopTimeouts, found₁, taken, rfl⟩ := applyShutdownJobExit_ok own ran
    cases got.symm.trans found₁
    exact ⟨_, rfl, orderly.exit taken, rfl⟩

theorem killDueServices_orderly
    {out : ShutdownWork × List String} (orderly : Orderly w r) (got : w.shutdown = some r)
    (ran : w.killDueServices cfg nowNs = .ok out) : ∃ r', OrderlyPhase r out.1 r' := by
  rcases killDueServices_cases got ran with
    ⟨-, mid, r', kill, fired, killed⟩ | ⟨-, -, stopTimeouts, same⟩
  · have only := killAllLiveSubmittedJobs_ok kill
    have inOrder : Orderly mid r :=
      orderly.settle (.refl r) (fun _ _ => by rw [only.services]; exact .refl _) only.signals
        fun _ _ _ _ => id
    exact ⟨r', killed.shutdown, inOrder.fire fired killed, killed.same.finalization⟩
  · have plan := killedAtDeadline_samePlan nowNs cfg.postKillTimeoutSecs
      (r.dueStops nowNs) (r.afterStops nowNs)
    rw [same]
    exact ⟨_, rfl, orderly.settle ⟨plan.plan, plan.wave, plan.fired, plan.finalization⟩
      (fun _ _ => .refl _) rfl fun _ _ _ _ => covers_killedAtDeadline, plan.finalization⟩

theorem TimeoutPhases.orderly {killed failed looked acted : ShutdownWork} {kills : List String}
    {processed : ℕ} {came : Bool}
    (phases : TimeoutPhases cfg answers nowNs w killed kills failed looked processed acted came)
    (orderly : Orderly w r) (got : w.shutdown = some r) : ∃ r', OrderlyPhase r acted r' := by
  obtain ⟨r₁, afterKill⟩ := killDueServices_orderly orderly got phases.kill
  have afterFail := afterKill.operations phases.fail
  obtain ⟨jobs, svcs, same, postKilled, -⟩ :=
    processDuePostKillDeadlines_ok afterFail.shutdown phases.look
  subst same
  have afterLook : OrderlyPhase r _ _ :=
    ⟨rfl, afterFail.orderly.postKill postKilled, afterFail.finalization⟩
  exact ⟨_, afterLook.submitted phases.only⟩

/-! ## Deadlines that are moved -/

theorem covers_extendFirst {other : String} (covers : r.Covers other) :
    { r with stopDeadlines := extendFirst service dueAtNs r.stopDeadlines }.Covers other := by
  rcases covers with ⟨d, mem, named⟩ | postKill
  · have member : other ∈ (extendFirst service dueAtNs r.stopDeadlines).map (·.service) := by
      rw [extendFirst_services]
      exact List.mem_map.mpr ⟨d, mem, named⟩
    obtain ⟨d', listed', named'⟩ := List.mem_map.mp member
    exact .inl ⟨d', listed', named'⟩
  · exact .inr postKill

/-! ## Where everyone is down, the shutdown goes on -/

theorem advanceWaves_of_down (nowNs fuel : ℕ) (down : EveryoneDown w.services r.plan) :
    ∃ out, advanceWaves nowNs fuel w r = .ok out := by
  induction fuel generalizing r with
  | zero => exact ⟨_, rfl⟩
  | succ fuel ih =>
    unfold advanceWaves
    by_cases incomplete : (!w.waveComplete r r.currentWave) = true
    · exact ⟨_, if_pos incomplete⟩
    · rw [if_neg incomplete]
      by_cases last : r.plan.stopWaves.length ≤ r.currentWave + 1
      · exact ⟨_, if_pos last⟩
      · have within : r.currentWave + 1 < r.plan.stopWaves.length := not_le.mp last
        have mem := List.getElem?_eq_getElem within
        have complete : w.waveComplete { r with currentWave := r.currentWave + 1 }
            (r.currentWave + 1) = true := by
          unfold waveComplete
          rw [mem]
          exact List.all_eq_true.mpr fun p member =>
            down p (ShutdownPlan.mem_participants mem member)
        rw [if_neg last, if_pos complete]
        exact ih down

theorem advanceShutdownProgress_of_down (sound : OperationsSound w.operations nowNs)
    (got : w.shutdown = some r) (down : EveryoneDown w.services r.plan) :
    ∃ next, w.advanceShutdownProgress nowNs = .ok next := by
  obtain ⟨settled, settle, -⟩ := settleStopped_total sound
  obtain ⟨operations, rfl⟩ := settleStopped_ok settle
  obtain ⟨⟨advanced, r'⟩, waves⟩ := advanceWaves_of_down (w := { w with operations }) nowNs
    (r.plan.stopWaves.length + 1) down
  refine ⟨{ advanced with shutdown := some r' }, bind_eq_ok.mpr ⟨_, settle, ?_⟩⟩
  rw [got] at waves ⊢
  exact bind_eq_ok.mpr ⟨_, waves, rfl⟩

theorem Orderly.timerPending_of_failed {e : ShutdownError} (orderly : Orderly w r)
    (sound : OperationsSound w.operations nowNs) (got : w.shutdown = some r)
    (failed : w.advanceShutdownProgress nowNs = .error e) : r.TimerPending := by
  cases fired : r.globalTimeoutFired with
  | false => exact .inl fired
  | true =>
    by_cases someoneUp : ∃ p ∈ r.plan.participants, Up (w.services.stateOf p.service)
    · obtain ⟨p, mem, up⟩ := someoneUp
      exact (orderly.covered fired p mem up).timerPending
    · have down : EveryoneDown w.services r.plan := fun p mem =>
        (orderly.known p mem).resolve_left fun up => someoneUp ⟨p, mem, up⟩
      obtain ⟨next, advanced⟩ := advanceShutdownProgress_of_down sound got down
      rw [failed] at advanced
      cases advanced

end ShutdownWork

/-! ## Runs -/

/-- What can happen between two states of the stores: a shutdown begins, a step of the shutdown, or
whatever else the supervisor does to its stores. -/
inductive ShutdownMove where
  | begin (kind : ShutdownKind) (nowNs : ℕ) (answers : ProcessAnswers)
  | step (step : ShutdownStep)
  | outside (next : ShutdownWork)

namespace ShutdownMove

open ShutdownWork

def perform (settings : ShutdownSettings) (work : ShutdownWork) : ShutdownMove → ShutdownWork
  | begin kind nowNs answers =>
    ((transaction (·.beginShutdown settings answers kind nowNs)).run work).2
  -- without a shutdown in progress the supervisor takes other paths
  | step s => if work.shutdown.isSome then s.perform settings work else work
  | outside next => { next with shutdown := work.shutdown, signals := work.signals }

/-- The moves after which a shutdown is in order.  When the setup of a submitted job fails, something else
has to be there that brings the shutdown on.  The rest of the supervisor brings no participant up again,
and takes the last live job away only where a timer is there.  The clock is not behind the operations
that observe the shutdown. -/
def Expected (work : ShutdownWork) : ShutdownMove → Prop
  | begin .. => True
  | step s => match s.event with
    | .reaped .. => OperationsSound work.operations s.nowNs
    | .submittedSetupFailed setupStatusFd _ => ∀ r, work.shutdown = some r →
      r.finalization = .waitingForServices → work.pendingProcessSetups.contains setupStatusFd →
        r.TimerPending ∨ ∃ a b, a ≠ b ∧ work.submitted.isLive a = true ∧ work.submitted.isLive b = true
    | _ => True
  | outside next => ∀ r, work.shutdown = some r →
    (∀ participant ∈ r.plan.participants, Settles (work.services.stateOf participant.service)
      (next.services.stateOf participant.service)) ∧
    (r.finalization = .waitingForServices → r.TimerPending ∨ next.liveSubmittedJobsRemain = true)

end ShutdownMove

namespace ShutdownWork

/-- No shutdown has begun, or it is in order and something will bring it on. -/
def InOrder (w : ShutdownWork) : Prop :=
  w.shutdown = none ∧ w.signals = [] ∨ ∃ r, w.shutdown = some r ∧ Orderly w r ∧ WillGoOn w r

/-- A state in order, that is ready only if it was before or nothing is left to wait for. -/
structure Follows (w next : ShutdownWork) : Prop where
  inOrder : InOrder next
  ready : ∀ r', next.shutdown = some r' → r'.finalization = .ready →
    (∃ r, w.shutdown = some r ∧ r.finalization = .ready) ∨ AllDone next r'

theorem Follows.stay (inOrder : InOrder w) : Follows w w :=
  ⟨inOrder, fun r' got ready => .inl ⟨r', got, ready⟩⟩

theorem Follows.advance (got : w.shutdown = some r) (phase : OrderlyPhase r mid r')
    (ran : mid.advanceShutdownProgress nowNs = .ok next) : Follows w next := by
  obtain ⟨r₂, found₂, orderly, goesOn, ready⟩ := phase.orderly.advance phase.shutdown ran
  refine ⟨.inr ⟨r₂, found₂, orderly, goesOn⟩, fun r₃ found₃ isReady => ?_⟩
  cases found₂.symm.trans found₃
  exact (ready isReady).imp (fun before => ⟨r, got, phase.finalization ▸ before⟩) id

theorem Follows.same (got : next.shutdown = some r) (before : w.shutdown = some r)
    (orderly : Orderly next r) (goesOn : WillGoOn next r) : Follows w next :=
  ⟨.inr ⟨r, got, orderly, goesOn⟩, fun r' found' ready => by
    cases got.symm.trans found'
    exact .inl ⟨r, before, ready⟩⟩

theorem follows_begin {kind : ShutdownKind} (fresh : w.signals = [])
    (ran : w.beginShutdown cfg answers kind nowNs = .ok next) : Follows w next := by
  obtain ⟨r, begun⟩ := beginShutdown_ok ran
  obtain ⟨cleared, killed, wave, moved, signals₁, -, -, killedAll, waveBegun, stopped, stop, rfl⟩ :=
    begun.stages
  have only := stopSubmittedJobsForShutdown_ok stop
  have beginning := beginStopWave_ok waveBegun
  have signals₂ : killed.signals = w.signals := by
    obtain ⟨_, _, _, _, rfl, -⟩ := killedAll.same
    exact signals₁
  have settle : ServicesSettle w.services stopped.services := by
    rw [only.services]
    exact (moved.settle rfl).trans ((killedAll.moved.settle rfl).trans beginning.settle)
  refine ⟨.inr ⟨r, rfl, ⟨?_, ?_, ?_, ?_, ?_⟩, fun _ => .inl (.inl begun.fired)⟩, ?_⟩
  · rw [begun.wave]
    exact fun _ low => absurd low (Nat.not_lt_zero _)
  · exact fun p mem => (settle p.service).upOrDown (.inl (begun.planned.up mem))
  · rw [begun.fired]
    nofun
  · rw [begun.fired]
    nofun
  · intro signal mem k low
    rw [only.signals] at mem
    rcases beginning.signals signal mem with old | ⟨zero, -⟩
    · rw [signals₂, fresh] at old
      cases old
    · omega
  · intro r' got ready
    cases got
    right
    rw [begun.finalization] at ready
    split_ifs at ready with none
    simp only [Bool.and_eq_true, List.isEmpty_iff, Bool.not_eq_true'] at none
    obtain ⟨⟨noWaves, noPostKill⟩, noJobs⟩ := none
    refine ⟨fun p mem => ?_, ?_, noPostKill, noJobs⟩
    · rw [ShutdownPlan.participants, noWaves] at mem
      cases mem
    · unfold beginStopWave at waveBegun
      rw [noWaves] at waveBegun
      exact (Prod.mk.inj (Except.ok.inj waveBegun)).2.symm

/-! ## The steps -/

theorem follows_reaped {pid : ℕ}
    {status : ChildExitStatus} {endNs : ℕ} (got : w.shutdown = some r) (orderly : Orderly w r)
    (goesOn : WillGoOn w r) (sound : OperationsSound w.operations endNs) :
    Follows w ((applyReapedChild cfg answers pid status endNs).run w).2 := by
  have reaped := applyReapedChild_cases cfg answers pid status endNs w
  generalize ((applyReapedChild cfg answers pid status endNs).run w).2 = after at reaped ⊢
  cases reaped with
  | ignored => exact .stay (.inr ⟨r, got, orderly, goesOn⟩)
  | kept mid e only failed =>
    have inOrder := orderly.submittedOnly only
    have found' := only.shutdown.trans got
    have timer := inOrder.timerPending_of_failed (only.operations ▸ sound) found' failed
    exact .same found' got inOrder fun _ => .inl timer
  | submitted mid next only advance =>
    exact .advance got ⟨only.shutdown.trans got, orderly.submittedOnly only, rfl⟩ advance
  | service id job next reaped known type ran =>
    obtain ⟨jobs, job', ended, mid, -, -, exit, advance⟩ := reapServiceJob_ok ran
    obtain ⟨r', phase⟩ := applyShutdownJobExit_orderly orderly got exit
    exact .advance got phase advance

theorem follows_setupFailed {setupStatusFd : ℤ} {error : String} {atNs : ℕ} (got : w.shutdown = some r)
    (orderly : Orderly w r) (goesOn : WillGoOn w r)
    (expected : r.finalization = .waitingForServices →
      w.pendingProcessSetups.contains setupStatusFd → r.TimerPending ∨
        ∃ a b, a ≠ b ∧ w.submitted.isLive a = true ∧ w.submitted.isLive b = true)
    (ran : w.submittedSetupFailed cfg answers setupStatusFd error atNs = .ok next) :
    Follows w next := by
  rcases submittedSetupFailed_ok ran with rfl | ⟨setup, dead, pending, only, others⟩
  · exact .stay (.inr ⟨r, got, orderly, goesOn⟩)
  · refine .same (only.shutdown.trans got) got (orderly.submittedOnly only) fun waiting => ?_
    have mem : w.pendingProcessSetups.contains setupStatusFd = true := by
      rw [Std.ExtTreeMap.contains_eq_isSome_getElem?, pending]
      rfl
    refine (expected waiting mem).imp (fun timer => timer) fun ⟨a, b, distinct, liveA, liveB⟩ => ?_
    rw [liveSubmittedJobsRemain_iff]
    by_cases here : a = dead
    · exact ⟨b, (others b fun same => distinct (here.trans same.symm)).trans liveB⟩
    · exact ⟨a, (others a here).trans liveA⟩

theorem follows_extended (got : w.shutdown = some r) (orderly : Orderly w r) (goesOn : WillGoOn w r) :
    Follows w (w.extendStopDeadline service dueAtNs) := by
  have after : (w.extendStopDeadline service dueAtNs).shutdown = some
      { r with stopDeadlines := extendFirst service dueAtNs r.stopDeadlines } := by
    rw [extendStopDeadline, modifyShutdown, got]
    rfl
  refine ⟨.inr ⟨_, after, orderly.settle ⟨rfl, rfl, rfl, rfl⟩ (fun _ _ => .refl _) rfl
    fun _ _ _ _ => covers_extendFirst, fun waiting => ?_⟩, fun r' found' ready => ?_⟩
  · refine (goesOn waiting).imp (fun timer => ?_) fun live => live
    rcases timer with unfired | stop | postKill
    · exact .inl unfired
    · refine .inr (.inl fun none => stop ?_)
      have svcs := extendFirst_services service dueAtNs r.stopDeadlines
      rw [show extendFirst service dueAtNs r.stopDeadlines = [] from none] at svcs
      exact List.map_eq_nil_iff.mp svcs.symm
    · exact .inr (.inr postKill)
  · cases after.symm.trans found'
    exact .inl ⟨r, got, ready⟩

theorem follows_finalAction {failure : Option String} {afterNs : Option ℕ}
    (got : w.shutdown = some r) (orderly : Orderly w r) (goesOn : WillGoOn w r) :
    Follows w (w.finalizeDueShutdown failure afterNs nowNs) := by
  unfold finalizeDueShutdown
  split_ifs
  · have ended : ∀ state, state = finalizationAfterRebootResult failure (timeAfterAttempt afterNs nowNs) →
        state ≠ .ready ∧ state ≠ .waitingForServices := by
      rintro _ rfl
      cases failure <;> exact ⟨nofun, nofun⟩
    have after : (w.modifyShutdown fun shutdown => { shutdown with
        finalization := finalizationAfterRebootResult failure
          (timeAfterAttempt afterNs nowNs) }).shutdown = some { r with
        finalization := finalizationAfterRebootResult failure (timeAfterAttempt afterNs nowNs) } := by
      rw [modifyShutdown, got]
      rfl
    refine ⟨.inr ⟨_, after, ⟨orderly.passed, orderly.known, orderly.stopped, orderly.covered,
      orderly.signalled⟩, fun waiting => absurd waiting (ended _ rfl).2⟩, fun r' found' ready => ?_⟩
    cases after.symm.trans found'
    exact absurd ready (ended _ rfl).1
  · exact .stay (.inr ⟨r, got, orderly, goesOn⟩)

theorem follows_step {step : ShutdownStep} (got : w.shutdown = some r)
    (orderly : Orderly w r) (goesOn : WillGoOn w r) (expected : (ShutdownMove.step step).Expected w) :
    Follows w (step.perform cfg w) := by
  have stay : Follows w w := .stay (.inr ⟨r, got, orderly, goesOn⟩)
  obtain ⟨nowNs, answers, event⟩ := step
  cases event with
  | reaped pid status => exact follows_reaped got orderly goesOn expected
  | timeouts =>
    refine transaction_rule stay fun next ran => ?_
    obtain ⟨_, _, _, _, _, _, _, phases, ⟨-, rfl⟩ | ⟨-, advance⟩⟩ := processDueShutdownTimeouts_cases ran
    · exact stay
    · obtain ⟨r', phase⟩ := phases.orderly orderly got
      exact .advance got phase advance
  | submittedSetupSucceeded setupStatusFd =>
    refine transaction_rule stay fun next ran => ?_
    rcases submittedSetupSucceeded_ok ran with rfl | ⟨setup, jobs, rfl, -⟩
    · exact stay
    · exact .same got got ⟨orderly.passed, orderly.known, orderly.stopped, orderly.covered,
        orderly.signalled⟩ goesOn
  | submittedSetupFailed setupStatusFd error =>
    exact transaction_rule stay fun next ran =>
      follows_setupFailed got orderly goesOn (expected r got) ran
  | stopExtended service dueAtNs => exact follows_extended got orderly goesOn
  | finalAction failure afterNs => exact follows_finalAction got orderly goesOn

theorem follows_move {move : ShutdownMove} (inOrder : InOrder w)
    (expected : move.Expected w) : Follows w (move.perform cfg w) := by
  cases move with
  | begin kind nowNs answers =>
    refine transaction_rule (.stay inOrder) fun next ran => ?_
    rcases inOrder with ⟨-, fresh⟩ | ⟨r, got, -⟩
    · exact follows_begin fresh ran
    · obtain ⟨r', begun⟩ := beginShutdown_ok ran
      cases got.symm.trans begun.fresh
  | step step =>
    unfold ShutdownMove.perform
    rcases inOrder with ⟨none, fresh⟩ | ⟨r, got, orderly, goesOn⟩
    · rw [none]
      exact .stay (.inl ⟨none, fresh⟩)
    · rw [got]
      exact follows_step got orderly goesOn expected
  | outside next =>
    rcases inOrder with ⟨none, fresh⟩ | ⟨r, got, orderly, goesOn⟩
    · exact ⟨.inl ⟨none, fresh⟩, fun r' got => by cases none.symm.trans got⟩
    · obtain ⟨settle, pending⟩ := expected r got
      exact .same got got (orderly.settle (.refl r) settle rfl fun _ _ _ _ covers => covers) pending

end ShutdownWork

/-! ## The order of every run -/

open ShutdownWork

/-- In every run of a shutdown a participant is asked to stop only when all earlier waves are down; it
becomes ready only when everyone is down, no deadline is pending and no submitted job is live; and
while it waits a timer is pending or a submitted job is live. -/
theorem shutdown_in_order (settings : ShutdownSettings) {w : ShutdownWork} (idle : w.shutdown = none)
    (fresh : w.signals = []) (moves : List ShutdownMove)
    (expected : Admissible (ShutdownMove.perform settings) ShutdownMove.Expected w moves) :
    (∀ r, (runCalls (ShutdownMove.perform settings) w moves).shutdown = some r →
      (∀ signal ∈ (runCalls (ShutdownMove.perform settings) w moves).signals, ∀ k, k < signal.wave →
        WaveDown signal.services r.plan k) ∧
      (r.finalization = .waitingForServices → r.TimerPending ∨
        (runCalls (ShutdownMove.perform settings) w moves).liveSubmittedJobsRemain = true)) ∧
    ∀ move : ShutdownMove, move.Expected (runCalls (ShutdownMove.perform settings) w moves) → ∀ r',
      (move.perform settings (runCalls (ShutdownMove.perform settings) w moves)).shutdown = some r' →
      r'.finalization = .ready →
      (∃ r, (runCalls (ShutdownMove.perform settings) w moves).shutdown = some r ∧
        r.finalization = .ready) ∨
      AllDone (move.perform settings (runCalls (ShutdownMove.perform settings) w moves)) r' := by
  have inOrder : InOrder (runCalls (ShutdownMove.perform settings) w moves) :=
    invariant_of_step InOrder (fun _ _ held ok => (follows_move held ok).inOrder) moves
      (.inl ⟨idle, fresh⟩) expected
  refine ⟨fun r found => ?_, fun move ok => (follows_move inOrder ok).ready⟩
  rcases inOrder with ⟨none, -⟩ | ⟨r', found', orderly, goesOn⟩
  · cases none.symm.trans found
  · cases found'.symm.trans found
    exact ⟨orderly.signalled, goesOn⟩

/-- The controller finds every cgroup empty. -/
def nothingLeft : ProcessAnswers := ⟨fun _ => false, fun _ => false⟩

def serviceIn (state : ServiceState) (definition : ServiceDefinition) : ServiceEntry :=
  { definition, runtime := { state } }

def runningJob (id pid : ℕ) (service : String) (jobType : JobType) : JobRecord :=
  { id := ⟨id⟩, service := some service, jobType, state := .running, pid := some pid,
    pidfd := some pid, createdAtNs := 0, startedAtNs := some 0 }

/-- `web` rests on `db`, and both are up. -/
def webOnDb : ShutdownWork where
  services := ⟨(∅ : OrdMap String ServiceEntry).insertMany
    [("db", serviceIn .active { name := "db" }),
      ("web", serviceIn .active { name := "web", requires := ["db"] })]⟩
  operations := .new
  jobs :=
    { records := (∅ : OrdMap JobId JobRecord).insertMany
        [(⟨1⟩, runningJob 1 11 "db" .serviceMain), (⟨2⟩, runningJob 2 12 "web" .serviceMain)]
      activeByService := (∅ : OrdMap String (List JobId)).insertMany [("db", [⟨1⟩]), ("web", [⟨2⟩])] }

def timeoutsAt (seconds : ℕ) : ShutdownMove :=
  .step ⟨seconds * nanosPerSec, nothingLeft, .timeouts⟩

/-- Neither stops by itself: each is killed when its stop is due, first `web` and then `db`. -/
def killedInTurn : List ShutdownMove :=
  [.begin .poweroff 0 nothingLeft, timeoutsAt 10, timeoutsAt 15, timeoutsAt 25]

theorem shutdown_in_order_killedInTurn :
    ((runCalls (ShutdownMove.perform {}) webOnDb killedInTurn).signals.map fun signal =>
      (signal.wave, signal.service)) = [(0, "web"), (1, "db")] ∧
    (∀ signal ∈ (runCalls (ShutdownMove.perform {}) webOnDb killedInTurn).signals, ∀ k,
      k < signal.wave → ∀ r, (runCalls (ShutdownMove.perform {}) webOnDb killedInTurn).shutdown =
        some r → WaveDown signal.services r.plan k) ∧
    ∀ r', ((timeoutsAt 30).perform {}
        (runCalls (ShutdownMove.perform {}) webOnDb killedInTurn)).shutdown = some r' →
      r'.finalization = .ready ∧ AllDone ((timeoutsAt 30).perform {}
        (runCalls (ShutdownMove.perform {}) webOnDb killedInTurn)) r' := by
  have ordered := shutdown_in_order {} (w := webOnDb) rfl rfl killedInTurn
    ⟨trivial, trivial, trivial, trivial, trivial⟩
  refine ⟨by decide +kernel, fun signal listed k low r found => (ordered.1 r found).1 signal listed k low,
    fun r' found => ?_⟩
  have ready : (((timeoutsAt 30).perform {}
      (runCalls (ShutdownMove.perform {}) webOnDb killedInTurn)).shutdown.map (·.finalization)) =
        some .ready := by decide +kernel
  have waiting : ((runCalls (ShutdownMove.perform {}) webOnDb killedInTurn).shutdown.map
      (·.finalization)) = some .waitingForServices := by decide +kernel
  rw [found, Option.map_some, Option.some.injEq] at ready
  refine ⟨ready, (ordered.2 (timeoutsAt 30) trivial r' found ready).resolve_left ?_⟩
  rintro ⟨r, before, isReady⟩
  rw [before, Option.map_some, isReady] at waiting
  cases waiting

/-- A submitted job whose process is being set up. -/
def settingUp : ShutdownWork where
  services := ⟨∅⟩
  operations := .new
  jobs :=
    { records := (∅ : OrdMap JobId JobRecord).insert ⟨1⟩
        { id := ⟨1⟩, service := none, jobType := .submitted, createdAtNs := 0 }
      activeByService := ∅ }
  submitted := ⟨(∅ : OrdMap JobId SubmittedJobEntry).insert ⟨1⟩ { jobId := ⟨1⟩ }⟩
  pendingProcessSetups := (∅ : OrdMap ℤ PendingLaunchSetup).insert 7 ⟨⟨1⟩, 100, 8, 0⟩

/-- The global timeout fires while the process is being set up, and then the setup fails. -/
def setupFailsLate : List ShutdownMove := [.begin .poweroff 0 nothingLeft, timeoutsAt 90,
    .step ⟨91 * nanosPerSec, nothingLeft, .submittedSetupFailed 7 "exec failed"⟩]

/-- The shutdown waits for services, and nothing will bring it on. -/
theorem shutdown_waits_for_nothing :
    settingUp.shutdown = none ∧ settingUp.signals = [] ∧
    ∃ r, (runCalls (ShutdownMove.perform {}) settingUp setupFailsLate).shutdown = some r ∧
      r.finalization = .waitingForServices ∧ ¬ r.TimerPending ∧
      (runCalls (ShutdownMove.perform {}) settingUp setupFailsLate).liveSubmittedJobsRemain =
        false := by
  refine ⟨rfl, rfl, ?_⟩
  unfold ShutdownRuntime.TimerPending
  decide +kernel

end Peinit
