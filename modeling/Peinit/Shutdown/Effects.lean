import Peinit.Shutdown.Step

/-!
# What the parts of a shutdown change

No other store depends on the operations that observe a shutdown. A shutdown moves no service into
running again (`Settles`).
-/

namespace Peinit

open ServiceTable

variable {α : Type} {service : String} {nowNs : ℕ} {state before : Option ServiceState}
  {a b c after : ServiceTable} {entry : ServiceEntry}

variable {w next : ShutdownWork}

/-! ## Operations -/

namespace ShutdownWork

def OperationsOnly (w next : ShutdownWork) : Prop := ∃ operations, next = { w with operations }

theorem OperationsOnly.refl (w : ShutdownWork) : OperationsOnly w w := ⟨w.operations, rfl⟩

theorem OperationsOnly.trans {mid : ShutdownWork} (first : OperationsOnly w mid)
    (second : OperationsOnly mid next) : OperationsOnly w next := by
  obtain ⟨_, rfl⟩ := first
  obtain ⟨operations, rfl⟩ := second
  exact ⟨operations, rfl⟩

theorem operationsOnly_foldlM {f : ShutdownWork → α → Except ShutdownError ShutdownWork}
    {xs : List α} (step : ∀ work x after, f work x = .ok after → OperationsOnly work after)
    (ran : xs.foldlM f w = .ok next) : OperationsOnly w next :=
  foldlM_invariant (OperationsOnly w) (fun x _ mid after kept done =>
    kept.trans (step mid x after done)) (OperationsOnly.refl w) ran

theorem onOperations_ok {m : OperationStore.Mutator α}
    (ran : w.onOperations m = .ok next) : OperationsOnly w next := by
  unfold onOperations at ran
  split at ran
  · cases ran
    exact ⟨_, rfl⟩
  · cases ran

theorem startStop_ok (ran : w.startStop service nowNs = .ok next) :
    OperationsOnly w next := by
  unfold startStop at ran
  split at ran
  · split_ifs at ran
    · exact onOperations_ok ran
    · cases ran
      exact .refl w
  · cases ran
    exact .refl w

theorem failStop_ok {reason : String}
    (ran : w.failStop nowNs reason service = .ok next) : OperationsOnly w next := by
  unfold failStop at ran
  split at ran
  · exact onOperations_ok ran
  · cases ran
    exact .refl w

theorem settleObservation_ok {observation : OperationId × String}
    (ran : w.settleObservation nowNs observation = .ok next) : OperationsOnly w next := by
  unfold settleObservation at ran
  split at ran
  · exact onOperations_ok ran
  · exact onOperations_ok ran
  · exact onOperations_ok ran
  · exact onOperations_ok ran
  · exact onOperations_ok ran
  · cases ran
    exact .refl w

theorem settleStopped_ok (ran : w.settleStopped nowNs = .ok next) :
    OperationsOnly w next :=
  operationsOnly_foldlM (fun _ _ _ done => settleObservation_ok done) ran

theorem failStartingOperation_ok
    (ran : w.failStartingOperation nowNs service = .ok next) : OperationsOnly w next := by
  unfold failStartingOperation at ran
  split at ran
  · exact onOperations_ok ran
  · cases ran
    exact .refl w

end ShutdownWork

/-! ## Services -/

/-- The states in which a service has a main process to stop. -/
def isUp : ServiceState → Bool
  | .active | .reloading | .stopping => true
  | _ => false

/-- The states in which a service has not been asked to stop. -/
def isRunning : ServiceState → Bool
  | .active | .reloading => true
  | _ => false

/-- Down, or not in the table any more. -/
def Down (state : Option ServiceState) : Prop := state.all serviceDoneForShutdown = true

def Up (state : Option ServiceState) : Prop := state.any isUp = true

def Running (state : Option ServiceState) : Prop := state.any isRunning = true

instance (state : Option ServiceState) : Decidable (Down state) := by
  unfold Down
  infer_instance

instance (state : Option ServiceState) : Decidable (Up state) := by
  unfold Up
  infer_instance

instance (state : Option ServiceState) : Decidable (Running state) := by
  unfold Running
  infer_instance

theorem not_down_of_up (up : Up state) : ¬ Down state := by
  revert up
  unfold Up Down
  cases state with
  | none => simp
  | some state => cases state <;> decide

theorem up_of_running (running : Running state) : Up state := by
  revert running
  unfold Up Running
  cases state with
  | none => simp
  | some state => cases state <;> decide

theorem not_up_of_stopped (stopped : ¬ Running state)
    (settled : state ≠ some .stopping) : ¬ Up state := by
  revert stopped settled
  unfold Up Running
  cases state with
  | none => simp
  | some state => cases state <;> decide

/-- How a shutdown may change the state of a service: what is down stays down, what is up goes down
or stays up, and nothing starts to run. -/
structure Settles (before after : Option ServiceState) : Prop where
  down : Down before → Down after
  upOrDown : Up before ∨ Down before → Up after ∨ Down after
  notUp : ¬ Up before → ¬ Up after
  stopped : ¬ Running before → ¬ Running after

namespace Settles

theorem refl (state : Option ServiceState) : Settles state state := ⟨id, id, id, id⟩

theorem trans {a b c : Option ServiceState} (first : Settles a b) (second : Settles b c) :
    Settles a c where
  down down := second.down (first.down down)
  upOrDown known := second.upOrDown (first.upOrDown known)
  notUp idle := second.notUp (first.notUp idle)
  stopped still := second.stopped (first.stopped still)

theorem of_down {after : Option ServiceState} (down : Down after) : Settles before after where
  down _ := down
  upOrDown _ := .inr down
  notUp _ up := not_down_of_up up down
  stopped _ running := by
    revert down running
    unfold Down Running
    cases after with
    | none => simp
    | some state => cases state <;> decide

theorem stopping (running : Running before) : Settles before (some .stopping) where
  down down := absurd down (not_down_of_up (up_of_running running))
  upOrDown _ := .inl rfl
  notUp idle := absurd (up_of_running running) idle
  stopped _ := by decide

end Settles

def ServicesSettle (before after : ServiceTable) : Prop :=
  ∀ service, Settles (before.stateOf service) (after.stateOf service)

namespace ServicesSettle

theorem refl (svcs : ServiceTable) : ServicesSettle svcs svcs := fun _ => .refl _

theorem trans (first : ServicesSettle a b) (second : ServicesSettle b c) :
    ServicesSettle a c := fun service => (first service).trans (second service)

end ServicesSettle

namespace ServiceTable

variable {svcs : ServiceTable} {svc other : String} {tr : ServiceTransition}

theorem stateOf_of_get (got : svcs.get svc = some entry) :
    svcs.stateOf svc = some entry.runtime.state := by
  rw [stateOf, runtime, got]
  rfl

theorem stateOf_congr (same : after.get svc = svcs.get svc) : after.stateOf svc = svcs.stateOf svc := by
  rw [stateOf, runtime, same, stateOf, runtime]

theorem stateOf_moveEntry : (svcs.moveEntry svc entry tr).stateOf svc =
      if entry.definitionRemoved && !retainsDefinitionAfterRemoval tr.target then none
      else some tr.target := by
  rw [stateOf, runtime, get_moveEntry]
  split_ifs
  · rfl
  · rw [Option.map_some, Option.map_some, ServiceEntry.moved_runtime, ServiceRuntimeSnapshot.moved_state]

theorem recordLeakedCgroup_eq_ok {path : String} {kind : LeakedCgroupKind} {detectedAtNs : ℕ}
    (recorded : svcs.recordLeakedCgroup svc path kind detectedAtNs = .ok after) :
    ∃ entry runtime, svcs.get svc = some entry ∧ runtime.state = entry.runtime.state ∧
      runtime.cause = entry.runtime.cause ∧ after = svcs.set svc { entry with runtime } := by
  obtain ⟨entry, got, rfl⟩ := updateRuntime_eq_ok.mp recorded
  refine ⟨entry, _, got, ?_, ?_, rfl⟩ <;> split_ifs <;> rfl

theorem servicesSettle_moveEntry (down : serviceDoneForShutdown tr.target = true) :
    ServicesSettle svcs (svcs.moveEntry svc entry tr) := by
  intro other
  by_cases here : other = svc
  · subst here
    rw [stateOf_moveEntry]
    refine .of_down ?_
    split_ifs
    · rfl
    · exact down
  · rw [stateOf_congr (get_moveEntry_ne here)]
    exact .refl _

theorem get_set_self (svcs : ServiceTable) (svc : String) (e : ServiceEntry) :
    (svcs.set svc e).get svc = some e := (get_set e).trans (if_pos rfl)

theorem get_moveEntry_stopping (cause : TransitionCause) :
    (svcs.moveEntry svc entry ⟨.stopping, cause⟩).get svc = some (entry.moved ⟨.stopping, cause⟩) := by
  rw [get_moveEntry]
  simp [retainsDefinitionAfterRemoval]

end ServiceTable

/-- A running service that is stopping now, and that nothing else became of. -/
structure AskedToStop (entry asked : ServiceEntry) : Prop where
  running : isRunning entry.runtime.state = true
  stopping : asked.runtime.state = .stopping
  definitionRemoved : asked.definitionRemoved = entry.definitionRemoved
  definition : asked.definition = entry.definition

/-- Nothing has happened but that running services were asked to stop. -/
def OnlyAsked (before after : ServiceTable) : Prop :=
  ∀ service, after.get service = before.get service ∨ ∃ entry asked,
    before.get service = some entry ∧ after.get service = some asked ∧ AskedToStop entry asked

namespace OnlyAsked

variable {before : ServiceTable}

theorem refl (svcs : ServiceTable) : OnlyAsked svcs svcs := fun _ => .inl rfl

theorem trans (first : OnlyAsked a b) (second : OnlyAsked b c) :
    OnlyAsked a c := by
  intro service
  rcases second service with same | ⟨entry, asked, got, later, stop⟩
  · rw [same]
    exact first service
  · rcases first service with same | ⟨entry', asked', -, later', stop'⟩
    · exact .inr ⟨entry, asked, same ▸ got, later, stop⟩
    · -- what was asked to stop is not running any more
      cases got.symm.trans later'
      exact absurd stop.running (by rw [stop'.stopping]; decide)

theorem settle (only : OnlyAsked before after) : ServicesSettle before after := by
  intro service
  rcases only service with same | ⟨entry, asked, got, later, stop⟩
  · rw [stateOf_congr same]
    exact .refl _
  · rw [stateOf_of_get got, stateOf_of_get later, stop.stopping]
    exact .stopping stop.running

theorem up (only : OnlyAsked before after) (up : Up (before.stateOf service)) :
    Up (after.stateOf service) := by
  rcases only service with same | ⟨entry, asked, -, later, stop⟩
  · rwa [stateOf_congr same]
  · rw [stateOf_of_get later, stop.stopping]
    rfl

theorem same (only : OnlyAsked before after)
    (settled : after.stateOf service ≠ some .stopping) : after.get service = before.get service := by
  rcases only service with same | ⟨entry, asked, -, later, stop⟩
  · exact same
  · rw [stateOf_of_get later, stop.stopping] at settled
    exact absurd rfl settled

theorem of_others {asked : ServiceEntry}
    (got : before.get service = some entry) (later : after.get service = some asked)
    (stop : AskedToStop entry asked)
    (others : ∀ other, other ≠ service → after.get other = before.get other) :
    OnlyAsked before after := by
  intro other
  by_cases here : other = service
  · subst here
    exact .inr ⟨entry, asked, got, later, stop⟩
  · exact .inl (others other here)

end OnlyAsked

namespace ShutdownWork

theorem moveService_eq_ok {tr : ServiceTransition} :
    w.moveService service tr = .ok next ↔ ∃ entry, w.services.get service = some entry ∧
      isAllowedTransition entry.runtime.state tr.target tr.cause = true ∧
      next = { w with services := w.services.moveEntry service entry tr } := by
  unfold moveService
  constructor
  · intro ran
    split at ran
    · next svcs event moved =>
      cases ran
      obtain ⟨entry, got, allowed, rfl⟩ := transitionService_eq_ok moved
      exact ⟨entry, got, allowed, rfl⟩
    · cases ran
  · rintro ⟨entry, got, allowed, rfl⟩
    obtain ⟨event, moved⟩ := transitionService_ok got allowed
    rw [moved]

theorem running_of_stopping_allowed {state : ServiceState}
    (allowed : isAllowedTransition state .stopping .shutdownWave = true) : isRunning state = true := by
  revert allowed
  cases state <;> decide

theorem askedToStop_moved
    (allowed : isAllowedTransition entry.runtime.state .stopping .shutdownWave = true) :
    AskedToStop entry (entry.moved ⟨.stopping, .shutdownWave⟩) where
  running := running_of_stopping_allowed allowed
  stopping := by rw [ServiceEntry.moved_runtime, ServiceRuntimeSnapshot.moved_state]
  definitionRemoved := ServiceEntry.moved_definitionRemoved _ _
  definition := by
    unfold ServiceEntry.moved
    simp [retainsDefinitionAfterRemoval]

theorem stoppedState_done (cause : Option TransitionCause) :
    serviceDoneForShutdown (stoppedState cause) = true := by
  unfold stoppedState
  split <;> rfl

end ShutdownWork

end Peinit
