import Peinit.Lib.Fallible
import Peinit.Ids

/-!
# Operation records and their lifecycle

An operation is a request to start, stop, restart, reload or reset one service. Its record is born
`pending`, may become `running`, and ends in one of five states. A transition is refused and leaves the
record alone, or writes the fields of its new state. Times are nanoseconds since the Unix epoch.
-/

namespace Peinit

inductive OperationType where
  | start | stop | restart | reload | reset
  deriving DecidableEq

inductive OperationSource where
  | admin | boot | shutdown | dependencyPropagation | restartPolicy | timer | bindsToRecovery
  | bindsToPropagation | conflictResolution | onFailure | ttyRelease
  deriving DecidableEq

inductive OperationState where
  | pending | running | completed | failed | merged | cancelled | aborted
  deriving DecidableEq

def OperationState.isTerminal : OperationState → Bool
  | .completed | .failed | .merged | .cancelled | .aborted => true
  | .pending | .running => false

namespace OperationState

@[simp] theorem isTerminal_pending : pending.isTerminal = false := rfl

@[simp] theorem isTerminal_running : running.isTerminal = false := rfl

theorem pending_or_running {state : OperationState} (live : state.isTerminal = false) :
    state = .pending ∨ state = .running := by
  cases state <;> first | exact .inl rfl | exact .inr rfl | cases live

end OperationState

structure OperationRecord where
  id : OperationId
  operationType : OperationType
  service : String
  state : OperationState
  createdAtNs : ℕ
  /-- Where the operation's maximum lifetime is measured from. -/
  lifetimeFromNs : ℕ
  startedAtNs : Option ℕ
  completedAtNs : Option ℕ
  source : OperationSource
  caller : Option TokenSummary
  result : Option String
  mergedInto : Option OperationId
  deriving DecidableEq

inductive OperationTransitionAction where
  | start | complete | fail | merge | cancel | abort
  deriving DecidableEq

inductive OperationTransitionError where
  | invalidTransition (id : OperationId) (origin : OperationState) (action : OperationTransitionAction)
  | completionBeforeCreation (id : OperationId) (createdAtNs completedAtNs : ℕ)
  | startBeforeCreation (id : OperationId) (createdAtNs startedAtNs : ℕ)
  deriving DecidableEq

namespace OperationRecord

open Fallible

def new (id : OperationId) (operationType : OperationType) (service : String)
    (source : OperationSource) (caller : Option TokenSummary) (createdAtNs : ℕ) :
    OperationRecord where
  id := id
  operationType := operationType
  service := service
  state := .pending
  createdAtNs := createdAtNs
  lifetimeFromNs := createdAtNs
  startedAtNs := none
  completedAtNs := none
  source := source
  caller := caller
  result := none
  mergedInto := none

/-! ## Transitions -/

/-- A method that borrows the record mutably. -/
abbrev Transition : Type := Fallible OperationRecord OperationTransitionError Unit

def ensureState (expected : OperationState) (action : OperationTransitionAction) : Transition := do
  let self ← fetch
  if self.state = expected then pure ()
  else raise (.invalidTransition self.id self.state action)

def ensureCompletedAt (completedAtNs : ℕ) : Transition := do
  let self ← fetch
  if completedAtNs < self.createdAtNs then
    raise (.completionBeforeCreation self.id self.createdAtNs completedAtNs)
  else pure ()

/-- The lifetime of a held start runs again from the release of the hold. -/
def restartLifetimeClock (atNs : ℕ) : Transition := do
  ensureState .pending .start
  update fun self => { self with lifetimeFromNs := max atNs self.createdAtNs }

def start (startedAtNs : ℕ) : Transition := do
  ensureState .pending .start
  let self ← fetch
  if startedAtNs < self.createdAtNs then
    raise (.startBeforeCreation self.id self.createdAtNs startedAtNs)
  else
    update fun self => { self with state := .running, startedAtNs := some startedAtNs }

def finish (state : OperationState) (action : OperationTransitionAction) (completedAtNs : ℕ)
    (result : String) : Transition := do
  let self ← fetch
  if self.state ≠ .pending ∧ self.state ≠ .running then
    raise (.invalidTransition self.id self.state action)
  else do
    ensureCompletedAt completedAtNs
    update fun self =>
      { self with state := state, completedAtNs := some completedAtNs, result := some result }

def complete (completedAtNs : ℕ) (result : String) : Transition :=
  finish .completed .complete completedAtNs result

def fail (completedAtNs : ℕ) (failureReason : String) : Transition :=
  finish .failed .fail completedAtNs failureReason

def mergeInto (mergedInto : OperationId) (completedAtNs : ℕ) : Transition := do
  ensureState .pending .merge
  ensureCompletedAt completedAtNs
  update fun self =>
    { self with state := .merged, completedAtNs := some completedAtNs,
                mergedInto := some mergedInto }

def cancel (completedAtNs : ℕ) (reason : String) : Transition := do
  ensureState .pending .cancel
  ensureCompletedAt completedAtNs
  update fun self =>
    { self with state := .cancelled, completedAtNs := some completedAtNs, result := some reason }

def abort (completedAtNs : ℕ) (reason : String) : Transition := do
  ensureState .running .abort
  ensureCompletedAt completedAtNs
  update fun self =>
    { self with state := .aborted, completedAtNs := some completedAtNs, result := some reason }

def durationNs (self : OperationRecord) : Option ℕ :=
  self.completedAtNs.map fun completedAtNs => completedAtNs - self.createdAtNs

/-! ## What the transitions do -/

/-- The record of an operation that has come to its end. -/
def ended (self : OperationRecord) (final : OperationState) (completedAtNs : ℕ) (result : String) :
    OperationRecord :=
  { self with state := final, completedAtNs := some completedAtNs, result := some result }

/-- `m` either ends a live operation in the state `final` or refuses and writes nothing. -/
def Ends (final : OperationState) (completedAtNs : ℕ) (result : String) (m : Transition) : Prop :=
  ∀ r : OperationRecord,
    (r.state.isTerminal = false ∧ r.createdAtNs ≤ completedAtNs ∧
      m.run r = (.ok (), r.ended final completedAtNs result)) ∨ ∃ e, m.run r = (.error e, r)

section Cases

variable (doneNs : ℕ) (result : String) (r : OperationRecord)

@[simp] theorem run_ensureState_bind (expected : OperationState)
    (action : OperationTransitionAction) (next : Unit → Transition) :
    (ensureState expected action >>= next).run r =
      if r.state = expected then (next ()).run r
      else (.error (.invalidTransition r.id r.state action), r) := by
  unfold ensureState
  split_ifs with h <;> simp [run_bind, h]

@[simp] theorem run_ensureCompletedAt_bind (next : Unit → Transition) :
    (ensureCompletedAt doneNs >>= next).run r =
      if doneNs < r.createdAtNs then
        (.error (.completionBeforeCreation r.id r.createdAtNs doneNs), r)
      else (next ()).run r := by
  unfold ensureCompletedAt
  split_ifs with h <;> simp [run_bind, h]

theorem finish_ends (final : OperationState) (action : OperationTransitionAction) :
    Ends final doneNs result (finish final action doneNs result) := by
  intro r
  unfold finish
  rw [run_fetch_bind]
  split_ifs with ended
  · exact .inr ⟨_, rfl⟩
  · rw [run_ensureCompletedAt_bind]
    split_ifs with early
    · exact .inr ⟨_, rfl⟩
    · refine .inl ⟨?_, not_lt.mp early, rfl⟩
      cases h : r.state <;> simp_all

theorem run_finish {r} (final : OperationState) (action : OperationTransitionAction)
    (live : r.state.isTerminal = false) (created : r.createdAtNs ≤ doneNs) :
    (finish final action doneNs result).run r = (.ok (), r.ended final doneNs result) := by
  unfold finish
  rw [run_fetch_bind, if_neg, run_ensureCompletedAt_bind, if_neg (not_lt.mpr created)]
  · rfl
  · rintro ⟨notPending, notRunning⟩
    rcases OperationState.pending_or_running live with pending | running
    · exact notPending pending
    · exact notRunning running

/-- `cancel` and `abort` differ only in the state they expect and the one they set. -/
theorem ends_of_expected {expected : OperationState} (live : expected.isTerminal = false)
    (action : OperationTransitionAction) (final : OperationState) :
    Ends final doneNs result (do
      ensureState expected action
      ensureCompletedAt doneNs
      update fun self => self.ended final doneNs result) := by
  intro r
  rw [run_ensureState_bind]
  split_ifs with state
  · rw [run_ensureCompletedAt_bind]
    split_ifs with early
    · exact .inr ⟨_, rfl⟩
    · exact .inl ⟨by rw [state, live], not_lt.mp early, rfl⟩
  · exact .inr ⟨_, rfl⟩

theorem start_cases (startNs : ℕ) : (r.state = .pending ∧ (start startNs).run r =
        (.ok (), { r with state := .running, startedAtNs := some startNs })) ∨
      ∃ e, (start startNs).run r = (.error e, r) := by
  unfold start
  rw [run_ensureState_bind]
  split_ifs with state
  · rw [run_fetch_bind]
    split_ifs with early
    · exact .inr ⟨_, rfl⟩
    · exact .inl ⟨state, rfl⟩
  · exact .inr ⟨_, rfl⟩

theorem restartLifetimeClock_cases (atNs : ℕ) : (r.state = .pending ∧ (restartLifetimeClock atNs).run r =
        (.ok (), { r with lifetimeFromNs := max atNs r.createdAtNs })) ∨
      ∃ e, (restartLifetimeClock atNs).run r = (.error e, r) := by
  unfold restartLifetimeClock
  rw [run_ensureState_bind]
  split_ifs with state
  · exact .inl ⟨state, rfl⟩
  · exact .inr ⟨_, rfl⟩

theorem run_mergeInto (target : OperationId) (state : r.state = .pending) :
    (mergeInto target r.createdAtNs).run r =
      (.ok (), { r with state := .merged, completedAtNs := some r.createdAtNs,
                        mergedInto := some target }) := by
  simp [mergeInto, state]

end Cases

end OperationRecord

end Peinit
