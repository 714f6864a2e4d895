import Peinit.Graph.Transactions

/-!
# Beginning what the graph releases

A released operation is checked or started. A check is pending until its outcome is known, and one that
passed leaves a prechecked start, which the start of the operation consumes. `StartWork` keeps two
lists for the statements: the operations whose start was released, and those of any context.
-/

namespace Peinit

open Fallible GraphExecutionStore

structure StartExecutionStore where
  /-- The checks that have no outcome yet. -/
  pendingPreStartChecks : OrdSet OperationId
  /-- The starts whose check has passed. -/
  precheckedGraphStarts : OrdSet OperationId

namespace StartExecutionStore

def new : StartExecutionStore := ⟨∅, ∅⟩

def recordPendingPreStartCheck (self : StartExecutionStore) (operationId : OperationId) :
    StartExecutionStore :=
  { self with pendingPreStartChecks := self.pendingPreStartChecks.insert operationId }

def removePendingPreStartCheck (self : StartExecutionStore) (operationId : OperationId) :
    StartExecutionStore :=
  { self with pendingPreStartChecks := self.pendingPreStartChecks.erase operationId }

def recordPrecheckedGraphStart (self : StartExecutionStore) (operationId : OperationId) :
    StartExecutionStore :=
  { self with precheckedGraphStarts := self.precheckedGraphStarts.insert operationId }

def removePrecheckedGraphStart (self : StartExecutionStore) (operationId : OperationId) :
    StartExecutionStore :=
  { self with precheckedGraphStarts := self.precheckedGraphStarts.erase operationId }

end StartExecutionStore

inductive StartExecutionError where
  | graph (error : GraphStepError)
  | missingPrecheckedGraphStart (operationId : OperationId)
  | unknownPreStartCheckHelper (operationId : OperationId)
  deriving DecidableEq

structure StartWork where
  graph : GraphExecutionStore
  start : StartExecutionStore
  /-- Every operation whose start was released, in order. -/
  started : List OperationId
  /-- Every operation a context was made with. -/
  issued : List OperationId

namespace StartWork

abbrev WorkMutator (α : Type) : Type := Fallible StartWork StartExecutionError α

def new : StartWork := ⟨.new, .new, [], []⟩

/-- Borrow the graph store. -/
def onGraph {α : Type} (m : Fallible GraphExecutionStore GraphStepError α) : WorkMutator α where
  run self := match m.run self.graph with
    | (.ok a, graph) => (.ok a, { self with graph })
    | (.error e, graph) => (.error (.graph e), { self with graph })

/-- The check is handed to a helper; a check that needs none has its outcome right after this. -/
def beginGraphPreStartCheck (operationId : OperationId) : WorkMutator (List Unit) := do
  update fun self => { self with start := self.start.recordPendingPreStartCheck operationId }
  return []

def beginPrecheckedReadyStart (operationId : OperationId) : WorkMutator (List Unit) := do
  let self ← fetch
  if operationId ∈ self.start.precheckedGraphStarts then
    update fun self => { self with start := self.start.removePrecheckedGraphStart operationId }
    return []
  else raise (.missingPrecheckedGraphStart operationId)

def beginReady (ready : ReadyGraphOperation) : WorkMutator (List Unit) :=
  match ready.action with
  | .preStartCheck => beginGraphPreStartCheck ready.operationId
  | .start => beginPrecheckedReadyStart ready.operationId

/-- The operations that a release pass says are to be started. -/
def startsOf (ready : List ReadyGraphOperation) : List OperationId :=
  (ready.filter (·.action = .start)).map (·.operationId)

def releaseForContext (contextId : GraphContextId) (maxParallelStarts : ℕ)
    (probe : String → String → LevelProbe) : WorkMutator Unit := do
  let ready ← onGraph (mapError .execution (releaseReady contextId maxParallelStarts probe))
  let _ ← forEach beginReady ready
  update fun self => { self with started := self.started ++ startsOf ready }

/-- The outcome of a check is only taken while the check is pending. -/
def completePreStartCheckPassed (operationId : OperationId) : WorkMutator Unit := do
  let self ← fetch
  if operationId ∈ self.start.pendingPreStartChecks then
    update fun self => { self with start :=
      (self.start.removePendingPreStartCheck operationId).recordPrecheckedGraphStart operationId }
    onGraph (GraphStep.run (.checkPassed operationId))
  else raise (.unknownPreStartCheckHelper operationId)

def endPreStartCheck (operationId : OperationId) (outcome : GraphTerminalOutcome) :
    WorkMutator Unit := do
  update fun self => { self with start := self.start.removePendingPreStartCheck operationId }
  onGraph (GraphStep.run (.checkEnded operationId outcome))

/-- Make a context, and note its operations. -/
def createContext (step : GraphStep) : WorkMutator Unit := do
  onGraph step.run
  update fun self => { self with issued := self.issued ++ self.graph.associations.keys }

def run : GraphStep → WorkMutator Unit
  | .createBoot plan definitions => createContext (.createBoot plan definitions)
  | .createOnDemand dispatch services => createContext (.createOnDemand dispatch services)
  | .release contextId maxParallelStarts probe => releaseForContext contextId maxParallelStarts probe
  | .checkPassed operationId => completePreStartCheckPassed operationId
  | .checkEnded operationId outcome => endPreStartCheck operationId outcome
  | step => onGraph step.run

/-- The work after a step, which is the old one if the step failed. -/
def perform (self : StartWork) (step : GraphStep) : StartWork :=
  match (run step).run self with
  | (.ok (), after) => after
  | (.error _, _) => self

/-! ## What a successful step does -/

variable {w w' : StartWork} {step : GraphStep} {α : Type}

theorem run_onGraph_eq_ok {m : Fallible GraphExecutionStore GraphStepError α} {a : α} :
    (onGraph m).run w = (.ok a, w') ↔
      ∃ graph, m.run w.graph = (.ok a, graph) ∧ w' = { w with graph } := by
  unfold onGraph
  dsimp only
  rcases m.run w.graph with ⟨error | b, graph⟩
  · simp
  · simp only [Prod.mk.injEq, Except.ok.injEq]
    constructor
    · rintro ⟨rfl, rfl⟩
      exact ⟨graph, ⟨rfl, rfl⟩, rfl⟩
    · rintro ⟨_, ⟨rfl, rfl⟩, rfl⟩
      exact ⟨rfl, rfl⟩

theorem beginReady_cases {ready : List ReadyGraphOperation} {out : List Unit}
    (ran : (forEach beginReady ready).run w = (.ok out, w')) :
    w'.graph = w.graph ∧ w'.started = w.started ∧ w'.issued = w.issued ∧
    (∀ op, op ∈ w'.start.pendingPreStartChecks ↔
      op ∈ w.start.pendingPreStartChecks ∨ ∃ r ∈ ready, r.action = .preStartCheck ∧ r.operationId = op) ∧
    ∀ op, op ∈ w'.start.precheckedGraphStarts ↔
      op ∈ w.start.precheckedGraphStarts ∧ op ∉ startsOf ready := by
  induction ready generalizing w out with
  | nil =>
    cases ran
    simp [startsOf]
  | cons r ready ih =>
    obtain ⟨first, u, rest, begun, later, rfl⟩ := run_forEach_cons_eq_ok.mp ran
    obtain ⟨graph, started, issued, pending, prechecked⟩ := ih later
    rcases action : r.action with _ | _
    · rw [beginReady, action] at begun
      cases begun
      refine ⟨graph, started, issued, fun op => ?_, fun op => ?_⟩
      · rw [pending]
        simp only [StartExecutionStore.recordPendingPreStartCheck, OrdSet.mem_insert, List.mem_cons,
          exists_eq_or_imp, action, true_and]
        tauto
      · rw [prechecked]
        simp [startsOf, action, StartExecutionStore.recordPendingPreStartCheck]
    · rw [beginReady, action] at begun
      dsimp only [beginPrecheckedReadyStart] at begun
      rw [run_fetch_bind] at begun
      split_ifs at begun with checked
      · cases begun
        refine ⟨graph, started, issued, fun op => ?_, fun op => ?_⟩
        · rw [pending]
          simp [StartExecutionStore.removePrecheckedGraphStart, action]
        · rw [prechecked]
          simp only [StartExecutionStore.removePrecheckedGraphStart, OrdSet.mem_erase, startsOf,
            List.filter_cons, action, decide_true, if_true, List.map_cons, List.mem_cons, not_or]
          tauto
      · cases begun

theorem run_beginReady {ready : List ReadyGraphOperation} (distinct : (startsOf ready).Nodup)
    (checked : ∀ op ∈ startsOf ready, op ∈ w.start.precheckedGraphStarts) :
    ∃ out w', (forEach beginReady ready).run w = (.ok out, w') := by
  induction ready generalizing w with
  | nil => exact ⟨[], w, rfl⟩
  | cons r ready ih =>
    rcases action : r.action with _ | _
    · have same : startsOf (r :: ready) = startsOf ready := by simp [startsOf, action]
      rw [same] at distinct checked
      let next : StartWork :=
        { w with start := w.start.recordPendingPreStartCheck r.operationId }
      obtain ⟨out, w', ran⟩ := ih (w := next) distinct checked
      refine ⟨out, w', run_forEach_cons_eq_ok.mpr ⟨[], _, out, ?_, ran, rfl⟩⟩
      rw [beginReady, action]
      rfl
    · have same : startsOf (r :: ready) = r.operationId :: startsOf ready := by
        simp [startsOf, action]
      rw [same] at distinct checked
      obtain ⟨fresh, distinct⟩ := List.nodup_cons.mp distinct
      let next : StartWork :=
        { w with start := w.start.removePrecheckedGraphStart r.operationId }
      obtain ⟨out, w', ran⟩ := ih (w := next) distinct fun op mem => by
          refine (OrdSet.mem_erase _ _ _).mpr ⟨fun same => fresh (same ▸ mem), ?_⟩
          exact checked op (List.mem_cons_of_mem _ mem)
      refine ⟨out, w', run_forEach_cons_eq_ok.mpr ⟨[], _, out, ?_, ran, rfl⟩⟩
      rw [beginReady, action]
      dsimp only [beginPrecheckedReadyStart]
      rw [run_fetch_bind, if_pos (checked _ (by simp))]
      rfl

theorem perform_cases (w : StartWork) (step : GraphStep) :
    perform w step = w ∨ (run step).run w = (.ok (), perform w step) := by
  rw [perform]
  rcases (run step).run w with ⟨error | _, after⟩
  · exact .inl rfl
  · exact .inr rfl

end StartWork

end Peinit
