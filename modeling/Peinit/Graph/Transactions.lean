import Peinit.Graph.Associations
import Peinit.Graph.Steps

/-!
# Steps of the supervisor

The supervisor works on a copy of the store and keeps it only if everything succeeded. Its steps are
the outcomes a start can have and the passes between them; for each, the effect on one context.
-/

namespace Peinit

open Fallible GraphExecutionStore GraphExecutionContext OrdMap Function List

variable {ids : List GraphContextId} {c c' : GraphExecutionContext} {service a : String}
  {outcome : GraphTerminalOutcome} {events : List GraphExecutionEvent} {α : Type}
  {s t : GraphExecutionStore} {operationId : OperationId} {status : GraphMemberStatus}
  {step : GraphStep}

inductive GraphStepError where
  | build (error : GraphContextBuildError)
  | execution (error : GraphExecutionError)
  deriving DecidableEq

inductive GraphStep where
  | createBoot (plan : Phase2BootPlan) (definitions : List ServiceDefinition)
  | createOnDemand (dispatch : OnDemandStartDispatch) (services : ServiceTable)
  | release (contextId : GraphContextId) (maxParallelStarts : ℕ) (probe : String → String → LevelProbe)
  /-- The pre-start check of the operation passed. -/
  | checkPassed (operationId : OperationId)
  /-- The pre-start check ended the start: skipped, or failed an assertion. -/
  | checkEnded (operationId : OperationId) (outcome : GraphTerminalOutcome)
  /-- The start itself ended. -/
  | startEnded (operationId : OperationId) (outcome : GraphTerminalOutcome)
  | awaitRestart (operationId : OperationId)
  | settleRestart (service : String) (outcome : GraphTerminalOutcome)
  | clearHold (operationId : OperationId)
  | retire

namespace GraphStep

/-- Throw the result away. -/
def ignore {ε α : Type} (f : ε → GraphStepError) (m : Fallible GraphExecutionStore ε α) :
    Fallible GraphExecutionStore GraphStepError Unit := do
  let _ ← mapError f m
  return ()

def run : GraphStep → Fallible GraphExecutionStore GraphStepError Unit
  | createBoot plan definitions => ignore .build (createBootContext plan definitions)
  | createOnDemand dispatch services => ignore .build (createOnDemandContext dispatch services)
  | release contextId maxParallelStarts probe =>
    ignore .execution (releaseReady contextId maxParallelStarts probe)
  | checkPassed operationId => ignore .execution (applyPreStartCheckPassed operationId)
  | checkEnded operationId outcome => do
    ignore .execution (applyOperationTerminal operationId outcome)
    ignore .execution (pruneDormantDependencies operationId)
  | startEnded operationId outcome => ignore .execution (applyOperationTerminal operationId outcome)
  | awaitRestart operationId => ignore .execution (applyOperationAwaitingRestart operationId)
  | settleRestart service outcome => ignore .execution (settleAwaitingRestart service outcome)
  | clearHold operationId => update (·.clearRecordedOperationHold operationId)
  | retire => update (·.retireDrainedContexts.2)

/-- The store after a step, which is the old one if the step failed. -/
def commit (s : GraphExecutionStore) (step : GraphStep) : GraphExecutionStore :=
  match step.run.run s with
  | (.ok (), t) => t
  | (.error _, _) => s

end GraphStep

/-! ## One context at a time -/

namespace GraphExecutionStore

variable {op : OperationId}

theorem forEach_onContext_parts {m : GraphContextId → ContextMutator (List α)}
    (distinct : ids.Nodup) {out : List α}
    (run : (forEach (fun cid => onContext cid (m cid)) ids).run s = (.ok out, t)) :
    t.associations = s.associations ∧ ∃ parts : GraphContextId → List α, out = ids.flatMap parts ∧
      ∀ id : GraphContextId,
        (id ∈ ids → ∃ c c', s.contexts[id]? = some c ∧ (m id).run c = (.ok (parts id), c') ∧
          t.contexts[id]? = some c') ∧
        (id ∉ ids → t.contexts[id]? = s.contexts[id]?) := by
  induction ids generalizing s out with
  | nil =>
    cases run
    exact ⟨rfl, fun _ => [], rfl, fun id =>
      ⟨fun mem => absurd mem (not_mem_nil), fun _ => rfl⟩⟩
  | cons first ids ih =>
    obtain ⟨fresh, distinct⟩ := nodup_cons.mp distinct
    obtain ⟨part, u, later, done, rest, rfl⟩ := run_forEach_cons_eq_ok.mp run
    obtain ⟨c, c', live, inner, rfl⟩ := run_onContext_eq_ok done
    obtain ⟨associations, parts, rfl, contexts⟩ := ih distinct rest
    refine ⟨associations, update parts first part, ?_, fun id => ⟨fun mem => ?_, fun unlisted => ?_⟩⟩
    · rw [flatMap_cons, update_self]
      congr 1
      refine flatMap_congr fun id mem => ?_
      have other : id ≠ first := fun same => fresh (same ▸ mem)
      rw [update_of_ne other]
    · by_cases same : id = first
      · subst same
        refine ⟨c, c', live, ?_, ?_⟩
        · rw [update_self]
          exact inner
        · rw [(contexts id).2 fresh, get_insert, if_pos rfl]
      · obtain ⟨c₁, c₂, before, step, after⟩ := (contexts id).1 ((mem_cons.mp mem).resolve_left same)
        rw [get_insert, if_neg (Ne.symm same)] at before
        rw [← update_of_ne same part parts] at step
        exact ⟨c₁, c₂, before, step, after⟩
    · obtain ⟨other, unlisted⟩ := not_or.mp (mem_cons.not.mp unlisted)
      rw [(contexts id).2 unlisted, get_insert, if_neg (Ne.symm other)]

theorem nodup_associatedContexts : (s.associatedContexts op).Nodup := by
  rw [associatedContexts]
  rcases s.associations[op]? with _ | contexts
  · exact nodup_nil
  · have distinct := contexts.distinct_toList
    simp only [Std.compare_eq_iff_eq] at distinct
    exact distinct

theorem forAssociated_cases {m : GraphContextId → ContextMutator (List α)} {out : List α}
    (run : (forAssociated op m).run s = (.ok out, t)) :
    t.associations = s.associations ∧ ∀ id : GraphContextId,
      (id ∈ s.associatedContexts op → ∃ c part c', s.contexts[id]? = some c ∧
        (m id).run c = (.ok part, c') ∧ t.contexts[id]? = some c' ∧ part ⊆ out) ∧
      (id ∉ s.associatedContexts op → t.contexts[id]? = s.contexts[id]?) := by
  obtain ⟨associations, parts, rfl, contexts⟩ := forEach_onContext_parts nodup_associatedContexts run
  refine ⟨associations, fun id => ⟨fun mem => ?_, (contexts id).2⟩⟩
  obtain ⟨c, c', before, step, after⟩ := (contexts id).1 mem
  exact ⟨c, parts id, c', before, step, after, fun x h => mem_flatMap.mpr ⟨id, mem, h⟩⟩

theorem settleContext_cases (run : (settleContext service outcome).run c = (.ok events, c')) :
    c.statusOf service ≠ some .awaitingRestart ∧ c' = c ∧ events = [] ∨
      c.statusOf service = some .awaitingRestart ∧
        ∃ op, (endMember service op outcome).run c = (.ok events, c') := by
  rw [settleContext, run_fetch_bind] at run
  rcases got : c.members[service]? with _ | m
  · rw [got] at run
    cases run
    left
    rw [statusOf, got]
    exact ⟨by simp, rfl, rfl⟩
  · rw [got] at run
    rw [statusOf_of_get got]
    dsimp only at run
    split_ifs at run with awaiting
    · exact .inr ⟨by rw [awaiting], _, run⟩
    · cases run
      exact .inl ⟨by simpa using awaiting, rfl, rfl⟩

theorem settleAwaitingRestart_cases
    (run : (settleAwaitingRestart service outcome).run s = (.ok events, t)) :
    t.associations = s.associations ∧ ∀ (id : GraphContextId) (c : GraphExecutionContext),
      s.contexts[id]? = some c → ∃ c', t.contexts[id]? = some c' ∧
        (c.statusOf service ≠ some .awaitingRestart ∧ c' = c ∨
          c.statusOf service = some .awaitingRestart ∧ c' = c.ended service outcome) := by
  obtain ⟨associations, parts, -, contexts⟩ := forEach_onContext_parts (nodup_keys _) run
  refine ⟨associations, fun id c live => ?_⟩
  obtain ⟨c₁, c', before, settled, after⟩ := (contexts id).1 ((mem_keys _ _).mpr ⟨c, live⟩)
  cases live.symm.trans before
  refine ⟨c', after, ?_⟩
  obtain ⟨other, rfl, -⟩ | ⟨awaiting, _, ran⟩ := settleContext_cases settled
  · exact .inl ⟨other, rfl⟩
  · obtain ⟨-, -, -, rfl, -⟩ := endMember_cases ran
    exact .inr ⟨awaiting, rfl⟩

/-- `service` is what the operation starts, according to one of its contexts. -/
def Starts (s : GraphExecutionStore) (operationId : OperationId) (service : String) : Prop :=
  ∃ id ∈ s.associatedContexts operationId, ∃ c m, s.contexts[id]? = some c ∧
    c.memberForOperation operationId = some m ∧ m.service = service

/-- The members of a context whose end an outcome of the operation is: its own, and one of the same
service that awaits a restart. -/
def Resolves (s : GraphExecutionStore) (operationId : OperationId) (c : GraphExecutionContext)
    (r : String) : Prop :=
  (∃ m ∈ c.memberForOperation operationId, m.service = r) ∨
    s.Starts operationId r ∧ c.statusOf r = some .awaitingRestart

/-- The operation's own member in the context `id` has ended, if it has one. -/
def OwnEnded (s : GraphExecutionStore) (operationId : OperationId) (outcome : GraphTerminalOutcome)
    (id : GraphContextId) (c between : GraphExecutionContext) : Prop :=
  id ∈ s.associatedContexts operationId ∧ (∃ m, c.memberForOperation operationId = some m ∧
      (∃ m', c.members[m.service]? = some m' ∧ m'.status.isTerminal = false) ∧
      between = c.ended m.service outcome) ∨
    id ∉ s.associatedContexts operationId ∧ between = c

/-- What a terminal outcome of the operation does to the context `id`: its own member ends, and then
a member of the same service that was awaiting a restart. -/
structure EndedIn (s : GraphExecutionStore) (operationId : OperationId)
    (outcome : GraphTerminalOutcome) (id : GraphContextId) (c c' : GraphExecutionContext) : Prop where
  through : ∃ between : GraphExecutionContext, OwnEnded s operationId outcome id c between ∧
    (c' = between ∨ ∃ service, s.Starts operationId service ∧
      between.statusOf service = some .awaitingRestart ∧ c' = between.ended service outcome)

theorem applyContextTerminal_cases (run : (applyContextTerminal op outcome).run c = (.ok events, c')) :
    ∃ m, c.memberForOperation op = some m ∧
      (∃ m', c.members[m.service]? = some m' ∧ m'.status.isTerminal = false) ∧
      c' = c.ended m.service outcome ∧
      events.head? = some ⟨c.id, m.service, op, outcome⟩ := by
  rcases named : c.memberForOperation op with _ | m
  · rw [applyContextTerminal, requireMemberForOperation, run_bind, run_fetch_bind, named] at run
    cases run
  · rw [applyContextTerminal, run_bind_of_ok (run_requireMemberForOperation named)] at run
    obtain ⟨m', got, live, ended, head⟩ := endMember_cases run
    exact ⟨m, rfl, ⟨m', got, live⟩, ended, head⟩

/-- The first event is that of the operation's first context. -/
theorem head_forAssociated
    (run : (forAssociated op fun _ => applyContextTerminal op outcome).run s = (.ok events, t)) :
    s.associatedContexts op = [] ∧ events = [] ∨
      ∃ id ids c m, s.associatedContexts op = id :: ids ∧ s.contexts[id]? = some c ∧
        c.memberForOperation op = some m ∧ events.head? = some ⟨c.id, m.service, op, outcome⟩ := by
  rw [forAssociated, run_fetch_bind] at run
  rcases mem : s.associatedContexts op with _ | ⟨id, ids⟩ <;> rw [mem] at run
  · cases run
    exact .inl ⟨rfl, rfl⟩
  · obtain ⟨part, u, later, done, -, rfl⟩ := run_forEach_cons_eq_ok.mp run
    obtain ⟨c, c', live, inner, -⟩ := run_onContext_eq_ok done
    obtain ⟨m, named, -, -, first⟩ := applyContextTerminal_cases inner
    exact .inr ⟨id, ids, c, m, rfl, live, named, by rw [head?_append, first]; rfl⟩

theorem starts_of_head {event : GraphExecutionEvent}
    (run : (forAssociated op fun _ => applyContextTerminal op outcome).run s =
      (.ok events, t)) (head : events.head? = some event) : s.Starts op event.service := by
  obtain ⟨-, rfl⟩ | ⟨id, ids, c, m, mem, live, named, first⟩ := head_forAssociated run
  · cases head
  · cases first.symm.trans head
    exact ⟨id, by rw [mem]; simp, c, m, live, named, rfl⟩

theorem applyOperationTerminal_cases (run : (applyOperationTerminal op outcome).run s = (.ok events, t)) :
    t.associations = s.associations ∧ ∀ (id : GraphContextId) (c : GraphExecutionContext),
      s.contexts[id]? = some c → ∃ c', t.contexts[id]? = some c' ∧ EndedIn s op outcome id c c' := by
  obtain ⟨first, u, own, rest⟩ := run_bind_eq_ok.mp run
  obtain ⟨settled, v, settle, last⟩ := run_bind_eq_ok.mp rest
  cases last
  obtain ⟨associations, contexts⟩ := forAssociated_cases own
  -- The context between the operation's own events and the settlement.
  have middle : ∀ (id : GraphContextId) (c : GraphExecutionContext), s.contexts[id]? = some c →
      ∃ between, u.contexts[id]? = some between ∧ OwnEnded s op outcome id c between := by
    intro id c live
    by_cases mem : id ∈ s.associatedContexts op
    · obtain ⟨c₁, part, c', before, ran, after, -⟩ := (contexts id).1 mem
      rw [live] at before
      cases before
      obtain ⟨m, named, got, rfl, -⟩ := applyContextTerminal_cases ran
      exact ⟨_, after, .inl ⟨mem, m, named, got, rfl⟩⟩
    · exact ⟨c, by rw [(contexts id).2 mem, live], .inr ⟨mem, rfl⟩⟩
  rw [settleFirst] at settle
  rcases head : first.head? with _ | event
  · rw [head] at settle
    cases settle
    refine ⟨associations, fun id c live => ?_⟩
    obtain ⟨between, there, was⟩ := middle id c live
    exact ⟨between, there, between, was, .inl rfl⟩
  · rw [head] at settle
    obtain ⟨associations', contexts'⟩ := settleAwaitingRestart_cases settle
    refine ⟨associations'.trans associations, fun id c live => ?_⟩
    obtain ⟨between, there, was⟩ := middle id c live
    obtain ⟨c', after, ⟨-, rfl⟩ | ⟨awaiting, rfl⟩⟩ := contexts' id between there
    · exact ⟨c', after, c', was, .inl rfl⟩
    · exact ⟨_, after, between, was, .inr ⟨event.service, starts_of_head own head, awaiting, rfl⟩⟩

end GraphExecutionStore

/-! ## The store after a step -/

namespace GraphStep

theorem run_ignore {ε : Type} {f : ε → GraphStepError} {m : Fallible GraphExecutionStore ε α} :
    (ignore f m).run s = (.ok (), t) ↔ ∃ a, m.run s = (.ok a, t) := by
  rw [ignore, run_bind_eq_ok]
  simp only [run_mapError_eq_ok, run_pure, Prod.mk.injEq, true_and]
  exact ⟨fun ⟨a, u, ran, same⟩ => ⟨a, same ▸ ran⟩, fun ⟨a, ran⟩ => ⟨a, t, ran, rfl⟩⟩

theorem commit_cases (s : GraphExecutionStore) (step : GraphStep) :
    commit s step = s ∨ step.run.run s = (.ok (), commit s step) := by
  rw [commit]
  rcases step.run.run s with ⟨error | _, t⟩
  · exact .inl rfl
  · exact .inr rfl

theorem commit_of_run (ran : step.run.run s = (.ok (), t)) : commit s step = t := by
  rw [commit, ran]

def Builds (step : GraphStep) (id : GraphContextId) (c : GraphExecutionContext) : Prop :=
  match step with
  | .createBoot plan definitions => bootContext id plan definitions = .ok c
  | .createOnDemand dispatch services => onDemandContext id dispatch services = .ok c
  | _ => False

theorem Builds.id {id : GraphContextId} (built : step.Builds id c) : c.id = id := by
  cases step with
  | createBoot plan defs => exact (bootContext_builtFrom built).1
  | createOnDemand dispatch svcs => exact (onDemandContext_builtFrom built).1
  | _ => exact built.elim

theorem Builds.wellFormed {id : GraphContextId} (built : step.Builds id c) : WellFormed c := by
  cases step with
  | createBoot plan defs =>
    obtain ⟨-, members, -, from_⟩ := bootContext_builtFrom built
    exact from_.wellFormed
  | createOnDemand dispatch svcs =>
    obtain ⟨-, members, ⟨-, from_⟩ | from_⟩ := onDemandContext_builtFrom built
    · exact from_.wellFormed
    · exact from_.wellFormed
  | _ => exact built.elim

theorem create_cases (build : GraphContextId → Except GraphContextBuildError GraphExecutionContext)
    (ran : (ignore GraphStepError.build (do
      let self ← fetch
      let context ← ofExcept (build self.pendingContextId)
      update (·.insertContext context)
      return self.pendingContextId)).run s = (.ok (), t)) :
    ∃ c, build s.pendingContextId = .ok c ∧ t = s.insertContext c := by
  obtain ⟨id, created⟩ := run_ignore.mp ran
  rw [run_fetch_bind] at created
  rcases built : build s.pendingContextId with error | c
  · rw [built] at created
    cases created
  · rw [built] at created
    cases created
    exact ⟨c, rfl, rfl⟩

/-- A step changes statuses and holds, adds a context under the next id, or retires contexts. -/
theorem commit_shape (s : GraphExecutionStore) (step : GraphStep) :
    SameContexts s (commit s step) ∨
      (∃ c, step.Builds s.pendingContextId c ∧ commit s step = s.insertContext c) ∨
      commit s step = s.retireDrainedContexts.2 := by
  rcases commit_cases s step with failed | ran
  · rw [failed]
    exact .inl SameContexts.rfl
  · cases step with
    | createBoot plan defs => exact .inr (.inl (create_cases (bootContext · plan defs) ran))
    | createOnDemand dispatch svcs => exact .inr (.inl (create_cases (onDemandContext · dispatch svcs) ran))
    | release cid slots probe =>
      obtain ⟨_, ran⟩ := run_ignore.mp ran
      exact .inl (keeps_releaseReady _ _ _ |>.of_ok ran)
    | checkPassed operationId =>
      obtain ⟨_, ran⟩ := run_ignore.mp ran
      exact .inl ((keeps_applyPreStartCheckPassed _).of_ok ran)
    | checkEnded operationId outcome =>
      obtain ⟨_, u, first, second⟩ := run_bind_eq_ok.mp ran
      obtain ⟨_, first⟩ := run_ignore.mp first
      obtain ⟨_, second⟩ := run_ignore.mp second
      exact .inl (((keeps_applyOperationTerminal _ _).of_ok first).trans
        ((keeps_pruneDormantDependencies _).of_ok second))
    | startEnded operationId outcome =>
      obtain ⟨_, ran⟩ := run_ignore.mp ran
      exact .inl ((keeps_applyOperationTerminal _ _).of_ok ran)
    | awaitRestart operationId =>
      obtain ⟨_, ran⟩ := run_ignore.mp ran
      exact .inl ((keeps_applyOperationAwaitingRestart _).of_ok ran)
    | settleRestart service outcome =>
      obtain ⟨_, ran⟩ := run_ignore.mp ran
      exact .inl ((keeps_settleAwaitingRestart _ _).of_ok ran)
    | clearHold operationId =>
      cases ran
      exact .inl (sameContexts_clearRecordedOperationHold s _)
    | retire =>
      cases ran
      exact .inr (.inr rfl)

end GraphStep

/-- The associations are exact and every context is well formed. -/
structure Regular (s : GraphExecutionStore) : Prop where
  associated : Associated s
  wellFormed : ∀ (id : GraphContextId) (c : GraphExecutionContext),
    s.contexts[id]? = some c → WellFormed c

theorem retireDrainedContexts_get {id : GraphContextId}
    (live : s.retireDrainedContexts.2.contexts[id]? = some c) :
    s.contexts[id]? = some c := by
  unfold retireDrainedContexts at live
  dsimp only at live
  split_ifs at live
  · exact live
  · rw [get_foldl_erase] at live
    split_ifs at live
    exact live

namespace GraphStep

/-- The context agrees with `c` in shape and statuses. -/
def Quiet (c c' : GraphExecutionContext) : Prop :=
  SameShape c c' ∧ ∀ a, c'.statusOf a = c.statusOf a

/-- What a successful step does to a context it reaches. -/
def StepIn (s : GraphExecutionStore) (id : GraphContextId) (c c' : GraphExecutionContext) :
    GraphStep → Prop
  | .release contextId maxParallelStarts probe => id = contextId ∧ ∃ ready,
      readyMembers c (availableSlots c maxParallelStarts) probe = .ok ready ∧
        ∀ a, c'.statusOf a = (c.mark .running (ready.map (·.1))).statusOf a
  | .checkPassed operationId => id ∈ s.associatedContexts operationId ∧ ∃ m,
      c.memberForOperation operationId = some m ∧ c.members[m.service]? = some m ∧
        m.status.isTerminal = false ∧ m.status ≠ .waitingForDependencies ∧
        c' = c.checkPassed m.service
  | .checkEnded operationId outcome => ∃ between, EndedIn s operationId outcome id c between ∧
      (id ∈ s.associatedContexts operationId ∧ (∃ m, c.memberForOperation operationId = some m ∧
          c' = between.mark .pruned (between.pruning m.service)) ∨
        id ∉ s.associatedContexts operationId ∧ c' = between)
  | .startEnded operationId outcome => EndedIn s operationId outcome id c c'
  | .awaitRestart operationId => id ∈ s.associatedContexts operationId ∧ ∃ m,
      c.memberForOperation operationId = some m ∧ c.members[m.service]? = some m ∧
        m.status.isTerminal = false ∧
        ∀ a, c'.statusOf a = (c.setStatus m.service .awaitingRestart).statusOf a
  | .settleRestart service outcome =>
      c.statusOf service = some .awaitingRestart ∧ c' = c.ended service outcome
  | _ => False

end GraphStep

theorem sameContexts_get {t : GraphExecutionStore} (same : SameContexts s t) {id : GraphContextId}
    (live : t.contexts[id]? = some c') :
    ∃ c, s.contexts[id]? = some c ∧ SameShape c c' := by
  have related := same.contexts id
  rw [live] at related
  generalize s.contexts[id]? = before at related ⊢
  cases related with
  | some shape => exact ⟨_, rfl, shape⟩

theorem Regular.commit (reg : Regular s) (step : GraphStep) : Regular (step.commit s) := by
  rcases step.commit_shape s with same | ⟨c, built, added⟩ | retired
  · refine ⟨reg.associated.of_sameContexts same, fun id c' live => ?_⟩
    obtain ⟨c, before, shape⟩ := sameContexts_get same live
    exact (reg.wellFormed id c before).of_sameShape shape
  · rw [added]
    refine ⟨reg.associated.insertContext built.id, fun id c' live => ?_⟩
    change (s.contexts.insert c.id c)[id]? = some c' at live
    rw [get_insert] at live
    split_ifs at live
    · cases live
      exact built.wellFormed
    · exact reg.wellFormed id c' live
  · rw [retired]
    exact ⟨reg.associated.retire, fun id c live =>
      reg.wellFormed id c (retireDrainedContexts_get live)⟩

theorem regular_new : Regular .new :=
  ⟨associated_new, fun id c live => by simp [GraphExecutionStore.new] at live⟩

theorem regular_run (steps : List GraphStep) : Regular (runCalls GraphStep.commit .new steps) :=
  invariant_of_calls Regular (fun _ step reg => reg.commit step) steps regular_new

section OneContext

variable {id : GraphContextId}

theorem GraphStep.Quiet.rfl : GraphStep.Quiet c c := ⟨SameShape.rfl, fun _ => Eq.refl _⟩

theorem forAssociated_context {m : GraphContextId → ContextMutator (List α)} {out : List α}
    (run : (forAssociated operationId m).run s = (.ok out, t)) (live : t.contexts[id]? = some c') :
    (id ∉ s.associatedContexts operationId ∧ s.contexts[id]? = some c') ∨
      id ∈ s.associatedContexts operationId ∧ ∃ c part, s.contexts[id]? = some c ∧
        (m id).run c = (.ok part, c') := by
  obtain ⟨-, contexts⟩ := forAssociated_cases run
  by_cases mem : id ∈ s.associatedContexts operationId
  · obtain ⟨c, part, after, before, ran, there, -⟩ := (contexts id).1 mem
    rw [live] at there
    cases there
    exact .inr ⟨mem, c, part, before, ran⟩
  · rw [(contexts id).2 mem] at live
    exact .inl ⟨mem, live⟩

theorem releaseReady_context (reg : Regular s) {cid : GraphContextId} {slots : ℕ}
    {probe : String → String → LevelProbe} {operations : List ReadyGraphOperation}
    (run : (releaseReady cid slots probe).run s = (.ok operations, t))
    (live : t.contexts[id]? = some c') : s.contexts[id]? = some c' ∨
      id = cid ∧ ∃ c ready, s.contexts[id]? = some c ∧
        readyMembers c (availableSlots c slots) probe = .ok ready ∧
        List.Forall₂ c.readyOf ready operations ∧
        ∀ a, c'.statusOf a = (c.mark .running (ready.map (·.1))).statusOf a := by
  rw [releaseReady] at run
  split_ifs at run
  · cases run
  · obtain ⟨c, after, there, done, rfl⟩ := run_onContext_eq_ok run
    obtain ⟨ready, reported, _, got, ran, forall₂, statuses⟩ :=
      run_releaseContext (reg.wellFormed cid c there) slots probe
    cases ran.symm.trans done
    rw [get_insert] at live
    split_ifs at live with here
    · cases live
      subst here
      exact .inr ⟨rfl, c, ready, there, got, forall₂, statuses⟩
    · exact .inl live

theorem applyPreStartCheckPassed_context (reg : Regular s) {changed : List GraphContextId}
    (run : (applyPreStartCheckPassed operationId).run s = (.ok changed, t))
    (live : t.contexts[id]? = some c') : s.contexts[id]? = some c' ∨
      id ∈ s.associatedContexts operationId ∧ ∃ c m, s.contexts[id]? = some c ∧
        c.memberForOperation operationId = some m ∧ c.members[m.service]? = some m ∧
        m.status.isTerminal = false ∧ m.status ≠ .waitingForDependencies ∧
        c' = c.checkPassed m.service := by
  rcases forAssociated_context run live with ⟨-, same⟩ | ⟨mem, c, part, before, ran⟩
  · exact .inl same
  · obtain ⟨_, u, ran, last⟩ := run_bind_eq_ok.mp ran
    cases last
    obtain ⟨m, named, got, alive, ⟨-, rfl⟩ | ⟨other, rfl⟩⟩ :=
      markPreStartCheckPassed_cases (reg.wellFormed id c before) ran
    · exact .inl before
    · exact .inr ⟨mem, c, m, before, named, got, alive, other, rfl⟩

theorem clearRecordedOperationHold_context
    (live : (s.clearRecordedOperationHold operationId).contexts[id]? = some c') :
    ∃ c, s.contexts[id]? = some c ∧ GraphStep.Quiet c c' := by
  rw [clearRecordedOperationHold] at live
  generalize s.associatedContexts operationId = ids at live
  induction ids generalizing s with
  | nil => exact ⟨c', live, GraphStep.Quiet.rfl⟩
  | cons first ids ih =>
    rw [foldl_cons] at live
    obtain ⟨c, before, shape, statuses⟩ := ih live
    rcases there : s.contexts[first]? with _ | old
    · rw [there] at before
      exact ⟨c, before, shape, statuses⟩
    · rw [there] at before
      rw [get_insert] at before
      split_ifs at before with here
      · cases before
        subst here
        have cleared : SameShape old { old with members := old.members.map fun _ member =>
            if member.operationId = operationId then { member with heldWithoutClock := false }
            else member } := by
          refine ⟨rfl, rfl, rfl, fun a => ?_⟩
          simp only [Std.ExtTreeMap.getElem?_map, Option.map_map]
          congr 1
          funext member
          dsimp only [comp_apply]
          split_ifs <;> rfl
        refine ⟨old, there, trans_of SameShape cleared shape, fun a => ?_⟩
        rw [statuses, statusOf, statusOf, Std.ExtTreeMap.getElem?_map, Option.map_map]
        congr 1
        funext member
        dsimp only [comp_apply]
        split_ifs <;> rfl
      · exact ⟨c, before, shape, statuses⟩

theorem applyOperationTerminal_context
    (run : (applyOperationTerminal operationId outcome).run s = (.ok events, t))
    (live : t.contexts[id]? = some c') :
    ∃ c, s.contexts[id]? = some c ∧ EndedIn s operationId outcome id c c' := by
  obtain ⟨c, before, -⟩ := sameContexts_get ((keeps_applyOperationTerminal _ _).of_ok run) live
  obtain ⟨-, contexts⟩ := applyOperationTerminal_cases run
  obtain ⟨after, there, ended⟩ := contexts id c before
  rw [live] at there
  cases there
  exact ⟨c, before, ended⟩

/-- What the end of a live member keeps is kept. -/
theorem GraphExecutionStore.EndedIn.rule {motive : GraphExecutionContext → Prop}
    (ended : EndedIn s operationId outcome id c c') (start : motive c)
    (ends : ∀ b service status, b.statusOf service = some status → status.isTerminal = false →
      motive b → motive (b.ended service outcome)) : motive c' := by
  obtain ⟨between, first, second⟩ := ended.through
  have middle : motive between := by
    rcases first with ⟨-, m, -, ⟨m', got, alive⟩, rfl⟩ | ⟨-, rfl⟩
    · exact ends c m.service m'.status (statusOf_of_get got) alive start
    · exact start
  rcases second with rfl | ⟨service, -, awaiting, rfl⟩
  · exact middle
  · exact ends between service _ awaiting rfl middle

theorem GraphExecutionStore.EndedIn.sameShape
    (ended : EndedIn s operationId outcome id c c') : SameShape c c' :=
  ended.rule SameShape.rfl fun _ _ _ _ _ shape => trans_of SameShape shape sameShape_ended

theorem GraphExecutionStore.EndedIn.unchanged_ne (ended : EndedIn s operationId outcome id c c')
    (other : status ≠ outcome.status)
    (known : c'.statusOf a = some status) : c.statusOf a = some status := by
  refine ended.rule (motive := fun b => b.statusOf a = some status → _) (fun known => known) ?_ known
  exact fun _ _ _ _ _ earlier known => earlier (statusOf_of_ended_ne other known)

theorem GraphExecutionStore.EndedIn.unchanged (ended : EndedIn s operationId outcome id c c')
    (alive : status.isTerminal = false)
    (known : c'.statusOf a = some status) : c.statusOf a = some status := by
  refine ended.unchanged_ne ?_ known
  rintro rfl
  cases outcome <;> cases alive

theorem listed_of_memberForOperation (reg : Regular s) (live : s.contexts[id]? = some c)
    {m : GraphMember} (named : c.memberForOperation operationId = some m) :
    id ∈ s.associatedContexts operationId := by
  obtain ⟨got, same⟩ := get_of_memberForOperation (reg.wellFormed id c live) named
  exact mem_associatedContexts.mpr
    ((reg.associated.exact operationId id).mpr ⟨c, live, m.service, m, got, same⟩)

theorem insertContext_context (step : GraphStep) {added : GraphExecutionContext}
    (built : step.Builds s.pendingContextId added)
    (live : (s.insertContext added).contexts[id]? = some c') :
    s.contexts[id]? = some c' ∨ id = s.pendingContextId ∧ step.Builds id c' := by
  change (s.contexts.insert added.id added)[id]? = some c' at live
  rw [get_insert, built.id] at live
  split_ifs at live with here
  · cases live
    subst here
    exact .inr ⟨rfl, built⟩
  · exact .inl live

theorem checkEnded_context (ran : (GraphStep.checkEnded operationId outcome).run.run s = (.ok (), t))
    (live : t.contexts[id]? = some c') :
    ∃ c, s.contexts[id]? = some c ∧ GraphStep.StepIn s id c c' (.checkEnded operationId outcome) := by
  obtain ⟨_, u, first, second⟩ := run_bind_eq_ok.mp ran
  obtain ⟨events, first⟩ := GraphStep.run_ignore.mp first
  obtain ⟨pruned, second⟩ := GraphStep.run_ignore.mp second
  have mem : u.associatedContexts operationId = s.associatedContexts operationId := by
    rw [associatedContexts, (applyOperationTerminal_cases first).1, associatedContexts]
  rcases forAssociated_context second live with ⟨elsewhere, before⟩ | ⟨here, between, part, before, cut⟩
  · obtain ⟨c, was, ended⟩ := applyOperationTerminal_context first before
    exact ⟨c, was, c', ended, .inr ⟨mem ▸ elsewhere, rfl⟩⟩
  · obtain ⟨c, was, ended⟩ := applyOperationTerminal_context first before
    obtain ⟨m', named, rfl, -⟩ := pruneContext_cases cut
    refine ⟨c, was, between, ended, .inl ⟨mem ▸ here, ?_⟩⟩
    -- The pruning looks the member up again, in a context of the same shape.
    have same := ended.sameShape.memberForOperation operationId
    rw [named] at same
    obtain ⟨m, got, fixed⟩ := Option.map_eq_some_iff.mp same.symm
    exact ⟨m, got, by rw [GraphMember.service_eq fixed.symm]⟩

theorem GraphStep.sameShape_commit (reg : Regular s) {step : GraphStep}
    (before : s.contexts[id]? = some c) (live : (step.commit s).contexts[id]? = some c') :
    SameShape c c' := by
  have unchanged : s.contexts[id]? = some c' → SameShape c c' := by
    intro same
    rw [before] at same
    cases same
    exact SameShape.rfl
  rcases step.commit_shape s with same | ⟨added, built, inserted⟩ | retired
  · obtain ⟨c₁, there, shape⟩ := sameContexts_get same live
    rw [before] at there
    cases there
    exact shape
  · rw [inserted] at live
    rcases insertContext_context step built live with same | ⟨rfl, -⟩
    · exact unchanged same
    · exact absurd (reg.associated.below _ c before) (lt_irrefl _)
  · rw [retired] at live
    exact unchanged (retireDrainedContexts_get live)

/-- The statuses in which a member has still to be released. -/
def GraphMemberStatus.awaitsRelease : GraphMemberStatus → Bool
  | .dormant | .waitingForPreStartCheck | .waitingForDependencies => true
  | _ => false

/-- Only a passed check makes a member await a release. -/
theorem GraphStep.StepIn.unchanged (effect : GraphStep.StepIn s id c c' step)
    (other : ∀ operationId, step ≠ .checkPassed operationId) (known : c'.statusOf a = some status)
    (awaits : status.awaitsRelease = true) : c.statusOf a = some status := by
  have alive : status.isTerminal = false := by cases status <;> first | rfl | cases awaits
  have notRunning : status ≠ .running := by
    rintro rfl
    cases awaits
  have notAwaiting : status ≠ .awaitingRestart := by
    rintro rfl
    cases awaits
  have notPruned : status ≠ .pruned := by
    rintro rfl
    cases awaits
  cases step with
  | release cid slots probe =>
    obtain ⟨-, ready, -, statuses⟩ := effect
    exact statusOf_of_mark notRunning (statuses a ▸ known)
  | checkPassed operationId => exact absurd rfl (other operationId)
  | checkEnded operationId outcome =>
    obtain ⟨between, ended, ⟨-, m, -, rfl⟩ | ⟨-, rfl⟩⟩ := effect
    · exact ended.unchanged alive (statusOf_of_mark notPruned known)
    · exact ended.unchanged alive known
  | startEnded operationId outcome => exact EndedIn.unchanged effect alive known
  | awaitRestart operationId =>
    obtain ⟨-, m, -, -, -, statuses⟩ := effect
    exact statusOf_of_setStatus notAwaiting (statuses a ▸ known)
  | settleRestart service outcome =>
    obtain ⟨-, rfl⟩ := effect
    exact statusOf_of_ended alive known
  | _ => exact effect.elim

/-- Every context after a step is one from before, changed as the step says, or a new one. -/
theorem GraphStep.commit_context (reg : Regular s) (live : (step.commit s).contexts[id]? = some c') :
    (∃ c, s.contexts[id]? = some c ∧ (Quiet c c' ∨ StepIn s id c c' step)) ∨
      id = s.pendingContextId ∧ step.Builds id c' := by
  rcases step.commit_cases s with failed | ran
  · rw [failed] at live
    exact .inl ⟨c', live, .inl Quiet.rfl⟩
  · generalize step.commit s = t at ran live
    cases step with
    | createBoot plan defs =>
      obtain ⟨c, built, rfl⟩ := create_cases (bootContext · plan defs) ran
      exact (insertContext_context (.createBoot plan defs) built live).imp_left
        fun before => ⟨c', before, .inl Quiet.rfl⟩
    | createOnDemand dispatch svcs =>
      obtain ⟨c, built, rfl⟩ := create_cases (onDemandContext · dispatch svcs) ran
      exact (insertContext_context (.createOnDemand dispatch svcs) built live).imp_left
        fun before => ⟨c', before, .inl Quiet.rfl⟩
    | release cid slots probe =>
      obtain ⟨_, ran⟩ := run_ignore.mp ran
      rcases releaseReady_context reg ran live with
        before | ⟨here, c, ready, before, got, -, statuses⟩
      · exact .inl ⟨c', before, .inl Quiet.rfl⟩
      · exact .inl ⟨c, before, .inr ⟨here, ready, got, statuses⟩⟩
    | checkPassed operationId =>
      obtain ⟨_, ran⟩ := run_ignore.mp ran
      rcases applyPreStartCheckPassed_context reg ran live with
        before | ⟨mem, c, m, before, named, got, alive, other, passed⟩
      · exact .inl ⟨c', before, .inl Quiet.rfl⟩
      · exact .inl ⟨c, before, .inr ⟨mem, m, named, got, alive, other, passed⟩⟩
    | checkEnded operationId outcome =>
      obtain ⟨c, before, ended⟩ := checkEnded_context ran live
      exact .inl ⟨c, before, .inr ended⟩
    | startEnded operationId outcome =>
      obtain ⟨_, ran⟩ := run_ignore.mp ran
      obtain ⟨c, before, ended⟩ := applyOperationTerminal_context ran live
      exact .inl ⟨c, before, .inr ended⟩
    | awaitRestart operationId =>
      obtain ⟨_, ran⟩ := run_ignore.mp ran
      rcases forAssociated_context ran live with ⟨-, before⟩ | ⟨mem, c, part, before, held⟩
      · exact .inl ⟨c', before, .inl Quiet.rfl⟩
      · obtain ⟨_, u, held, last⟩ := run_bind_eq_ok.mp held
        cases last
        obtain ⟨m, named, got, alive, statuses⟩ :=
          applyContextAwaitingRestart_cases (reg.wellFormed id c before) held
        exact .inl ⟨c, before, .inr ⟨mem, m, named, got, alive, statuses⟩⟩
    | settleRestart service outcome =>
      obtain ⟨_, ran⟩ := run_ignore.mp ran
      obtain ⟨c, before, -⟩ := sameContexts_get ((keeps_settleAwaitingRestart _ _).of_ok ran) live
      obtain ⟨after, there, settled⟩ := (settleAwaitingRestart_cases ran).2 id c before
      rw [live] at there
      cases there
      refine .inl ⟨c, before, ?_⟩
      rcases settled with ⟨-, rfl⟩ | settled
      · exact .inl Quiet.rfl
      · exact .inr settled
    | clearHold operationId =>
      cases ran
      obtain ⟨c, before, quiet⟩ := clearRecordedOperationHold_context live
      exact .inl ⟨c, before, .inl quiet⟩
    | retire =>
      cases ran
      exact .inl ⟨c', retireDrainedContexts_get live, .inl Quiet.rfl⟩

end OneContext

end Peinit
