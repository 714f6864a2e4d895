import Peinit.Graph.Progress
import Peinit.Lib.KeyedFold

/-!
# How far a failure goes

When an operation fails, or a restart is given up, its member fails in every context concerned, and
with it every member that hard-depends on it through members that wait for their dependencies or run.
One that awaits a restart is not failed.
-/

namespace Peinit

open Fallible GraphExecutionStore GraphStep Relation.TransGen List

namespace GraphExecutionContext

variable {c b b' : GraphExecutionContext} {s r a x y : String} {roots : String → Prop}

/-- `a` is one of `roots`, or fails along with one. -/
def Reached (c : GraphExecutionContext) (roots : String → Prop) (a : String) : Prop :=
  ∃ r, roots r ∧ (a = r ∨ Relation.TransGen c.FailStep r a)

theorem Reached.next (reached : c.Reached roots x) (step : c.FailStep x y) : c.Reached roots y := by
  obtain ⟨r, root, rfl | path⟩ := reached
  · exact ⟨_, root, .inr (.single step)⟩
  · exact ⟨r, root, .inr (.tail path step)⟩

theorem failStep_path_setStatus (path : Relation.TransGen c.FailStep s a) :
    a = s ∨ Relation.TransGen (c.setStatus s .failed).FailStep s a := by
  have keeps {x y : String} (step : c.FailStep x y) (away : y ≠ s) :
      (c.setStatus s .failed).FailStep x y := by
    refine ⟨sameShape_setStatus.hardEdge.mpr step.1, ?_⟩
    rw [canFail, statusOf_setStatus, Option.any_map]
    simp only [if_neg away]
    exact step.2
  induction path with
  | @single y step =>
    by_cases here : y = s
    · exact .inl here
    · exact .inr (.single (keeps step here))
  | @tail x y _ step ih =>
    by_cases here : y = s
    · exact .inl here
    · rcases ih with rfl | path
      · exact .inr (.single (keeps step here))
      · exact .inr (.tail path (keeps step here))

theorem mem_failing_setStatus :
    a ∈ (c.setStatus s .failed).failing s ↔ a ≠ s ∧ Relation.TransGen c.FailStep s a := by
  rw [mem_failing]
  constructor
  · intro path
    refine ⟨?_, mono (fun _ _ => failStep_setStatus_failed) _ _ path⟩
    rintro rfl
    obtain ⟨_, -, last⟩ := tail'_iff.mp path
    obtain ⟨m, got, waiting⟩ := get_of_canFail last.2
    rw [get_setStatus] at got
    obtain ⟨_, -, rfl⟩ := Option.map_eq_some_iff.mp got
    rw [if_pos rfl] at waiting
    cases waiting
  · rintro ⟨away, path⟩
    exact (failStep_path_setStatus path).resolve_left away

theorem nodup_failing : (c.failing s).Nodup := by
  have bounded : ∀ y, c.canFail y = true → y ∈ c.members.keys.toFinset := by
    intro y can
    obtain ⟨m, got, -⟩ := get_of_canFail can
    exact mem_names got
  exact (walked_flood bounded _ [] s (by simpa using card_names)).nodup nodup_nil

theorem endMember_failed {op : OperationId} {events : List GraphExecutionEvent}
    (run : (endMember r op .failed).run b = (.ok events, b')) :
    ∃ m, b.members[r]? = some m ∧ m.status.isTerminal = false ∧ b' = b.ended r .failed ∧
      events = ⟨b.id, r, op, .failed⟩ ::
        ((b.setStatus r .failed).failing r).map (b.setStatus r .failed).failedEvent := by
  obtain ⟨m, got, live, ended, -⟩ := endMember_cases run
  refine ⟨m, got, live, ended, ?_⟩
  rw [endMember, run_fetch_bind, run_bind_of_ok (run_markTerminal got live), if_pos rfl,
    run_bind_of_ok run_propagateHardDependencyFailure] at run
  cases run
  rfl

theorem statusOf_ended_failed : (b.ended r .failed).statusOf a = (b.statusOf a).map fun before =>
    if a ∈ r :: (b.setStatus r .failed).failing r then .failed else before := by
  rw [ended, statusOf_mark, statusOf_setStatus, Option.map_map]
  congr 1
  funext before
  by_cases here : a = r
  · simp [here]
  · by_cases along : a ∈ (b.setStatus r .failed).failing r <;> simp [here]

/-- What the failures of `roots` have made of `c`, and the events that report it. -/
structure Spread (c : GraphExecutionContext) (roots : String → Prop) (b : GraphExecutionContext)
    (events : List GraphExecutionEvent) : Prop where
  shape : SameShape c b
  failed : ∀ a, c.Reached roots a → b.statusOf a = some .failed
  same : ∀ a, ¬ c.Reached roots a → b.statusOf a = c.statusOf a
  once : (events.map (·.service)).Nodup
  reported : ∀ a, a ∈ events.map (·.service) ↔ c.Reached roots a
  here : ∀ event ∈ events, event.contextId = c.id

theorem Spread.none (none : ∀ r, ¬ roots r) : c.Spread roots c [] where
  shape := SameShape.rfl
  failed _ := fun ⟨r, root, _⟩ => absurd root (none r)
  same _ _ := rfl
  once := nodup_nil
  reported a := by
    refine ⟨fun mem => absurd mem not_mem_nil, ?_⟩
    rintro ⟨r, root, -⟩
    exact absurd root (none r)
  here _ mem := absurd mem not_mem_nil

namespace Spread

variable {events events' : List GraphExecutionEvent}

theorem unreached (spread : c.Spread roots b events) (can : b.canFail a = true) :
    ¬ c.Reached roots a := by
  intro reached
  rw [canFail, spread.failed a reached] at can
  cases can

theorem failStep (spread : c.Spread roots b events) (step : b.FailStep x y) : c.FailStep x y := by
  refine ⟨spread.shape.hardEdge.mp step.1, ?_⟩
  have same := spread.same y (spread.unreached step.2)
  have can := step.2
  rw [canFail, same] at can
  exact can

theorem path (spread : c.Spread roots b events) (path : Relation.TransGen c.FailStep r a) :
    c.Reached roots a ∨ Relation.TransGen b.FailStep r a := by
  have keeps {x y : String} (step : c.FailStep x y) (unreached : ¬ c.Reached roots y) :
      b.FailStep x y := by
    refine ⟨spread.shape.hardEdge.mpr step.1, ?_⟩
    rw [canFail, spread.same y unreached]
    exact step.2
  induction path with
  | @single y step =>
    by_cases reached : c.Reached roots y
    · exact .inl reached
    · exact .inr (.single (keeps step reached))
  | @tail x y _ step ih =>
    by_cases reached : c.Reached roots y
    · exact .inl reached
    · rcases ih with before | path
      · exact absurd (before.next step) reached
      · exact .inr (.tail path (keeps step reached))

theorem reached_iff (spread : c.Spread roots b events) :
    c.Reached (fun x => roots x ∨ x = r) a ↔
      c.Reached roots a ∨ a = r ∨ Relation.TransGen b.FailStep r a := by
  constructor
  · rintro ⟨x, root | rfl, along⟩
    · exact .inl ⟨x, root, along⟩
    · rcases along with rfl | path
      · exact .inr (.inl rfl)
      · exact (spread.path path).imp_right .inr
  · rintro (⟨x, root, along⟩ | rfl | path)
    · exact ⟨x, .inl root, along⟩
    · exact ⟨_, .inr rfl, .inl rfl⟩
    · exact ⟨r, .inr rfl, .inr (mono (fun _ _ => spread.failStep) _ _ path)⟩

theorem fail (spread : c.Spread roots b events) {op : OperationId}
    (run : (endMember r op .failed).run b = (.ok events', b')) :
    c.Spread (fun x => roots x ∨ x = r) b' (events ++ events') := by
  obtain ⟨m, got, live, rfl, rfl⟩ := endMember_failed run
  have svcs : (⟨b.id, r, op, .failed⟩ ::
      ((b.setStatus r .failed).failing r).map (b.setStatus r .failed).failedEvent).map (·.service) =
        r :: (b.setStatus r .failed).failing r := by
    rw [map_cons, map_map]
    exact congrArg (r :: ·) (map_id _)
  have now : ∀ a, a ∈ r :: (b.setStatus r .failed).failing r ↔
      a = r ∨ Relation.TransGen b.FailStep r a := by
    intro a
    rw [mem_cons, mem_failing_setStatus]
    tauto
  have fresh : ∀ a, a = r ∨ Relation.TransGen b.FailStep r a → ¬ c.Reached roots a := by
    rintro a (rfl | path) reached
    · have status := statusOf_of_get got
      rw [spread.failed a reached, Option.some.injEq] at status
      rw [← status] at live
      cases live
    · obtain ⟨_, -, last⟩ := tail'_iff.mp path
      exact spread.unreached last.2 reached
  refine ⟨trans_of SameShape spread.shape sameShape_ended, fun a reached => ?_, fun a unreached => ?_,
    ?_, fun a => ?_, fun event mem => ?_⟩
  · rw [statusOf_ended_failed]
    rcases spread.reached_iff.mp reached with before | along
    · rw [spread.failed a before, Option.map_some, ite_self]
    · have known : ∃ status, b.statusOf a = some status := by
        rcases along with rfl | path
        · exact ⟨_, statusOf_of_get got⟩
        · obtain ⟨_, -, last⟩ := tail'_iff.mp path
          obtain ⟨m', found', -⟩ := get_of_canFail last.2
          exact ⟨_, statusOf_of_get found'⟩
      obtain ⟨status, known⟩ := known
      rw [known, Option.map_some, if_pos ((now a).mpr along)]
  · rw [spread.reached_iff, not_or] at unreached
    rw [statusOf_ended_failed]
    simp only [if_neg (fun mem => unreached.2 ((now a).mp mem)), Option.map_id']
    exact spread.same a unreached.1
  · rw [map_append, svcs, nodup_append']
    refine ⟨spread.once, nodup_cons.mpr ⟨fun again => ?_, nodup_failing⟩, ?_⟩
    · exact (mem_failing_setStatus.mp again).1 rfl
    · intro a before after
      exact fresh a ((now a).mp after) ((spread.reported a).mp before)
  · rw [map_append, svcs, mem_append, spread.reported, now, spread.reached_iff]
  · rcases mem_append.mp mem with before | after
    · exact spread.here event before
    · rcases mem_cons.mp after with rfl | after
      · exact spread.shape.id
      · obtain ⟨_, -, rfl⟩ := mem_map.mp after
        exact (sameShape_setStatus (c := b)).id.trans spread.shape.id

theorem awaiting (spread : c.Spread roots b events) (other : ¬ roots a) :
    b.statusOf a = some .awaitingRestart ↔ c.statusOf a = some .awaitingRestart := by
  by_cases reached : c.Reached roots a
  · rw [spread.failed a reached]
    obtain ⟨r, root, rfl | path⟩ := reached
    · exact absurd root other
    · obtain ⟨_, -, last⟩ := tail'_iff.mp path
      refine iff_of_false (by decide) fun awaiting => ?_
      have can := last.2
      rw [canFail, awaiting] at can
      cases can
  · rw [spread.same a reached]

theorem congr (spread : c.Spread roots b events) {roots' : String → Prop}
    (same : ∀ r, roots r ↔ roots' r) : c.Spread roots' b events :=
  (funext fun r => propext (same r) : roots = roots') ▸ spread

theorem of_endMember {op : OperationId}
    (run : (endMember r op .failed).run c = (.ok events, b)) : c.Spread (· = r) b events :=
  ((none fun _ is => is : c.Spread (fun _ => False) c []).fail run).congr fun _ => Iff.of_eq (false_or _)

end Spread

end GraphExecutionContext

/-! ## All contexts -/

/-- The calls that fail a member. -/
inductive FailureCall where
  | operationFailed (operationId : OperationId)
  /-- The service will not be started again. -/
  | restartFailed (service : String)

namespace FailureCall

def run : FailureCall → StoreMutator (List GraphExecutionEvent)
  | .operationFailed operationId => applyOperationFailed operationId
  | .restartFailed service => settleAwaitingRestart service .failed

/-- The service that the operation starts, as its first context has it. -/
def startedService (s : GraphExecutionStore) (operationId : OperationId) : Option String := do
  let id ← (s.associatedContexts operationId).head?
  let context ← s.contexts[id]?
  let member ← context.memberForOperation operationId
  return member.service

/-- The members of a context that the call itself fails: that of the operation, and one of the same
service that awaits a restart. -/
def Fails (s : GraphExecutionStore) (c : GraphExecutionContext) : FailureCall → String → Prop
  | .operationFailed operationId, r =>
    (∃ m, c.memberForOperation operationId = some m ∧ m.service = r) ∨
      startedService s operationId = some r ∧ c.statusOf r = some .awaitingRestart
  | .restartFailed service, r => r = service ∧ c.statusOf r = some .awaitingRestart

end FailureCall

section Stores

variable {s t : GraphExecutionStore} {id : GraphContextId} {c b : GraphExecutionContext}
  {op : OperationId} {events settled : List GraphExecutionEvent}

theorem spread_own (reg : Regular s)
    (run : (forAssociated op fun _ => applyContextTerminal op .failed).run s =
      (.ok events, t)) (live : s.contexts[id]? = some c) :
    ∃ b, t.contexts[id]? = some b ∧
      c.Spread (fun r => ∃ m, c.memberForOperation op = some m ∧ m.service = r) b
        (events.filter (·.contextId = id)) := by
  obtain ⟨-, parts, rfl, contexts⟩ := forEach_onContext_parts nodup_associatedContexts run
  have each : ∀ {id : GraphContextId} {c : GraphExecutionContext}, s.contexts[id]? = some c →
      id ∈ s.associatedContexts op → ∃ b, t.contexts[id]? = some b ∧
        c.Spread (fun r => ∃ m, c.memberForOperation op = some m ∧ m.service = r) b (parts id) := by
    intro id c live mem
    obtain ⟨c₁, b, before, ran, after⟩ := (contexts id).1 mem
    obtain rfl : c = c₁ := Option.some.inj (live.symm.trans before)
    obtain ⟨m, named, -⟩ := applyContextTerminal_cases ran
    rw [applyContextTerminal, run_bind_of_ok (run_requireMemberForOperation named)] at ran
    refine ⟨b, after, (GraphExecutionContext.Spread.of_endMember ran).congr fun r => ?_⟩
    rw [named]
    simp [eq_comm]
  have keyed : ∀ id ∈ s.associatedContexts op, ∀ event ∈ parts id, event.contextId = id := by
    intro id mem event reported
    obtain ⟨c, -, live, -⟩ := (contexts id).1 mem
    obtain ⟨b, -, spread⟩ := each live mem
    exact (spread.here event reported).trans (reg.associated.keyed id c live)
  rw [filter_flatMap_key GraphExecutionEvent.contextId nodup_associatedContexts keyed]
  split_ifs with mem
  · exact each live mem
  · refine ⟨c, by rw [(contexts id).2 mem, live], .none ?_⟩
    rintro r ⟨m, named, -⟩
    exact mem (listed_of_memberForOperation reg live named)

theorem spread_settled {roots : String → Prop} {svc : String}
    (keyed : ∀ (id : GraphContextId) (b : GraphExecutionContext), s.contexts[id]? = some b → b.id = id)
    (run : (settleAwaitingRestart svc .failed).run s = (.ok settled, t))
    (live : s.contexts[id]? = some b) (spread : c.Spread roots b events) :
    ∃ b', t.contexts[id]? = some b' ∧
      c.Spread (fun r => roots r ∨ r = svc ∧ b.statusOf r = some .awaitingRestart) b'
        (events ++ settled.filter (·.contextId = id)) := by
  obtain ⟨-, parts, rfl, contexts⟩ := forEach_onContext_parts (OrdMap.nodup_keys _) run
  have each : ∀ {id : GraphContextId} {b : GraphExecutionContext}, s.contexts[id]? = some b →
      ∃ b', t.contexts[id]? = some b' ∧
        (b.statusOf svc ≠ some .awaitingRestart ∧ b' = b ∧ parts id = [] ∨
          b.statusOf svc = some .awaitingRestart ∧
            ∃ op, (endMember svc op .failed).run b = (.ok (parts id), b')) := by
    intro id b live
    obtain ⟨b₁, b', before, ran, after⟩ := (contexts id).1 ((OrdMap.mem_keys _ _).mpr ⟨b, live⟩)
    obtain rfl : b = b₁ := Option.some.inj (live.symm.trans before)
    exact ⟨b', after, settleContext_cases ran⟩
  have here : ∀ id ∈ s.contexts.keys, ∀ event ∈ parts id, event.contextId = id := by
    intro id mem event reported
    obtain ⟨b, live⟩ := (OrdMap.mem_keys _ _).mp mem
    obtain ⟨b', -, ⟨-, -, none⟩ | ⟨-, _, ran⟩⟩ := each live
    · rw [none] at reported
      cases reported
    · exact ((GraphExecutionContext.Spread.of_endMember ran).here event reported).trans (keyed id b live)
  rw [filter_flatMap_key GraphExecutionEvent.contextId (OrdMap.nodup_keys _) here,
    if_pos ((OrdMap.mem_keys _ _).mpr ⟨b, live⟩)]
  obtain ⟨b', after, ⟨other, rfl, none⟩ | ⟨awaiting, _, ran⟩⟩ := each live
  · rw [none, append_nil]
    refine ⟨b', after, spread.congr fun r => ?_⟩
    rw [or_iff_left]
    rintro ⟨rfl, awaiting⟩
    exact other awaiting
  · refine ⟨b', after, (spread.fail ran).congr fun r => or_congr_right ⟨?_, And.left⟩⟩
    rintro rfl
    exact ⟨rfl, awaiting⟩

theorem startedService_of_head (run : (forAssociated op fun _ => applyContextTerminal op .failed).run s =
      (.ok events, t)) :
    events.head?.map (·.service) = FailureCall.startedService s op := by
  unfold FailureCall.startedService
  obtain ⟨mem, rfl⟩ | ⟨id, ids, c, m, mem, live, named, first⟩ := head_forAssociated run
  · rw [mem]
    rfl
  · rw [mem, first]
    simp [live, named]

theorem spread_run (reg : Regular s) {call : FailureCall}
    (run : call.run.run s = (.ok events, t)) (live : s.contexts[id]? = some c) :
    ∃ b, t.contexts[id]? = some b ∧ c.Spread (call.Fails s c) b (events.filter (·.contextId = id)) := by
  cases call with
  | operationFailed op =>
    obtain ⟨first, u, own, rest⟩ := run_bind_eq_ok.mp run
    obtain ⟨settled, v, settle, last⟩ := run_bind_eq_ok.mp rest
    cases last
    obtain ⟨b, between, spread⟩ := spread_own reg own live
    rw [filter_append]
    have started := startedService_of_head own
    rw [settleFirst] at settle
    rcases head : first.head? with _ | event
    · rw [head] at settle started
      cases settle
      refine ⟨b, between, ?_⟩
      rw [filter_nil, append_nil]
      refine spread.congr fun r => (or_iff_left ?_).symm
      rw [← started]
      simp
    · rw [head] at settle started
      have keyed : ∀ (id : GraphContextId) (b : GraphExecutionContext),
          u.contexts[id]? = some b → b.id = id := by
        have same := (keeps_forAssociated (fun _ => keeps_applyContextTerminal _ _) _).of_ok own
        exact (reg.associated.of_sameContexts same).keyed
      obtain ⟨b', after, spread'⟩ := spread_settled keyed settle between spread
      refine ⟨b', after, spread'.congr fun r => or_congr_right' fun other => ?_⟩
      rw [spread.awaiting other, ← started, Option.map_some, Option.some.injEq, eq_comm]
  | restartFailed svc =>
    obtain ⟨b, after, spread⟩ := spread_settled reg.associated.keyed run live
      (GraphExecutionContext.Spread.none fun _ is => is : c.Spread (fun _ => False) c [])
    exact ⟨b, after, spread.congr fun r => Iff.of_eq (false_or _)⟩

/-- In every context that the steps of the supervisor can lead to: every member fails that depends on what
failed through members that wait for their dependencies or run, each is reported once, and a member that
does not hard-depend on it is left as it is. -/
theorem failure_reaches_waiting_dependents (steps : List GraphStep) (call : FailureCall)
    (ran : call.run.run (runCalls commit .new steps) = (.ok events, t))
    (live : (runCalls commit .new steps).contexts[id]? = some c) :
    ∃ c', t.contexts[id]? = some c' ∧
      (∀ r a, call.Fails (runCalls commit .new steps) c r →
        a = r ∨ Relation.TransGen c.FailStep r a → c'.statusOf a = some .failed) ∧
      (∀ a, c.statusOf a ≠ some .failed → c'.statusOf a = some .failed →
        events.countP (fun event => event.contextId = id ∧ event.service = a) = 1) ∧
      ∀ a, (∀ r, call.Fails (runCalls commit .new steps) c r →
        a ≠ r ∧ ¬ Relation.TransGen c.HardEdge a r) → c'.statusOf a = c.statusOf a := by
  obtain ⟨c', after, spread⟩ := spread_run (regular_run steps) ran live
  refine ⟨c', after, fun r a fails along => spread.failed a ⟨r, fails, along⟩, fun a was failed => ?_,
    fun a free => spread.same a ?_⟩
  · have reached : c.Reached (call.Fails (runCalls commit .new steps) c) a := by
      by_contra unreached
      exact was ((spread.same a unreached).symm.trans failed)
    have once := count_eq_one_of_mem spread.once ((spread.reported a).mpr reached)
    rw [count, countP_map, countP_filter] at once
    rw [← once]
    congr 1
    funext event
    rw [Bool.eq_iff_iff]
    simp [and_comm]
  · rintro ⟨r, fails, rfl | path⟩
    · exact (free _ fails).1 rfl
    · have hard : Relation.TransGen (Function.swap c.HardEdge) r a :=
        mono (fun _ _ step => step.1) _ _ path
      exact (free r fails).2 (Relation.transGen_swap.mp hard)

end Stores

/-! ## A dependent that awaits its restart -/

/-- `x` requires `t` and `b`; `b` requires `t` too and is in backoff. -/
def backoffServices : ServiceTable where
  entries := (∅ : OrdMap String ServiceEntry).insert "t" { definition := { name := "t" }, runtime := {} }
    |>.insert "b" { definition := { name := "b", requires := ["t"] }, runtime := { state := .backoff } }
    |>.insert "x" { definition := { name := "x", requires := ["b", "t"] }, runtime := {} }

/-- `x` is started on demand, and `t` with it; both checks pass and `t` is released. -/
def startedWithBackoff : List GraphStep := [.createOnDemand
      { plan := ⟨"x", .admin, .explicitStart,
          [⟨"t", .dependencyPropagation, .dependencyStart⟩,
            ⟨"b", .dependencyPropagation, .dependencyStart⟩, ⟨"x", .admin, .explicitStart⟩], []⟩
        requestedOperation := ⟨⟨1⟩, ⟨1⟩, .createNew, []⟩
        dependencyOperations := [⟨⟨2⟩, ⟨2⟩, .createNew, []⟩, ⟨⟨3⟩, ⟨3⟩, .createNew, []⟩]
        events := [] }
      backoffServices,
    releaseOne, .checkPassed ⟨1⟩, releaseOne, .checkPassed ⟨2⟩, releaseOne]

def rankOfBackoff (service : String) : ℕ :=
  if service = "t" then 0 else if service = "b" then 1 else 2

/-- `x` waits for `t`, which runs; `b` depends on `t` too. -/
theorem context_startedWithBackoff : ∃ c : GraphExecutionContext,
    (runCalls commit .new startedWithBackoff).contexts[(⟨0⟩ : GraphContextId)]? = some c ∧
    (∀ a, ¬ Relation.TransGen c.Edge a a) ∧
    (FailureCall.operationFailed ⟨2⟩).Fails (runCalls commit .new startedWithBackoff) c "t" ∧
    c.FailStep "t" "x" ∧ c.HardEdge "b" "t" := by
  refine Exists.imp (p := fun c : GraphExecutionContext => _ ∧
      (∀ e ∈ c.dependencies, rankOfBackoff e.target < rankOfBackoff e.dependent) ∧
      (∃ m, c.memberForOperation ⟨2⟩ = some m ∧ m.service = "t") ∧
      (c.HardEdge "x" "t" ∧ c.canFail "x" = true) ∧ c.HardEdge "b" "t")
    (fun c ⟨live, lowers, named, rest⟩ => ⟨live, edges_acyclic rankOfBackoff lowers, .inl named, rest⟩)
    (by decide +kernel)

/-- The failure of `t` is applied, and `b` awaits its restart as before. -/
theorem failed_startedWithBackoff : ∃ events t, ∃ c' : GraphExecutionContext,
    (FailureCall.operationFailed ⟨2⟩).run.run (runCalls commit .new startedWithBackoff) =
      (.ok events, t) ∧
    t.contexts[(⟨0⟩ : GraphContextId)]? = some c' ∧ c'.statusOf "b" = some .awaitingRestart := by
  obtain ⟨events, ok⟩ : ∃ events, ((FailureCall.operationFailed ⟨2⟩).run.run
      (runCalls commit .new startedWithBackoff)).1 = .ok events := by decide +kernel
  obtain ⟨c', after⟩ : ∃ c' : GraphExecutionContext, ((FailureCall.operationFailed ⟨2⟩).run.run
      (runCalls commit .new startedWithBackoff)).2.contexts[(⟨0⟩ : GraphContextId)]? =
        some c' ∧ c'.statusOf "b" = some .awaitingRestart := by decide +kernel
  exact ⟨events, _, c', Prod.ext ok rfl, after⟩

theorem failure_reaches_waiting_dependents_backoff : ∃ events t, ∃ c' : GraphExecutionContext,
    (FailureCall.operationFailed ⟨2⟩).run.run (runCalls commit .new startedWithBackoff) =
      (.ok events, t) ∧
    t.contexts[(⟨0⟩ : GraphContextId)]? = some c' ∧ c'.statusOf "x" = some .failed := by
  obtain ⟨c, live, -, fails, step, -⟩ := context_startedWithBackoff
  obtain ⟨events, t, -, ran, -⟩ := failed_startedWithBackoff
  obtain ⟨c', after, failed, -⟩ := failure_reaches_waiting_dependents startedWithBackoff _ ran live
  exact ⟨events, t, c', ran, after, failed "t" "x" fails (.inr (.single step))⟩

/-- `b` hard-depends on what failed and is not failed. -/
theorem awaiting_dependent_not_failed : ∃ c c' : GraphExecutionContext, ∃ events t,
    (runCalls commit .new startedWithBackoff).contexts[(⟨0⟩ : GraphContextId)]? = some c ∧
    (∀ a, ¬ Relation.TransGen c.Edge a a) ∧
    (FailureCall.operationFailed ⟨2⟩).run.run (runCalls commit .new startedWithBackoff) =
      (.ok events, t) ∧
    t.contexts[(⟨0⟩ : GraphContextId)]? = some c' ∧
    (FailureCall.operationFailed ⟨2⟩).Fails (runCalls commit .new startedWithBackoff) c "t" ∧
    Relation.TransGen c.HardEdge "b" "t" ∧
    ∃ status, c'.statusOf "b" = some status ∧ status.isTerminal = false := by
  obtain ⟨c, live, acyclic, fails, -, depends⟩ := context_startedWithBackoff
  obtain ⟨events, t, c', ran, after, awaiting⟩ := failed_startedWithBackoff
  exact ⟨c, c', events, t, live, acyclic, ran, after, fails, .single depends, _, awaiting, rfl⟩

end Peinit
