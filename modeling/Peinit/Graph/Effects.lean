import Peinit.Graph.Shape
import Peinit.Lib.Flood

/-!
# The effect of each change on the statuses

Each function on a context is given as a function on statuses. The recursions that fail dependents and
prune dependencies are walks in the sense of `flood`.
-/

namespace Peinit

open Fallible Option Relation.TransGen

variable {d t s : String} {rest : String → ContextMutator (List GraphExecutionEvent)}
  {outcome : GraphTerminalOutcome} {status : GraphMemberStatus} {c : GraphExecutionContext}
  {m : GraphMember} {svcs : List String}

namespace GraphExecutionContext

/-- The status of a member, if there is one of that name. -/
def statusOf (c : GraphExecutionContext) (s : String) : Option GraphMemberStatus :=
  (c.members[s]?).map (·.status)

def Edge (c : GraphExecutionContext) (d t : String) : Prop :=
  ∃ e ∈ c.dependencies, e.dependent = d ∧ e.target = t

/-- Some `Requires` or `BindsTo` edge leads from `d` to `t`. -/
def HardEdge (c : GraphExecutionContext) (d t : String) : Prop :=
  ∃ e ∈ c.dependencies, e.dependent = d ∧ e.target = t ∧ e.kind.isHard = true

instance {c : GraphExecutionContext} {d t : String} : Decidable (c.Edge d t) :=
  inferInstanceAs (Decidable (∃ e ∈ c.dependencies, e.dependent = d ∧ e.target = t))

instance {c : GraphExecutionContext} {d t : String} : Decidable (c.HardEdge d t) :=
  inferInstanceAs
    (Decidable (∃ e ∈ c.dependencies, e.dependent = d ∧ e.target = t ∧ e.kind.isHard = true))

theorem HardEdge.edge {c : GraphExecutionContext} (hard : c.HardEdge d t) : c.Edge d t := by
  obtain ⟨e, mem, dependent, target, -⟩ := hard
  exact ⟨e, mem, dependent, target⟩

def mark (c : GraphExecutionContext) (status : GraphMemberStatus) (services : List String) :
    GraphExecutionContext :=
  services.foldl (fun c service => c.setStatus service status) c

variable {a : String}

theorem statusOf_of_get (got : c.members[s]? = some m) : c.statusOf s = some m.status := by
  rw [statusOf, got, map_some]

theorem get_of_statusOf (h : c.statusOf s = some status) :
    ∃ m, c.members[s]? = some m ∧ m.status = status := map_eq_some_iff.mp h

theorem get_write : (c.write s m).members[a]? = if s = a then some m else c.members[a]? :=
  OrdMap.get_insert _ _ _ _

theorem setStatus_of_get (got : c.members[s]? = some m) :
    c.setStatus s status = c.write s { m with status } := by
  rw [setStatus, got]

theorem get_setStatus : (c.setStatus s status).members[a]? =
    (c.members[a]?).map fun m => if a = s then { m with status } else m := by
  rcases got : c.members[s]? with _ | m
  · rw [setStatus, got]
    by_cases here : a = s
    · subst here
      simp [got]
    · simp [here]
  · rw [setStatus_of_get got, get_write]
    by_cases here : s = a
    · subst here
      simp [got]
    · simp [here, Ne.symm here]

theorem sameShape_setStatus : SameShape c (c.setStatus s status) := by
  rcases got : c.members[s]? with _ | m
  · rw [setStatus, got]
    exact SameShape.rfl
  · rw [setStatus_of_get got]
    exact SameShape.write got rfl

@[simp] theorem mark_nil : c.mark status [] = c := rfl

theorem mark_append_singleton :
    c.mark status (svcs ++ [s]) = (c.mark status svcs).setStatus s status := by
  rw [mark, List.foldl_append]
  rfl

theorem sameShape_mark : SameShape c (c.mark status svcs) := by
  induction svcs generalizing c with
  | nil => exact SameShape.rfl
  | cons s svcs ih => exact trans_of SameShape sameShape_setStatus ih

theorem get_mark : (c.mark status svcs).members[a]? =
    (c.members[a]?).map fun m => if a ∈ svcs then { m with status } else m := by
  induction svcs generalizing c with
  | nil => simp
  | cons s svcs ih =>
    rw [mark, List.foldl_cons, ← mark, ih, get_setStatus, map_map]
    congr 1
    funext m
    by_cases later : a ∈ svcs
    · by_cases here : a = s <;> simp [here]
    · by_cases here : a = s <;> simp [here]

theorem statusOf_mark : (c.mark status svcs).statusOf a =
    (c.statusOf a).map fun before => if a ∈ svcs then status else before := by
  rw [statusOf, get_mark, statusOf, map_map, map_map]
  split_ifs <;> rfl

theorem statusOf_setStatus : (c.setStatus s status).statusOf a =
    (c.statusOf a).map fun before => if a = s then status else before := by
  rw [statusOf, get_setStatus, statusOf, map_map, map_map]
  split_ifs <;> rfl

theorem eq_of_map_ite {α : Type} {p : Prop} [Decidable p] {before : Option α} {new a : α}
    (other : a ≠ new) (known : (before.map fun old => if p then new else old) = some a) :
    before = some a := by
  obtain ⟨old, was, now⟩ := map_eq_some_iff.mp known
  split_ifs at now
  · exact absurd now.symm other
  · rw [was, now]

theorem statusOf_of_mark {marked : GraphMemberStatus} (other : status ≠ marked)
    (known : (c.mark marked svcs).statusOf a = some status) : c.statusOf a = some status :=
  eq_of_map_ite other (statusOf_mark ▸ known)

theorem statusOf_of_setStatus {set : GraphMemberStatus} (other : status ≠ set)
    (known : (c.setStatus s set).statusOf a = some status) : c.statusOf a = some status :=
  eq_of_map_ite other (statusOf_setStatus ▸ known)

theorem statusOf_write : (c.write s m).statusOf a = if s = a then some m.status else c.statusOf a := by
  rw [statusOf, get_write]
  split_ifs <;> rfl

theorem statusOf_noteHold (hold : String × Bool) : (c.noteHold hold).statusOf a = c.statusOf a := by
  rw [noteHold]
  rcases got : c.members[hold.1]? with _ | m
  · rfl
  · rw [statusOf_write]
    split_ifs with here
    · rw [← here, statusOf_of_get got]
    · rfl

theorem statusOf_noteHoldsWithoutClock : c.noteHoldsWithoutClock.statusOf a = c.statusOf a := by
  rw [noteHoldsWithoutClock]
  generalize (c.members.values.filter (·.status = .waitingForDependencies)).map
    (fun member => (member.service, c.waitsWithoutClock member.service)) = holds
  induction holds generalizing c with
  | nil => rfl
  | cons hold holds ih => rw [List.foldl_cons, ih, statusOf_noteHold]

end GraphExecutionContext

section SameShape

variable {c' : GraphExecutionContext}

theorem SameShape.edge (same : SameShape c c') : c'.Edge d t ↔ c.Edge d t := by
  unfold GraphExecutionContext.Edge
  rw [same.dependencies]

theorem SameShape.hardEdge (same : SameShape c c') : c'.HardEdge d t ↔ c.HardEdge d t := by
  unfold GraphExecutionContext.HardEdge
  rw [same.dependencies]

theorem SameShape.edgesOf (same : SameShape c c') (s : String) : c'.edgesOf s = c.edgesOf s := by
  rw [GraphExecutionContext.edgesOf, same.dependencies]
  rfl

theorem SameShape.edgesOnto (same : SameShape c c') (s : String) : c'.edgesOnto s = c.edgesOnto s := by
  rw [GraphExecutionContext.edgesOnto, same.dependencies]
  rfl

end SameShape

/-! ## Failures going on to dependents -/

namespace GraphExecutionContext

/-- Whether the failure of a dependency can still fail this member. -/
def canFail (c : GraphExecutionContext) (s : String) : Bool := (c.statusOf s).any (·.isWaitingOrRunning)

def hardDependentNames (c : GraphExecutionContext) (service : String) : List String :=
  ((c.edgesOnto service).filter (·.kind.isHard)).map (·.dependent)

/-- The members that fail along with `service`, in the order they fail. -/
def failing (c : GraphExecutionContext) (service : String) : List String :=
  flood c.hardDependentNames c.canFail c.members.size [] service

/-- The failure of `x` goes on to `y` directly. -/
def FailStep (c : GraphExecutionContext) (x y : String) : Prop :=
  c.HardEdge y x ∧ c.canFail y = true

def operationOf (c : GraphExecutionContext) (s : String) : OperationId :=
  ((c.members[s]?).map (·.operationId)).getD ⟨0⟩

def failedEvent (c : GraphExecutionContext) (s : String) : GraphExecutionEvent where
  contextId := c.id
  service := s
  operationId := c.operationOf s
  outcome := .failed

variable {x y : String}

theorem mem_hardDependentNames : y ∈ c.hardDependentNames x ↔ c.HardEdge y x := by
  simp only [hardDependentNames, edgesOnto, List.mem_map, List.mem_filter, decide_eq_true_eq, HardEdge]
  exact ⟨fun ⟨e, ⟨⟨mem, target⟩, hard⟩, dependent⟩ => ⟨e, mem, dependent, target, hard⟩,
    fun ⟨e, mem, dependent, target, hard⟩ => ⟨e, ⟨⟨mem, target⟩, hard⟩, dependent⟩⟩

theorem get_of_canFail (can : c.canFail s = true) :
    ∃ m, c.members[s]? = some m ∧ m.status.isWaitingOrRunning = true := by
  rw [canFail, statusOf, any_map] at can
  exact (any_eq_true _ _).mp can

theorem card_names : c.members.keys.toFinset.card ≤ c.members.size := by
  rw [← Std.ExtTreeMap.length_keys]
  exact List.toFinset_card_le _

theorem mem_names (got : c.members[s]? = some m) : s ∈ c.members.keys.toFinset :=
  List.mem_toFinset.mpr ((OrdMap.mem_keys _ _).mpr ⟨m, got⟩)

theorem mem_failing : s ∈ c.failing x ↔ Relation.TransGen c.FailStep x s := by
  have bounded : ∀ y, c.canFail y = true → y ∈ c.members.keys.toFinset := by
    intro y can
    obtain ⟨m, got, -⟩ := get_of_canFail can
    exact mem_names got
  rw [failing, mem_flood bounded card_names]
  have same : FloodStep c.hardDependentNames c.canFail = c.FailStep := by
    funext a b
    rw [FloodStep, mem_hardDependentNames, FailStep]
  rw [same]

theorem canFail_mark : (c.mark .failed svcs).canFail s = (c.canFail s && decide (s ∉ svcs)) := by
  rw [canFail, statusOf_mark, canFail]
  rcases c.statusOf s with _ | status
  · rfl
  · by_cases marked : s ∈ svcs <;> simp [marked, GraphMemberStatus.isWaitingOrRunning]

theorem hardDependents_eq : hardDependents c x = (c.hardDependentNames x).filter c.canFail := by
  rw [hardDependents, hardDependentNames]
  generalize (c.edgesOnto x).filter (·.kind.isHard) = edges
  induction edges with
  | nil => rfl
  | cons e edges ih =>
    rw [List.filterMap_cons, List.map_cons, List.filter_cons, ← ih, canFail, statusOf]
    rcases c.members[e.dependent]? with _ | m
    · simp
    · by_cases waiting : m.status.isWaitingOrRunning = true <;> simp [waiting]

theorem run_failDependent_of_not
    (got : c.members[s]? = some m) (ended : m.status.isWaitingOrRunning = false) :
    (failDependent rest s).run c = (.ok [], c) := by
  rw [failDependent, run_bind_of_ok (run_requireMember got), run_fetch_bind, if_neg (by simp [ended])]
  rfl

theorem run_markTerminal (got : c.members[s]? = some m) (live : m.status.isTerminal = false) :
    (markTerminal s outcome).run c = (.ok (), c.setStatus s outcome.status) := by
  rw [markTerminal, run_bind_of_ok (run_requireMember got), run_fetch_bind, if_neg (by simp [live]),
    setStatus_of_get got]
  rfl

theorem run_failDependent (got : c.members[s]? = some m) (waiting : m.status.isWaitingOrRunning = true) :
    (failDependent rest s).run c = ((c.failedEvent s :: ·) <$> rest s).run (c.setStatus s .failed) := by
  have live : m.status.isTerminal = false := by
    revert waiting
    cases m.status <;> decide
  rw [failDependent, run_bind_of_ok (run_requireMember got), run_fetch_bind, if_pos waiting,
    run_bind_of_ok (run_markTerminal got live)]
  have event : c.failedEvent s = ⟨c.id, s, m.operationId, .failed⟩ := by
    rw [failedEvent, operationOf, got]
    rfl
  rw [event]
  rfl

theorem failedEvent_mark : (c.mark status svcs).failedEvent s = c.failedEvent s := by
  have id : (c.mark status svcs).id = c.id := sameShape_mark.id
  rw [failedEvent, id, operationOf, get_mark, map_map]
  congr 3
  split_ifs <;> rfl

theorem marks_propagate : Marks c.hardDependentNames c.canFail (fun s => ∃ m, c.members[s]? = some m)
    (c.mark .failed) hardDependents failDependent c.failedEvent propagateVisiting where
  stops _ := rfl
  walks _ _ _ := rfl
  tried seen x _ := by
    refine ⟨(c.mark .failed seen).canFail, ?_, fun y _ => ⟨fun can => ?_, fun can fresh => ?_⟩⟩
    · rw [hardDependents_eq, hardDependentNames, hardDependentNames, sameShape_mark.edgesOnto]
    · rw [canFail_mark, Bool.and_eq_true] at can
      obtain ⟨m, got, -⟩ := get_of_canFail can.1
      exact ⟨m, got⟩
    · rw [canFail_mark, can]
      simp [fresh]
  hit rest y seen _ can fresh := by
    have still : (c.mark .failed seen).canFail y = true := by
      rw [canFail_mark, can]
      simp [fresh]
    obtain ⟨m, got, waiting⟩ := get_of_canFail still
    rw [run_failDependent got waiting, mark_append_singleton, failedEvent_mark]
  miss rest y seen _ known unmarked := by
    have blocked : (c.mark .failed seen).canFail y = false := by
      rw [canFail_mark]
      by_contra can
      rw [Bool.not_eq_false, Bool.and_eq_true, decide_eq_true_eq] at can
      exact unmarked can
    obtain ⟨m, got⟩ := known
    obtain ⟨m', found', -⟩ := sameShape_mark.get got
    apply run_failDependent_of_not found'
    rw [canFail, statusOf_of_get found'] at blocked
    exact blocked

theorem run_propagateHardDependencyFailure : (propagateHardDependencyFailure s).run c =
      (.ok ((c.failing s).map c.failedEvent), c.mark .failed (c.failing s)) := by
  obtain ⟨new, flooded, -, run⟩ := marks_propagate.run c.members.size [] s (by simp)
  rw [failing, flooded]
  exact run

/-! ## Terminal outcomes -/

/-- The context after `service` has got its outcome. -/
def ended (c : GraphExecutionContext) (service : String) (outcome : GraphTerminalOutcome) :
    GraphExecutionContext :=
  match outcome with
  | .satisfied => c.setStatus service .satisfied
  | .failed =>
    (c.setStatus service .failed).mark .failed ((c.setStatus service .failed).failing service)

theorem sameShape_ended : SameShape c (c.ended s outcome) := by
  cases outcome
  · exact sameShape_setStatus
  · exact trans_of SameShape sameShape_setStatus sameShape_mark

/-- The three things that can come of ending a member. -/
theorem run_endMember (c : GraphExecutionContext) (s : String) (op : OperationId)
    (outcome : GraphTerminalOutcome) :
    (endMember s op outcome).run c = (.error (.missingMember c.id s), c) ∨
      ∃ m, c.members[s]? = some m ∧
        (m.status.isTerminal = true ∧
            (endMember s op outcome).run c = (.error (.memberAlreadyTerminal c.id s m.status), c) ∨
          m.status.isTerminal = false ∧ ∃ events,
            (endMember s op outcome).run c = (.ok events, c.ended s outcome) ∧
              events.head? = some ⟨c.id, s, op, outcome⟩) := by
  rcases got : c.members[s]? with _ | m
  · have missing : (markTerminal s outcome).run c = (.error (.missingMember c.id s), c) := by
      rw [markTerminal, requireMember, run_bind, run_fetch_bind, got]
      rfl
    rw [endMember, run_fetch_bind, run_bind_of_error missing]
    exact .inl rfl
  · refine .inr ⟨m, rfl, ?_⟩
    by_cases terminal : m.status.isTerminal = true
    · have refused : (markTerminal s outcome).run c =
          (.error (.memberAlreadyTerminal c.id s m.status), c) := by
        rw [markTerminal, run_bind_of_ok (run_requireMember got), run_fetch_bind, if_pos terminal]
        rfl
      rw [endMember, run_fetch_bind, run_bind_of_error refused]
      exact .inl ⟨terminal, rfl⟩
    · rw [Bool.not_eq_true] at terminal
      refine .inr ⟨terminal, ?_⟩
      rw [endMember, run_fetch_bind, run_bind_of_ok (run_markTerminal got terminal)]
      cases outcome
      · exact ⟨_, rfl, rfl⟩
      · rw [if_pos rfl, run_bind_of_ok run_propagateHardDependencyFailure]
        exact ⟨_, rfl, rfl⟩

theorem endMember_cases {op : OperationId} {events : List GraphExecutionEvent}
    {t : GraphExecutionContext} (run : (endMember s op outcome).run c = (.ok events, t)) :
    ∃ m, c.members[s]? = some m ∧ m.status.isTerminal = false ∧ t = c.ended s outcome ∧
      events.head? = some ⟨c.id, s, op, outcome⟩ := by
  rcases run_endMember c s op outcome with ran | ⟨m, got, ⟨-, ran⟩ | ⟨live, _, ran, first⟩⟩
  · rw [ran] at run
    cases run
  · rw [ran] at run
    cases run
  · rw [ran] at run
    cases run
    exact ⟨m, got, live, rfl, first⟩

theorem failStep_setStatus_failed (step : (c.setStatus s .failed).FailStep x y) : c.FailStep x y := by
  obtain ⟨hard, can⟩ := step
  refine ⟨sameShape_setStatus.hardEdge.mp hard, ?_⟩
  rw [canFail, statusOf_setStatus, any_map] at can
  obtain ⟨status, known, waiting⟩ := (any_eq_true _ _).mp can
  rw [canFail, known]
  split_ifs at waiting
  · cases waiting
  · exact waiting

theorem statusOf_ended (a : String) : (c.ended s outcome).statusOf a = c.statusOf a ∨
      (c.ended s outcome).statusOf a = some outcome.status ∧
        (a = s ∨ outcome = .failed ∧ c.canFail a = true ∧ Relation.TransGen c.FailStep s a) := by
  cases outcome
  · rw [ended, statusOf_setStatus]
    by_cases here : a = s
    · rcases known : c.statusOf a with _ | status
      · exact .inl rfl
      · exact .inr ⟨by rw [map_some, if_pos here]; rfl, .inl here⟩
    · left
      rcases c.statusOf a with _ | status
      · rfl
      · rw [map_some, if_neg here]
  · rw [ended, statusOf_mark, statusOf_setStatus, map_map]
    rcases known : c.statusOf a with _ | status
    · exact .inl rfl
    · rw [map_some, Function.comp_apply]
      by_cases here : a = s
      · right
        refine ⟨?_, .inl here⟩
        split_ifs <;> rfl
      · by_cases reached : a ∈ (c.setStatus s .failed).failing s
        · have path : Relation.TransGen c.FailStep s a :=
            mono (fun _ _ => failStep_setStatus_failed) _ _ (mem_failing.mp reached)
          obtain ⟨_, -, last⟩ := tail'_iff.mp path
          exact .inr ⟨by rw [if_pos reached]; rfl, .inr ⟨rfl, last.2, path⟩⟩
        · left
          rw [if_neg reached, if_neg here]

theorem statusOf_ended_self (got : c.members[s]? = some m) :
    (c.ended s outcome).statusOf s = some outcome.status := by
  cases outcome
  · rw [ended, statusOf_setStatus, statusOf_of_get got, map_some, if_pos rfl]
    rfl
  · rw [ended, statusOf_mark, statusOf_setStatus, statusOf_of_get got, map_some, map_some, if_pos rfl]
    split_ifs <;> rfl

theorem statusOf_of_ended_ne
    (other : status ≠ outcome.status) (known : (c.ended s outcome).statusOf a = some status) :
    c.statusOf a = some status := by
  have change : (c.ended s outcome).statusOf a = c.statusOf a ∨ _ := statusOf_ended a
  rcases change with same | ⟨reached, -⟩
  · rw [← same, known]
  · rw [reached] at known
    exact absurd (some.inj known).symm other

theorem statusOf_of_ended
    (alive : status.isTerminal = false) (known : (c.ended s outcome).statusOf a = some status) :
    c.statusOf a = some status := by
  refine statusOf_of_ended_ne ?_ known
  rintro rfl
  cases outcome <;> cases alive

theorem failed_of_ended (got : c.members[s]? = some m)
    (failed : (c.ended s outcome).statusOf a = some .failed) (was : c.statusOf a ≠ some .failed) :
    outcome = .failed ∧ (a = s ∨ ∃ t, c.HardEdge a t ∧ (c.ended s outcome).statusOf t = some .failed) := by
  cases outcome with
  | satisfied => exact absurd (statusOf_of_ended_ne (by decide) failed) was
  | failed =>
    refine ⟨rfl, ?_⟩
    by_cases here : a = s
    · exact .inl here
    · right
      have reached : a ∈ (c.setStatus s .failed).failing s := by
        rw [ended, statusOf_mark, statusOf_setStatus] at failed
        by_contra unreached
        simp only [unreached, here] at failed
        exact was (by simpa using failed)
      obtain ⟨t, path, step⟩ := tail'_iff.mp (mem_failing.mp reached)
      refine ⟨t, sameShape_setStatus.hardEdge.mp step.1, ?_⟩
      rcases Relation.reflTransGen_iff_eq_or_transGen.mp path with rfl | path
      · exact statusOf_ended_self got
      · have among := mem_failing.mpr path
        obtain ⟨_, -, last⟩ := tail'_iff.mp path
        obtain ⟨m', found', -⟩ := get_of_canFail last.2
        rw [ended, statusOf_mark, statusOf_of_get found', map_some, if_pos among]

theorem ended_failed_closed (failed : a = s ∨ a ∈ (c.setStatus s .failed).failing s)
    (hard : c.HardEdge y a) : (c.ended s .failed).canFail y = false := by
  rw [ended, canFail_mark]
  by_contra can
  rw [Bool.not_eq_false, Bool.and_eq_true, decide_eq_true_eq] at can
  apply can.2
  have step : (c.setStatus s .failed).FailStep a y := ⟨sameShape_setStatus.hardEdge.mpr hard, can.1⟩
  rw [mem_failing] at failed ⊢
  rcases failed with rfl | path
  · exact .single step
  · exact .tail path step

end GraphExecutionContext

end Peinit
