import Peinit.Start.Work

/-!
# Each start is released once

As long as each operation has one member at most, over all contexts, that awaits its release, it is
started once, and its check has left the prechecked start that it consumes. A passed check can break
this: it makes the member wait in every context of the operation.
-/

namespace Peinit

open Fallible GraphExecutionStore GraphExecutionContext GraphStep StartWork List

variable {start : PlannedStart} {sequence slots : ℕ} {outcome : OperationRequestOutcome}
  {members' : GraphMembers} {x : String} {m m' : GraphMember} {step : GraphStep}
  {id cid : GraphContextId} {operationId : OperationId} {c' c : GraphExecutionContext}
  {r : ReadyGraphOperation} {s : GraphExecutionStore} {w w' : StartWork}
  {probe : String → String → LevelProbe} {operations : List ReadyGraphOperation}
  {issued : List OperationId}

/-- A member of the context `id` that starts `service` under the operation awaits its release. -/
def Awaits (g : GraphExecutionStore) (operationId : OperationId) (id : GraphContextId)
    (service : String) : Prop :=
  ∃ c m, g.contexts[id]? = some c ∧ c.members[service]? = some m ∧ m.operationId = operationId ∧
    m.status.awaitsRelease = true

/-- No member of the operation awaits its release. -/
def Idle (g : GraphExecutionStore) (operationId : OperationId) : Prop :=
  ∀ id service, ¬ Awaits g operationId id service

/-- Every member that awaits its release satisfies `p`. -/
def AwaitingAre (g : GraphExecutionStore)
    (p : GraphContextId → GraphExecutionContext → String → GraphMember → Prop) : Prop :=
  ∀ {id : GraphContextId} {c : GraphExecutionContext} {x : String} {m : GraphMember},
    g.contexts[id]? = some c → c.members[x]? = some m → m.status.awaitsRelease = true → p id c x m

section Steps

variable {a : String} {status : GraphMemberStatus}

/-- The member has awaited its release before, and has passed its check if it has now. -/
def AwaitedBefore (s : GraphExecutionStore) (id : GraphContextId) (x : String) (m' : GraphMember) :
    Prop :=
  ∃ c m, s.contexts[id]? = some c ∧ c.members[x]? = some m ∧ m.operationId = m'.operationId ∧
    m.status.awaitsRelease = true ∧
    (m'.status = .waitingForDependencies → m.status = .waitingForDependencies)

/-- The member is the one whose check has just passed. -/
def JustPassed (s : GraphExecutionStore) (id : GraphContextId) (x : String) (m' : GraphMember)
    (step : GraphStep) : Prop :=
  step = .checkPassed m'.operationId ∧ id ∈ s.associatedContexts m'.operationId ∧
    ∃ c m, s.contexts[id]? = some c ∧ c.memberForOperation m'.operationId = some m ∧ m.service = x

theorem GraphStep.awaiting_cases (reg : Regular s) : AwaitingAre (step.commit s) fun id c' x m' =>
    AwaitedBefore s id x m' ∨ (id = s.pendingContextId ∧ step.Builds id c') ∨
      JustPassed s id x m' step := by
  intro id c' x m' live got awaits
  rcases commit_context reg live with ⟨c, before, change⟩ | built
  · have shape := sameShape_commit reg before live
    obtain ⟨m, was, fixed⟩ := shape.symm.get got
    have same : m.operationId = m'.operationId := GraphMember.operationId_eq fixed
    have known := statusOf_of_get got
    have knownBefore := statusOf_of_get was
    have kept : c.statusOf x = some m'.status → AwaitedBefore s id x m' := by
      intro unchanged
      rw [knownBefore] at unchanged
      have statuses : m.status = m'.status := Option.some.inj unchanged
      exact ⟨c, m, before, was, same, by rw [statuses, awaits], fun h => by rw [statuses, h]⟩
    rcases change with quiet | effect
    · exact .inl (kept (by rw [← quiet.2, known]))
    · by_cases check : ∃ operationId, step = .checkPassed operationId
      · obtain ⟨operationId, rfl⟩ := check
        obtain ⟨mem, owner, named, foundOwner, -, -, rfl⟩ := effect
        by_cases here : x = owner.service
        · subst here
          rw [foundOwner] at was
          cases was
          have own : m.operationId = operationId :=
            (get_of_memberForOperation (reg.wellFormed id c before) named).2
          rw [same] at own
          subst own
          exact .inr (.inr ⟨rfl, mem, c, m, before, named, rfl⟩)
        · left
          rw [statusOf_checkPassed foundOwner] at known
          split_ifs at known with woken
          · have waiting := Option.some.inj known
            rw [woken.2] at knownBefore
            refine ⟨c, m, before, was, same, ?_, fun passed => ?_⟩
            · rw [← Option.some.inj knownBefore]
              rfl
            · rw [passed] at waiting
              cases waiting
          · exact kept known
      · push Not at check
        exact .inl (kept (effect.unchanged check known awaits))
  · exact .inr (.inl built)

end Steps

/-- The step passes no check and makes no context. -/
def GraphStep.Silent (step : GraphStep) : Prop :=
  (∀ operationId, step ≠ .checkPassed operationId) ∧ ∀ id c, ¬ step.Builds id c

/-! ## New operations -/

/-- Two outcomes that are not merges have different operations. -/
def DifferentUnlessMerged (a b : OperationRequestOutcome) : Prop :=
  isMerge a.decision = false → isMerge b.decision = false → a.returnedOperationId ≠ b.returnedOperationId

/-- The operations that a step makes contexts with, other than those it merges into, are new and
different from each other. -/
def IssuesNew (issued : List OperationId) : GraphStep → Prop
  | .createBoot plan _ => (plan.starts.map (·.operationId)).Nodup ∧
      ∀ start ∈ plan.starts, start.operationId ∉ issued
  | .createOnDemand dispatch _ =>
      (dispatch.requestedOperation :: dispatch.dependencyOperations).Pairwise DifferentUnlessMerged ∧
      ∀ outcome ∈ dispatch.requestedOperation :: dispatch.dependencyOperations,
        isMerge outcome.decision = false → outcome.returnedOperationId ∉ issued
  | _ => True

section Built

variable {dispatch : OnDemandStartDispatch} {svcs : ServiceTable} {members : GraphMembers}

/-- The dormant members have different operations. -/
def DormantApart (members : GraphMembers) : Prop :=
  ∀ (x y : String) (m n : GraphMember), members[x]? = some m → members[y]? = some n →
    m.status = .dormant → n.status = .dormant → m.operationId = n.operationId → x = y

/-- What the loop over the planned starts maintains: `left` are the outcomes not used yet, and the
dormant members have different operations, each from an outcome that was used. -/
structure OutcomesUsed (dispatch : OnDemandStartDispatch) (members : GraphMembers)
    (left : List OperationRequestOutcome) : Prop where
  used : ∃ used, dispatch.dependencyOperations = used ++ left ∧
    ∀ (x : String) (m : GraphMember), members[x]? = some m → m.status = .dormant →
      x = dispatch.plan.requested ∧
          m.operationId = dispatch.requestedOperation.returnedOperationId ∧
          isMerge dispatch.requestedOperation.decision = false ∨
        ∃ outcome ∈ used, m.operationId = outcome.returnedOperationId ∧ isMerge outcome.decision = false
  distinct : DormantApart members

theorem not_merge_of_dormant
    (dormant : (plannedMember dispatch svcs start sequence outcome).status = .dormant) :
    isMerge outcome.decision = false := by
  by_contra merged
  unfold plannedMember plannedStatus at dormant
  rw [Bool.not_eq_false] at merged
  split_ifs at dormant

theorem DormantApart.insert {new : GraphMember} (distinct : DormantApart members)
    (inserted : insertMember members new = .ok members')
    (fresh : new.status = .dormant → ∀ (x : String) (m : GraphMember), members[x]? = some m →
      m.status = .dormant → m.operationId ≠ new.operationId) : DormantApart members' := by
  obtain ⟨-, rfl⟩ := insertMember_cases inserted
  intro x y m n foundX foundY dormantX dormantY same
  rw [OrdMap.get_insert] at foundX foundY
  split_ifs at foundX foundY with hereX hereY hereY
  · exact hereX.symm.trans hereY
  · cases foundX
    exact absurd same.symm (fresh dormantX y n foundY dormantY)
  · cases foundY
    exact absurd same (fresh dormantY x m foundX dormantX)
  · exact distinct x y m n foundX foundY dormantX dormantY same

theorem OutcomesUsed.round {left rest : List OperationRequestOutcome}
    (different : (dispatch.requestedOperation :: dispatch.dependencyOperations).Pairwise
      DifferentUnlessMerged)
    (before : OutcomesUsed dispatch members left)
    (chosen : startOutcome dispatch start left = .ok (outcome, rest))
    (inserted : insertMember members (plannedMember dispatch svcs start sequence outcome) =
      .ok members') : OutcomesUsed dispatch members' rest := by
  obtain ⟨used, split, origin⟩ := before.used
  obtain ⟨fresh, rfl⟩ := insertMember_cases inserted
  rw [pairwise_cons] at different
  unfold startOutcome at chosen
  split_ifs at chosen with requested
  · cases chosen
    refine ⟨⟨used, split, fun x m got dormant => ?_⟩, before.distinct.insert inserted ?_⟩
    · rw [OrdMap.get_insert] at got
      split_ifs at got with here
      · cases got
        exact .inl ⟨here.symm.trans requested, rfl, not_merge_of_dormant dormant⟩
      · exact origin x m got dormant
    · intro dormantNew x m got dormant same
      rcases origin x m got dormant with ⟨rfl, -, -⟩ | ⟨other, mem, own, notMerge⟩
      · change members[start.service]? = none at fresh
        rw [requested, got] at fresh
        cases fresh
      · refine different.1 other (split ▸ mem_append_left _ mem)
          (not_merge_of_dormant dormantNew) notMerge ?_
        rw [← own, same]
        rfl
  · rcases left with _ | ⟨head, tail⟩
    · cases chosen
    · cases chosen
      have later := different.2
      rw [split, pairwise_append] at later
      refine ⟨⟨used ++ [outcome], by rw [split]; simp, fun x m got dormant => ?_⟩,
        before.distinct.insert inserted ?_⟩
      · rw [OrdMap.get_insert] at got
        split_ifs at got with here
        · cases got
          exact .inr ⟨outcome, by simp, rfl, not_merge_of_dormant dormant⟩
        · refine (origin x m got dormant).imp_right fun ⟨other, mem, own⟩ => ?_
          exact ⟨other, mem_append_left _ mem, own⟩
      · intro dormantNew x m got dormant same
        have notMergeNew := not_merge_of_dormant dormantNew
        rcases origin x m got dormant with ⟨-, own, notMerge⟩ | ⟨other, mem, own, notMerge⟩
        · refine different.1 outcome (split ▸ mem_append_right _ (by simp)) notMerge notMergeNew ?_
          rw [← own, same]
          rfl
        · refine later.2.2 other mem outcome (by simp) notMerge notMergeNew ?_
          rw [← own, same]
          rfl

theorem plannedMembers_distinct (different : (dispatch.requestedOperation ::
      dispatch.dependencyOperations).Pairwise DifferentUnlessMerged)
    (built : plannedMembers dispatch svcs = .ok members) : DormantApart members := by
  obtain ⟨⟨filled, left⟩, loop, done⟩ := bind_eq_ok.mp built
  cases done
  have inv := foldlM_invariant (b := ((∅ : GraphMembers), dispatch.dependencyOperations))
    (fun state : GraphMembers × List OperationRequestOutcome =>
      OutcomesUsed dispatch state.1 state.2) ?_ ?_ loop
  · exact inv.distinct
  · rintro ⟨start, sequence⟩ - ⟨before, outcomes⟩ ⟨after, outcomes'⟩ used round
    obtain ⟨⟨outcome, rest⟩, chosen, round⟩ := bind_eq_ok.mp round
    obtain ⟨inserted, added, last⟩ := bind_eq_ok.mp round
    cases last
    exact used.round different chosen added
  · exact ⟨⟨[], rfl, fun x m got => by simp at got⟩, fun x y m n got => by simp at got⟩

theorem bootMembers_distinct {plan : Phase2BootPlan}
    (distinct : (plan.starts.map (·.operationId)).Nodup) (built : bootMembers plan = .ok members) :
    DormantApart members := by
  intro x y m n foundX foundY dormantX dormantY same
  obtain ⟨rfl, fromX⟩ := bootMembers_are built x m foundX
  obtain ⟨rfl, fromY⟩ := bootMembers_are built y n foundY
  rcases fromX with ⟨first, listedX, _, rfl⟩ | ⟨_, -, _, rfl⟩
  · rcases fromY with ⟨second, listedY, _, rfl⟩ | ⟨_, -, _, rfl⟩
    · have equal : first = second := inj_on_of_nodup_map distinct listedX listedY same
      rw [equal]
      rfl
    · cases dormantY
  · cases dormantX

variable {p : GraphMember → Prop} {defn : String → Option ServiceDefinition}

theorem BuiltFrom.dormant_of_awaits (built : BuiltFrom p defn c members)
    (fresh : ∀ m, p m → m.status.awaitsRelease = true → m.status = .dormant)
    (got : c.members[x]? = some m) (awaits : m.status.awaitsRelease = true) :
    m.status ≠ .waitingForDependencies ∧ ∃ before, members[x]? = some before ∧ p before ∧
      before.status = .dormant ∧ before.operationId = m.operationId := by
  rw [built.roots] at got
  obtain ⟨before, known, fixed, ⟨rfl, -⟩ | ⟨dormant, waiting, -⟩⟩ := activateRoots_cases got
  · have kind := (built.are x m known).2
    have dormant := fresh m kind awaits
    exact ⟨by rw [dormant]; decide, m, known, kind, dormant, rfl⟩
  · exact ⟨by rw [waiting]; decide, before, known, (built.are x before known).2, dormant,
      (GraphMember.operationId_eq fixed).symm⟩

/-- What awaits its release in a new context has a new operation, and is alone with it, if this holds of
the dormant members it was made from. -/
theorem BuiltFrom.awaits (built : BuiltFrom p defn c members)
    (fresh : ∀ m, p m → m.status.awaitsRelease = true → m.status = .dormant)
    (new : ∀ m, p m → m.status = .dormant → m.operationId ∉ issued) (apart : DormantApart members)
    (got : c.members[x]? = some m) (awaits : m.status.awaitsRelease = true) :
    m.operationId ∉ issued ∧ m.status ≠ .waitingForDependencies ∧
      ∀ (y : String) (n : GraphMember), c.members[y]? = some n → n.status.awaitsRelease = true →
        n.operationId = m.operationId → y = x := by
  obtain ⟨unchecked, before, known, kind, dormant, same⟩ := built.dormant_of_awaits fresh got awaits
  refine ⟨same ▸ new before kind dormant, unchecked, fun y n foundY awaitsY sameY => ?_⟩
  obtain ⟨-, beforeY, knownY, -, dormantY, sameY'⟩ := built.dormant_of_awaits fresh foundY awaitsY
  exact apart y x _ _ knownY known dormantY dormant (by rw [sameY', sameY, same])

theorem GraphStep.Builds.awaits
    (built : step.Builds id c) (new : IssuesNew issued step) (got : c.members[x]? = some m)
    (awaits : m.status.awaitsRelease = true) :
    m.operationId ∉ issued ∧ m.status ≠ .waitingForDependencies ∧
      ∀ (y : String) (n : GraphMember), c.members[y]? = some n → n.status.awaitsRelease = true →
        n.operationId = m.operationId → y = x := by
  cases step with
  | createBoot plan definitions =>
    obtain ⟨-, members, first, made⟩ := bootContext_builtFrom built
    refine made.awaits ?_ ?_ (bootMembers_distinct new.1 first) got awaits
    · rintro m (⟨start, -, sequence, rfl⟩ | ⟨blocked, -, sequence, rfl⟩) awaits
      · rfl
      · cases awaits
    · rintro m (⟨start, mem, sequence, rfl⟩ | ⟨_, -, _, rfl⟩) dormant
      · exact new.2 start mem
      · cases dormant
  | createOnDemand dispatch services =>
    obtain ⟨-, members, ⟨planned, made⟩ | made⟩ := onDemandContext_builtFrom built
    · refine made.awaits ?_ ?_ (plannedMembers_distinct new.1 planned) got awaits
      · rintro m ⟨start, -, sequence, outcome, -, rfl⟩ awaits
        revert awaits
        unfold plannedMember plannedStatus
        split_ifs
        · exact nofun
        · exact nofun
        · exact fun _ => rfl
      · rintro m ⟨start, -, sequence, outcome, mem, rfl⟩ dormant
        exact new.2 outcome mem (not_merge_of_dormant dormant)
    · have none : ∀ m : GraphMember, m = blockedRequestedMember dispatch →
          m.status.awaitsRelease = false := by
        rintro m rfl
        unfold blockedRequestedMember blockedRequestedStatus
        split_ifs <;> rfl
      obtain ⟨-, before, -, kind, dormant, -⟩ := made.dormant_of_awaits
        (fun m blocked awaits => by rw [none m blocked] at awaits; cases awaits) got awaits
      have never := none before kind
      rw [dormant] at never
      cases never
  | _ => exact built.elim

end Built

/-! ## The invariant -/

/-- Each operation has one member at most that awaits its release, and none once its check is
pending or its start was released. -/
structure Once (w : StartWork) : Prop where
  regular : Regular w.graph
  single : ∀ operationId id x id' x', Awaits w.graph operationId id x →
    Awaits w.graph operationId id' x' → id = id' ∧ x = x'
  pending : ∀ operationId ∈ w.start.pendingPreStartChecks, Idle w.graph operationId
  prechecked : ∀ (id : GraphContextId) (c : GraphExecutionContext) (x : String) (m : GraphMember),
    w.graph.contexts[id]? = some c → c.members[x]? = some m →
    m.status = .waitingForDependencies → m.operationId ∈ w.start.precheckedGraphStarts
  started : ∀ operationId ∈ w.started, operationId ∉ w.start.pendingPreStartChecks ∧
    Idle w.graph operationId
  known : ∀ (id : GraphContextId) (c : GraphExecutionContext) (operationId : OperationId),
    w.graph.contexts[id]? = some c → HasOperation c operationId → operationId ∈ w.issued
  pendingKnown : ∀ operationId ∈ w.start.pendingPreStartChecks, operationId ∈ w.issued
  startedKnown : ∀ operationId ∈ w.started, operationId ∈ w.issued

theorem once_new : Once .new := by
  have none : ∀ (id : GraphContextId) (c : GraphExecutionContext),
      StartWork.new.graph.contexts[id]? ≠ some c := by
    intro id c live
    simp [StartWork.new, GraphExecutionStore.new] at live
  refine ⟨regular_new, ?_, ?_, ?_, ?_, ?_, ?_, ?_⟩
  · rintro operationId id x id' x' ⟨c, m, live, -⟩
    exact absurd live (none id c)
  · rintro operationId - id x ⟨c, m, live, -⟩
    exact none id c live
  · intro id c x m live
    exact absurd live (none id c)
  · intro operationId mem
    cases mem
  · intro id c operationId live
    exact absurd live (none id c)
  · intro operationId mem
    simp [StartWork.new, StartExecutionStore.new] at mem
  · intro operationId mem
    cases mem

namespace Once

theorem known_of_awaits (once : Once w)
    (awaits : Awaits w.graph operationId id x) : operationId ∈ w.issued := by
  obtain ⟨c, m, live, got, same, -⟩ := awaits
  exact once.known id c operationId live ⟨x, m, got, same⟩

theorem AwaitedBefore.awaits {s : GraphExecutionStore}
    (before : AwaitedBefore s id x m') : Awaits s m'.operationId id x := by
  obtain ⟨c, m, live, got, same, awaits, -⟩ := before
  exact ⟨c, m, live, got, same, awaits⟩

theorem awaits_commit (once : Once w) (quiet : step.Silent) :
    AwaitingAre (step.commit w.graph) fun id _ x m' => AwaitedBefore w.graph id x m' := by
  intro id c' x m' live got awaits
  rcases awaiting_cases once.regular live got awaits with before | ⟨-, built⟩ | passed
  · exact before
  · exact absurd built (quiet.2 id c')
  · exact absurd passed.1 (quiet.1 _)

/-- The operations that are not `fresh` have no new member that awaits its release; a fresh one has
one at most, and what it waits for is recorded. -/
theorem of_awaiting (once : Once w) (step : GraphStep) (graph : w'.graph = step.commit w.graph)
    (fresh : OperationId → Prop)
    (came : AwaitingAre w'.graph fun id _ x m' => AwaitedBefore w.graph id x m' ∨
      fresh m'.operationId ∧
        (m'.status = .waitingForDependencies → m'.operationId ∈ w'.start.precheckedGraphStarts))
    (unique : ∀ op, fresh op → ∀ id x id' x', Awaits w'.graph op id x →
      Awaits w'.graph op id' x' → id = id' ∧ x = x')
    (pending : ∀ op ∈ w'.start.pendingPreStartChecks,
      op ∈ w.start.pendingPreStartChecks ∧ ¬ fresh op ∨ op ∈ w.issued ∧ Idle w'.graph op)
    (prechecked : ∀ op ∈ w.start.precheckedGraphStarts,
      op ∈ w'.start.precheckedGraphStarts ∨ Idle w'.graph op)
    (started : ∀ op ∈ w'.started, op ∉ w'.start.pendingPreStartChecks ∧
      (op ∈ w.started ∧ ¬ fresh op ∨ op ∈ w.issued ∧ Idle w'.graph op))
    (built : ∀ {id : GraphContextId} {c : GraphExecutionContext} {op : OperationId},
      w'.graph.contexts[id]? = some c → step.Builds id c → HasOperation c op → op ∈ w'.issued)
    (issued : w.issued ⊆ w'.issued) : Once w' := by
  have before : ∀ op id x, ¬ fresh op → Awaits w'.graph op id x →
      Awaits w.graph op id x := by
    rintro op id x old ⟨c', m', live, got, rfl, awaits⟩
    rcases came live got awaits with was | ⟨new, -⟩
    · exact AwaitedBefore.awaits was
    · exact absurd new old
  refine ⟨graph ▸ once.regular.commit step, ?_, ?_, ?_, ?_, ?_, ?_, ?_⟩
  · intro op id x id' x' first second
    by_cases new : fresh op
    · exact unique op new id x id' x' first second
    · exact once.single op id x id' x' (before _ _ _ new first) (before _ _ _ new second)
  · intro op mem id x awaits
    rcases pending op mem with ⟨was, old⟩ | ⟨-, none⟩
    · exact once.pending op was id x (before _ _ _ old awaits)
    · exact none id x awaits
  · intro id c' x m' live got waiting
    have awaits : m'.status.awaitsRelease = true := by rw [waiting]; rfl
    rcases came live got awaits with ⟨c, m, was, foundBefore, same, -, checked⟩ | ⟨-, recorded⟩
    · have noted := once.prechecked id c x m was foundBefore (checked waiting)
      rw [same] at noted
      exact (prechecked _ noted).resolve_right fun none => none id x ⟨c', m', live, got, rfl, awaits⟩
    · exact recorded waiting
  · intro op mem
    refine ⟨(started op mem).1, fun id x awaits => ?_⟩
    rcases (started op mem).2 with ⟨was, old⟩ | ⟨-, none⟩
    · exact (once.started op was).2 id x (before _ _ _ old awaits)
    · exact none id x awaits
  · intro id c' op live has
    have live' := live
    rw [graph] at live'
    rcases commit_context once.regular live' with ⟨c, before, -⟩ | ⟨-, made⟩
    · obtain ⟨x, m', got, same⟩ := has
      obtain ⟨m, was, fixed⟩ := (sameShape_commit once.regular before live').symm.get got
      exact issued (once.known id c op before ⟨x, m, was, (GraphMember.operationId_eq fixed).trans same⟩)
    · exact built live made has
  · intro op mem
    rcases pending op mem with ⟨was, -⟩ | ⟨old, -⟩
    · exact issued (once.pendingKnown op was)
    · exact issued old
  · intro op mem
    rcases (started op mem).2 with ⟨was, -⟩ | ⟨old, -⟩
    · exact issued (once.startedKnown op was)
    · exact issued old

theorem of_quiet (once : Once w) (step : GraphStep) (quiet : step.Silent) (graph : w'.graph = step.commit w.graph)
    (pending : ∀ operationId, operationId ∈ w'.start.pendingPreStartChecks →
      operationId ∈ w.start.pendingPreStartChecks)
    (prechecked : w'.start.precheckedGraphStarts = w.start.precheckedGraphStarts)
    (started : w'.started = w.started) (issued : w'.issued = w.issued) : Once w' := by
  refine once.of_awaiting step graph (fun _ => False)
    (fun live got awaits => ?_) (fun _ => False.elim) (fun operationId mem => ?_)
    (fun _ noted => .inl (prechecked ▸ noted)) (fun operationId mem => ?_)
    (fun _ made => absurd made (quiet.2 _ _)) (issued ▸ List.Subset.refl _)
  · rw [graph] at live
    exact .inl (once.awaits_commit quiet live got awaits)
  · exact .inl ⟨pending operationId mem, not_false⟩
  · rw [started] at mem
    exact ⟨fun h => (once.started operationId mem).1 (pending operationId h), .inl ⟨mem, not_false⟩⟩

theorem of_onGraph (once : Once w) (step : GraphStep)
    (ran : (onGraph step.run).run w = (.ok (), w')) (quiet : step.Silent) : Once w' := by
  obtain ⟨graph, done, rfl⟩ := run_onGraph_eq_ok.mp ran
  exact once.of_quiet step quiet (commit_of_run done).symm (fun _ h => h) rfl rfl rfl

/-- A check that passes while its operation has a single context keeps the invariant: nothing of the
operation awaited its release, and now one member does. -/
theorem of_checkPassed (once : Once w) {op : OperationId} (running : op ∈ w.start.pendingPreStartChecks)
    (alone : ∀ id ∈ w.graph.associatedContexts op, ∀ id' ∈ w.graph.associatedContexts op, id = id')
    (graph : w'.graph = (checkPassed op).commit w.graph)
    (start : w'.start = (w.start.removePendingPreStartCheck op).recordPrecheckedGraphStart op)
    (started : w'.started = w.started) (issued : w'.issued = w.issued) : Once w' := by
  have cases : AwaitingAre w'.graph fun id _ x m' =>
      AwaitedBefore w.graph id x m' ∨ JustPassed w.graph id x m' (.checkPassed op) := by
    rw [graph]
    intro id c' x m' live got awaits
    refine (awaiting_cases once.regular live got awaits).imp_right fun new => ?_
    exact new.resolve_left And.right
  have pending : ∀ other, other ∈ w'.start.pendingPreStartChecks ↔
      op ≠ other ∧ other ∈ w.start.pendingPreStartChecks := by
    intro other
    rw [start]
    exact OrdSet.mem_erase _ _ _
  have prechecked : ∀ other, other ∈ w'.start.precheckedGraphStarts ↔
      op = other ∨ other ∈ w.start.precheckedGraphStarts := by
    intro other
    rw [start]
    exact OrdSet.mem_insert _ _ _
  -- The members of the operation itself that now await a release have just passed their check.
  have own : ∀ id x, Awaits w'.graph op id x →
      id ∈ w.graph.associatedContexts op ∧ ∃ c m, w.graph.contexts[id]? = some c ∧
        c.memberForOperation op = some m ∧ m.service = x := by
    rintro id x ⟨c', m', live, got, same, awaits⟩
    rcases cases live got awaits with was | ⟨-, mem, named⟩
    · have awaited := AwaitedBefore.awaits was
      rw [same] at awaited
      exact absurd awaited (once.pending op running id x)
    · rw [same] at mem named
      exact ⟨mem, named⟩
  refine once.of_awaiting _ graph (· = op) (fun live got awaits => ?_) ?_ (fun other mem => ?_)
    (fun other noted => .inl ((prechecked other).mpr (.inr noted))) (fun other mem => ?_)
    (fun _ => False.elim) (issued ▸ List.Subset.refl _)
  · refine (cases live got awaits).imp_right fun passed => ?_
    have same := passed.1
    injection same with same
    exact ⟨same.symm, fun _ => (prechecked _).mpr (.inl same)⟩
  · rintro other rfl id x id' x' first second
    obtain ⟨mem, c, m, live, named, rfl⟩ := own id x first
    obtain ⟨listed', c₂, m₂, live', named', rfl⟩ := own id' x' second
    have here := alone id mem id' listed'
    subst here
    rw [live] at live'
    cases live'
    rw [named] at named'
    cases named'
    exact ⟨rfl, rfl⟩
  · obtain ⟨different, was⟩ := (pending other).mp mem
    exact .inl ⟨was, Ne.symm different⟩
  · rw [started] at mem
    have notPending := (once.started other mem).1
    refine ⟨fun h => notPending ((pending other).mp h).2, .inl ⟨mem, ?_⟩⟩
    rintro rfl
    exact notPending running

theorem of_create (once : Once w) (step : GraphStep)
    (noCheck : ∀ operationId, step ≠ .checkPassed operationId)
    (new : IssuesNew w.issued step) (graph : w'.graph = step.commit w.graph)
    (start : w'.start = w.start) (started : w'.started = w.started)
    (issued : w'.issued = w.issued ++ w'.graph.associations.keys) : Once w' := by
  have cases : AwaitingAre w'.graph fun id c' x m' =>
      AwaitedBefore w.graph id x m' ∨ id = w.graph.pendingContextId ∧ step.Builds id c' := by
    rw [graph]
    intro id c' x m' live got awaits
    refine (awaiting_cases once.regular live got awaits).imp_right fun new => ?_
    exact new.resolve_right fun passed => noCheck _ passed.1
  refine once.of_awaiting step graph (· ∉ w.issued) (fun live got awaits => ?_) ?_
    (fun operationId mem => ?_) (fun _ noted => .inl (start ▸ noted))
    (fun operationId mem => ?_) (fun {id c operationId} live _ has => ?_)
    (issued ▸ subset_append_left _ _)
  · refine (cases live got awaits).imp_right fun ⟨_, built⟩ => ?_
    obtain ⟨fresh, unchecked, -⟩ := built.awaits new got awaits
    exact ⟨fresh, fun waiting => absurd waiting unchecked⟩
  · rintro operationId fresh id x id' x' ⟨c, m, live, got, rfl, awaits⟩
      ⟨c₂, m₂, live', found', same, awaits'⟩
    rcases cases live got awaits with was | ⟨here, built⟩
    · exact absurd (once.known_of_awaits (AwaitedBefore.awaits was)) fresh
    · rcases cases live' found' awaits' with was' | ⟨here', -⟩
      · have known := once.known_of_awaits (AwaitedBefore.awaits was')
        rw [same] at known
        exact absurd known fresh
      · have together : id = id' := here.trans here'.symm
        subst together
        rw [live] at live'
        cases live'
        exact ⟨rfl, ((built.awaits new got awaits).2.2 x' m₂ found' awaits' same).symm⟩
  · rw [start] at mem
    exact .inl ⟨mem, not_not.mpr (once.pendingKnown operationId mem)⟩
  · rw [started] at mem
    rw [start]
    exact ⟨(once.started operationId mem).1, .inl ⟨mem, not_not.mpr (once.startedKnown operationId mem)⟩⟩
  · rw [issued, mem_append]
    right
    have regular : Regular w'.graph := graph ▸ once.regular.commit step
    obtain ⟨contexts, got, -⟩ := (regular.associated.exact operationId id).mpr ⟨c, live, has⟩
    exact (OrdMap.mem_keys _ _).mpr ⟨contexts, got⟩

end Once

/-! ## Release -/

section Release

variable {t : GraphExecutionStore}

theorem releaseReady_cases (reg : Regular s)
    (run : (releaseReady cid slots probe).run s = (.ok operations, t)) :
    ∃ c, s.contexts[cid]? = some c ∧ (operations.map (·.service)).Nodup ∧
      (∀ r ∈ operations, ∃ m, c.members[r.service]? = some m ∧ m.operationId = r.operationId ∧
        (r.action = .preStartCheck ∧ m.status = .waitingForPreStartCheck ∨
          r.action = .start ∧ m.status = .waitingForDependencies)) ∧
      ∀ c', t.contexts[cid]? = some c' → ∀ r ∈ operations, c'.statusOf r.service = some .running := by
  rw [releaseReady] at run
  split_ifs at run
  · cases run
  · obtain ⟨c, after, there, done, rfl⟩ := run_onContext_eq_ok run
    have wf := reg.wellFormed cid c there
    obtain ⟨ready, reported, _, got, ran, forall₂, statuses⟩ := run_releaseContext wf slots probe
    cases ran.symm.trans done
    have svcs : operations.map (·.service) = ready.map (·.1) := by
      refine (forall₂_eq_eq_eq ▸ ?_ : ready.map (·.1) = operations.map (·.service)).symm
      rw [forall₂_map_left_iff, forall₂_map_right_iff]
      exact forall₂.imp fun entry r is => is.2.1.symm
    have source : ∀ r ∈ operations, ∃ entry ∈ ready, c.readyOf entry r :=
      fun r mem => exists_of_forall₂ forall₂ mem
    refine ⟨c, there, ?_, fun r mem => ?_, fun c' live r mem => ?_⟩
    · rw [svcs]
      exact nodup_readyMembers wf got
    · obtain ⟨entry, among, -, svc, action, m, member, same⟩ := source r mem
      obtain ⟨m', member', next⟩ := mem_readyMembers wf got among
      rw [member] at member'
      cases member'
      refine ⟨m, by rw [svc, member], same.symm, ?_⟩
      rw [action]
      unfold nextAction at next
      rcases status : m.status <;> simp_all
    · rw [OrdMap.get_insert, if_pos rfl] at live
      cases live
      obtain ⟨entry, among, -, svc, -, m, member, -⟩ := source r mem
      have released : r.service ∈ ready.map (·.1) := by
        rw [svc]
        exact mem_map.mpr ⟨entry, among, rfl⟩
      rw [statuses, statusOf_mark, svc, statusOf_of_get member, Option.map_some, if_pos (svc ▸ released)]

end Release

namespace Once

variable {graph : GraphExecutionStore}

theorem awaits_of_released (once : Once w)
    (released : (releaseReady cid slots probe).run w.graph = (.ok operations, graph))
    (mem : r ∈ operations) :
    Awaits w.graph r.operationId cid r.service := by
  obtain ⟨c, live, -, source, -⟩ := releaseReady_cases once.regular released
  obtain ⟨m, got, same, status⟩ := source r mem
  refine ⟨c, m, live, got, same, ?_⟩
  rcases status with ⟨-, waiting⟩ | ⟨-, waiting⟩ <;> rw [waiting] <;> rfl

theorem eq_of_released (once : Once w)
    (released : (releaseReady cid slots probe).run w.graph = (.ok operations, graph))
    {r' : ReadyGraphOperation} (mem : r ∈ operations) (listed' : r' ∈ operations)
    (same : r.operationId = r'.operationId) : r = r' := by
  obtain ⟨c, live, distinct, -, -⟩ := releaseReady_cases once.regular released
  have first := once.awaits_of_released released mem
  have second := once.awaits_of_released released listed'
  rw [← same] at second
  exact inj_on_of_nodup_map distinct mem listed' (once.single _ _ _ _ _ first second).2

theorem mem_startsOf : operationId ∈ startsOf operations ↔
    ∃ r ∈ operations, r.action = .start ∧ r.operationId = operationId := by
  simp only [startsOf, mem_map, mem_filter, decide_eq_true_eq]
  constructor
  · rintro ⟨r, ⟨mem, start⟩, same⟩
    exact ⟨r, mem, start, same⟩
  · rintro ⟨r, mem, start, same⟩
    exact ⟨r, ⟨mem, start⟩, same⟩

theorem nodup_startsOf (once : Once w) (released : (releaseReady cid slots probe).run w.graph =
      (.ok operations, graph)) : (startsOf operations).Nodup := by
  obtain ⟨c, live, distinct, -, -⟩ := releaseReady_cases once.regular released
  have different : operations.Nodup := distinct.of_map _
  refine List.Nodup.map_on ?_ (different.filter _)
  intro r mem r' listed' same
  exact once.eq_of_released released (mem_of_mem_filter mem) (mem_of_mem_filter listed') same

theorem prechecked_of_released (once : Once w)
    (released : (releaseReady cid slots probe).run w.graph = (.ok operations, graph))
    (mem : operationId ∈ startsOf operations) :
    operationId ∈ w.start.precheckedGraphStarts ∧ operationId ∉ w.started := by
  obtain ⟨r, among, start, rfl⟩ := mem_startsOf.mp mem
  obtain ⟨c, live, -, source, -⟩ := releaseReady_cases once.regular released
  obtain ⟨m, got, same, ⟨check, -⟩ | ⟨-, waiting⟩⟩ := source r among
  · rw [start] at check
    cases check
  · refine ⟨same ▸ once.prechecked cid c r.service m live got waiting, fun before => ?_⟩
    exact (once.started _ before).2 cid r.service (once.awaits_of_released released among)

theorem of_release (once : Once w) (released : (releaseReady cid slots probe).run w.graph =
      (.ok operations, w'.graph))
    (pending : ∀ operationId, operationId ∈ w'.start.pendingPreStartChecks ↔
      operationId ∈ w.start.pendingPreStartChecks ∨
        ∃ r ∈ operations, r.action = .preStartCheck ∧ r.operationId = operationId)
    (prechecked : ∀ operationId, operationId ∈ w'.start.precheckedGraphStarts ↔
      operationId ∈ w.start.precheckedGraphStarts ∧ operationId ∉ startsOf operations)
    (started : w'.started = w.started ++ startsOf operations)
    (issued : w'.issued = w.issued) : Once w' := by
  have quiet : (release cid slots probe).Silent := ⟨nofun, fun _ _ h => h⟩
  have graph : w'.graph = (release cid slots probe).commit w.graph :=
    have ran : (release cid slots probe).run.run w.graph =
        (.ok (), w'.graph) := run_ignore.mpr ⟨operations, released⟩
    (commit_of_run ran).symm
  have cases : AwaitingAre w'.graph fun id _ x m' => AwaitedBefore w.graph id x m' :=
    graph ▸ once.awaits_commit quiet
  -- What was released is running now, so nothing of its operation awaits a release.
  have gone : ∀ r ∈ operations, Idle w'.graph r.operationId := by
    rintro r mem id x ⟨c', m', live, got, same, still⟩
    have was := AwaitedBefore.awaits (cases live got still)
    rw [same] at was
    obtain ⟨rfl, rfl⟩ := once.single _ _ _ _ _ was (once.awaits_of_released released mem)
    obtain ⟨-, -, -, -, running⟩ := releaseReady_cases once.regular released
    have now := running c' live r mem
    rw [statusOf_of_get got] at now
    rw [Option.some.inj now] at still
    cases still
  have knew : ∀ r ∈ operations, r.operationId ∈ w.issued := fun r mem =>
    once.known_of_awaits (once.awaits_of_released released mem)
  refine once.of_awaiting _ graph (fun _ => False)
    (fun live got awaits => .inl (cases live got awaits)) (fun _ => False.elim)
    (fun operationId mem => ?_) (fun operationId noted => ?_) (fun operationId mem => ?_)
    (fun _ => False.elim) (issued ▸ List.Subset.refl _)
  · rcases (pending operationId).mp mem with was | ⟨r, among, -, rfl⟩
    · exact .inl ⟨was, not_false⟩
    · exact .inr ⟨knew r among, gone r among⟩
  · by_cases begun : operationId ∈ startsOf operations
    · obtain ⟨r, among, -, rfl⟩ := mem_startsOf.mp begun
      exact .inr (gone r among)
    · exact .inl ((prechecked operationId).mpr ⟨noted, begun⟩)
  · rw [started, mem_append] at mem
    rcases mem with was | new
    · obtain ⟨notPending, none⟩ := once.started operationId was
      refine ⟨fun h => ?_, .inl ⟨was, not_false⟩⟩
      rcases (pending operationId).mp h with h | ⟨r, among, -, rfl⟩
      · exact notPending h
      · exact none cid r.service (once.awaits_of_released released among)
    · obtain ⟨r, among, start, rfl⟩ := mem_startsOf.mp new
      refine ⟨fun h => ?_, .inr ⟨knew r among, gone r among⟩⟩
      rcases (pending _).mp h with h | ⟨r', among', check, same⟩
      · exact once.pending _ h cid r.service (once.awaits_of_released released among)
      · have equal := once.eq_of_released released among' among same
        rw [equal, start] at check
        cases check

end Once

/-! ## Runs -/

/-- A check passes while its operation has at most one context. -/
def ChecksAlone (w : StartWork) : GraphStep → Prop
  | .checkPassed operationId => ∀ id ∈ w.graph.associatedContexts operationId,
      ∀ id' ∈ w.graph.associatedContexts operationId, id = id'
  | _ => True

theorem once_step {w : StartWork} (once : Once w) (new : IssuesNew w.issued step)
    (alone : ChecksAlone w step) : Once (w.perform step) := by
  rcases perform_cases w step with failed | ran
  · rw [failed]
    exact once
  · generalize w.perform step = w' at ran
    cases step with
    | createBoot | createOnDemand =>
      obtain ⟨_, u, made, last⟩ := run_bind_eq_ok.mp ran
      obtain ⟨graph, built, rfl⟩ := run_onGraph_eq_ok.mp made
      cases last
      exact once.of_create _ (fun _ h => by cases h) new (commit_of_run built).symm rfl rfl rfl
    | release cid slots probe =>
      obtain ⟨operations, u, took, rest⟩ := run_bind_eq_ok.mp ran
      obtain ⟨graph, released, rfl⟩ := run_onGraph_eq_ok.mp took
      obtain ⟨out, v, begun, last⟩ := run_bind_eq_ok.mp rest
      cases last
      obtain ⟨sameGraph, started, issued, pending, prechecked⟩ := beginReady_cases begun
      have ran := run_mapError_eq_ok.mp released
      have after : (releaseReady cid slots probe).run w.graph =
          (.ok operations, v.graph) := by
        rw [ran, sameGraph]
      exact once.of_release after pending prechecked (congrArg (· ++ _) started) issued
    | checkPassed operationId =>
      dsimp only [StartWork.run, completePreStartCheckPassed] at ran
      rw [run_fetch_bind] at ran
      split_ifs at ran with running
      · obtain ⟨_, u, noted, rest⟩ := run_bind_eq_ok.mp ran
        cases noted
        obtain ⟨graph, passed, rfl⟩ := run_onGraph_eq_ok.mp rest
        exact once.of_checkPassed running alone (commit_of_run passed).symm rfl rfl rfl
      · cases ran
    | checkEnded operationId outcome =>
      obtain ⟨_, u, noted, rest⟩ := run_bind_eq_ok.mp ran
      cases noted
      obtain ⟨graph, ended, rfl⟩ := run_onGraph_eq_ok.mp rest
      refine once.of_quiet (.checkEnded operationId outcome) ⟨nofun, fun _ _ h => h⟩
        (commit_of_run ended).symm (fun other mem => ?_) rfl rfl rfl
      exact ((OrdSet.mem_erase _ _ _).mp mem).2
    | clearHold operationId =>
      exact once.of_onGraph (.clearHold operationId) ran ⟨nofun, fun _ _ h => h⟩
    | retire => exact once.of_onGraph .retire ran ⟨nofun, fun _ _ h => h⟩
    | _ => exact once.of_onGraph _ ran ⟨nofun, fun _ _ h => h⟩

/-- In a run in which every check passes while its operation has a single context, a start is
released at most once, and when it is, its prechecked start is there to be consumed. -/
theorem start_released_once (steps : List GraphStep) (run : Admissible perform
      (fun w step => IssuesNew w.issued step ∧ ChecksAlone w step) .new steps)
    (contextId : GraphContextId) (maxParallelStarts : ℕ) (probe : String → String → LevelProbe) :
    (∀ operations graph,
      (releaseReady contextId maxParallelStarts probe).run
          (runCalls perform .new steps).graph = (.ok operations, graph) →
        (startsOf operations).Nodup ∧ ∀ operationId ∈ startsOf operations,
          operationId ∉ (runCalls perform .new steps).started) ∧
    ∀ operationId after, (releaseForContext contextId maxParallelStarts probe).run
      (runCalls perform .new steps) ≠
        (.error (.missingPrecheckedGraphStart operationId), after) := by
  have once : Once (runCalls perform .new steps) := invariant_of_step Once
    (fun _ _ once safe => once_step once safe.1 safe.2) steps once_new run
  generalize runCalls perform .new steps = w at once
  refine ⟨fun operations graph released => ?_, fun operationId after failed => ?_⟩
  · exact ⟨once.nodup_startsOf released, fun operationId listed =>
      (once.prechecked_of_released released listed).2⟩
  · rcases released : (releaseReady contextId maxParallelStarts probe).run w.graph with
      ⟨error | operations, graph⟩
    · have stopped : (onGraph (mapError .execution
          (releaseReady contextId maxParallelStarts probe))).run w =
            (.error (.graph (.execution error)), { w with graph }) := by
        rw [onGraph]
        simp only [run_mapError, released]
      rw [releaseForContext, run_bind_of_error stopped] at failed
      cases failed
    · have done : (onGraph (mapError .execution
          (releaseReady contextId maxParallelStarts probe))).run w = (.ok operations, { w with graph }) :=
        run_onGraph_eq_ok.mpr ⟨graph, run_mapError_eq_ok.mpr released, rfl⟩
      obtain ⟨out, v, begun⟩ := run_beginReady (w := { w with graph })
        (once.nodup_startsOf released)
        fun operationId listed => (once.prechecked_of_released released listed).1
      rw [releaseForContext, run_bind_of_ok done, run_bind_of_ok begun] at failed
      cases failed

/-! ## An operation two contexts share -/

/-- `b` requires `a`, and neither runs. -/
def sharedServices : ServiceTable where
  entries := (∅ : OrdMap String ServiceEntry).insert "a" { definition := { name := "a" }, runtime := {} }
    |>.insert "b" { definition := { name := "b", requires := ["a"] }, runtime := {} }

/-- `a` is started on demand, under the operation 1. -/
def startA : GraphStep :=
  .createOnDemand
    { plan := ⟨"a", .admin, .explicitStart, [⟨"a", .admin, .explicitStart⟩], []⟩
      requestedOperation := ⟨⟨1⟩, ⟨1⟩, .createNew, []⟩
      dependencyOperations := []
      events := [] }
    sharedServices

/-- `b` is started on demand; the start of `a` that it needs merges into the operation 1. -/
def startBMerged : GraphStep :=
  .createOnDemand
    { plan := ⟨"b", .admin, .explicitStart,
        [⟨"a", .dependencyPropagation, .dependencyStart⟩, ⟨"b", .admin, .explicitStart⟩], []⟩
      requestedOperation := ⟨⟨2⟩, ⟨2⟩, .createNew, []⟩
      dependencyOperations := [⟨⟨1⟩, ⟨3⟩, .mergeIntoExisting ⟨1⟩, []⟩]
      events := [] }
    sharedServices

def releaseIn (contextId : GraphContextId) : GraphStep := .release contextId 4 fun _ _ => .absent

/-- The check of `a` passes before `b` is asked for. -/
def passedBeforeMerge : List GraphStep := [startA, releaseIn ⟨0⟩, .checkPassed ⟨1⟩, startBMerged]

theorem start_released_once_passedBeforeMerge : (∀ operations graph,
      (releaseReady ⟨0⟩ 4 fun _ _ => .absent).run
          (runCalls perform .new passedBeforeMerge).graph = (.ok operations, graph) →
        (startsOf operations).Nodup ∧ ∀ operationId ∈ startsOf operations,
          operationId ∉ (runCalls perform .new passedBeforeMerge).started) ∧
    ∀ operationId after, (releaseForContext ⟨0⟩ 4 fun _ _ => .absent).run
      (runCalls perform .new passedBeforeMerge) ≠
        (.error (.missingPrecheckedGraphStart operationId), after) := by
  refine start_released_once passedBeforeMerge ?_ ⟨0⟩ 4 _
  have fresh : (⟨2⟩ : OperationId) ∉ (runCalls perform .new
      [startA, releaseIn ⟨0⟩, .checkPassed ⟨1⟩]).issued := by decide +kernel
  refine ⟨⟨⟨?_, ?_⟩, trivial⟩, ⟨trivial, trivial⟩, ⟨trivial, ?_⟩, ⟨⟨?_, ?_⟩, trivial⟩, trivial⟩
  · simp
  · intro outcome listed _
    cases listed with
    | head => exact not_mem_nil
    | tail _ listed => cases listed
  · unfold ChecksAlone
    decide +kernel
  · refine pairwise_cons.mpr ⟨fun other listed _ notMerge => ?_, by simp⟩
    rw [mem_singleton] at listed
    subst listed
    cases notMerge
  · intro outcome listed notMerge
    rcases mem_cons.mp listed with rfl | listed
    · exact fresh
    · rw [mem_singleton] at listed
      subst listed
      cases notMerge

/-- `b` is asked for while the check of `a` is pending. -/
def mergedWhilePending : List GraphStep :=
  [startA, releaseIn ⟨0⟩, startBMerged, .checkPassed ⟨1⟩, releaseIn ⟨0⟩]

/-- The start of `a` has been released in the first context and is in progress; the second context
releases it again, and its prechecked start is missing. -/
theorem mergedWhilePending_released_twice :
    (runCalls perform .new mergedWhilePending).started = [⟨1⟩] ∧
    ((runCalls perform .new mergedWhilePending).graph.contexts[(⟨0⟩ : GraphContextId)]?).bind
      (·.statusOf "a") = some .running ∧
    (((releaseReady ⟨1⟩ 4 fun _ _ => .absent).run
      (runCalls perform .new mergedWhilePending).graph).1.toOption).map
        startsOf = some [⟨1⟩] ∧
    ((releaseForContext ⟨1⟩ 4 fun _ _ => .absent).run
      (runCalls perform .new mergedWhilePending)).1 =
        .error (.missingPrecheckedGraphStart ⟨1⟩) := by
  decide +kernel

end Peinit
