import Peinit.Graph.Transactions

/-!
# Pruned members

Pruning goes from a resolved member to the dormant members below it that have no dependent in progress
in the same context.  It looks no further up, and not into the other contexts that wait for the same
operation.  A member that nothing depends on is never dormant, so never pruned.
-/

namespace Peinit

open Fallible GraphExecutionStore GraphExecutionContext Option

variable {s : GraphExecutionStore} {id : GraphContextId} {c c' : GraphExecutionContext} {x : String}
  {operationId : OperationId}

/-! ## What pruning marks -/

namespace GraphExecutionContext

/-- The dormant member has no dependent in progress: each is dormant itself or over. -/
def Unheld (c : GraphExecutionContext) (x : String) : Prop :=
  c.statusOf x = some .dormant ∧ ∀ d status, c.Edge d x → c.statusOf d = some status →
    status = .dormant ∨ status.isTerminal = true

/-- `x` lies below the member of the operation, by way of members without a dependent in progress. -/
def Discards (c : GraphExecutionContext) (operationId : OperationId) (x : String) : Prop :=
  ∃ m ∈ c.memberForOperation operationId,
    Relation.TransGen (fun a b => c.Edge a b ∧ c.Unheld b) m.service x

/-- The member of that name is over, if there is one. -/
def Over (c : GraphExecutionContext) (x : String) : Prop :=
  ∀ status, c.statusOf x = some status → status.isTerminal = true

theorem canPrune_iff_unheld : canPruneDormantMember c x = true ↔ c.Unheld x := by
  have allows (status : GraphMemberStatus) :
      status.allowsPruning = true ↔ status = .dormant ∨ status.isTerminal = true := by
    cases status <;> decide
  simp only [canPrune_iff, allows, Unheld]

theorem discards_iff {m : GraphMember} (named : c.memberForOperation operationId = some m) :
    c.Discards operationId x ↔ x ∈ c.pruning m.service := by
  simp only [Discards, named, mem_def, some.injEq, exists_eq_left', mem_pruning, canPrune_iff_unheld]

theorem Discards.dormant (discards : c.Discards operationId x) : c.statusOf x = some .dormant := by
  obtain ⟨m, -, path⟩ := discards
  obtain ⟨_, -, last⟩ := Relation.TransGen.tail'_iff.mp path
  exact last.2.1

/-- The context after the call: what the operation discards is pruned, and nothing else changes. -/
structure Discarded (operationId : OperationId) (c c' : GraphExecutionContext) : Prop where
  shape : SameShape c c'
  pruned : ∀ {x}, c.Discards operationId x → c'.statusOf x = some .pruned
  kept : ∀ {x}, ¬ c.Discards operationId x → c'.statusOf x = c.statusOf x

namespace Discarded

variable (discarded : Discarded operationId c c')

include discarded

theorem marked_iff : c.statusOf x ≠ some .pruned ∧ c'.statusOf x = some .pruned ↔
    c.Discards operationId x := by
  constructor
  · rintro ⟨unmarked, marked⟩
    by_contra kept
    exact unmarked ((discarded.kept kept).symm.trans marked)
  · intro discards
    rw [discards.dormant]
    exact ⟨by decide, discarded.pruned discards⟩

theorem over_iff : c'.Over x ↔ c.Over x ∨ c.Discards operationId x := by
  by_cases discards : c.Discards operationId x
  · have ended : c'.Over x := by
      intro status known
      rw [discarded.pruned discards] at known
      cases known
      rfl
    exact ⟨fun _ => .inr discards, fun _ => ended⟩
  · unfold Over
    rw [discarded.kept discards]
    exact ⟨.inl, fun ended => ended.resolve_right discards⟩

end Discarded

end GraphExecutionContext

/-- Pruning always succeeds, discards in every context what lies below the operation there, and
reports each start that it has pruned. -/
theorem pruneDormantDependencies_spec (inv : Associated s) (operationId : OperationId) :
    ∃ pruned t, (pruneDormantDependencies operationId).run s = (.ok pruned, t) ∧
      ∀ (id : GraphContextId) (c : GraphExecutionContext), s.contexts[id]? = some c →
        ∃ c', t.contexts[id]? = some c' ∧ Discarded operationId c c' ∧
          ∀ x, c.Discards operationId x → c.prunedOperation x ∈ pruned := by
  rcases run : (pruneDormantDependencies operationId).run s with ⟨e | pruned, t⟩
  · exact (failsOnly_pruneDormantDependencies operationId s e t inv run).elim
  · refine ⟨pruned, t, rfl, fun id c live => ?_⟩
    obtain ⟨-, contexts⟩ := forAssociated_cases run
    by_cases listed : id ∈ s.associatedContexts operationId
    · obtain ⟨before, part, c', was, ran, after, included⟩ := (contexts id).1 listed
      rw [live] at was
      cases was
      obtain ⟨m, named, rfl, rfl⟩ := pruneContext_cases ran
      refine ⟨_, after, ⟨sameShape_mark, fun discards => ?_, fun kept => ?_⟩, fun x discards => ?_⟩
      · rw [statusOf_mark, discards.dormant, map_some, if_pos ((discards_iff named).mp discards)]
      · rw [discards_iff named] at kept
        simp [statusOf_mark, kept]
      · exact included (List.mem_map_of_mem ((discards_iff named).mp discards))
    · have nothing {x : String} : ¬ c.Discards operationId x := by
        rintro ⟨m, named, -⟩
        refine listed (mem_associatedContexts.mpr ((inv.exact _ _).mpr ⟨c, live, ?_⟩))
        obtain ⟨key, got⟩ := (OrdMap.mem_values _ _).mp (List.mem_of_find?_eq_some named)
        exact ⟨key, m, got, by simpa using List.find?_some named⟩
      exact ⟨c, by rw [(contexts id).2 listed, live], ⟨SameShape.rfl, fun discards =>
        absurd discards nothing, fun _ => rfl⟩, fun x discards => absurd discards nothing⟩

/-! ## What is still needed -/

/-- Nothing that was pruned between the two stores is still needed: in every context, the member under
the operation of a pruned one is over, and so is each member from which that can be reached. -/
def PrunedUnneeded (s t : GraphExecutionStore) : Prop :=
  ∀ (id other : GraphContextId) (c c' d : GraphExecutionContext) (x y : String) (m : GraphMember),
    s.contexts[id]? = some c → t.contexts[id]? = some c' →
    c.statusOf x ≠ some .pruned ∧ c'.statusOf x = some .pruned →
    t.contexts[other]? = some d → d.members[y]? = some m → m.operationId = c.operationOf x →
      ∀ z, Relation.ReflTransGen d.Edge z y → d.Over z

/-- The member under the operation of a start to be discarded, and each member from which that can be
reached, is over or is to be discarded as well, in every context. -/
def DiscardsUnneeded (s : GraphExecutionStore) (operationId : OperationId) : Prop :=
  ∀ (id other : GraphContextId) (c d : GraphExecutionContext) (x y : String) (m : GraphMember),
    s.contexts[id]? = some c → c.Discards operationId x →
    s.contexts[other]? = some d → d.members[y]? = some m → m.operationId = c.operationOf x →
      ∀ z, Relation.ReflTransGen d.Edge z y → d.Over z ∨ d.Discards operationId z

theorem SameShape.edge_eq (same : SameShape c c') : c'.Edge = c.Edge := by
  funext a b
  exact propext same.edge

/-- In every store that calls lead to, pruning succeeds and reports every start it has pruned, and
what it prunes is no longer needed exactly if nothing but starts to be discarded leads to one. -/
theorem pruned_unneeded_iff (calls : List GraphCall) (operationId : OperationId) :
    let s := runCalls GraphCall.perform .new calls
    ∃ pruned t, (pruneDormantDependencies operationId).run s = (.ok pruned, t) ∧
      (∀ (id : GraphContextId) (c c' : GraphExecutionContext) (x : String),
        s.contexts[id]? = some c → t.contexts[id]? = some c' →
        c.statusOf x ≠ some .pruned ∧ c'.statusOf x = some .pruned → c.prunedOperation x ∈ pruned) ∧
      (PrunedUnneeded s t ↔ DiscardsUnneeded s operationId) := by
  intro s
  obtain ⟨pruned, t, run, contexts⟩ := pruneDormantDependencies_spec (associated_run calls) operationId
  have same : SameContexts s t := by
    have kept := keeps_pruneDormantDependencies operationId s
    rwa [run] at kept
  have changed {id : GraphContextId} {c c' : GraphExecutionContext} (before : s.contexts[id]? = some c)
      (after : t.contexts[id]? = some c') : Discarded operationId c c' := by
    obtain ⟨_, there, discarded, -⟩ := contexts id c before
    rw [after] at there
    cases there
    exact discarded
  refine ⟨pruned, t, run, fun id c c' x before after marked => ?_,
    fun unneeded id other c d x y m before discards there got same' z path => ?_,
    fun unneeded id other c c' d' x y m' before after marked there got same' z path => ?_⟩
  · obtain ⟨-, -, -, reported⟩ := contexts id c before
    exact reported x ((changed before after).marked_iff.mp marked)
  · obtain ⟨c', after, -⟩ := contexts id c before
    obtain ⟨d', there', discarded, -⟩ := contexts other d there
    obtain ⟨m', got', fixed⟩ := discarded.shape.get got
    rw [← GraphMember.operationId_eq fixed] at same'
    rw [← discarded.shape.edge_eq] at path
    exact discarded.over_iff.mp (unneeded id other c c' d' x y m' before after
      ((changed before after).marked_iff.mpr discards) there' got' same' z path)
  · obtain ⟨d, there', -⟩ := same.back there
    have discarded := changed there' there
    obtain ⟨m, got', fixed⟩ := discarded.shape.symm.get got
    rw [← GraphMember.operationId_eq fixed] at same'
    rw [discarded.shape.edge_eq] at path
    exact discarded.over_iff.mpr (unneeded id other c d x y m before
      ((changed before after).marked_iff.mp marked) there' got' same' z path)

/-! ## A start that two contexts wait for -/

/-- `x` and `y` both require `t`. -/
def pairServices : ServiceTable where
  entries := (∅ : OrdMap String ServiceEntry).insert "t" { definition := { name := "t" }, runtime := {} }
    |>.insert "x" { definition := { name := "x", requires := ["t"] }, runtime := {} }
    |>.insert "y" { definition := { name := "y", requires := ["t"] }, runtime := {} }

def pairDispatch (service : String) (operationId : OperationId)
    (dependency : OperationRequestOutcome) : OnDemandStartDispatch where
  plan := ⟨service, .admin, .explicitStart, [⟨"t", .dependencyPropagation, .dependencyStart⟩,
    ⟨service, .admin, .explicitStart⟩], []⟩
  requestedOperation := ⟨operationId, operationId, .createNew, []⟩
  dependencyOperations := [dependency]
  events := []

/-- `x` and then `y` are started on demand; the start of `t` for `y` is merged into the one for `x`.
The check of `y` passes, and `x` is skipped at its check. -/
def pairCalls : List GraphCall :=
  [.createOnDemandContext (pairDispatch "x" ⟨1⟩ ⟨⟨2⟩, ⟨2⟩, .createNew, []⟩) pairServices,
    .createOnDemandContext (pairDispatch "y" ⟨3⟩ ⟨⟨2⟩, ⟨4⟩, .mergeIntoExisting ⟨2⟩, []⟩) pairServices,
    .releaseReady ⟨0⟩ 1 fun _ _ => .absent, .releaseReady ⟨1⟩ 2 fun _ _ => .absent,
    .applyPreStartCheckPassed ⟨3⟩, .applyOperationSatisfied ⟨1⟩]

/-- The start of `t`, which `y` waits for, is pruned and reported for cancellation; in the context of
`y` the same operation goes on counting as running. -/
theorem skipped_start_cancels_shared :
    let s := runCalls GraphCall.perform .new pairCalls
    ∃ pruned, ((pruneDormantDependencies ⟨1⟩).run s).1 = .ok pruned ∧
      (⟨⟨0⟩, "t", ⟨2⟩⟩ : GraphPrunedOperation) ∈ pruned ∧
      ¬ PrunedUnneeded s ((pruneDormantDependencies ⟨1⟩).run s).2 := by
  refine Exists.imp (p := fun _ => _ ∧ _) (fun pruned ⟨ran, reported⟩ =>
    ⟨ran, reported, fun unneeded => ?_⟩) (by decide +kernel)
  obtain ⟨c, before, dormant, shared⟩ : ∃ c : GraphExecutionContext,
      (runCalls GraphCall.perform .new pairCalls).contexts[(⟨0⟩ : GraphContextId)]? = some c ∧
        c.statusOf "t" ≠ some .pruned ∧ c.operationOf "t" = ⟨2⟩ := by
    decide +kernel
  obtain ⟨c', after, marked⟩ : ∃ c' : GraphExecutionContext, ((pruneDormantDependencies ⟨1⟩).run
      (runCalls GraphCall.perform .new pairCalls)).2.contexts[(⟨0⟩ : GraphContextId)]? = some c' ∧
        c'.statusOf "t" = some .pruned := by
    decide +kernel
  obtain ⟨d, there, ⟨m, got, operation⟩, needs, waiting⟩ : ∃ d : GraphExecutionContext,
      ((pruneDormantDependencies ⟨1⟩).run
        (runCalls GraphCall.perform .new pairCalls)).2.contexts[(⟨1⟩ : GraphContextId)]? = some d ∧
        (∃ m, d.members["t"]? = some m ∧ m.operationId = ⟨2⟩) ∧ d.Edge "y" "t" ∧
        d.statusOf "y" = some .waitingForDependencies := by
    decide +kernel
  have ended := unneeded ⟨0⟩ ⟨1⟩ c c' d "t" "t" m before after ⟨dormant, marked⟩ there got
    (operation.trans shared.symm) "y" (.single needs)
  exact absurd (ended _ waiting) (by decide)

/-! ## Starts with a boot trigger -/

/-- A boot plan in which nothing depends on a start with a boot trigger of its own. -/
def BootTriggersAreRoots : GraphStep → Prop
  | .createBoot plan definitions => ∀ start ∈ plan.starts, start.cause = .explicitStart →
      ∀ service ∈ plan.starts.map (·.service) ++ plan.blocked.map (·.service),
        ¬ Declares (fun service => (definitionsByName definitions)[service]?) service start.service
  | _ => True

/-- The member of a boot context that was started because of its own boot trigger. -/
def BootTriggered (c : GraphExecutionContext) (x : String) : Prop :=
  c.kind = .boot ∧ ∃ m, c.members[x]? = some m ∧ m.transitionCause = .explicitStart

/-- The step reports that the start of the member failed, or the check before it. -/
def OwnFailure (s : GraphExecutionStore) (c : GraphExecutionContext) (x : String) :
    GraphStep → Prop
  | .checkEnded operationId outcome | .startEnded operationId outcome =>
      outcome = .failed ∧ s.Resolves operationId c x
  | .settleRestart service outcome => outcome = .failed ∧ service = x
  | _ => False

section Triggered

variable {step : GraphStep}

theorem BootTriggered.of_sameShape (shape : SameShape c c') (triggered : BootTriggered c' x) :
    BootTriggered c x := by
  obtain ⟨kind, m', got, cause⟩ := triggered
  obtain ⟨m, was, fixed⟩ := shape.symm.get got
  exact ⟨by rw [← shape.kind, kind], m, was, by rw [GraphMember.transitionCause_eq fixed, cause]⟩

theorem GraphStep.StepIn.dormant (effect : StepIn s id c c' step)
    (dormant : c'.statusOf x = some .dormant) : c.statusOf x = some .dormant := by
  by_cases check : ∃ op, step = .checkPassed op
  · obtain ⟨op, rfl⟩ := check
    obtain ⟨-, m, -, got, -, -, rfl⟩ := effect
    exact (dormant_of_checkPassed got dormant).1
  · push Not at check
    exact effect.unchanged check dormant rfl

theorem GraphStep.StepIn.pruned (effect : StepIn s id c c' step) (pruned : c'.statusOf x = some .pruned) :
    c.statusOf x = some .pruned ∨ c.statusOf x = some .dormant := by
  cases step with
  | release cid slots probe =>
    obtain ⟨-, ready, -, statuses⟩ := effect
    exact .inl (statusOf_of_mark (by decide) (statuses x ▸ pruned))
  | checkPassed op =>
    obtain ⟨-, m, -, got, -, -, rfl⟩ := effect
    exact .inl (terminal_of_checkPassed got rfl pruned)
  | checkEnded op outcome =>
    have other : GraphMemberStatus.pruned ≠ outcome.status := by cases outcome <;> decide
    obtain ⟨between, ended, ⟨-, m, -, rfl⟩ | ⟨-, rfl⟩⟩ := effect
    · rw [statusOf_mark] at pruned
      obtain ⟨status, known, now⟩ := map_eq_some_iff.mp pruned
      split_ifs at now with among
      · have dormant := (canPrune_iff.mp (canPrune_of_mem_pruning among)).1
        exact .inr (ended.unchanged rfl dormant)
      · exact .inl (ended.unchanged_ne other (now ▸ known))
    · exact .inl (ended.unchanged_ne other pruned)
  | startEnded op outcome =>
    exact .inl (EndedIn.unchanged_ne effect (by cases outcome <;> decide) pruned)
  | awaitRestart op =>
    obtain ⟨-, m, -, -, -, statuses⟩ := effect
    exact .inl (statusOf_of_setStatus (by decide) (statuses x ▸ pruned))
  | settleRestart svc outcome =>
    obtain ⟨-, rfl⟩ := effect
    exact .inl (statusOf_of_ended_ne (by cases outcome <;> decide) pruned)
  | _ => exact effect.elim

theorem GraphExecutionStore.EndedIn.failed {op : OperationId} {outcome : GraphTerminalOutcome}
    (ended : EndedIn s op outcome id c c') (failed : c'.statusOf x = some .failed)
    (was : c.statusOf x ≠ some .failed) :
    outcome = .failed ∧ (s.Resolves op c x ∨ ∃ t, c'.HardEdge x t ∧ c'.statusOf t = some .failed) := by
  obtain ⟨between, first, second⟩ := ended.through
  by_cases early : between.statusOf x = some .failed
  · rcases first with ⟨-, m, named, ⟨m', got, -⟩, rfl⟩ | ⟨-, rfl⟩
    · obtain ⟨rfl, cause⟩ := failed_of_ended got early was
      refine ⟨rfl, cause.imp (fun here => .inl ⟨m, named, here.symm⟩) fun ⟨t, hard, failedT⟩ => ?_⟩
      refine ⟨t, ended.sameShape.hardEdge.mpr hard, ?_⟩
      rcases second with rfl | ⟨svc, -, -, rfl⟩
      · exact failedT
      · have change : ((c.ended m.service .failed).ended svc .failed).statusOf t =
            (c.ended m.service .failed).statusOf t ∨ _ := statusOf_ended t
        rcases change with same | ⟨after, -⟩
        · rw [same, failedT]
        · exact after
    · exact absurd early was
  · rcases second with rfl | ⟨svc, starts, awaiting, rfl⟩
    · exact absurd failed early
    · obtain ⟨m, got, -⟩ := get_of_statusOf awaiting
      obtain ⟨rfl, cause⟩ := failed_of_ended got failed early
      refine ⟨rfl, cause.imp (fun here => ?_) fun ⟨t, hard, failedT⟩ => ?_⟩
      · subst here
        refine .inr ⟨starts, ?_⟩
        rcases first with ⟨-, m, -, -, rfl⟩ | ⟨-, rfl⟩
        · exact statusOf_of_ended rfl awaiting
        · exact awaiting
      · exact ⟨t, sameShape_ended.hardEdge.mpr hard, failedT⟩

theorem GraphStep.StepIn.failed (effect : StepIn s id c c' step)
    (failed : c'.statusOf x = some .failed) (was : c.statusOf x ≠ some .failed) :
    OwnFailure s c x step ∨ ∃ t, c'.HardEdge x t ∧ c'.statusOf t = some .failed := by
  cases step with
  | release cid slots probe =>
    obtain ⟨-, ready, -, statuses⟩ := effect
    exact absurd (statusOf_of_mark (by decide) (statuses x ▸ failed)) was
  | checkPassed op =>
    obtain ⟨-, m, -, got, -, -, rfl⟩ := effect
    exact absurd (terminal_of_checkPassed got rfl failed) was
  | checkEnded op outcome =>
    obtain ⟨between, ended, ⟨-, m, -, rfl⟩ | ⟨-, rfl⟩⟩ := effect
    · have early := statusOf_of_mark (by decide) failed
      obtain ⟨rfl, own | ⟨t, hard, failedT⟩⟩ := ended.failed early was
      · exact .inl ⟨rfl, own⟩
      · refine .inr ⟨t, sameShape_mark.hardEdge.mpr hard, ?_⟩
        have unpruned : t ∉ between.pruning m.service := by
          intro among
          have dormant := (canPrune_iff.mp (canPrune_of_mem_pruning among)).1
          rw [failedT] at dormant
          cases dormant
        rw [statusOf_mark, failedT, map_some, if_neg unpruned]
    · obtain ⟨rfl, own | dep⟩ := ended.failed failed was
      · exact .inl ⟨rfl, own⟩
      · exact .inr dep
  | startEnded op outcome =>
    obtain ⟨rfl, own | dep⟩ := EndedIn.failed effect failed was
    · exact .inl ⟨rfl, own⟩
    · exact .inr dep
  | awaitRestart op =>
    obtain ⟨-, m, -, -, -, statuses⟩ := effect
    exact absurd (statusOf_of_setStatus (by decide) (statuses x ▸ failed)) was
  | settleRestart svc outcome =>
    obtain ⟨awaiting, rfl⟩ := effect
    obtain ⟨m, got, -⟩ := get_of_statusOf awaiting
    obtain ⟨rfl, rfl | ⟨t, hard, failedT⟩⟩ :=
      failed_of_ended got failed was
    · exact .inl ⟨rfl, rfl⟩
    · exact .inr ⟨t, sameShape_ended.hardEdge.mpr hard, failedT⟩
  | _ => exact effect.elim

theorem GraphStep.Builds.not_dormant (built : step.Builds id c) (roots : BootTriggersAreRoots step)
    (triggered : BootTriggered c x) :
    c.statusOf x ≠ some .dormant ∧ c.statusOf x ≠ some .pruned := by
  obtain ⟨kind, m, got, cause⟩ := triggered
  cases step with
  | createBoot plan defs =>
    obtain ⟨-, members, first, from_⟩ := bootContext_builtFrom built
    have known := statusOf_of_get got
    refine ⟨fun dormant => ?_, fun pruned => ?_⟩
    · obtain ⟨⟨before, was, -⟩, d, n, member, declares⟩ := from_.dormant_cases dormant
      obtain ⟨m', again, fixed, -⟩ := from_.get was
      rw [got] at again
      cases again
      obtain ⟨named, ⟨start, mem, sequence, rfl⟩ | ⟨blocked, -, sequence, rfl⟩⟩ :=
        from_.are x before was
      · have explicit : start.cause = .explicitStart := by
          have same := GraphMember.transitionCause_eq fixed
          rw [cause] at same
          rcases is : start.cause with _ | _
          · rfl
          · simp only [startMember, is] at same
            cases same
        subst named
        refine roots start mem explicit d ?_ declares
        obtain ⟨rfl, ⟨other, among, _, rfl⟩ | ⟨other, among, _, rfl⟩⟩ := from_.are d n member
        · exact List.mem_append_left _ (List.mem_map.mpr ⟨other, among, rfl⟩)
        · exact List.mem_append_right _ (List.mem_map.mpr ⟨other, among, rfl⟩)
      · have same := GraphMember.transitionCause_eq fixed
        rw [cause] at same
        rcases blocked with ⟨_, _, reason⟩
        cases reason <;> cases same
    · rw [from_.roots] at got
      obtain ⟨before, was, -, ⟨rfl, -⟩ | ⟨-, waiting, -⟩⟩ := activateRoots_cases got
      · obtain ⟨-, ⟨_, -, _, rfl⟩ | ⟨_, -, _, rfl⟩⟩ := from_.are x m was
        · rw [known] at pruned
          cases pruned
        · rw [known] at pruned
          cases pruned
      · rw [known, waiting] at pruned
        cases pruned
  | createOnDemand dispatch svcs =>
    obtain ⟨members, -, rest⟩ := bind_eq_ok.mp built
    obtain ⟨dependencies, -, last⟩ := bind_eq_ok.mp rest
    cases last
    cases kind
  | _ => exact built.elim

end Triggered

/-- The starts with a boot trigger are neither dormant nor pruned. -/
def TriggersRun (s : GraphExecutionStore) : Prop :=
  ∀ (id : GraphContextId) (c : GraphExecutionContext) (x : String), s.contexts[id]? = some c →
    BootTriggered c x → c.statusOf x ≠ some .dormant ∧ c.statusOf x ≠ some .pruned

theorem TriggersRun.step {s : GraphExecutionStore} {step : GraphStep} (reg : Regular s)
    (running : TriggersRun s) (roots : BootTriggersAreRoots step) : TriggersRun (step.commit s) := by
  intro id c' x live triggered
  rcases GraphStep.commit_context reg live with ⟨c, before, change⟩ | ⟨-, built⟩
  · have shape := GraphStep.sameShape_commit reg before live
    obtain ⟨notDormant, notPruned⟩ := running id c x before (triggered.of_sameShape shape)
    rcases change with quiet | effect
    · rw [quiet.2]
      exact ⟨notDormant, notPruned⟩
    · refine ⟨fun dormant => notDormant (effect.dormant dormant), fun pruned => ?_⟩
      exact (effect.pruned pruned).elim notPruned notDormant
  · exact built.not_dormant roots triggered

/-- Where nothing depends on a start with a boot trigger, it is never dormant and never pruned; it
fails in a step only because that step reports its own failure or a dependency it requires has
failed. -/
theorem boot_trigger_honoured (steps : List GraphStep)
    (roots : ∀ step ∈ steps, BootTriggersAreRoots step) (id : GraphContextId)
    (c : GraphExecutionContext)
    (live : (runCalls GraphStep.commit .new steps).contexts[id]? = some c) (x : String)
    (triggered : BootTriggered c x) :
    c.statusOf x ≠ some .dormant ∧ c.statusOf x ≠ some .pruned ∧
    ∀ (step : GraphStep) (c' : GraphExecutionContext),
      (step.commit (runCalls GraphStep.commit .new steps)).contexts[id]? = some c' →
      c'.statusOf x = some .failed → c.statusOf x ≠ some .failed →
        OwnFailure (runCalls GraphStep.commit .new steps) c x step ∨
          ∃ t, c'.HardEdge x t ∧ c'.statusOf t = some .failed := by
  have reg := regular_run steps
  have running : TriggersRun (runCalls GraphStep.commit .new steps) := by
    refine (invariant_of_step (fun s => Regular s ∧ TriggersRun s)
      (fun s step inv roots => ⟨inv.1.commit step, TriggersRun.step inv.1 inv.2 roots⟩) steps
      ⟨regular_new, fun id c x live => ?_⟩ (admissible_of_mem _ steps roots)).2
    simp [GraphExecutionStore.new] at live
  obtain ⟨notDormant, notPruned⟩ := running id c x live triggered
  refine ⟨notDormant, notPruned, fun step c' after failed was => ?_⟩
  rcases GraphStep.commit_context reg after with ⟨c₁, before, change⟩ | ⟨rfl, -⟩
  · rw [live] at before
    cases before
    rcases change with quiet | effect
    · rw [quiet.2] at failed
      exact absurd failed was
    · exact effect.failed failed was
  · exact absurd (reg.associated.below _ c live) (lt_irrefl _)

/-- `app` has a boot trigger, and pulls `db` in; `app` is skipped at its check. -/
def pulledIn : List GraphStep := [.createBoot
      { starts := [⟨"db", ⟨1⟩, ⟨1⟩, .dependencyStart⟩, ⟨"app", ⟨2⟩, ⟨2⟩, .explicitStart⟩]
        blocked := [] }
      [{ name := "db" }, { name := "app", requires := ["db"] }],
    .release ⟨0⟩ 1 fun _ _ => .absent, .checkEnded ⟨2⟩ .satisfied]

theorem boot_trigger_honoured_pulledIn : ∃ c : GraphExecutionContext,
    (runCalls GraphStep.commit .new pulledIn).contexts[(⟨0⟩ : GraphContextId)]? = some c ∧
      c.statusOf "db" = some .pruned ∧ c.statusOf "app" ≠ some .dormant ∧
      c.statusOf "app" ≠ some .pruned := by
  have roots : ∀ step ∈ pulledIn, BootTriggersAreRoots step := by
    refine List.forall_mem_cons.mpr ⟨?_, by simp [BootTriggersAreRoots]⟩
    unfold BootTriggersAreRoots
    decide +kernel
  refine Exists.imp (p := fun c => _ ∧ _ ∧ c.kind = .boot ∧
      ∃ m, c.members["app"]? = some m ∧ m.transitionCause = .explicitStart)
    (fun c ⟨live, pruned, triggered⟩ => ⟨live, pruned, ?_⟩) (by decide +kernel)
  have honoured := boot_trigger_honoured pulledIn roots ⟨0⟩ c live "app" triggered
  exact ⟨honoured.1, honoured.2.1⟩

/-- Both have boot triggers, and `app` requires `db`. -/
def dependentBoot : GraphStep :=
  .createBoot
    { starts := [⟨"db", ⟨1⟩, ⟨1⟩, .explicitStart⟩, ⟨"app", ⟨2⟩, ⟨2⟩, .explicitStart⟩]
      blocked := [] }
    [{ name := "db" }, { name := "app", requires := ["db"] }]

/-- When `app` is skipped, `db` is pruned, although it has a boot trigger of its own. -/
theorem dependentBoot_prunes_trigger : ∃ c : GraphExecutionContext,
    (runCalls GraphStep.commit .new [dependentBoot, .release ⟨0⟩ 1 fun _ _ => .absent,
      .checkEnded ⟨2⟩ .satisfied]).contexts[(⟨0⟩ : GraphContextId)]? = some c ∧
    BootTriggered c "db" ∧ c.statusOf "db" = some .pruned ∧ c.isDrained = true := by
  unfold BootTriggered
  decide +kernel

end Peinit
