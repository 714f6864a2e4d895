import Peinit.Graph.Progress

/-!
# What is final in a context

A member that has ended keeps its status for as long as its context is in the store, so what a start
was released upon still holds while it runs.
-/

namespace Peinit

open GraphExecutionStore GraphExecutionContext GraphStep OrdMap

variable {s : GraphExecutionStore} {id : GraphContextId} {c c' c'' : GraphExecutionContext}
  {step : GraphStep} {a svc : String} {status was : GraphMemberStatus} {svcs : List String}
  {operationId : OperationId} {outcome : GraphTerminalOutcome} {probe : String → String → LevelProbe}

structure Kept (c c' : GraphExecutionContext) : Prop where
  shape : SameShape c c'
  ended : ∀ (a : String) (status : GraphMemberStatus), status.isTerminal = true →
    c.statusOf a = some status → c'.statusOf a = some status

theorem Kept.trans (first : Kept c c') (next : Kept c' c'') : Kept c c'' :=
  ⟨trans_of SameShape first.shape next.shape, fun a status terminal known =>
    next.ended a status terminal (first.ended a status terminal known)⟩

theorem statusOf_mark_of_notMem (known : c.statusOf a = some status) (other : a ∉ svcs) :
    (c.mark was svcs).statusOf a = some status := by
  rw [statusOf_mark, known, Option.map_some, if_neg other]

theorem statusOf_ended_of_terminal (known : c.statusOf a = some status)
    (terminal : status.isTerminal = true) (before : c.statusOf svc = some was)
    (alive : was.isTerminal = false) : (c.ended svc outcome).statusOf a = some status := by
  have change : (c.ended svc outcome).statusOf a = c.statusOf a ∨ _ := statusOf_ended a
  rcases change with same | ⟨-, rfl | ⟨-, can, -⟩⟩
  · rw [same, known]
  · simp_all
  · rw [canFail, known] at can
    cases status <;> simp_all [GraphMemberStatus.isTerminal, GraphMemberStatus.isWaitingOrRunning]

theorem GraphExecutionStore.EndedIn.terminal (ended : EndedIn s operationId outcome id c c')
    (terminal : status.isTerminal = true) (known : c.statusOf a = some status) :
    c'.statusOf a = some status :=
  ended.rule known fun _ _ _ own alive known => statusOf_ended_of_terminal known terminal own alive

theorem terminal_notMem_ready (wf : WellFormed c) {limit : ℕ}
    {ready : List (String × ReadyGraphOperationAction)}
    (got : readyMembers c limit probe = .ok ready) (known : c.statusOf a = some status)
    (terminal : status.isTerminal = true) : a ∉ ready.map (·.1) := by
  intro mem
  obtain ⟨⟨x, action⟩, listed, rfl⟩ := List.mem_map.mp mem
  obtain ⟨m, member, next⟩ := mem_readyMembers wf got listed
  rw [statusOf_of_get member] at known
  cases known
  cases is : m.status <;> simp_all [nextAction, GraphMemberStatus.isTerminal]

theorem GraphStep.StepIn.terminal (wf : WellFormed c) (effect : StepIn s id c c' step)
    (terminal : status.isTerminal = true) (known : c.statusOf a = some status) :
    c'.statusOf a = some status := by
  cases step with
  | release cid slots probe =>
    obtain ⟨-, ready, got, statuses⟩ := effect
    rw [statuses]
    exact statusOf_mark_of_notMem known (terminal_notMem_ready wf got known terminal)
  | checkPassed operationId =>
    obtain ⟨-, m, -, got, alive, -, rfl⟩ := effect
    rw [statusOf_checkPassed got, if_neg, if_neg, known]
    · rintro ⟨-, dormant⟩
      rw [known] at dormant
      cases dormant
      cases terminal
    · rintro rfl
      simp_all [statusOf_of_get got]
  | checkEnded operationId outcome =>
    obtain ⟨between, ended, ⟨-, m, -, rfl⟩ | ⟨-, rfl⟩⟩ := effect
    · have middle := ended.terminal terminal known
      refine statusOf_mark_of_notMem middle fun pruned => ?_
      have dormant := (canPrune_iff.mp (canPrune_of_mem_pruning pruned)).1
      rw [middle] at dormant
      cases dormant
      cases terminal
    · exact ended.terminal terminal known
  | startEnded operationId outcome => exact EndedIn.terminal effect terminal known
  | awaitRestart operationId =>
    obtain ⟨-, m, -, got, alive, statuses⟩ := effect
    rw [statuses, statusOf_setStatus, known, Option.map_some, if_neg]
    rintro rfl
    simp_all [statusOf_of_get got]
  | settleRestart service outcome =>
    obtain ⟨awaiting, rfl⟩ := effect
    exact statusOf_ended_of_terminal known terminal awaiting rfl
  | _ => exact effect.elim

theorem nextContextId_le_commit (s : GraphExecutionStore) (step : GraphStep) :
    s.nextContextId ≤ (step.commit s).nextContextId := by
  rcases step.commit_shape s with same | ⟨c, built, added⟩ | retired
  · exact same.nextContextId.ge
  · rw [added]
    change s.nextContextId ≤ c.id.asU64 + 1
    rw [built.id]
    exact Nat.le_succ _
  · rw [retired]
    unfold retireDrainedContexts
    dsimp only
    split_ifs <;> rfl

/-- Whatever is under `id` is what has become of `c`; the id is not given again. -/
structure KeptUnder (id : GraphContextId) (c : GraphExecutionContext) (s : GraphExecutionStore) : Prop
    where
  regular : Regular s
  below : id.asU64 < s.nextContextId
  kept : ∀ c', s.contexts[id]? = some c' → Kept c c'

theorem KeptUnder.commit (inv : KeptUnder id c s) (step : GraphStep) : KeptUnder id c (step.commit s) where
  regular := inv.regular.commit step
  below := inv.below.trans_le (nextContextId_le_commit s step)
  kept := by
    intro c'' live
    rcases commit_context inv.regular live with ⟨c', before, change⟩ | ⟨rfl, -⟩
    · refine (inv.kept c' before).trans
        ⟨sameShape_commit inv.regular before live, fun a status terminal known => ?_⟩
      rcases change with ⟨-, same⟩ | effect
      · rw [same, known]
      · exact effect.terminal (inv.regular.wellFormed id c' before) terminal known
    · exact absurd inv.below (lt_irrefl _)

theorem keptUnder_run {before : List GraphStep}
    (live : (runCalls commit .new before).contexts[id]? = some c) (after : List GraphStep) :
    KeptUnder id c (runCalls commit .new (before ++ after)) := by
  have reg := regular_run before
  have start : KeptUnder id c (runCalls commit .new before) :=
    ⟨reg, reg.associated.below id c live, fun c₁ here => by
      rw [live] at here
      cases here
      exact ⟨SameShape.rfl, fun _ _ _ known => known⟩⟩
  have kept := invariant_of_calls (KeptUnder id c) (fun s step inv => inv.commit step) after start
  rwa [runCalls, runCalls, ← List.foldl_append] at kept

/-- As long as a context lives its members and edges are the same, and what has ended is final. -/
theorem ended_members_final (before after : List GraphStep) (id : GraphContextId)
    (c c' : GraphExecutionContext)
    (live : (runCalls commit .new before).contexts[id]? = some c)
    (later : (runCalls commit .new (before ++ after)).contexts[id]? = some c') :
    Kept c c' :=
  (keptUnder_run live after).kept c' later

/-- The start of `t` ends well, and `r1` is waiting for its release. -/
def dependencyUp : List GraphStep :=
  sharedCheckedRun ++ [releaseOne, .startEnded ⟨1⟩ .satisfied]

theorem ended_members_final_dependencyUp : ∃ c c' : GraphExecutionContext,
    (runCalls commit .new dependencyUp).contexts[(⟨0⟩ : GraphContextId)]? = some c ∧
    c.statusOf "t" = some .satisfied ∧ Kept c c' := by
  obtain ⟨c', later⟩ := Option.isSome_iff_exists.mp (by decide +kernel : (runCalls commit .new
    (dependencyUp ++ [releaseOne])).contexts[(⟨0⟩ : GraphContextId)]?.isSome = true)
  exact Exists.imp (p := fun _ => _ ∧ _) (fun c ⟨live, up⟩ =>
    ⟨c', live, up, ended_members_final _ _ _ c c' live later⟩) (by decide +kernel)

theorem released_upon (reg : Regular s) {cid : GraphContextId} {slots : ℕ}
    (live : s.contexts[id]? = some c)
    (waiting : c.statusOf a = some .waitingForDependencies)
    (next : ((release cid slots probe).commit s).contexts[id]? = some c')
    (running : c'.statusOf a = some .running) :
    (c.edgesOf a).all (c.edgeSettled probe) = true := by
  rcases commit_context reg next with ⟨c₁, before, change⟩ | ⟨rfl, -⟩
  · cases live.symm.trans before
    rcases change with ⟨-, same⟩ | ⟨-, ready, got, statuses⟩
    · simp [same, waiting] at running
    · rw [statuses, statusOf_mark, waiting, Option.map_some] at running
      split_ifs at running with mem
      · obtain ⟨⟨x, action⟩, listed, rfl⟩ := List.mem_map.mp mem
        obtain ⟨m, member, next⟩ := mem_readyMembers (reg.wellFormed id c live) got listed
        rw [statusOf_of_get member] at waiting
        rw [nextAction, Option.some.inj waiting, (reg.wellFormed id c live).keyed x m member] at next
        simp only [Option.ite_none_right_eq_some] at next
        exact next.1
      · cases running
  · exact absurd (reg.associated.below _ c live) (lt_irrefl _)

/-- A start that was released has what it requires, then and for as long as its context lives. -/
theorem released_start_has_requirements (before after : List GraphStep) (id cid : GraphContextId)
    (slots : ℕ) (probe : String → String → LevelProbe) (c c₁ c' : GraphExecutionContext) (x : String)
    (live : (runCalls commit .new before).contexts[id]? = some c)
    (waiting : c.statusOf x = some .waitingForDependencies)
    (next : (runCalls commit .new (before ++ [.release cid slots probe])).contexts[id]? = some c₁)
    (running : c₁.statusOf x = some .running)
    (later : (runCalls commit .new
      (before ++ .release cid slots probe :: after)).contexts[id]? = some c') :
    ∀ e ∈ c'.edgesOf x, e.kind.isHard = true → ∀ status ∈ c'.statusOf e.target, status = .satisfied := by
  intro e edge hard status there
  have kept := (keptUnder_run live _).kept c' later
  rw [runCalls, List.foldl_append] at next
  have settled := released_upon (regular_run before) live waiting next running
  rw [edgesOf, kept.shape.dependencies] at edge
  have met := List.all_eq_true.mp settled e edge
  have satisfied : c.statusOf e.target = some .satisfied := by
    obtain ⟨_, got', -⟩ := get_of_statusOf there
    obtain ⟨m, got, -⟩ := kept.shape.symm.get got'
    rw [edgeSettled, statusOf_of_get got] at met
    rw [statusOf_of_get got]
    split at met <;> simp_all
  exact Option.some.inj (there.symm.trans (kept.ended _ _ rfl satisfied))

theorem released_start_has_requirements_dependencyUp : ∃ c' : GraphExecutionContext,
    c'.statusOf "r1" = some .running ∧ ∀ e ∈ c'.edgesOf "r1", e.kind.isHard = true →
      ∀ status ∈ c'.statusOf e.target, status = .satisfied := by
  obtain ⟨c, live, waiting⟩ : ∃ c : GraphExecutionContext, (runCalls commit .new
      dependencyUp).contexts[(⟨0⟩ : GraphContextId)]? = some c ∧
        c.statusOf "r1" = some .waitingForDependencies := by decide +kernel
  obtain ⟨c', next, running⟩ : ∃ c' : GraphExecutionContext, (runCalls commit .new
      (dependencyUp ++ [releaseOne])).contexts[(⟨0⟩ : GraphContextId)]? = some c' ∧
        c'.statusOf "r1" = some .running := by decide +kernel
  exact ⟨c', running, released_start_has_requirements dependencyUp [] _ ⟨0⟩ 1 _ c c' c' "r1" live waiting
    next running next⟩

end Peinit
