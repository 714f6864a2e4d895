import Peinit.Lib.Peeling
import Peinit.Graph.Transactions

/-!
# Starts that can still go on

A context moves as long as each dormant member has a dependent that may still ask for it, and a member
that waits for its dependencies has asked for all of them and lost none it needs. With no start in
progress, something can then be released. `SafeFor` says of each step when it keeps this.
-/

namespace Peinit

open Fallible GraphExecutionStore GraphExecutionContext GraphStep GraphMemberStatus

variable {outcome : GraphTerminalOutcome} {id : GraphContextId} {c c' : GraphExecutionContext}
  {x : String} {m : GraphMember}

namespace GraphExecutionContext

/-- A member that has not reached its end. -/
def Unfinished (c : GraphExecutionContext) (a : String) : Prop :=
  ∃ status, c.statusOf a = some status ∧ status.isTerminal = false

/-- A dormant member has an unfinished dependent, unless it is exempt. -/
def Held (c : GraphExecutionContext) (exempt : String → Prop) : Prop :=
  ∀ x, c.statusOf x = some .dormant → exempt x ∨ ∃ d, c.Edge d x ∧ c.Unfinished d

/-- A member that waits for its dependencies has asked for all of them. -/
def Awake (c : GraphExecutionContext) : Prop :=
  ∀ d x, c.statusOf d = some .waitingForDependencies → c.Edge d x → c.statusOf x ≠ some .dormant

/-- No member waits for what it requires in vain. -/
def Unblocked (c : GraphExecutionContext) : Prop :=
  ∀ d x, c.statusOf d = some .waitingForDependencies → c.HardEdge d x →
    c.statusOf x ≠ some .failed ∧ c.statusOf x ≠ some .pruned

/-- What keeps a context moving. -/
structure Moving (c : GraphExecutionContext) : Prop where
  held : c.Held fun _ => False
  awake : c.Awake
  unblocked : c.Unblocked

variable {a s y : String} {probe : String → String → LevelProbe}

/-! ## Progress -/

theorem finite_members (p : GraphMemberStatus → Prop) :
    {a | ∃ status, c.statusOf a = some status ∧ p status}.Finite := by
  refine Set.Finite.subset (Finset.finite_toSet c.members.keys.toFinset) ?_
  rintro a ⟨status, known, -⟩
  obtain ⟨m, got, -⟩ := get_of_statusOf known
  exact mem_names got

/-- In a context at rest no dormant member is left: the last one up the edges would be held by a
member that has asked for it. -/
theorem Moving.not_dormant (moving : c.Moving) (acyclic : ∀ a, ¬ Relation.TransGen c.Edge a a)
    (rest : ∀ a status, c.statusOf a = some status → status.isTerminal = true ∨
      status = .dormant ∨ status = .waitingForDependencies) (x : String) :
    c.statusOf x ≠ some .dormant := by
  intro dormant
  have upwards : ∀ a, ¬ Relation.TransGen (fun x d => c.Edge d x) a a := by
    intro a cycle
    exact acyclic a (Relation.transGen_swap.mp cycle)
  obtain ⟨y, ⟨_, known, rfl⟩, last⟩ := exists_last_of_acyclic upwards
    (finite_members (c := c) (· = .dormant)) ⟨_, dormant, rfl⟩
  obtain ⟨d, edge, status, knownD, alive⟩ := (moving.held y known).resolve_left not_false
  rcases rest d status knownD with terminal | rfl | rfl
  · rw [alive] at terminal
    cases terminal
  · exact last d ⟨_, knownD, rfl⟩ edge
  · exact moving.awake d y knownD edge known

theorem edgeSettled_of_finished {e : GraphDependency} {status : GraphMemberStatus}
    (plain : e.level = none) (known : c.statusOf e.target = some status)
    (finished : status.isTerminal = true)
    (good : e.kind.isHard = true → status ≠ .failed ∧ status ≠ .pruned) :
    c.edgeSettled probe e = true := by
  rw [edgeSettled, plain, known]
  by_cases hard : e.kind.isHard = true
  · obtain ⟨notFailed, notPruned⟩ := good hard
    cases status <;> simp_all [isTerminal]
  · simp [hard, finished]

theorem Moving.nextAction (moving : c.Moving) (wf : WellFormed c)
    (acyclic : ∀ a, ¬ Relation.TransGen c.Edge a a) (plain : ∀ e ∈ c.dependencies, e.level = none)
    (idle : ∀ a, c.statusOf a ≠ some .running ∧ c.statusOf a ≠ some .awaitingRestart)
    (unfinished : c.Unfinished a) (probe : String → String → LevelProbe) :
    ∃ (s : String) (m : GraphMember) (action : ReadyGraphOperationAction),
      c.members[s]? = some m ∧ c.nextAction probe m = some action := by
  by_cases check : ∃ s, c.statusOf s = some .waitingForPreStartCheck
  · obtain ⟨s, known⟩ := check
    obtain ⟨m, got, status⟩ := get_of_statusOf known
    exact ⟨s, m, .preStartCheck, got, by rw [GraphExecutionContext.nextAction, status]⟩
  · push Not at check
    have rest : ∀ a status, c.statusOf a = some status → status.isTerminal = true ∨
        status = .dormant ∨ status = .waitingForDependencies := by
      intro a status known
      cases status <;> simp_all [isTerminal]
    have awake := moving.not_dormant acyclic rest
    obtain ⟨status, known, alive⟩ := unfinished
    have waiting : c.statusOf a = some .waitingForDependencies := by
      rcases rest a status known with terminal | rfl | rfl
      · rw [alive] at terminal
        cases terminal
      · exact absurd known (awake a)
      · exact known
    obtain ⟨s, ⟨_, knownS, rfl⟩, last⟩ := exists_last_of_acyclic acyclic
      (finite_members (c := c) (· = .waitingForDependencies)) ⟨_, waiting, rfl⟩
    obtain ⟨m, got, status⟩ := get_of_statusOf knownS
    refine ⟨s, m, .start, got, ?_⟩
    rw [GraphExecutionContext.nextAction, status, wf.keyed s m got]
    refine if_pos (List.all_eq_true.mpr fun e mem => ?_)
    obtain ⟨mem, dependent⟩ := List.mem_filter.mp mem
    have edge : c.Edge s e.target := ⟨e, mem, by simpa using dependent, rfl⟩
    obtain ⟨target, foundT⟩ := wf.target e mem (plain e mem)
    have knownT := statusOf_of_get foundT
    refine edgeSettled_of_finished (plain e mem) knownT ?_ fun hard => ?_
    · rcases rest e.target target.status knownT with terminal | dormant | again
      · exact terminal
      · exact absurd (dormant ▸ knownT) (awake e.target)
      · exact absurd edge (last e.target ⟨_, knownT, again⟩)
    · have good := moving.unblocked s e.target knownS ⟨e, mem, by simpa using dependent, rfl, hard⟩
      rw [knownT] at good
      exact ⟨fun failed => good.1 (by rw [failed]), fun pruned => good.2 (by rw [pruned])⟩

/-! ## What the changes keep -/

theorem Unfinished.of_eq (alive : c.Unfinished a) (same : c'.statusOf a = c.statusOf a) :
    c'.Unfinished a := by
  obtain ⟨status, known, open_⟩ := alive
  exact ⟨status, by rw [same, known], open_⟩

theorem Moving.of_calm (moving : c.Moving) (shape : SameShape c c')
    (calm : ∀ a, c'.statusOf a = c.statusOf a ∨
      c'.statusOf a = some .running ∨ c'.statusOf a = some .awaitingRestart) : c'.Moving := by
  have before : ∀ a status, c'.statusOf a = some status → status ≠ .running →
      status ≠ .awaitingRestart → c.statusOf a = some status := by
    intro a status known notRunning notAwaiting
    rcases calm a with same | running | awaiting
    · rw [← same, known]
    · rw [running] at known
      cases known
      exact absurd rfl notRunning
    · rw [awaiting] at known
      cases known
      exact absurd rfl notAwaiting
  refine ⟨fun x dormant => ?_, fun d x waiting edge dormant => ?_, fun d x waiting hard => ⟨?_, ?_⟩⟩
  · obtain ⟨d, edge, alive⟩ :=
      (moving.held x (before x _ dormant (by decide) (by decide))).resolve_left not_false
    refine .inr ⟨d, shape.edge.mpr edge, ?_⟩
    rcases calm d with same | running | awaiting
    · exact alive.of_eq same
    · exact ⟨_, running, rfl⟩
    · exact ⟨_, awaiting, rfl⟩
  · exact moving.awake d x (before d _ waiting (by decide) (by decide)) (shape.edge.mp edge)
      (before x _ dormant (by decide) (by decide))
  · intro failed
    exact (moving.unblocked d x (before d _ waiting (by decide) (by decide))
      (shape.hardEdge.mp hard)).1 (before x _ failed (by decide) (by decide))
  · intro pruned
    exact (moving.unblocked d x (before d _ waiting (by decide) (by decide))
      (shape.hardEdge.mp hard)).2 (before x _ pruned (by decide) (by decide))

theorem Moving.checkPassed (moving : c.Moving) (got : c.members[s]? = some m)
    (good : ∀ x, c.HardEdge s x → c.statusOf x ≠ some .failed ∧ c.statusOf x ≠ some .pruned) :
    (c.checkPassed s).Moving := by
  have shape : SameShape c (c.checkPassed s) :=
    trans_of SameShape sameShape_setStatus (sameShape_activateDependencies _ _)
  refine ⟨fun x dormant => ?_, fun d x waiting edge dormant => ?_, fun d x waiting hard => ?_⟩
  · obtain ⟨before, -⟩ := dormant_of_checkPassed got dormant
    obtain ⟨d, edge, status, known, alive⟩ := (moving.held x before).resolve_left not_false
    refine .inr ⟨d, shape.edge.mpr edge, ?_⟩
    unfold Unfinished
    rw [statusOf_checkPassed got]
    split_ifs
    · exact ⟨_, rfl, rfl⟩
    · exact ⟨_, rfl, rfl⟩
    · exact ⟨status, known, alive⟩
  · obtain ⟨before, unasked⟩ := dormant_of_checkPassed got dormant
    rw [shape.edge] at edge
    rcases waiting_of_checkPassed got waiting with rfl | waiting
    · exact unasked edge
    · exact moving.awake d x waiting edge before
  · rw [shape.hardEdge] at hard
    have before : c.statusOf x ≠ some .failed ∧ c.statusOf x ≠ some .pruned := by
      rcases waiting_of_checkPassed got waiting with rfl | waiting
      · exact good x hard
      · exact moving.unblocked d x waiting hard
    exact ⟨fun failed => before.1 (terminal_of_checkPassed got rfl failed),
      fun pruned => before.2 (terminal_of_checkPassed got rfl pruned)⟩

/-! ### Ends -/

theorem failStep_of_ended (step : (c.ended s outcome).FailStep x y) : c.FailStep x y := by
  obtain ⟨hard, can⟩ := step
  refine ⟨sameShape_ended.hardEdge.mp hard, ?_⟩
  rw [canFail] at can ⊢
  obtain ⟨status, known, waiting⟩ := (Option.any_eq_true _ _).mp can
  have alive : status.isTerminal = false := by cases status <;> first | rfl | cases waiting
  rw [statusOf_of_ended alive known]
  exact waiting

theorem Awake.ended (awake : c.Awake) : (c.ended s outcome).Awake := by
  intro d x waiting edge dormant
  exact awake d x (statusOf_of_ended rfl waiting) (sameShape_ended.edge.mp edge)
    (statusOf_of_ended rfl dormant)

theorem Unblocked.ended (unblocked : c.Unblocked) : (c.ended s outcome).Unblocked := by
  intro d x waiting hard
  rw [sameShape_ended.hardEdge] at hard
  have before := unblocked d x (statusOf_of_ended rfl waiting) hard
  cases outcome with
  | satisfied =>
    rw [ended, statusOf_setStatus]
    rcases known : c.statusOf x with _ | status
    · exact ⟨by simp, by simp⟩
    · by_cases here : x = s <;> simp_all
  | failed =>
    by_cases fresh : x = s ∨ x ∈ (c.setStatus s .failed).failing s
    · have closed := ended_failed_closed fresh hard
      rw [canFail, waiting] at closed
      cases closed
    · obtain ⟨other, unreached⟩ := not_or.mp fresh
      rw [ended, statusOf_mark, statusOf_setStatus]
      simpa [other, unreached] using before

/-- The outcome of `r` is the end of `a` as well. -/
def EndsWith (c : GraphExecutionContext) (outcome : GraphTerminalOutcome) (r a : String) : Prop :=
  a = r ∨ outcome = .failed ∧ Relation.TransGen c.FailStep r a

/-- The ends of `roots` leave every dormant member that is not exempt an unfinished dependent. -/
def LeavesHeld (c : GraphExecutionContext) (outcome : GraphTerminalOutcome)
    (roots exempt : String → Prop) : Prop :=
  ∀ x d r, c.statusOf x = some .dormant → ¬ roots x → c.Edge d x → roots r →
    c.EndsWith outcome r d →
    exempt x ∨ ∃ d', c.Edge d' x ∧ c.Unfinished d' ∧ ∀ r', roots r' → ¬ c.EndsWith outcome r' d'

theorem Held.of_ends (held : c.Held fun _ => False) (shape : SameShape c c')
    {roots exempt : String → Prop} (leaves : c.LeavesHeld outcome roots exempt)
    (ends : ∀ a, c'.statusOf a = c.statusOf a ∨
      c'.statusOf a = some outcome.status ∧ ∃ r, roots r ∧ c.EndsWith outcome r a)
    (left : ∀ r, roots r → c'.statusOf r ≠ some .dormant) : c'.Held exempt := by
  intro x dormant
  have before : c.statusOf x = some .dormant := by
    rcases ends x with same | ⟨reached, -⟩
    · rw [← same, dormant]
    · rw [reached] at dormant
      cases outcome <;> cases dormant
  obtain ⟨d, edge, alive⟩ := (held x before).resolve_left not_false
  by_cases reached : ∃ r, roots r ∧ c.EndsWith outcome r d
  · obtain ⟨r, root, with_⟩ := reached
    rcases leaves x d r before (fun own => left x own dormant) edge root with_ with
      free | ⟨d', edge', alive', unreached⟩
    · exact .inl free
    · refine .inr ⟨d', shape.edge.mpr edge', alive'.of_eq ?_⟩
      exact (ends d').resolve_right fun ⟨_, r', root', with'⟩ => unreached r' root' with'
  · exact .inr ⟨d, shape.edge.mpr edge, alive.of_eq ((ends d).resolve_right fun h => reached h.2)⟩

/-! ### Pruning -/

theorem Held.pruned (held : c.Held (c.Edge s)) : (c.mark .pruned (c.pruning s)).Held fun _ => False := by
  intro x dormant
  right
  rw [statusOf_mark] at dormant
  obtain ⟨status, known, after⟩ := Option.map_eq_some_iff.mp dormant
  split_ifs at after with cut
  subst after
  by_cases below : ∃ d, (d = s ∨ d ∈ c.pruning s) ∧ c.Edge d x
  · -- The walk came to `x` and left it, so a member in progress keeps it.
    obtain ⟨d, from_, edge⟩ := below
    have kept : ¬ canPruneDormantMember c x = true := fun can => cut (pruning_closed from_ edge can)
    rw [canPrune_iff] at kept
    push Not at kept
    obtain ⟨keeper, status, edge', knownK, keeps⟩ := kept known
    refine ⟨keeper, sameShape_mark.edge.mpr edge', status, ?_, ?_⟩
    · have unpruned : keeper ∉ c.pruning s := by
        intro mem
        have dormantK := (canPrune_iff.mp (canPrune_of_mem_pruning mem)).1
        rw [knownK] at dormantK
        cases dormantK
        exact keeps rfl
      rw [statusOf_mark, knownK, Option.map_some, if_neg unpruned]
    · cases status <;> simp_all [isTerminal, allowsPruning]
  · push Not at below
    rcases held x known with asked | ⟨d, edge, alive⟩
    · exact absurd asked (below s (.inl rfl))
    · refine ⟨d, sameShape_mark.edge.mpr edge, alive.of_eq ?_⟩
      have unpruned : d ∉ c.pruning s := fun mem => below d (.inr mem) edge
      rw [statusOf_mark]
      simp [unpruned]

theorem Awake.pruned (awake : c.Awake) : (c.mark .pruned (c.pruning s)).Awake := by
  intro d x waiting edge dormant
  exact awake d x (statusOf_of_mark (by decide) waiting) (sameShape_mark.edge.mp edge)
    (statusOf_of_mark (by decide) dormant)

theorem Unblocked.pruned (unblocked : c.Unblocked) : (c.mark .pruned (c.pruning s)).Unblocked := by
  intro d x waiting hard
  have waitingBefore := statusOf_of_mark (by decide) waiting
  rw [sameShape_mark.hardEdge] at hard
  have before := unblocked d x waitingBefore hard
  have unpruned : x ∉ c.pruning s := by
    intro mem
    have allows := (canPrune_iff.mp (canPrune_of_mem_pruning mem)).2 d _ hard.edge waitingBefore
    cases allows
  rw [statusOf_mark]
  simpa [unpruned] using before

end GraphExecutionContext

namespace GraphExecutionStore

variable {s : GraphExecutionStore} {op : OperationId}

theorem EndedIn.ends (ended : EndedIn s op outcome id c c') (a : String) :
    c'.statusOf a = c.statusOf a ∨ c'.statusOf a = some outcome.status ∧
      ∃ r, s.Resolves op c r ∧ c.EndsWith outcome r a := by
  obtain ⟨between, first, second⟩ := ended.through
  have own : between.statusOf a = c.statusOf a ∨ between.statusOf a = some outcome.status ∧
      ∃ r, s.Resolves op c r ∧ c.EndsWith outcome r a := by
    rcases first with ⟨-, m, named, -, rfl⟩ | ⟨-, rfl⟩
    · refine (statusOf_ended a).imp_right fun ⟨after, reached⟩ => ?_
      exact ⟨after, m.service, .inl ⟨m, named, rfl⟩, reached.imp_right fun h => ⟨h.1, h.2.2⟩⟩
    · exact .inl rfl
  rcases second with rfl | ⟨svc, starts, awaiting, rfl⟩
  · exact own
  · have before : c.statusOf svc = some .awaitingRestart := by
      rcases first with ⟨-, m, -, -, rfl⟩ | ⟨-, rfl⟩
      · exact statusOf_of_ended rfl awaiting
      · exact awaiting
    -- The first outcome can only have taken steps away from the walk of the second.
    have fewer : ∀ x y, between.FailStep x y → c.FailStep x y := by
      rcases first with ⟨-, m, -, -, rfl⟩ | ⟨-, rfl⟩
      · exact fun x y => failStep_of_ended
      · exact fun x y step => step
    have change : (between.ended svc outcome).statusOf a = between.statusOf a ∨ _ := statusOf_ended a
    rcases change with same | ⟨after, reached⟩
    · rw [same]
      exact own
    · refine .inr ⟨after, svc, .inr ⟨starts, before⟩, reached.imp_right fun h => ⟨h.1, ?_⟩⟩
      exact Relation.TransGen.mono fewer _ _ h.2.2

theorem EndedIn.left (reg : Regular s) (live : s.contexts[id]? = some c)
    (ended : EndedIn s op outcome id c c') {r : String}
    (resolves : s.Resolves op c r) : c'.statusOf r ≠ some .dormant := by
  intro dormant
  obtain ⟨between, first, second⟩ := ended.through
  have dormantBetween : between.statusOf r = some .dormant := by
    rcases second with rfl | ⟨svc, -, -, rfl⟩
    · exact dormant
    · exact statusOf_of_ended rfl dormant
  rcases first with ⟨-, m, named, ⟨m', got, -⟩, rfl⟩ | ⟨unlisted, rfl⟩
  · rcases resolves with ⟨m₁, named₁, rfl⟩ | ⟨-, awaiting⟩
    · rw [named] at named₁
      cases named₁
      rw [statusOf_ended_self got] at dormantBetween
      cases outcome <;> cases dormantBetween
    · rw [statusOf_of_ended rfl dormantBetween] at awaiting
      cases awaiting
  · rcases resolves with ⟨m₁, named₁, rfl⟩ | ⟨-, awaiting⟩
    · exact unlisted (listed_of_memberForOperation reg live named₁)
    · rw [dormantBetween] at awaiting
      cases awaiting

theorem EndedIn.awake (ended : EndedIn s op outcome id c c') (awake : c.Awake) :
    c'.Awake :=
  ended.rule awake fun _ _ _ _ _ awake => awake.ended

theorem EndedIn.unblocked (ended : EndedIn s op outcome id c c') (clear : c.Unblocked) :
    c'.Unblocked :=
  ended.rule clear fun _ _ _ _ _ clear => clear.ended

end GraphExecutionStore

/-! ## New contexts -/

/-- Where a blocked service of the plan depends on a start, some start depends on it too. -/
def Phase2BootPlan.Anchored (plan : Phase2BootPlan) (definitions : List ServiceDefinition) : Prop :=
  ∀ start ∈ plan.starts, ∀ blocked ∈ plan.blocked,
    Declares (fun service => (definitionsByName definitions)[service]?) blocked.service start.service →
    ∃ other ∈ plan.starts,
      Declares (fun service => (definitionsByName definitions)[service]?) other.service start.service

namespace BuiltFrom

variable {p : GraphMember → Prop} {defn : String → Option ServiceDefinition} {members : GraphMembers}
  {s : String}

theorem unfinished (built : BuiltFrom p defn c members) (got : members[s]? = some m)
    (alive : m.status.isTerminal = false) : c.Unfinished s := by
  obtain ⟨m', found', -, rfl | ⟨-, waiting⟩⟩ := built.get got
  · exact ⟨_, statusOf_of_get found', alive⟩
  · exact ⟨_, statusOf_of_get found', by rw [waiting]; rfl⟩

theorem edge (built : BuiltFrom p defn c members) {d : String} {m' : GraphMember}
    (target : members[x]? = some m) (dependent : members[d]? = some m')
    (declares : Declares defn d x) : c.Edge d x :=
  (built.declared.edge_iff target).mpr ⟨⟨m', dependent⟩, declares⟩

theorem moving (built : BuiltFrom p defn c members)
    (fresh : ∀ m, p m → m.status ≠ .waitingForDependencies)
    (held : c.Held fun _ => False) : c.Moving := by
  have none : ∀ d, c.statusOf d ≠ some .waitingForDependencies := by
    intro d waiting
    obtain ⟨m, got, status⟩ := get_of_statusOf waiting
    rw [built.roots] at got
    obtain ⟨before, known, -, ⟨rfl, -⟩ | ⟨-, check, -⟩⟩ := activateRoots_cases got
    · exact fresh m (built.are d m known).2 status
    · rw [check] at status
      cases status
  exact ⟨held, fun d x waiting => absurd waiting (none d), fun d x waiting => absurd waiting (none d)⟩

end BuiltFrom

theorem bootContext_moving {plan : Phase2BootPlan} {defs : List ServiceDefinition}
    (built : bootContext id plan defs = .ok c) (anchored : plan.Anchored defs) :
    c.Moving := by
  obtain ⟨-, members, first, from_⟩ := bootContext_builtFrom built
  refine from_.moving ?_ fun x dormant => .inr ?_
  · rintro m (⟨start, -, sequence, rfl⟩ | ⟨blocked, -, sequence, rfl⟩)
    · exact fun h => by cases h
    · exact fun h => by cases h
  · obtain ⟨⟨m, known, status⟩, d, m', member, declares⟩ := from_.dormant_cases dormant
    obtain ⟨named, kind⟩ := from_.are x m known
    obtain ⟨namedD, kindD⟩ := from_.are d m' member
    rcases kindD with ⟨start, -, sequence, rfl⟩ | ⟨blocked, mem, sequence, rfl⟩
    · exact ⟨d, from_.edge known member declares, from_.unfinished member rfl⟩
    · rcases kind with ⟨start, listedStart, sequence', rfl⟩ | ⟨_, -, _, rfl⟩
      · subst named namedD
        obtain ⟨other, listedOther, declares'⟩ := anchored start listedStart blocked mem declares
        obtain ⟨_, memberOther⟩ := bootMembers_start first listedOther
        exact ⟨other.service, from_.edge known memberOther declares', from_.unfinished memberOther rfl⟩
      · cases status

theorem onDemandContext_moving {dispatch : OnDemandStartDispatch} {svcs : ServiceTable}
    (built : onDemandContext id dispatch svcs = .ok c) : c.Moving := by
  obtain ⟨-, members, ⟨-, from_⟩ | from_⟩ := onDemandContext_builtFrom built
  · have statuses : ∀ m, IsPlanned dispatch svcs m →
        m.status = .awaitingRestart ∨ m.status = .running ∨ m.status = .dormant := by
      rintro m ⟨start, -, sequence, outcome, -, rfl⟩
      unfold plannedMember plannedStatus
      split_ifs
      · exact .inl rfl
      · exact .inr (.inl rfl)
      · exact .inr (.inr rfl)
    refine from_.moving (fun m planned waiting => ?_) fun x dormant => .inr ?_
    · rcases statuses m planned with h | h | h <;> rw [h] at waiting <;> cases waiting
    · obtain ⟨⟨m, known, -⟩, d, m', member, declares⟩ := from_.dormant_cases dormant
      refine ⟨d, from_.edge known member declares, from_.unfinished member ?_⟩
      rcases statuses m' (from_.are d m' member).2 with h | h | h <;> rw [h] <;> rfl
  · have status : (blockedRequestedMember dispatch).status ≠ .waitingForDependencies ∧
        (blockedRequestedMember dispatch).status ≠ .dormant := by
      unfold blockedRequestedMember blockedRequestedStatus
      dsimp only
      split_ifs <;> decide
    refine from_.moving (fun m blocked => blocked ▸ status.1) fun x dormant => ?_
    obtain ⟨⟨m, known, same⟩, -⟩ := from_.dormant_cases dormant
    rw [(from_.are x m known).2] at same
    exact absurd same status.2

/-! ## Runs -/

/-- When a step keeps the context `id` moving: a boot plan is anchored, a passed check does not come
after a dependency it requires has failed or been pruned, and the end of a start leaves no dormant
member without an unfinished dependent, except below a check, where such members are pruned. -/
def SafeFor (id : GraphContextId) (s : GraphExecutionStore) : GraphStep → Prop
  | .createBoot plan definitions => s.pendingContextId = id → plan.Anchored definitions
  | .checkPassed operationId => ∀ c ∈ s.contexts[id]?, ∀ m ∈ c.memberForOperation operationId,
      ∀ e ∈ c.edgesOf m.service, e.kind.isHard = true →
        c.statusOf e.target ≠ some .failed ∧ c.statusOf e.target ≠ some .pruned
  | .checkEnded operationId outcome => ∀ c ∈ s.contexts[id]?,
      c.LeavesHeld outcome (s.Resolves operationId c)
        fun x => ∃ m ∈ c.memberForOperation operationId, c.Edge m.service x
  | .startEnded operationId outcome => ∀ c ∈ s.contexts[id]?,
      c.LeavesHeld outcome (s.Resolves operationId c) fun _ => False
  | .settleRestart service outcome => ∀ c ∈ s.contexts[id]?,
      c.statusOf service = some .awaitingRestart → c.LeavesHeld outcome (· = service) fun _ => False
  | _ => True

section OneStep

variable {s : GraphExecutionStore}

theorem moving_of_checkEnded {op : OperationId}
    (reg : Regular s) (live : s.contexts[id]? = some c) (moving : c.Moving)
    (safe : SafeFor id s (.checkEnded op outcome))
    (step : GraphStep.StepIn s id c c' (.checkEnded op outcome)) : c'.Moving := by
  obtain ⟨between, ended, cut⟩ := step
  have shape := ended.sameShape
  have held := moving.held.of_ends shape (safe c live) ended.ends
    fun r resolves => ended.left reg live resolves
  have awake := ended.awake moving.awake
  have unblocked := ended.unblocked moving.unblocked
  rcases cut with ⟨-, m, named, rfl⟩ | ⟨unlisted, rfl⟩
  · have below : between.Held (between.Edge m.service) := by
      intro x dormant
      refine (held x dormant).imp_left fun ⟨m', named', edge⟩ => ?_
      rw [named] at named'
      cases named'
      exact shape.edge.mpr edge
    exact ⟨below.pruned, awake.pruned, unblocked.pruned⟩
  · refine ⟨fun x dormant => .inr ((held x dormant).resolve_left ?_), awake, unblocked⟩
    rintro ⟨m, named, -⟩
    exact unlisted (listed_of_memberForOperation reg live named)

theorem moving_step {step : GraphStep} (reg : Regular s)
    (moving : ∀ c, s.contexts[id]? = some c → c.Moving) (safe : SafeFor id s step)
    (live : (step.commit s).contexts[id]? = some c') : c'.Moving := by
  rcases commit_context reg live with ⟨c, before, quiet | step_⟩ | ⟨rfl, built⟩
  · exact (moving c before).of_calm quiet.1 fun a => .inl (quiet.2 a)
  · have was := moving c before
    have shape := sameShape_commit reg before live
    cases step with
    | release cid slots probe =>
      obtain ⟨-, ready, -, statuses⟩ := step_
      refine was.of_calm shape fun a => ?_
      rw [statuses, statusOf_mark]
      rcases c.statusOf a with _ | status
      · exact .inl rfl
      · by_cases released : a ∈ ready.map (·.1)
        · exact .inr (.inl (by rw [Option.map_some, if_pos released]))
        · exact .inl (by rw [Option.map_some, if_neg released])
    | checkPassed op =>
      obtain ⟨-, m, named, got, -, -, rfl⟩ := step_
      refine was.checkPassed got fun x hard => ?_
      obtain ⟨e, mem, dependent, rfl, kind⟩ := hard
      exact safe c before m named e (List.mem_filter.mpr ⟨mem, by simpa using dependent⟩) kind
    | checkEnded op outcome => exact moving_of_checkEnded reg before was safe step_
    | startEnded op outcome =>
      have ended : EndedIn s op outcome id c c' := step_
      exact ⟨was.held.of_ends ended.sameShape (safe c before) ended.ends
        fun r resolves => ended.left reg before resolves, ended.awake was.awake,
        ended.unblocked was.unblocked⟩
    | awaitRestart op =>
      obtain ⟨-, m, -, -, -, statuses⟩ := step_
      refine was.of_calm shape fun a => ?_
      rw [statuses, statusOf_setStatus]
      rcases c.statusOf a with _ | status
      · exact .inl rfl
      · by_cases here : a = m.service
        · exact .inr (.inr (by rw [Option.map_some, if_pos here]))
        · exact .inl (by rw [Option.map_some, if_neg here])
    | settleRestart svc outcome =>
      obtain ⟨awaiting, rfl⟩ := step_
      refine ⟨was.held.of_ends shape (safe c before awaiting) (fun a => ?_) ?_, was.awake.ended,
        was.unblocked.ended⟩
      · refine (statusOf_ended a).imp_right fun ⟨after, reached⟩ => ?_
        exact ⟨after, svc, rfl, reached.imp_right fun h => ⟨h.1, h.2.2⟩⟩
      · rintro _ rfl dormant
        rw [statusOf_of_ended rfl dormant] at awaiting
        cases awaiting
    | _ => exact step_.elim
  · cases step with
    | createBoot plan defs => exact bootContext_moving built (safe rfl)
    | createOnDemand dispatch svcs => exact onDemandContext_moving built
    | _ => exact built.elim

end OneStep

theorem moving_run {steps : List GraphStep} (safe : Admissible commit (SafeFor id) .new steps)
    (live : (runCalls commit .new steps).contexts[id]? = some c) : c.Moving := by
  refine (invariant_of_step (fun s => Regular s ∧ ∀ c, s.contexts[id]? = some c → c.Moving)
    (fun s step inv safe => ⟨inv.1.commit step, fun c live => moving_step inv.1 inv.2 safe live⟩) steps
    ⟨regular_new, fun c live => ?_⟩ safe).2 c live
  simp [new] at live

theorem releaseReady_ne_nil {s : GraphExecutionStore} (reg : Regular s) (live : s.contexts[id]? = some c)
    (moving : c.Moving) (acyclic : ∀ a, ¬ Relation.TransGen c.Edge a a)
    (plain : ∀ e ∈ c.dependencies, e.level = none)
    (idle : ∀ m ∈ c.members.values, m.status ≠ .running ∧ m.status ≠ .awaitingRestart)
    (open_ : c.isDrained = false) {maxParallelStarts : ℕ} (slots : 1 ≤ maxParallelStarts)
    (probe : String → String → LevelProbe) : ∃ operations t,
      (releaseReady id maxParallelStarts probe).run s = (.ok operations, t) ∧ operations ≠ [] := by
  have wf := reg.wellFormed id c live
  have idleAt : ∀ a, c.statusOf a ≠ some .running ∧ c.statusOf a ≠ some .awaitingRestart := by
    intro a
    constructor
    · intro known
      obtain ⟨m, got, status⟩ := get_of_statusOf known
      exact (idle m ((OrdMap.mem_values _ _).mpr ⟨a, got⟩)).1 status
    · intro known
      obtain ⟨m, got, status⟩ := get_of_statusOf known
      exact (idle m ((OrdMap.mem_values _ _).mpr ⟨a, got⟩)).2 status
  obtain ⟨m, mem, alive⟩ := List.all_eq_false.mp open_
  obtain ⟨a, got⟩ := (OrdMap.mem_values _ _).mp mem
  have unfinished : c.Unfinished a := ⟨_, statusOf_of_get got, by simpa using alive⟩
  obtain ⟨a', m', action, found', next⟩ := moving.nextAction wf acyclic plain idleAt unfinished probe
  have free : availableSlots c maxParallelStarts ≠ 0 := by
    have none : c.members.values.countP (·.status = .running) = 0 := by
      rw [List.countP_eq_zero]
      intro m mem
      simpa using (idle m mem).1
    rw [availableSlots]
    omega
  obtain ⟨ready, operations, t, chosen, ran, reported, -⟩ := run_releaseContext wf maxParallelStarts probe
  have released := readyMembers_ne_nil wf found' next free chosen
  refine ⟨operations, _, by rw [releaseReady, if_neg (by omega), run_onContext live, ran], ?_⟩
  rintro rfl
  cases reported
  exact released rfl

/-- In a run of safe steps no member waits in vain for what it requires, and a context at rest is
drained or has something to release. -/
theorem releaseReady_never_strands (id : GraphContextId) (steps : List GraphStep)
    (safe : Admissible commit (SafeFor id) .new steps) (c : GraphExecutionContext)
    (live : (runCalls commit .new steps).contexts[id]? = some c)
    (acyclic : ∀ a, ¬ Relation.TransGen c.Edge a a)
    (plain : ∀ e ∈ c.dependencies, e.level = none) :
    (∀ d x, c.statusOf d = some .waitingForDependencies → c.HardEdge d x →
      c.statusOf x ≠ some .failed ∧ c.statusOf x ≠ some .pruned) ∧
    ((∀ m ∈ c.members.values, m.status ≠ .running ∧ m.status ≠ .awaitingRestart) →
      c.isDrained = false → ∀ maxParallelStarts, 1 ≤ maxParallelStarts →
      ∀ probe : String → String → LevelProbe, ∃ operations t,
        (releaseReady id maxParallelStarts probe).run (runCalls commit .new steps) =
          (.ok operations, t) ∧ operations ≠ []) := by
  have moving := moving_run safe live
  exact ⟨moving.unblocked, fun idle open_ maxParallelStarts slots probe =>
    releaseReady_ne_nil (regular_run steps) live moving acyclic plain idle open_ slots probe⟩

/-! ## A dependency two services require -/

theorem edges_acyclic (rank : String → ℕ)
    (lowers : ∀ e ∈ c.dependencies, rank e.target < rank e.dependent) (a : String) :
    ¬ Relation.TransGen c.Edge a a := by
  apply acyclic_of_rank rank
  rintro _ _ ⟨e, mem, rfl, rfl⟩
  exact lowers e mem

/-- `r1` and `r2` are started at boot and require `t`. -/
def sharedDependencyBoot : GraphStep :=
  .createBoot
    { starts := [⟨"t", ⟨1⟩, ⟨1⟩, .dependencyStart⟩, ⟨"r1", ⟨2⟩, ⟨2⟩, .explicitStart⟩,
        ⟨"r2", ⟨3⟩, ⟨3⟩, .explicitStart⟩]
      blocked := [] }
    [{ name := "t" }, { name := "r1", requires := ["t"] }, { name := "r2", requires := ["t"] }]

def rankOfShared (service : String) : ℕ := if service = "t" then 0 else 1

/-- A pass with a single slot, and no levels to look at. -/
def releaseOne : GraphStep := .release ⟨0⟩ 1 fun _ _ => .absent

/-- The checks of `r1` and of `t` pass. -/
def sharedCheckedRun : List GraphStep :=
  [sharedDependencyBoot, releaseOne, .checkPassed ⟨2⟩, releaseOne, .checkPassed ⟨1⟩]

theorem releaseReady_never_strands_shared : ∃ operations t,
    (releaseReady ⟨0⟩ 1 fun _ _ => .absent).run (runCalls commit .new sharedCheckedRun) =
      (.ok operations, t) ∧ operations ≠ [] := by
  have safe : Admissible commit (SafeFor ⟨0⟩) .new sharedCheckedRun := by
    refine ⟨fun _ start _ blocked none => absurd none List.not_mem_nil, trivial, ?_, trivial, ?_, trivial⟩
    · unfold SafeFor
      decide +kernel
    · unfold SafeFor
      decide +kernel
  obtain ⟨c, live, lowers, plain, open_, idle⟩ : ∃ c : GraphExecutionContext,
      (runCalls commit .new sharedCheckedRun).contexts[(⟨0⟩ : GraphContextId)]? = some c ∧
      (∀ e ∈ c.dependencies, rankOfShared e.target < rankOfShared e.dependent) ∧
      (∀ e ∈ c.dependencies, e.level = none) ∧ c.isDrained = false ∧
      ∀ m ∈ c.members.values, m.status ≠ .running ∧ m.status ≠ .awaitingRestart := by
    decide +kernel
  exact (releaseReady_never_strands ⟨0⟩ sharedCheckedRun safe c live (edges_acyclic rankOfShared lowers)
    plain).2 idle open_ 1 le_rfl _

/-- `t` fails before the check of `r2`, which then passes. -/
def strandingRun : List GraphStep :=
  [sharedDependencyBoot, releaseOne, .checkPassed ⟨2⟩, releaseOne, .checkPassed ⟨1⟩, releaseOne,
    .startEnded ⟨1⟩ .failed, releaseOne, .checkPassed ⟨3⟩]

/-- `r2` is left waiting for `t`, and nothing can be released any more. -/
theorem strandingRun_strands : ∃ c : GraphExecutionContext,
    (runCalls commit .new strandingRun).contexts[(⟨0⟩ : GraphContextId)]? = some c ∧
    (∀ a, ¬ Relation.TransGen c.Edge a a) ∧ (∀ e ∈ c.dependencies, e.level = none) ∧
    (∀ m ∈ c.members.values, m.status ≠ .running ∧ m.status ≠ .awaitingRestart) ∧
    c.isDrained = false ∧
    (c.statusOf "r2" = some .waitingForDependencies ∧ c.HardEdge "r2" "t" ∧
      c.statusOf "t" = some .failed) ∧
    ((releaseReady ⟨0⟩ 1 fun _ _ => .absent).run
      (runCalls commit .new strandingRun)).1 = .ok [] := by
  refine ⟨(runCalls commit .new strandingRun).contexts[(⟨0⟩ : GraphContextId)]?.get
    (by decide +kernel), (Option.some_get _).symm, edges_acyclic rankOfShared ?_, ?_⟩ <;>
    decide +kernel

end Peinit
