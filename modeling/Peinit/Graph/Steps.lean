import Peinit.Graph.Built
import Peinit.Graph.Effects

/-!
# Pruning, checks and release

The effect on the statuses of the changes that end no start: a pruned sub-tree, a passed pre-start
check, a hold for a restart, and a release pass.
-/

namespace Peinit

open Fallible List

variable {status : GraphMemberStatus} {action : ReadyGraphOperationAction}
  {ready : List (String × ReadyGraphOperationAction)} {c t : GraphExecutionContext} {s a x y : String}
  {m : GraphMember}

namespace GraphExecutionContext

variable {services : List String} {op : OperationId}

theorem get_of_memberForOperation (wf : WellFormed c) (got : c.memberForOperation op = some m) :
    c.members[m.service]? = some m ∧ m.operationId = op := by
  have mem := mem_of_find?_eq_some got
  obtain ⟨key, known⟩ := (OrdMap.mem_values _ _).mp mem
  have matching := find?_some got
  rw [wf.keyed key m known]
  exact ⟨known, by simpa using matching⟩

end GraphExecutionContext

section

variable {p : GraphMember → Prop} {defn : String → Option ServiceDefinition} {members : GraphMembers}

/-- A member is dormant in the new context because a member declares it a dependency. -/
theorem BuiltFrom.dormant_cases (built : BuiltFrom p defn c members)
    (dormant : c.statusOf x = some .dormant) :
    (∃ m, members[x]? = some m ∧ m.status = .dormant) ∧ ∃ d m, members[d]? = some m ∧
      Declares defn d x := by
  obtain ⟨m, got, status⟩ := GraphExecutionContext.get_of_statusOf dormant
  rw [built.roots] at got
  obtain ⟨before, known, -, ⟨rfl, wanted⟩ | ⟨-, waiting, -⟩⟩ := activateRoots_cases got
  · obtain ⟨e, mem, target⟩ := wanted status
    rw [(built.are x m known).1] at target
    obtain ⟨⟨d, member⟩, declares⟩ := (built.declared.edge_iff known).mp ⟨e, mem, rfl, target⟩
    exact ⟨⟨m, known, status⟩, e.dependent, d, member, declares⟩
  · rw [waiting] at status
    cases status

end

namespace GraphExecutionContext

variable {svcs : List String} {operationId : OperationId}

/-! ## Pruning -/

def targetsOf (c : GraphExecutionContext) (service : String) : List String :=
  (c.edgesOf service).map (·.target)

theorem mem_targetsOf : y ∈ c.targetsOf x ↔ c.Edge x y := by
  simp only [targetsOf, edgesOf, mem_map, mem_filter, decide_eq_true_eq]
  constructor
  · rintro ⟨e, ⟨mem, dependent⟩, target⟩
    exact ⟨e, mem, dependent, target⟩
  · rintro ⟨e, mem, dependent, target⟩
    exact ⟨e, ⟨mem, dependent⟩, target⟩

/-- The members pruned when `service` is resolved, in the order they are pruned. -/
def pruning (c : GraphExecutionContext) (service : String) : List String :=
  flood c.targetsOf (canPruneDormantMember c) c.members.size [] service

def prunedOperation (c : GraphExecutionContext) (s : String) : GraphPrunedOperation where
  contextId := c.id
  service := s
  operationId := c.operationOf s

/-- Nothing keeps a dormant member when each of its dependents is dormant or terminal. -/
theorem canPrune_iff : canPruneDormantMember c s = true ↔
    c.statusOf s = some .dormant ∧ ∀ d status, c.Edge d s → c.statusOf d = some status →
      status.allowsPruning = true := by
  rw [canPruneDormantMember, statusOf]
  rcases c.members[s]? with _ | m
  · simp
  · simp only [Bool.and_eq_true, decide_eq_true_eq, all_eq_true, mem_filterMap, edgesOnto,
      mem_filter, Option.map_some, Option.some.injEq]
    refine and_congr Iff.rfl ⟨fun all d status edge known => ?_, fun all m some_ => ?_⟩
    · obtain ⟨e, mem, rfl, target⟩ := edge
      obtain ⟨dependent, got, rfl⟩ := get_of_statusOf known
      exact all dependent ⟨e, ⟨mem, target⟩, got⟩
    · obtain ⟨e, mem, got⟩ := some_
      exact all e.dependent m.status ⟨e, mem.1, rfl, mem.2⟩ (statusOf_of_get got)

theorem canPrune_mark (good : ∀ z ∈ svcs, canPruneDormantMember c z = true) :
    canPruneDormantMember (c.mark .pruned svcs) s = true ↔
      canPruneDormantMember c s = true ∧ s ∉ svcs := by
  rw [canPrune_iff, canPrune_iff, statusOf_mark]
  constructor
  · rintro ⟨dormant, all⟩
    obtain ⟨status, known, after⟩ := Option.map_eq_some_iff.mp dormant
    split_ifs at after with marked
    refine ⟨⟨by rw [known, after], fun d status edge knownD => ?_⟩, marked⟩
    by_cases markedD : d ∈ svcs
    · have dormantD := (canPrune_iff.mp (good d markedD)).1
      rw [knownD] at dormantD
      cases dormantD
      rfl
    · refine all d status (sameShape_mark.edge.mpr edge) ?_
      rw [statusOf_mark, knownD, Option.map_some, if_neg markedD]
  · rintro ⟨⟨dormant, all⟩, unmarked⟩
    refine ⟨by rw [dormant, Option.map_some, if_neg unmarked], fun d status edge knownD => ?_⟩
    rw [statusOf_mark] at knownD
    obtain ⟨before, known, rfl⟩ := Option.map_eq_some_iff.mp knownD
    split_ifs
    · rfl
    · exact all d before (sameShape_mark.edge.mp edge) known

theorem prunedOperation_mark : (c.mark status svcs).prunedOperation s = c.prunedOperation s := by
  have id : (c.mark status svcs).id = c.id := sameShape_mark.id
  rw [prunedOperation, id, operationOf, get_mark, Option.map_map]
  congr 3
  split_ifs <;> rfl

theorem run_pruneDormantSubtree {rest : String → ContextMutator (List GraphPrunedOperation)}
    (can : canPruneDormantMember c s = true) :
    (pruneDormantSubtree rest s).run c =
      ((c.prunedOperation s :: ·) <$> rest s).run (c.setStatus s .pruned) := by
  obtain ⟨m, got, -⟩ := get_of_statusOf (canPrune_iff.mp can).1
  have pruned : c.prunedOperation s = ⟨c.id, s, m.operationId⟩ := by
    rw [prunedOperation, operationOf, got]
    rfl
  rw [pruneDormantSubtree, run_fetch_bind, if_pos can, run_bind_of_ok (run_requireMember got),
    setStatus_of_get got, pruned]
  rfl

theorem marks_prune : Marks c.targetsOf (canPruneDormantMember c) (fun _ => True) (c.mark .pruned)
    targetsOf pruneDormantSubtree c.prunedOperation pruneVisiting where
  stops _ := rfl
  walks _ _ _ := rfl
  tried seen x _ := by
    refine ⟨fun _ => true, ?_, fun y _ => ⟨fun _ => trivial, fun _ _ => rfl⟩⟩
    rw [filter_true, targetsOf, sameShape_mark.edgesOf]
    rfl
  hit rest y seen good can fresh := by
    rw [run_pruneDormantSubtree ((canPrune_mark good).mpr ⟨can, fresh⟩), mark_append_singleton,
      prunedOperation_mark]
  miss rest y seen good _ unmarked := by
    have blocked : ¬ canPruneDormantMember (c.mark .pruned seen) y = true := by
      rw [canPrune_mark good]
      exact unmarked
    rw [pruneDormantSubtree, run_fetch_bind, if_neg blocked]
    rfl

theorem run_pruneDependenciesForService : (pruneDependenciesForService s).run c =
      (.ok ((c.pruning s).map c.prunedOperation), c.mark .pruned (c.pruning s)) := by
  obtain ⟨new, flooded, -, run⟩ := marks_prune.run c.members.size [] s (by simp)
  rw [pruning, flooded]
  exact run

theorem mem_pruning : a ∈ c.pruning s ↔ Relation.TransGen
    (fun x y => c.Edge x y ∧ canPruneDormantMember c y = true) s a := by
  have bounded : ∀ y, canPruneDormantMember c y = true → y ∈ c.members.keys.toFinset := by
    intro y can
    obtain ⟨m, got, -⟩ := get_of_statusOf (canPrune_iff.mp can).1
    exact mem_names got
  rw [pruning, mem_flood bounded card_names]
  have same : FloodStep c.targetsOf (canPruneDormantMember c) =
      fun x y => c.Edge x y ∧ canPruneDormantMember c y = true := by
    funext x y
    rw [FloodStep, mem_targetsOf]
  rw [same]

theorem canPrune_of_mem_pruning (pruned : a ∈ c.pruning s) : canPruneDormantMember c a = true := by
  obtain ⟨_, -, last⟩ := Relation.TransGen.tail'_iff.mp (mem_pruning.mp pruned)
  exact last.2

theorem pruning_closed (from_ : x = s ∨ x ∈ c.pruning s) (edge : c.Edge x y)
    (can : canPruneDormantMember c y = true) : y ∈ c.pruning s := by
  rw [mem_pruning] at from_ ⊢
  rcases from_ with rfl | path
  · exact .single ⟨edge, can⟩
  · exact .tail path ⟨edge, can⟩

theorem pruneContext_cases {pruned : List GraphPrunedOperation}
    (run : (pruneContext operationId).run c = (.ok pruned, t)) :
    ∃ m, c.memberForOperation operationId = some m ∧ t = c.mark .pruned (c.pruning m.service) ∧
      pruned = (c.pruning m.service).map c.prunedOperation := by
  rcases got : c.memberForOperation operationId with _ | m
  · rw [pruneContext, requireMemberForOperation, run_bind, run_fetch_bind, got] at run
    cases run
  · rw [pruneContext, run_bind_of_ok (run_requireMemberForOperation got),
      run_pruneDependenciesForService] at run
    cases run
    exact ⟨m, rfl, rfl, rfl⟩

/-! ## Passed checks -/

theorem statusOf_wake (target : String) : (wake c target).statusOf a =
    if a = target ∧ c.statusOf a = some .dormant then some .waitingForPreStartCheck
    else c.statusOf a := by
  rw [wake]
  by_cases here : a = target
  · subst here
    rcases got : c.members[a]? with _ | m
    · simp [statusOf, got]
    · rw [statusOf_of_get got]
      by_cases dormant : m.status = .dormant
      · simp [dormant, statusOf_write]
      · simp [dormant, statusOf_of_get got]
  · rcases got : c.members[target]? with _ | m
    · simp [here]
    · by_cases dormant : m.status = .dormant
      · simp [dormant, statusOf_write, here, Ne.symm here]
      · simp [dormant, here]

theorem statusOf_activateDependencies : (activateDependencies c s).statusOf a =
    if c.Edge s a ∧ c.statusOf a = some .dormant then some .waitingForPreStartCheck
    else c.statusOf a := by
  rw [activateDependencies]
  simp only [← mem_targetsOf, targetsOf]
  generalize (c.edgesOf s).map (·.target) = targets
  induction targets generalizing c with
  | nil => simp
  | cons target targets ih =>
    simp only [foldl_cons, ih, statusOf_wake]
    by_cases dormant : c.statusOf a = some .dormant
    · by_cases here : a = target
      · subst here
        simp [dormant]
      · simp [here]
    · simp [dormant]

def checkPassed (c : GraphExecutionContext) (service : String) : GraphExecutionContext :=
  activateDependencies (c.setStatus service .waitingForDependencies) service

theorem statusOf_checkPassed (got : c.members[s]? = some m) : (c.checkPassed s).statusOf a =
    if a = s then some .waitingForDependencies
    else if c.Edge s a ∧ c.statusOf a = some .dormant then some .waitingForPreStartCheck
    else c.statusOf a := by
  have edges : (c.setStatus s .waitingForDependencies).Edge s a ↔ c.Edge s a := sameShape_setStatus.edge
  rw [checkPassed, statusOf_activateDependencies]
  simp only [edges, statusOf_setStatus]
  by_cases here : a = s
  · subst here
    rw [statusOf_of_get got]
    simp
  · simp [here]

theorem dormant_of_checkPassed (got : c.members[s]? = some m)
    (dormant : (c.checkPassed s).statusOf a = some .dormant) :
    c.statusOf a = some .dormant ∧ ¬ c.Edge s a := by
  rw [statusOf_checkPassed got] at dormant
  by_cases here : a = s
  · simp [here] at dormant
  · by_cases woken : c.Edge s a ∧ c.statusOf a = some .dormant
    · simp [here, woken] at dormant
    · rw [if_neg here, if_neg woken] at dormant
      exact ⟨dormant, fun edge => woken ⟨edge, dormant⟩⟩

theorem waiting_of_checkPassed (got : c.members[s]? = some m)
    (waiting : (c.checkPassed s).statusOf a = some .waitingForDependencies) :
    a = s ∨ c.statusOf a = some .waitingForDependencies := by
  rw [statusOf_checkPassed got] at waiting
  by_cases here : a = s
  · exact .inl here
  · by_cases woken : c.Edge s a ∧ c.statusOf a = some .dormant
    · simp [here, woken] at waiting
    · rw [if_neg here, if_neg woken] at waiting
      exact .inr waiting

theorem terminal_of_checkPassed (got : c.members[s]? = some m)
    (ended : status.isTerminal = true) (known : (c.checkPassed s).statusOf a = some status) :
    c.statusOf a = some status := by
  rw [statusOf_checkPassed got] at known
  split_ifs at known
  · cases known
    cases ended
  · cases known
    cases ended
  · exact known

theorem markPreStartCheckPassed_cases (wf : WellFormed c) {changed : Bool}
    (run : (markPreStartCheckPassed operationId).run c = (.ok changed, t)) :
    ∃ m, c.memberForOperation operationId = some m ∧ c.members[m.service]? = some m ∧
      m.status.isTerminal = false ∧
      (m.status = .waitingForDependencies ∧ t = c ∨
        m.status ≠ .waitingForDependencies ∧ t = c.checkPassed m.service) := by
  rcases named : c.memberForOperation operationId with _ | m
  · rw [markPreStartCheckPassed, requireMemberForOperation, run_bind, run_fetch_bind, named] at run
    cases run
  · have got := (get_of_memberForOperation wf named).1
    refine ⟨m, rfl, got, ?_⟩
    rw [markPreStartCheckPassed, run_bind_of_ok (run_requireMemberForOperation named),
      run_bind_of_ok (run_requireMember got), run_fetch_bind] at run
    split_ifs at run with terminal waiting
    · cases run
    · cases run
      exact ⟨by simpa using terminal, .inl ⟨waiting, rfl⟩⟩
    · cases run
      refine ⟨by simpa using terminal, .inr ⟨waiting, ?_⟩⟩
      rw [checkPassed, setStatus_of_get got]

/-! ## Holds for a restart -/

theorem applyContextAwaitingRestart_cases (wf : WellFormed c)
    (run : (applyContextAwaitingRestart operationId).run c = (.ok (), t)) :
    ∃ m, c.memberForOperation operationId = some m ∧ c.members[m.service]? = some m ∧
      m.status.isTerminal = false ∧ ∀ a, t.statusOf a =
        (c.setStatus m.service .awaitingRestart).statusOf a := by
  rcases named : c.memberForOperation operationId with _ | m
  · rw [applyContextAwaitingRestart, requireMemberForOperation, run_bind, run_fetch_bind, named] at run
    cases run
  · have got := (get_of_memberForOperation wf named).1
    refine ⟨m, rfl, got, ?_⟩
    rw [applyContextAwaitingRestart, run_bind_of_ok (run_requireMemberForOperation named)] at run
    by_cases terminal : m.status.isTerminal = true
    · have refused : (markAwaitingRestart m.service).run c =
          (.error (.memberAlreadyTerminal c.id m.service m.status), c) := by
        rw [markAwaitingRestart, run_bind_of_ok (run_requireMember got), run_fetch_bind, if_pos terminal]
        rfl
      rw [run_bind_of_error refused] at run
      cases run
    · have marked : (markAwaitingRestart m.service).run c = (.ok (), c.write m.service
          { m with status := .awaitingRestart, heldWithoutClock := false }) := by
        rw [markAwaitingRestart, run_bind_of_ok (run_requireMember got), run_fetch_bind, if_neg terminal]
        rfl
      rw [run_bind_of_ok marked] at run
      cases run
      refine ⟨by simpa using terminal, fun a => ?_⟩
      rw [statusOf_noteHoldsWithoutClock, statusOf_write, setStatus_of_get got, statusOf_write]

/-! ## Release -/

/-- Whether an edge is settled, where its target can be looked up. -/
def edgeSettled (c : GraphExecutionContext) (probe : String → String → LevelProbe)
    (e : GraphDependency) : Bool :=
  match e.level with
  | none => (c.statusOf e.target).any fun status =>
      if e.kind.isHard then status = .satisfied else status.isTerminal
  | some level =>
    if e.kind.isHard then
      (c.statusOf e.target).all (· = .satisfied) && probe e.target level = .satisfied
    else (c.statusOf e.target).all (·.isTerminal) && probe e.target level ≠ .notYetPublished

def nextAction (c : GraphExecutionContext) (probe : String → String → LevelProbe)
    (m : GraphMember) : Option ReadyGraphOperationAction :=
  match m.status with
  | .waitingForPreStartCheck => some .preStartCheck
  | .waitingForDependencies =>
    if (c.edgesOf m.service).all (c.edgeSettled probe) then some .start else none
  | _ => none

variable {probe : String → String → LevelProbe} {limit : ℕ}

theorem dependencySettled_eq (wf : WellFormed c) {e : GraphDependency}
    (mem : e ∈ c.dependencies) : dependencySettled c e probe = .ok (c.edgeSettled probe e) := by
  rw [dependencySettled, edgeSettled]
  rcases plain : e.level with _ | level
  · obtain ⟨target, got⟩ := wf.target e mem plain
    rw [statusOf, got]
    by_cases hard : e.kind.isHard = true <;> simp [hard]
  · rw [statusOf]
    rcases c.members[e.target]? with _ | target <;> by_cases hard : e.kind.isHard = true <;>
      simp [hard]

theorem dependenciesSettled_eq (wf : WellFormed c) :
    dependenciesSettled c s probe = .ok ((c.edgesOf s).all (c.edgeSettled probe)) := by
  have mem : ∀ e ∈ c.edgesOf s, e ∈ c.dependencies := fun e h => (mem_filter.mp h).1
  rw [dependenciesSettled]
  generalize c.edgesOf s = edges at mem
  suffices loop : ∀ settled : Bool, edges.foldlM (fun settled e =>
      if settled then dependencySettled c e probe else .ok false) settled =
        (.ok (settled && edges.all (c.edgeSettled probe)) : Except GraphExecutionError Bool) from
    loop true
  induction edges with
  | nil =>
    intro settled
    rw [all_nil, Bool.and_true]
    rfl
  | cons e edges ih =>
    intro settled
    have rest := ih fun e h => mem e (mem_cons_of_mem _ h)
    rw [foldlM_cons]
    cases settled
    · exact rest false
    · rw [dependencySettled_eq wf (mem e (by simp))]
      exact rest _

theorem readyAction_eq (wf : WellFormed c) (m : GraphMember) :
    readyAction c m probe = .ok (c.nextAction probe m) := by
  rw [readyAction, nextAction]
  cases m.status <;> try rfl
  rw [dependenciesSettled_eq wf]
  rfl

/-- The members that can go on, with their place in the plan. -/
def readyEntries (c : GraphExecutionContext) (probe : String → String → LevelProbe) :
    List (ℕ × String × ReadyGraphOperationAction) :=
  c.members.values.filterMap fun m =>
    (c.nextAction probe m).map fun action => (m.sequence, m.service, action)

theorem readyMembers_eq (wf : WellFormed c) (limit : ℕ) : readyMembers c limit probe =
    .ok ((((c.readyEntries probe).insertionSort (fun a b => a.1 ≤ b.1)).take limit).map (·.2)) := by
  rw [readyMembers]
  split_ifs with none
  · rw [none, take_zero, map_nil]
  · have got : ∀ members : List GraphMember, members.mapM (fun m => do
        let action ← readyAction c m probe
        return action.map fun action => (m.sequence, m.service, action)) =
          (.ok (members.map fun m => (c.nextAction probe m).map fun action =>
            (m.sequence, m.service, action)) : Except GraphExecutionError _) := by
      intro members
      induction members with
      | nil => rfl
      | cons m members ih =>
        rw [mapM_cons, ih, readyAction_eq wf]
        rfl
    have flat : (c.members.values.map fun m => (c.nextAction probe m).map fun action =>
        (m.sequence, m.service, action)).filterMap (fun entry => entry) = c.readyEntries probe := by
      rw [filterMap_map]
      rfl
    rw [got, ← flat]
    rfl

theorem mem_readyEntries {n : ℕ} : (n, s, action) ∈ c.readyEntries probe ↔ ∃ m ∈ c.members.values,
      c.nextAction probe m = some action ∧ m.sequence = n ∧ m.service = s := by
  rw [readyEntries, mem_filterMap]
  constructor
  · rintro ⟨m, mem, entry⟩
    obtain ⟨action', next, same⟩ := Option.map_eq_some_iff.mp entry
    cases same
    exact ⟨m, mem, next, rfl, rfl⟩
  · rintro ⟨m, mem, next, rfl, rfl⟩
    exact ⟨m, mem, by rw [next, Option.map_some]⟩

/-- A released member was waiting for its check, or for dependencies that are settled. -/
theorem mem_readyMembers (wf : WellFormed c)
    (run : readyMembers c limit probe = .ok ready) (mem : (s, action) ∈ ready) :
    ∃ m, c.members[s]? = some m ∧ c.nextAction probe m = some action := by
  rw [readyMembers_eq wf] at run
  cases run
  obtain ⟨⟨n, entry⟩, taken, rfl⟩ := mem_map.mp mem
  have sorted := mem_of_mem_take taken
  rw [mem_insertionSort] at sorted
  obtain ⟨m, known, next, -, rfl⟩ := mem_readyEntries.mp sorted
  obtain ⟨key, got⟩ := (OrdMap.mem_values _ _).mp known
  rw [wf.keyed key m got]
  exact ⟨m, got, next⟩

theorem map_service_values (wf : WellFormed c) : c.members.values.map (·.service) = c.members.keys := by
  rw [OrdMap.values, ← Std.ExtTreeMap.map_fst_toList_eq_keys, map_map]
  refine map_congr_left fun entry mem => ?_
  exact wf.keyed entry.1 entry.2 ((OrdMap.mem_toList _ _ _).mp mem)

theorem map_filterMap_sublist {α β γ : Type} {f : α → Option β} {g : β → γ} {h : α → γ}
    (names : ∀ a b, f a = some b → g b = h a) (l : List α) :
    ((l.filterMap f).map g).Sublist (l.map h) := by
  induction l with
  | nil => exact .slnil
  | cons a l ih =>
    rw [filterMap_cons]
    rcases picked : f a with _ | b
    · exact ih.cons _
    · rw [map_cons, names a b picked]
      exact ih.cons_cons _

theorem nodup_readyMembers (wf : WellFormed c)
    (run : readyMembers c limit probe = .ok ready) : (ready.map (·.1)).Nodup := by
  rw [readyMembers_eq wf] at run
  cases run
  have entries : ((c.readyEntries probe).map (·.2.1)).Nodup := by
    refine List.Nodup.sublist (map_filterMap_sublist (h := (·.service)) ?_ c.members.values) ?_
    · intro m entry picked
      obtain ⟨action, -, rfl⟩ := Option.map_eq_some_iff.mp picked
      rfl
    · rw [map_service_values wf]
      exact OrdMap.nodup_keys _
  have sorted : (((c.readyEntries probe).insertionSort (fun a b => a.1 ≤ b.1)).map (·.2.1)).Nodup :=
    ((perm_insertionSort _ _).map _).nodup_iff.mpr entries
  rw [map_map]
  exact sorted.sublist ((take_sublist _ _).map _)

theorem readyMembers_ne_nil (wf : WellFormed c)
    (got : c.members[s]? = some m) (next : c.nextAction probe m = some action) (free : limit ≠ 0)
    (run : readyMembers c limit probe = .ok ready) : ready ≠ [] := by
  rw [readyMembers_eq wf] at run
  cases run
  have entry : (m.sequence, m.service, action) ∈ c.readyEntries probe :=
    mem_readyEntries.mpr ⟨m, (OrdMap.mem_values _ _).mpr ⟨s, got⟩, next, rfl, rfl⟩
  rw [← mem_insertionSort (fun a b => a.1 ≤ b.1)] at entry
  intro empty
  rw [map_eq_nil_iff, take_eq_nil_iff] at empty
  rcases empty with none | none
  · exact free none
  · rw [none] at entry
    cases entry

theorem run_markRunning (got : c.members[s]? = some m) :
    (markRunning s).run c = (.ok [], c.setStatus s .running) := by
  rw [markRunning, run_bind_of_ok (run_requireMember got), setStatus_of_get got]
  rfl

theorem run_forEach_markRunning (ready : List (String × ReadyGraphOperationAction))
    (known : ∀ entry ∈ ready, ∃ m, c.members[entry.1]? = some m) :
    (forEach (fun entry => markRunning entry.1) ready).run c =
      (.ok [], c.mark .running (ready.map (·.1))) := by
  induction ready generalizing c with
  | nil => rfl
  | cons entry ready ih =>
    obtain ⟨m, got⟩ := known entry (by simp)
    have shape : SameShape c (c.setStatus entry.1 .running) := sameShape_setStatus
    have later : ∀ other ∈ ready, ∃ m, (c.setStatus entry.1 .running).members[other.1]? = some m := by
      intro other mem
      obtain ⟨m, got⟩ := known other (mem_cons_of_mem _ mem)
      obtain ⟨m', found', -⟩ := shape.get got
      exact ⟨m', found'⟩
    rw [forEach, run_bind_of_ok (run_markRunning got), run_bind_of_ok (ih later)]
    rfl

/-- What is reported for a released member. -/
def readyOf (c : GraphExecutionContext) (entry : String × ReadyGraphOperationAction)
    (operation : ReadyGraphOperation) : Prop :=
  operation.contextId = c.id ∧ operation.service = entry.1 ∧ operation.action = entry.2 ∧
    ∃ m, c.members[entry.1]? = some m ∧ operation.operationId = m.operationId

theorem run_forEach_readyOperation (ready : List (String × ReadyGraphOperationAction))
    (known : ∀ entry ∈ ready, ∃ m, c.members[entry.1]? = some m) :
    ∃ operations, (forEach (readyOperation c.id) ready).run c = (.ok operations, c) ∧
      List.Forall₂ c.readyOf ready operations := by
  induction ready with
  | nil => exact ⟨[], rfl, .nil⟩
  | cons entry ready ih =>
    obtain ⟨m, got⟩ := known entry (by simp)
    obtain ⟨operations, run, reported⟩ := ih fun other mem =>
      known other (mem_cons_of_mem _ mem)
    obtain ⟨operation, first, is⟩ : ∃ operation,
        (readyOperation c.id entry).run c = (.ok [operation], c) ∧ c.readyOf entry operation := by
      rw [readyOperation, run_bind_of_ok (run_requireMember got)]
      exact ⟨_, rfl, rfl, rfl, rfl, m, got, rfl⟩
    refine ⟨operation :: operations, ?_, .cons is reported⟩
    rw [forEach, run_bind_of_ok first, run_bind_of_ok run]
    rfl

theorem run_releaseContext (wf : WellFormed c) (slots : ℕ)
    (probe : String → String → LevelProbe) : ∃ ready operations t,
      readyMembers c (availableSlots c slots) probe = .ok ready ∧
      (releaseContext slots probe).run c = (.ok operations, t) ∧
      List.Forall₂ c.readyOf ready operations ∧
      ∀ a, t.statusOf a = (c.mark .running (ready.map (·.1))).statusOf a := by
  obtain ⟨ready, got⟩ : ∃ ready,
      readyMembers c (availableSlots c slots) probe = .ok ready :=
    ⟨_, readyMembers_eq wf _⟩
  have known : ∀ entry ∈ ready, ∃ m, c.members[entry.1]? = some m := by
    intro entry mem
    obtain ⟨m, known, -⟩ := mem_readyMembers wf got mem
    exact ⟨m, known⟩
  have shape : SameShape c (c.mark .running (ready.map (·.1))) := sameShape_mark
  obtain ⟨operations, run, reported⟩ := run_forEach_readyOperation
    (c := c.mark .running (ready.map (·.1))) ready fun entry mem => by
      obtain ⟨m, got⟩ := known entry mem
      obtain ⟨m', found', -⟩ := shape.get got
      exact ⟨m', found'⟩
  refine ⟨ready, operations, (c.mark .running (ready.map (·.1))).noteHoldsWithoutClock, got, ?_, ?_,
    fun a => statusOf_noteHoldsWithoutClock⟩
  · have readyRun : (ofExcept (readyMembers c (availableSlots c slots) probe) :
        ContextMutator _).run c = (.ok ready, c) := by rw [got, run_ofExcept]
    rw [shape.id] at run
    rw [releaseContext, run_fetch_bind, run_bind_of_ok readyRun,
      run_bind_of_ok (run_forEach_markRunning ready known), run_bind_of_ok run]
    rfl
  · refine reported.imp fun entry operation ⟨id, svc, action, m', found', op⟩ => ?_
    obtain ⟨m, before, fixed⟩ := shape.symm.get found'
    exact ⟨id.trans shape.id, svc, action, m, before, op.trans (GraphMember.operationId_eq fixed).symm⟩

end GraphExecutionContext

end Peinit
