import Peinit.Graph.Build
import Peinit.Graph.Shape

/-!
# What a context looks like when it is built

Members are filed under their own name, edges lead from members to members unless they carry a level, and a
dormant member has a dependent.
-/

namespace Peinit

open Std.ExtTreeMap

variable {c : GraphExecutionContext} {members members' : GraphMembers} {member m : GraphMember}
  {p : GraphMember → Prop} {plan : Phase2BootPlan} {dispatch : OnDemandStartDispatch}
  {svcs : ServiceTable} {dependencies : List GraphDependency} {e other : GraphDependency}
  {defn : String → Option ServiceDefinition} {id : GraphContextId} {s : String}

/-- Members are filed under their name; edges start at a member and, without a level, end at one. -/
structure WellFormed (c : GraphExecutionContext) : Prop where
  keyed : ∀ (s : String) (m : GraphMember), c.members[s]? = some m → m.service = s
  dependent : ∀ e ∈ c.dependencies, ∃ m, c.members[e.dependent]? = some m
  target : ∀ e ∈ c.dependencies, e.level = none → ∃ m, c.members[e.target]? = some m

theorem WellFormed.of_sameShape {c' : GraphExecutionContext} (wf : WellFormed c)
    (same : SameShape c c') : WellFormed c' := by
  refine ⟨fun s m' got => ?_, fun e mem => ?_, fun e mem plain => ?_⟩
  · obtain ⟨m, before, fixed⟩ := same.symm.get got
    rw [← GraphMember.service_eq fixed, wf.keyed s m before]
  · rw [same.dependencies] at mem
    obtain ⟨m, got⟩ := wf.dependent e mem
    obtain ⟨m', found', _⟩ := same.get got
    exact ⟨m', found'⟩
  · rw [same.dependencies] at mem
    obtain ⟨m, got⟩ := wf.target e mem plain
    obtain ⟨m', found', _⟩ := same.get got
    exact ⟨m', found'⟩

/-! ## Members -/

theorem insertMember_cases (inserted : insertMember members member = .ok members') :
    members[member.service]? = none ∧ members' = members.insert member.service member := by
  unfold insertMember at inserted
  split_ifs at inserted with known
  cases inserted
  rw [Bool.not_eq_true] at known
  exact ⟨getElem?_eq_none_of_contains_eq_false known, rfl⟩

/-- Every member is filed under its name and satisfies `p`. -/
def MembersAre (p : GraphMember → Prop) (members : GraphMembers) : Prop :=
  ∀ (s : String) (m : GraphMember), members[s]? = some m → m.service = s ∧ p m

theorem MembersAre.insertMember (before : MembersAre p members) (new : p member)
    (inserted : insertMember members member = .ok members') : MembersAre p members' := by
  obtain ⟨-, rfl⟩ := insertMember_cases inserted
  intro s m got
  rw [OrdMap.get_insert] at got
  split_ifs at got with here
  · cases got
    exact ⟨here, new⟩
  · exact before s m got

theorem membersAre_empty : MembersAre p ∅ := by
  intro s m got
  simp at got

theorem bootMembers_are (built : bootMembers plan = .ok members) :
    MembersAre (fun m => (∃ start ∈ plan.starts, ∃ sequence, m = startMember start sequence) ∨
      ∃ blocked ∈ plan.blocked, ∃ sequence, m = blockedMember blocked sequence) members := by
  obtain ⟨starts, first, rest⟩ := bind_eq_ok.mp built
  refine foldlM_invariant _ ?_ (foldlM_invariant _ ?_ membersAre_empty first) rest
  · rintro ⟨blocked, offset⟩ mem before after are inserted
    exact are.insertMember (.inr ⟨blocked, List.fst_mem_of_mem_zipIdx mem, _, rfl⟩) inserted
  · rintro ⟨start, sequence⟩ mem before after are inserted
    exact are.insertMember (.inl ⟨start, List.fst_mem_of_mem_zipIdx mem, _, rfl⟩) inserted

theorem foldlM_insertMember {β : Type} {f : β → GraphMember} {items : List β} {after : GraphMembers}
    (run : items.foldlM (fun members item => insertMember members (f item)) members = .ok after) :
    (∀ (s : String) (m : GraphMember), members[s]? = some m → after[s]? = some m) ∧
      ∀ item ∈ items, after[(f item).service]? = some (f item) := by
  induction items generalizing members with
  | nil =>
    cases run
    exact ⟨fun s m got => got, fun item mem => absurd mem List.not_mem_nil⟩
  | cons first items ih =>
    obtain ⟨between, inserted, rest⟩ := bind_eq_ok.mp run
    obtain ⟨fresh, rfl⟩ := insertMember_cases inserted
    obtain ⟨kept, filed⟩ := ih rest
    refine ⟨fun s m got => kept s m ?_, fun item mem => ?_⟩
    · have other : (f first).service ≠ s := by
        intro same
        rw [same, got] at fresh
        cases fresh
      rw [OrdMap.get_insert, if_neg other, got]
    · rcases List.mem_cons.mp mem with rfl | later
      · exact kept _ _ (by rw [OrdMap.get_insert, if_pos rfl])
      · exact filed item later

theorem bootMembers_start
    (built : bootMembers plan = .ok members) {start : PreparedStart} (mem : start ∈ plan.starts) :
    ∃ sequence, members[start.service]? = some (startMember start sequence) := by
  obtain ⟨starts, first, rest⟩ := bind_eq_ok.mp built
  have filed := (foldlM_insertMember
    (f := fun item : PreparedStart × ℕ => startMember item.1 item.2) first).2
  have kept := (foldlM_insertMember (f := fun item : BlockedService × ℕ =>
    blockedMember item.1 (plan.starts.length + item.2)) rest).1
  obtain ⟨sequence, idx⟩ := List.mem_iff_getElem?.mp mem
  exact ⟨sequence, kept _ _ (filed (start, sequence) (List.mk_mem_zipIdx_iff_getElem?.mpr idx))⟩

theorem plannedMembers_are (built : plannedMembers dispatch svcs = .ok members) :
    MembersAre (fun m => ∃ start ∈ dispatch.plan.starts, ∃ sequence outcome,
      outcome ∈ dispatch.requestedOperation :: dispatch.dependencyOperations ∧
        m = plannedMember dispatch svcs start sequence outcome) members := by
  obtain ⟨⟨filled, left⟩, loop, done⟩ := bind_eq_ok.mp built
  cases done
  have inv := foldlM_invariant (b := ((∅ : GraphMembers), dispatch.dependencyOperations))
    (fun state : GraphMembers × List OperationRequestOutcome =>
      MembersAre (fun m => ∃ start ∈ dispatch.plan.starts, ∃ sequence outcome,
        outcome ∈ dispatch.requestedOperation :: dispatch.dependencyOperations ∧
          m = plannedMember dispatch svcs start sequence outcome) state.1 ∧
      state.2 ⊆ dispatch.dependencyOperations) ?_ ⟨membersAre_empty, fun _ h => h⟩ loop
  · exact inv.1
  · rintro ⟨start, sequence⟩ mem ⟨before, outcomes⟩ ⟨after, outcomes'⟩ ⟨are, remaining⟩ round
    obtain ⟨⟨outcome, rest⟩, chosen, round⟩ := bind_eq_ok.mp round
    obtain ⟨inserted, added, last⟩ := bind_eq_ok.mp round
    cases last
    have from_ : outcome ∈ dispatch.requestedOperation :: dispatch.dependencyOperations ∧
        outcomes' ⊆ dispatch.dependencyOperations := by
      unfold startOutcome at chosen
      split_ifs at chosen with requested
      · cases chosen
        exact ⟨by simp, remaining⟩
      · rcases outcomes with _ | ⟨head, tail⟩
        · cases chosen
        · cases chosen
          exact ⟨List.mem_cons_of_mem _ (remaining (by simp)), fun _ h =>
            remaining (List.mem_cons_of_mem _ h)⟩
    exact ⟨are.insertMember ⟨start, List.fst_mem_of_mem_zipIdx mem, sequence, outcome, from_.1,
      rfl⟩ added, from_.2⟩

/-- A member made from one of the planned starts. -/
def IsPlanned (dispatch : OnDemandStartDispatch) (services : ServiceTable) (m : GraphMember) :
    Prop :=
  ∃ start ∈ dispatch.plan.starts, ∃ sequence outcome,
    outcome ∈ dispatch.requestedOperation :: dispatch.dependencyOperations ∧
      m = plannedMember dispatch services start sequence outcome

theorem onDemandMembers_are (built : onDemandMembers dispatch svcs = .ok members) :
    plannedMembers dispatch svcs = .ok members ∨
      MembersAre (· = blockedRequestedMember dispatch) members := by
  obtain ⟨planned, first, rest⟩ := bind_eq_ok.mp built
  split_ifs at rest with none
  · right
    rw [Std.ExtTreeMap.isEmpty_iff] at none
    rw [none] at rest
    exact membersAre_empty.insertMember rfl rest
  · cases rest
    exact .inl first

/-! ## Edges -/

theorem mem_pushNew : other ∈ pushNew dependencies e ↔ other ∈ dependencies ∨ other = e := by
  unfold pushNew
  split_ifs with known
  · exact ⟨.inl, fun h => h.elim id (· ▸ known)⟩
  · simp

theorem mem_foldl_pushNew (added : List GraphDependency) :
    ∀ dependencies, other ∈ added.foldl pushNew dependencies ↔ other ∈ dependencies ∨ other ∈ added := by
  induction added with
  | nil => simp
  | cons e added ih =>
    intro dependencies
    rw [List.foldl_cons, ih, mem_pushNew, List.mem_cons, or_assoc]

/-- The service `d` declares a dependency on `t`. -/
def Declares (definition : String → Option ServiceDefinition) (d t : String) : Prop :=
  ∃ declaring ∈ definition d, ∃ dependency ∈ allDeclaredDependencies declaring, dependency.target = t

instance {definition : String → Option ServiceDefinition} {d t : String} :
    Decidable (Declares definition d t) :=
  inferInstanceAs (Decidable (∃ declaring ∈ definition d,
    ∃ dependency ∈ allDeclaredDependencies declaring, dependency.target = t))

/-- The edges of a new context are those its members declare, without those that leave it. -/
def EdgesDeclared (members : GraphMembers) (definition : String → Option ServiceDefinition)
    (dependencies : List GraphDependency) : Prop :=
  ∀ e, e ∈ dependencies ↔ e.dependent ∈ members.keys ∧ ∃ declaring ∈ definition e.dependent,
    ∃ dependency ∈ allDeclaredDependencies declaring, declaredEdge members e.dependent dependency = some e

theorem declaredEdge_cases {svc : String} {declared : ServiceDependency}
    (edge : declaredEdge members svc declared = some e) :
    e.dependent = svc ∧ e.target = declared.target ∧
      (e.level = none → ∃ m, members[e.target]? = some m) := by
  unfold declaredEdge at edge
  split_ifs at edge with leaves
  cases edge
  refine ⟨rfl, rfl, fun plain => ?_⟩
  dsimp only at plain ⊢
  rw [plain, Option.isNone_none, Bool.and_true, Bool.not_eq_true', Bool.not_eq_false,
    ← isSome_getElem?_eq_contains] at leaves
  exact Option.isSome_iff_exists.mp leaves

theorem contextDependencies_declared (built : contextDependencies members defn = .ok dependencies) :
    EdgesDeclared members defn dependencies := by
  -- The loop over the services adds the edges of each to those of the services before it.
  suffices loop : ∀ (svcs : List String) (before after : List GraphDependency),
      svcs.foldlM (fun dependencies svc =>
        (defn svc).elim (.error (.missingServiceDefinition svc)) fun defn =>
          .ok (((allDeclaredDependencies defn).filterMap (declaredEdge members svc)).foldl
            pushNew dependencies)) before =
          (.ok after : Except GraphContextBuildError (List GraphDependency)) →
      ∀ e, e ∈ after ↔ e ∈ before ∨ e.dependent ∈ svcs ∧
        ∃ declaring ∈ defn e.dependent, ∃ dep ∈ allDeclaredDependencies declaring,
          declaredEdge members e.dependent dep = some e by
    intro e
    rw [loop members.keys [] dependencies ?_ e]
    · simp
    · rw [← built, contextDependencies]
      congr
      funext _ svc
      cases defn svc <;> rfl
  intro svcs
  induction svcs with
  | nil =>
    intro before after run e
    cases run
    simp
  | cons svc svcs ih =>
    intro before after run e
    obtain ⟨between, first, rest⟩ := bind_eq_ok.mp run
    rcases known : defn svc with _ | declaring
    · simp only [known] at first
      cases first
    · simp only [known] at first
      cases first
      rw [ih _ _ rest e, mem_foldl_pushNew, List.mem_filterMap, List.mem_cons]
      have own : (∃ dep ∈ allDeclaredDependencies declaring,
            declaredEdge members svc dep = some e) ↔ e.dependent = svc ∧
          ∃ declaring ∈ defn e.dependent, ∃ dep ∈ allDeclaredDependencies declaring,
            declaredEdge members e.dependent dep = some e := by
        constructor
        · rintro ⟨dep, mem, edge⟩
          obtain ⟨rfl, -, -⟩ := declaredEdge_cases edge
          exact ⟨rfl, declaring, known, dep, mem, edge⟩
        · rintro ⟨rfl, declaring', known', rest⟩
          rw [known] at known'
          cases known'
          exact rest
      rw [own, or_and_right, or_assoc]

theorem EdgesDeclared.edge_iff
    (declared : EdgesDeclared members defn dependencies) {d t : String} {m : GraphMember}
    (member : members[t]? = some m) :
    (∃ e ∈ dependencies, e.dependent = d ∧ e.target = t) ↔
      (∃ m, members[d]? = some m) ∧ Declares defn d t := by
  constructor
  · rintro ⟨e, mem, rfl, rfl⟩
    obtain ⟨key, declaring, known, dep, among, edge⟩ := (declared e).mp mem
    exact ⟨(OrdMap.mem_keys _ _).mp key, declaring, known, dep, among, (declaredEdge_cases edge).2.1.symm⟩
  · rintro ⟨key, declaring, known, dep, among, rfl⟩
    have contained : members.contains dep.target = true := by
      rw [← isSome_getElem?_eq_contains, member, Option.isSome_some]
    refine ⟨⟨d, dep.target, dep.level, dep.kind⟩, (declared _).mpr ⟨?_, ?_⟩,
      rfl, rfl⟩
    · exact (OrdMap.mem_keys _ _).mpr key
    · exact ⟨declaring, known, dep, among, by simp [declaredEdge, contained]⟩

/-! ## Roots -/

section Roots

theorem get_activateRoots (members : GraphMembers) (dependencies : List GraphDependency)
    (s : String) : (activateRoots members dependencies)[s]? = (members[s]?).map fun member =>
      if member.status = .dormant ∧ member.service ∉ dependencies.map (·.target) then
        { member with status := .waitingForPreStartCheck }
      else member := by
  rw [activateRoots, getElem?_map]

theorem activateRoots_cases (got : (activateRoots members dependencies)[s]? = some m) :
    ∃ before, members[s]? = some before ∧ m.fixed = before.fixed ∧
      (m = before ∧ (m.status = .dormant → ∃ e ∈ dependencies, e.target = m.service) ∨
        before.status = .dormant ∧ m.status = .waitingForPreStartCheck ∧
          ∀ e ∈ dependencies, e.target ≠ m.service) := by
  rw [get_activateRoots] at got
  obtain ⟨before, known, rfl⟩ := Option.map_eq_some_iff.mp got
  refine ⟨before, known, ?_⟩
  split_ifs with root
  · refine ⟨rfl, .inr ⟨root.1, rfl, fun e mem same => root.2 ?_⟩⟩
    exact List.mem_map.mpr ⟨e, mem, same⟩
  · refine ⟨rfl, .inl ⟨rfl, fun dormant => ?_⟩⟩
    by_contra none
    push Not at none
    refine root ⟨dormant, fun target => ?_⟩
    obtain ⟨e, mem, same⟩ := List.mem_map.mp target
    exact none e mem same

end Roots

/-! ## The new context -/

/-- A context just built from `members`, all of which are `p`. -/
structure BuiltFrom (p : GraphMember → Prop) (definition : String → Option ServiceDefinition)
    (c : GraphExecutionContext) (members : GraphMembers) : Prop where
  are : MembersAre p members
  declared : EdgesDeclared members definition c.dependencies
  roots : c.members = activateRoots members c.dependencies

theorem bootContext_builtFrom {defs : List ServiceDefinition}
    (built : bootContext id plan defs = .ok c) : c.id = id ∧ ∃ members,
      bootMembers plan = .ok members ∧
      BuiltFrom (fun m => (∃ start ∈ plan.starts, ∃ sequence, m = startMember start sequence) ∨
          ∃ blocked ∈ plan.blocked, ∃ sequence, m = blockedMember blocked sequence)
        (fun svc => (definitionsByName defs)[svc]?) c members := by
  obtain ⟨members, first, rest⟩ := bind_eq_ok.mp built
  obtain ⟨dependencies, second, last⟩ := bind_eq_ok.mp rest
  cases last
  exact ⟨rfl, members, first, bootMembers_are first, contextDependencies_declared second, rfl⟩

theorem onDemandContext_builtFrom
    (built : onDemandContext id dispatch svcs = .ok c) : c.id = id ∧ ∃ members,
      (plannedMembers dispatch svcs = .ok members ∧
        BuiltFrom (IsPlanned dispatch svcs) svcs.definition c members) ∨
      BuiltFrom (· = blockedRequestedMember dispatch) svcs.definition c members := by
  obtain ⟨members, first, rest⟩ := bind_eq_ok.mp built
  obtain ⟨dependencies, second, last⟩ := bind_eq_ok.mp rest
  cases last
  refine ⟨rfl, members, (onDemandMembers_are first).imp (fun planned => ?_) fun are => ?_⟩
  · exact ⟨planned, plannedMembers_are planned, contextDependencies_declared second, rfl⟩
  · exact ⟨are, contextDependencies_declared second, rfl⟩

section BuiltFrom

theorem BuiltFrom.get (built : BuiltFrom p defn c members) (got : members[s]? = some m) :
    ∃ m', c.members[s]? = some m' ∧ m'.fixed = m.fixed ∧
      (m' = m ∨ m.status = .dormant ∧ m'.status = .waitingForPreStartCheck) := by
  rw [built.roots, get_activateRoots, got]
  refine ⟨_, rfl, ?_⟩
  dsimp only
  split_ifs with root
  · exact ⟨rfl, .inr ⟨root.1, rfl⟩⟩
  · exact ⟨rfl, .inl rfl⟩

theorem BuiltFrom.wellFormed (built : BuiltFrom p defn c members) : WellFormed c := by
  refine ⟨fun s m got => ?_, fun e mem => ?_, fun e mem plain => ?_⟩
  · rw [built.roots] at got
    obtain ⟨before, known, fixed, -⟩ := activateRoots_cases got
    rw [GraphMember.service_eq fixed, (built.are s before known).1]
  · obtain ⟨m, got⟩ := (OrdMap.mem_keys _ _).mp ((built.declared e).mp mem).1
    obtain ⟨m', found', -⟩ := built.get got
    exact ⟨m', found'⟩
  · obtain ⟨-, declaring, -, dep, -, edge⟩ := (built.declared e).mp mem
    obtain ⟨m, got⟩ := (declaredEdge_cases edge).2.2 plain
    obtain ⟨m', found', -⟩ := built.get got
    exact ⟨m', found'⟩

end BuiltFrom

end Peinit
