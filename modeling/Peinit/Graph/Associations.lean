import Peinit.Graph.Calls
import Peinit.Graph.Steps

/-!
# Operations and the contexts they belong to

The store finds the contexts of an operation through its associations. `Associated` rules a dangling
one out for every store that calls can lead to.
-/

namespace Peinit

open Fallible GraphExecutionStore SameShape

variable {s t : GraphExecutionStore} {operationId : OperationId} {contextId : GraphContextId}
  {c : GraphExecutionContext} {associations : OrdMap OperationId (OrdSet GraphContextId)}
  {retired : List GraphContextId} {α : Type}

/-- Some member of the context is started by `operationId`. -/
def HasOperation (c : GraphExecutionContext) (operationId : OperationId) : Prop :=
  ∃ (service : String) (m : GraphMember), c.members[service]? = some m ∧ m.operationId = operationId

/-- The associations list `contextId` for `operationId`. -/
def Associates (associations : OrdMap OperationId (OrdSet GraphContextId))
    (operationId : OperationId) (contextId : GraphContextId) : Prop :=
  ∃ contexts, associations[operationId]? = some contexts ∧ contextId ∈ contexts

/-- What the store knows about operations is what its contexts say. -/
structure Associated (s : GraphExecutionStore) : Prop where
  exact : ∀ (operationId : OperationId) (contextId : GraphContextId),
    Associates s.associations operationId contextId ↔
      ∃ c, s.contexts[contextId]? = some c ∧ HasOperation c operationId
  inhabited : ∀ (operationId : OperationId) (contexts : OrdSet GraphContextId),
    s.associations[operationId]? = some contexts → ∃ contextId, contextId ∈ contexts
  keyed : ∀ (contextId : GraphContextId) (c : GraphExecutionContext),
    s.contexts[contextId]? = some c → c.id = contextId
  below : ∀ (contextId : GraphContextId) (c : GraphExecutionContext),
    s.contexts[contextId]? = some c → contextId.asU64 < s.nextContextId

theorem mem_associatedContexts : contextId ∈ s.associatedContexts operationId ↔
      Associates s.associations operationId contextId := by
  rw [associatedContexts, Associates]
  cases s.associations[operationId]? <;> simp

theorem HasOperation.of_sameShape {c' : GraphExecutionContext}
    (has : HasOperation c operationId) (same : SameShape c c') : HasOperation c' operationId := by
  obtain ⟨svc, m, got, rfl⟩ := has
  obtain ⟨m', found', fixed⟩ := same.get got
  exact ⟨svc, m', found', GraphMember.operationId_eq fixed⟩

theorem memberForOperation_of_hasOperation
    (has : HasOperation c operationId) : ∃ m, c.memberForOperation operationId = some m := by
  obtain ⟨svc, m, got, matching⟩ := has
  have mem : m ∈ c.members.values := (OrdMap.mem_values _ m).mpr ⟨svc, got⟩
  rw [← Option.isSome_iff_exists, GraphExecutionContext.memberForOperation, List.find?_isSome]
  exact ⟨m, mem, by simp [matching]⟩

/-! ## Calls that look into contexts -/

theorem SameContexts.forth (same : SameContexts s t) (live : s.contexts[contextId]? = some c) :
    ∃ c', t.contexts[contextId]? = some c' ∧ SameShape c c' := by
  have related := same.contexts contextId
  rw [live] at related
  generalize t.contexts[contextId]? = after at related ⊢
  cases related with
  | some shape => exact ⟨_, Eq.refl _, shape⟩

theorem SameContexts.back (same : SameContexts s t) (live : t.contexts[contextId]? = some c) :
    ∃ before, s.contexts[contextId]? = some before ∧ SameShape before c := by
  have related := same.contexts contextId
  rw [live] at related
  generalize s.contexts[contextId]? = before at related ⊢
  cases related with
  | some shape => exact ⟨_, Eq.refl _, shape⟩

theorem Associated.of_sameContexts (inv : Associated s) (same : SameContexts s t) : Associated t := by
  refine ⟨fun operationId contextId => ?_, ?_, fun contextId c' live => ?_, fun contextId c' live => ?_⟩
  · rw [same.associations, inv.exact]
    constructor
    · rintro ⟨c, live, has⟩
      obtain ⟨c', live', shape⟩ := same.forth live
      exact ⟨c', live', has.of_sameShape shape⟩
    · rintro ⟨c', live', has⟩
      obtain ⟨c, live, shape⟩ := same.back live'
      exact ⟨c, live, has.of_sameShape shape.symm⟩
  · rw [same.associations]
    exact inv.inhabited
  · obtain ⟨c, before, shape⟩ := same.back live
    rw [shape.id, inv.keyed contextId c before]
  · obtain ⟨c, before, _⟩ := same.back live
    rw [same.nextContextId]
    exact inv.below contextId c before

/-! ## New contexts -/

section Insert

variable {op other : OperationId} {cid id : GraphContextId}

theorem associates_associate : Associates (associate associations op cid) other id ↔
    Associates associations other id ∨ op = other ∧ cid = id := by
  unfold Associates associate
  simp only [OrdMap.get_insert]
  split_ifs with here
  · subst here
    cases known : associations[op]? <;> simp [or_comm]
  · simp [here]

theorem associates_foldl (members : List GraphMember) :
    ∀ associations : OrdMap OperationId (OrdSet GraphContextId),
      Associates (members.foldl
        (fun associations member => associate associations member.operationId cid)
        associations) other id ↔
      Associates associations other id ∨ (∃ m ∈ members, m.operationId = other) ∧ cid = id := by
  induction members with
  | nil => simp
  | cons m members ih =>
    intro associations
    rw [List.foldl_cons, ih, associates_associate]
    simp only [List.mem_cons, exists_eq_or_imp]
    tauto

theorem inhabited_foldl (members : List GraphMember) :
    ∀ associations : OrdMap OperationId (OrdSet GraphContextId),
      (∀ (op : OperationId) (contexts : OrdSet GraphContextId),
        associations[op]? = some contexts → ∃ cid, cid ∈ contexts) →
      ∀ (op : OperationId) (contexts : OrdSet GraphContextId),
        (members.foldl (fun associations member =>
          associate associations member.operationId cid) associations)[op]? =
            some contexts → ∃ cid, cid ∈ contexts := by
  induction members with
  | nil => exact fun _ inhabited => inhabited
  | cons m members ih =>
    intro associations inhabited
    apply ih
    intro op contexts got
    simp only [associate, OrdMap.get_insert] at got
    split_ifs at got with here
    · cases got
      exact ⟨cid, (OrdSet.mem_insert _ _ _).mpr (.inl rfl)⟩
    · exact inhabited op contexts got

theorem Associated.insertContext
    (inv : Associated s) (fresh : c.id = s.pendingContextId) : Associated (s.insertContext c) := by
  have unused : s.contexts[c.id]? = none := by
    by_contra used
    obtain ⟨old, live⟩ := Option.ne_none_iff_exists'.mp used
    have below := inv.below c.id old live
    rw [fresh] at below
    exact Nat.lt_irrefl _ below
  have next : c.id.asU64 = s.nextContextId := by rw [fresh, pendingContextId]
  have contexts : ∀ id : GraphContextId, (s.insertContext c).contexts[id]? =
      if c.id = id then some c else s.contexts[id]? := fun id => OrdMap.get_insert _ _ _ _
  refine ⟨fun op cid => ?_, ?_, fun cid c' live => ?_, fun cid c' live => ?_⟩
  · have members : (∃ m ∈ c.members.values, m.operationId = op) ↔
        HasOperation c op := by
      simp only [OrdMap.mem_values]
      constructor
      · rintro ⟨m, ⟨k, got⟩, same⟩
        exact ⟨k, m, got, same⟩
      · rintro ⟨k, m, got, same⟩
        exact ⟨m, ⟨k, got⟩, same⟩
    rw [GraphExecutionStore.insertContext, associates_foldl, members, inv.exact]
    change _ ↔ ∃ c', (s.insertContext c).contexts[cid]? = some c' ∧ _
    rw [contexts]
    split_ifs with here
    · subst here
      simp [unused]
    · simp [here]
  · exact inhabited_foldl _ _ inv.inhabited
  · rw [contexts] at live
    split_ifs at live with here
    · cases live
      exact here
    · exact inv.keyed cid c' live
  · rw [contexts] at live
    change cid.asU64 < c.id.asU64 + 1
    split_ifs at live with here
    · rw [here]
      exact Nat.lt_succ_self _
    · have below := inv.below cid c' live
      omega

end Insert

/-! ## Retired contexts -/

theorem associates_dropRetired :
    Associates (associations.filterMap fun _ contexts => dropRetired retired contexts)
        operationId contextId ↔
      Associates associations operationId contextId ∧ contextId ∉ retired := by
  unfold Associates
  rw [Std.ExtTreeMap.getElem?_filterMap']
  rcases associations[operationId]? with _ | contexts
  · simp
  · simp only [Option.bind_some, dropRetired]
    split_ifs with none
    · rw [Std.ExtTreeSet.isEmpty_iff, Std.ExtTreeSet.eq_empty_iff_forall_not_mem] at none
      have out := none contextId
      simpa using out
    · simp

theorem inhabited_dropRetired {contexts : OrdSet GraphContextId}
    (got : (associations.filterMap fun _ contexts => dropRetired retired contexts)[operationId]? =
      some contexts) : ∃ contextId, contextId ∈ contexts := by
  rw [Std.ExtTreeMap.getElem?_filterMap', Option.bind_eq_some_iff] at got
  obtain ⟨before, _, got⟩ := got
  rw [dropRetired] at got
  split_ifs at got with none
  cases got
  by_contra empty
  rw [not_exists] at empty
  exact none (Std.ExtTreeSet.isEmpty_iff.mpr (Std.ExtTreeSet.eq_empty_iff_forall_not_mem.mpr empty))

theorem Associated.retire (inv : Associated s) : Associated s.retireDrainedContexts.2 := by
  unfold retireDrainedContexts
  dsimp only
  generalize (s.contexts.values.filter (·.isDrained)).map (·.id) = retired
  split_ifs with idle
  · exact inv
  · have contexts : ∀ (id : GraphContextId) (c : GraphExecutionContext),
        (retired.foldl (fun contexts contextId => contexts.erase contextId) s.contexts)[id]? = some c ↔
          s.contexts[id]? = some c ∧ id ∉ retired := by
      intro id c
      rw [OrdMap.get_foldl_erase]
      split_ifs with gone <;> simp [gone]
    refine ⟨fun operationId contextId => ?_, ?_, fun contextId c live => ?_,
      fun contextId c live => ?_⟩
    · simp only [associates_dropRetired, inv.exact, contexts]
      tauto
    · exact fun _ _ got => inhabited_dropRetired got
    · exact inv.keyed contextId c ((contexts contextId c).mp live).1
    · exact inv.below contextId c ((contexts contextId c).mp live).1

/-! ## Every call -/

theorem GraphCall.perform_cases (s : GraphExecutionStore) (call : GraphCall) :
    SameContexts s (call.perform s) ∨
      (∃ c, c.id = s.pendingContextId ∧ call.perform s = s.insertContext c) ∨
      call.perform s = s.retireDrainedContexts.2 := by
  cases call with
  | createBootContext plan defs =>
    rw [GraphCall.perform, GraphExecutionStore.createBootContext, run_fetch_bind, run_bind, run_ofExcept]
    rcases built : bootContext s.pendingContextId plan defs with error | c
    · exact .inl SameContexts.rfl
    · exact .inr (.inl ⟨c, (bootContext_builtFrom built).1, rfl⟩)
  | createOnDemandContext dispatch svcs =>
    rw [GraphCall.perform, GraphExecutionStore.createOnDemandContext, run_fetch_bind, run_bind,
      run_ofExcept]
    rcases built : onDemandContext s.pendingContextId dispatch svcs with error | c
    · exact .inl SameContexts.rfl
    · exact .inr (.inl ⟨c, (onDemandContext_builtFrom built).1, rfl⟩)
  | releaseReady contextId slots probe => exact .inl (keeps_releaseReady _ _ _ s)
  | applyPreStartCheckPassed operationId => exact .inl (keeps_applyPreStartCheckPassed _ s)
  | applyOperationAwaitingRestart operationId =>
    exact .inl (keeps_applyOperationAwaitingRestart _ s)
  | settleAwaitingRestart svc outcome => exact .inl (keeps_settleAwaitingRestart _ _ s)
  | pruneDormantDependencies operationId => exact .inl (keeps_pruneDormantDependencies _ s)
  | clearRecordedOperationHold operationId =>
    exact .inl (sameContexts_clearRecordedOperationHold s _)
  | retireDrainedContexts => exact .inr (.inr rfl)
  | _ => exact .inl (keeps_applyOperationTerminal _ _ s)

theorem Associated.perform (inv : Associated s) (call : GraphCall) : Associated (call.perform s) := by
  rcases call.perform_cases s with same | ⟨c, fresh, added⟩ | retired
  · exact inv.of_sameContexts same
  · rw [added]
    exact inv.insertContext fresh
  · rw [retired]
    exact inv.retire

theorem associated_new : Associated .new := by
  constructor <;> simp [GraphExecutionStore.new, Associates]

theorem associated_run (calls : List GraphCall) :
    Associated (runCalls GraphCall.perform .new calls) :=
  invariant_of_calls Associated (fun _ call inv => inv.perform call) calls associated_new

theorem nextContextId_le_perform (s : GraphExecutionStore) (call : GraphCall) :
    s.nextContextId ≤ (call.perform s).nextContextId := by
  rcases call.perform_cases s with same | ⟨c, fresh, added⟩ | retired
  · exact same.nextContextId.ge
  · rw [added]
    change s.nextContextId ≤ c.id.asU64 + 1
    rw [fresh]
    exact Nat.le_succ _
  · rw [retired]
    unfold retireDrainedContexts
    dsimp only
    split_ifs <;> rfl

theorem nextContextId_le_run (s : GraphExecutionStore) (calls : List GraphCall) :
    s.nextContextId ≤ (runCalls GraphCall.perform s calls).nextContextId :=
  invariant_of_calls (fun t : GraphExecutionStore => s.nextContextId ≤ t.nextContextId)
    (fun t call inv => inv.trans (nextContextId_le_perform t call)) calls le_rfl

theorem id_ne_pendingContextId {earlier calls : List GraphCall} (before : earlier <+: calls)
    (live : (runCalls GraphCall.perform .new earlier).contexts[contextId]? = some c) :
    contextId ≠ (runCalls GraphCall.perform .new calls).pendingContextId := by
  obtain ⟨later, rfl⟩ := before
  have below := (associated_run earlier).below contextId c live
  have grows := nextContextId_le_run (runCalls GraphCall.perform .new earlier) later
  rw [runCalls, runCalls, ← List.foldl_append] at grows
  intro same
  rw [same] at below
  exact absurd (below.trans_le grows) (Nat.lt_irrefl _)

/-! ## Errors that cannot happen -/

/-- The errors that report a dangling association. -/
def GraphExecutionError.IsDangling : GraphExecutionError → Prop
  | .unknownContext _ | .unknownAssociatedOperation _ => True
  | _ => False

/-- `m` never reports a dangling association in a context of `P`. -/
abbrev Sound (P : GraphExecutionContext → Prop) {α : Type} (m : ContextMutator α) : Prop :=
  FailsOnly P (fun e => ¬ e.IsDangling) m

section Sound

variable {P : GraphExecutionContext → Prop} {β : Type}

theorem Sound.bind (stable : ∀ c c', P c → SameShape c c' → P c') {m : ContextMutator α}
    {f : α → ContextMutator β} (keeps : Keeps SameShape m) (first : Sound P m)
    (rest : ∀ a, Sound P (f a)) : Sound P (m >>= f) :=
  FailsOnly.bind stable keeps first rest

theorem sound_requireMemberForOperation (op : OperationId) :
    Sound (HasOperation · op) (requireMemberForOperation op) := by
  intro c e t has failed
  obtain ⟨m, got⟩ := memberForOperation_of_hasOperation has
  rw [run_requireMemberForOperation got] at failed
  cases failed

theorem sound_endMember (svc : String) (op : OperationId)
    (outcome : GraphTerminalOutcome) : Sound P (endMember svc op outcome) := by
  intro c e t _ failed
  rcases GraphExecutionContext.run_endMember c svc op outcome with ran | ⟨m, -, ⟨-, ran⟩ | ⟨-, _, ran, -⟩⟩
  · rw [ran] at failed
    cases failed
    exact id
  · rw [ran] at failed
    cases failed
    exact id
  · rw [ran] at failed
    cases failed

theorem sound_settleContext (svc : String) (outcome : GraphTerminalOutcome) :
    Sound P (settleContext svc outcome) := by
  intro c e t inv failed
  rw [settleContext, run_fetch_bind] at failed
  rcases got : c.members[svc]? with _ | member
  · rw [got] at failed
    cases failed
  · rw [got] at failed
    dsimp only at failed
    split_ifs at failed
    · exact sound_endMember _ _ _ c e t inv failed
    · cases failed

end Sound

section Operation

variable (op : OperationId)

theorem hasOperation_stable (c c' : GraphExecutionContext) (has : HasOperation c op)
    (same : SameShape c c') : HasOperation c' op := has.of_sameShape same

theorem sound_onMember {f : GraphMember → ContextMutator α}
    (rest : ∀ member, Sound (HasOperation · op) (f member)) :
    Sound (HasOperation · op) (requireMemberForOperation op >>= f) :=
  Sound.bind (hasOperation_stable op) (keeps_requireMemberForOperation _)
    (sound_requireMemberForOperation _) rest

/-- Pruning succeeds wherever the operation has a member. -/
theorem failsOnly_pruneContext : FailsOnly (HasOperation · op) (fun _ => False) (pruneContext op) := by
  intro c e t has failed
  obtain ⟨m, got⟩ := memberForOperation_of_hasOperation has
  rw [pruneContext, run_bind_of_ok (run_requireMemberForOperation got),
    GraphExecutionContext.run_pruneDependenciesForService] at failed
  cases failed

theorem sound_applyContextAwaitingRestart :
    Sound (HasOperation · op) (applyContextAwaitingRestart op) := by
  refine sound_onMember op fun member => ?_
  intro c e t has failed
  have spec : wp (markAwaitingRestart member.service >>= fun _ =>
      update (·.noteHoldsWithoutClock)) (fun _ _ => True) (fun e _ => ¬ e.IsDangling) c := by
    simp only [markAwaitingRestart, wp_bind, wp_requireMember, wp_fetch, wp_ite, wp_raise, wp_update]
    exact ⟨fun m _ => ⟨fun _ => id, fun _ => trivial⟩, fun _ => id⟩
  exact wp_of_error spec failed

theorem sound_markPreStartCheckPassed : Sound (HasOperation · op) (markPreStartCheckPassed op) := by
  refine sound_onMember op fun named => ?_
  intro c e t has failed
  refine wp_of_error (Q := fun _ _ => True) (E := fun e _ => ¬ e.IsDangling) ?_ failed
  simp only [wp_bind, wp_requireMember, wp_ite]
  exact ⟨fun m _ => ⟨fun _ => id, fun _ => ⟨fun _ => trivial, fun _ => trivial⟩⟩, fun _ => id⟩

end Operation

theorem failsOnly_forAssociated {E : GraphExecutionError → Prop}
    {m : GraphContextId → ContextMutator (List α)}
    (keeps : ∀ contextId, Keeps SameShape (m contextId))
    (only : ∀ contextId, FailsOnly (HasOperation · operationId) E (m contextId)) :
    FailsOnly Associated E (forAssociated operationId m) := by
  intro s e t inv failed
  refine failsOnly_forEach (R := SameContexts) (E := E)
    (P := fun u => Associated u ∧ u.associations = s.associations) ?_
    (fun contextId => keeps_onContext (keeps contextId) contextId) _ ?_ s e t ⟨inv, rfl⟩ failed
  · rintro u v ⟨inv, known⟩ same
    exact ⟨inv.of_sameContexts same, same.associations.trans known⟩
  · intro contextId mem u e t ⟨inv, known⟩ failed
    rw [mem_associatedContexts, ← known, inv.exact] at mem
    obtain ⟨c, live, has⟩ := mem
    rw [run_onContext live] at failed
    rcases run : (m contextId).run c with ⟨result, after⟩
    rw [run] at failed
    cases failed
    exact only contextId c e after has run

theorem failsOnly_settleAwaitingRestart (svc : String) (outcome : GraphTerminalOutcome) :
    FailsOnly Associated (fun e => ¬ e.IsDangling) (settleAwaitingRestart svc outcome) := by
  intro s e t _ failed
  refine failsOnly_forEach (R := SameContexts) (P := SameContexts s) (E := fun e => ¬ e.IsDangling)
    (fun u v => SameContexts.trans)
    (fun contextId => keeps_onContext (keeps_settleContext svc outcome) contextId)
    _ ?_ s e t SameContexts.rfl failed
  intro contextId mem u e t same failed
  obtain ⟨before, known⟩ := (OrdMap.mem_keys _ _).mp mem
  have related := same.contexts contextId
  rw [known] at related
  rcases live : u.contexts[contextId]? with _ | c
  · rw [live] at related
    cases related
  · rw [run_onContext live] at failed
    rcases run : (settleContext svc outcome).run c with ⟨result, after⟩
    rw [run] at failed
    cases failed
    exact sound_settleContext (P := fun _ => True) svc outcome c e after trivial run

theorem failsOnly_applyOperationTerminal (op : OperationId) (outcome : GraphTerminalOutcome) :
    FailsOnly Associated (fun e => ¬ e.IsDangling) (applyOperationTerminal op outcome) := by
  have stable : ∀ s t, Associated s → SameContexts s t → Associated t :=
    fun _ _ inv same => inv.of_sameContexts same
  refine FailsOnly.bind stable (keeps_forAssociated (fun _ => keeps_applyContextTerminal _ _) _)
    (failsOnly_forAssociated (fun _ => keeps_applyContextTerminal _ _)
      fun _ => sound_onMember _ fun _ => sound_endMember _ _ _) fun events => ?_
  refine FailsOnly.bind stable (keeps_settleFirst _ _) ?_ fun _ => failsOnly_pure _
  unfold settleFirst
  cases events.head?
  · exact failsOnly_pure _
  · exact failsOnly_settleAwaitingRestart _ _

theorem failsOnly_pruneDormantDependencies (op : OperationId) :
    FailsOnly Associated (fun _ => False) (pruneDormantDependencies op) :=
  failsOnly_forAssociated (fun _ => keeps_pruneContext op) fun _ => failsOnly_pruneContext op

/-- A change of each context of the operation, and what is reported of it. -/
theorem failsOnly_forAssociated_reporting {op : OperationId} {β : Type} {m : ContextMutator β}
    (report : GraphContextId → β → List α) (keeps : Keeps SameShape m)
    (sound : Sound (HasOperation · op) m) :
    FailsOnly Associated (fun e => ¬ e.IsDangling)
      (forAssociated op fun contextId => do let done ← m; return report contextId done) :=
  failsOnly_forAssociated (fun _ => keeps.bind fun _ => keeps_pure _) fun _ =>
    Sound.bind (hasOperation_stable _) keeps sound fun _ => failsOnly_pure _

/-! ## The invariant of the store -/

theorem createBootContext_id {plan : Phase2BootPlan} {defs : List ServiceDefinition}
    (created : (createBootContext plan defs).run s = (.ok contextId, t)) :
    contextId = s.pendingContextId := by
  rw [createBootContext, run_fetch_bind] at created
  cases built : bootContext s.pendingContextId plan defs <;> rw [built] at created <;>
    cases created
  rfl

theorem createOnDemandContext_id {dispatch : OnDemandStartDispatch} {svcs : ServiceTable}
    (created : (createOnDemandContext dispatch svcs).run s = (.ok contextId, t)) :
    contextId = s.pendingContextId := by
  rw [createOnDemandContext, run_fetch_bind] at created
  cases built : onDemandContext s.pendingContextId dispatch svcs <;> rw [built] at created <;>
    cases created
  rfl

/-- In every store that calls lead to: an operation is associated with exactly the live contexts
that have a member with its id, and has an entry only if there is one; a new context gets an id no
context had before; and no method that walks the associations reports a dangling one. -/
theorem associations_exact (calls : List GraphCall) :
    let s := runCalls GraphCall.perform .new calls
    (∀ (operationId : OperationId) (contexts : OrdSet GraphContextId),
      s.associations[operationId]? = some contexts → contexts ≠ ∅) ∧
    (∀ (operationId : OperationId) (contextId : GraphContextId),
      contextId ∈ s.associatedContexts operationId ↔
        ∃ c, s.contexts[contextId]? = some c ∧ HasOperation c operationId) ∧
    (∀ earlier, earlier <+: calls → ∀ (contextId : GraphContextId) (c : GraphExecutionContext),
      (runCalls GraphCall.perform .new earlier).contexts[contextId]? = some c →
        (∀ plan definitions t, (createBootContext plan definitions).run s ≠ (.ok contextId, t)) ∧
        ∀ dispatch services t, (createOnDemandContext dispatch services).run s ≠ (.ok contextId, t)) ∧
    ∀ (operationId : OperationId) (e : GraphExecutionError) (t : GraphExecutionStore),
      (applyOperationSatisfied operationId).run s = (.error e, t) ∨
      (applyOperationFailed operationId).run s = (.error e, t) ∨
      (applyOperationAwaitingRestart operationId).run s = (.error e, t) ∨
      (applyPreStartCheckPassed operationId).run s = (.error e, t) ∨
      (pruneDormantDependencies operationId).run s = (.error e, t) → ¬ e.IsDangling := by
  intro s
  have inv : Associated s := associated_run calls
  refine ⟨fun operationId contexts found => ?_, fun operationId contextId => ?_,
    fun earlier before contextId c live => ⟨?_, ?_⟩, fun operationId e t failed => ?_⟩
  · obtain ⟨contextId, listed⟩ := inv.inhabited operationId contexts found
    rintro rfl
    simp at listed
  · rw [mem_associatedContexts, inv.exact]
  · intro plan definitions t created
    exact id_ne_pendingContextId before live (createBootContext_id created)
  · intro dispatch services t created
    exact id_ne_pendingContextId before live (createOnDemandContext_id created)
  · rcases failed with failed | failed | failed | failed | failed
    · exact failsOnly_applyOperationTerminal _ _ s e t inv failed
    · exact failsOnly_applyOperationTerminal _ _ s e t inv failed
    · exact failsOnly_forAssociated_reporting _ (keeps_applyContextAwaitingRestart _)
        (sound_applyContextAwaitingRestart _) s e t inv failed
    · exact failsOnly_forAssociated_reporting _ (keeps_markPreStartCheckPassed _)
        (sound_markPreStartCheckPassed _) s e t inv failed
    · exact (failsOnly_pruneDormantDependencies _ s e t inv failed).elim

end Peinit
