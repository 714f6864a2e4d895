import Peinit.Operation.Index

/-!
# What a stop supersedes

A request is offered to every active operation of its service for merging, and otherwise shown to the
head of the list alone. So an accepted stop ends the head and nothing else: starts and restarts behind
it run after the stop.
-/

namespace Peinit.OperationStore

open List

variable {s t : OperationStore} {req : OperationRequest}

/-! ## Resolving a request -/

theorem findMerge_cases (s : OperationStore) (req : OperationRequest) :
    ∀ {ids : List OperationId}, (∀ id ∈ ids, ∃ r, s.records[id]? = some r) →
      (∃ id ∈ ids, ∃ r e, s.records[id]? = some r ∧
        resolveOperationConflict (some r) req.operationType = .mergeIntoExisting e ∧
        s.findMerge req ids = .ok (some (.mergeIntoExisting e))) ∨
      ((∀ id ∈ ids, ∀ r, s.records[id]? = some r → ∀ e,
        resolveOperationConflict (some r) req.operationType ≠ .mergeIntoExisting e) ∧
        s.findMerge req ids = .ok none)
  | [], _ => .inr ⟨by simp, rfl⟩
  | id :: ids, present => by
    obtain ⟨r, known⟩ := present id mem_cons_self
    by_cases merges : ∃ e, resolveOperationConflict (some r) req.operationType = .mergeIntoExisting e
    · obtain ⟨e, merges⟩ := merges
      exact .inl ⟨id, mem_cons_self, r, e, known, merges, by simp [findMerge, known, merges]⟩
    · have skip : s.findMerge req (id :: ids) = s.findMerge req ids := by
        simp only [findMerge, known]
        split
        · exact absurd ⟨_, by assumption⟩ merges
        · rfl
      rcases findMerge_cases s req fun id later => present id (mem_cons_of_mem _ later) with
        ⟨id', later, r', e, known', merges', got⟩ | ⟨none', got⟩
      · exact .inl ⟨id', mem_cons_of_mem _ later, r', e, known', merges', skip.trans got⟩
      · refine .inr ⟨?_, skip.trans got⟩
        intro id' mem r' known' e merges'
        rcases mem_cons.mp mem with rfl | later
        · rw [known] at known'
          cases known'
          exact merges ⟨e, merges'⟩
        · exact none' id' later r' known' e merges'

theorem resolveRequest_cases (idx : Indexed s) (req : OperationRequest) :
    (∃ id ∈ s.activeForService req.service, ∃ r, s.records[id]? = some r ∧
      r.state.isTerminal = false ∧
      resolveOperationConflict (some r) req.operationType = .mergeIntoExisting id ∧
      s.resolveRequest req = .ok (.mergeIntoExisting id)) ∨
    ((∀ id ∈ s.activeForService req.service, ∀ r, s.records[id]? = some r → ∀ e,
        resolveOperationConflict (some r) req.operationType ≠ .mergeIntoExisting e) ∧
      ((s.activeForService req.service = [] ∧ s.resolveRequest req = .ok .createNew) ∨
        ∃ head rest r, s.activeForService req.service = head :: rest ∧
          s.records[head]? = some r ∧ r.state.isTerminal = false ∧
          s.resolveRequest req = .ok (resolveOperationConflict (some r) req.operationType))) := by
  have present : ∀ id ∈ s.activeForService req.service, ∃ r, s.records[id]? = some r ∧
      r.state.isTerminal = false := fun id active => by
    obtain ⟨r, known, _, live⟩ := idx.mem_active.mp active
    exact ⟨r, known, live⟩
  unfold resolveRequest
  rcases findMerge_cases s req fun id active => (present id active).imp fun _ h => h.1 with
    ⟨id, active, r, e, known, merges, got⟩ | ⟨unmerged, got⟩ <;> simp only [got]
  · obtain ⟨r', known', live⟩ := present id active
    rw [known] at known'
    cases known'
    have same : e = id := (OperationRecord.resolve_existing live (.inl merges)).symm.trans (idx.keyed known)
    subst same
    exact .inl ⟨e, active, r, known, live, merges, rfl⟩
  · refine .inr ⟨unmerged, ?_⟩
    cases list : s.activeForService req.service with
    | nil => exact .inl ⟨rfl, rfl⟩
    | cons head rest =>
      obtain ⟨r, known, live⟩ := present head (list ▸ mem_cons_self)
      exact .inr ⟨head, rest, r, rfl, known, live, by simp [known]; rfl⟩

/-! ## Accepted stops -/

/-- No start or restart of the service that was known in `s` is still live in `t`. -/
def Superseded (s t : OperationStore) (service : String) : Prop :=
  ∀ (id : OperationId) (r : OperationRecord), s.records[id]? = some r → r.service = service →
    r.operationType = .start ∨ r.operationType = .restart →
    ∃ r' : OperationRecord, t.records[id]? = some r' ∧ r'.state.isTerminal = true

/-- Every start or restart in the service's active list is at its head, and there is a stop in the
list only if there is none of them. -/
def OnlyHeadStarts (s : OperationStore) (service : String) : Prop :=
  ∀ (id : OperationId) (r : OperationRecord), id ∈ s.activeForService service →
    s.records[id]? = some r →
    r.operationType = .start ∨ r.operationType = .restart →
    (s.activeForService service).head? = some id ∧
      ∀ (other : OperationId) (r' : OperationRecord), other ∈ s.activeForService service →
        s.records[other]? = some r' →
        r'.operationType ≠ .stop

theorem get_replaced {id other : OperationId} {r : OperationRecord} {position : InsertPosition}
    (distinct : other ≠ req.id) :
    ((s.retire id r).enlist (recordFromRequest req) position).records[other]? =
      if id = other then some r else s.records[other]? := by
  rw [get_enlistRequest, if_neg (Ne.symm distinct), retire_records, OrdMap.get_insert]

/-- An accepted stop merges into an active stop and changes no other record, or there is no active
stop, and of the other records it changes the head's alone, which it ends. -/
theorem stop_accepted_cases (idx : Indexed s) (stop : req.operationType = .stop)
    {outcome : OperationRequestOutcome}
    (accepted : (requestOperation req).run s = (.ok outcome, t)) :
    s.records[req.id]? = none ∧
    (((∃ (id : OperationId) (r : OperationRecord), id ∈ s.activeForService req.service ∧
        s.records[id]? = some r ∧ r.operationType = .stop) ∧
      ∀ id : OperationId, id ≠ req.id → t.records[id]? = s.records[id]?) ∨
    ((∀ (id : OperationId) (r : OperationRecord), id ∈ s.activeForService req.service →
        s.records[id]? = some r → r.operationType ≠ .stop) ∧
      (∀ id : OperationId, id ≠ req.id → (s.activeForService req.service).head? ≠ some id →
        t.records[id]? = s.records[id]?) ∧
      ∀ id : OperationId, (s.activeForService req.service).head? = some id →
        ∃ r : OperationRecord, t.records[id]? = some r ∧ r.state.isTerminal = true)) := by
  rcases requestOperation_cases req s with
    ⟨decision, _, t', unused, resolved, applied, run⟩ | ⟨e, run⟩ <;> rw [run] at accepted
  swap
  · cases accepted
  cases accepted
  refine ⟨unused, ?_⟩
  rcases resolveRequest_cases idx req with
    ⟨id, active, r, known, live, merges, resolved'⟩ | ⟨unmerged, rest⟩
  · rw [resolved'] at resolved
    cases resolved
    cases applied
    rw [stop] at merges
    refine .inl ⟨⟨id, r, active, known, (OperationRecord.resolve_stop_merge live).mp ⟨_, merges⟩⟩, ?_⟩
    intro other distinct
    rw [revise_records, OrdMap.get_insert, if_neg (Ne.symm distinct)]
  · have noStop : ∀ (id : OperationId) (r : OperationRecord),
        id ∈ s.activeForService req.service → s.records[id]? = some r →
        r.operationType ≠ .stop := by
      intro id r active known type
      obtain ⟨r', known', _, live⟩ := idx.mem_active.mp active
      rw [known] at known'
      cases known'
      obtain ⟨e, merges⟩ := (OperationRecord.resolve_stop_merge live).mpr type
      exact unmerged id active r known e (stop ▸ merges)
    refine .inr ⟨noStop, ?_⟩
    rcases rest with ⟨list, resolved'⟩ | ⟨head, tail, r, list, known, live, resolved'⟩ <;>
      rw [resolved'] at resolved <;> cases resolved
    · cases applied
      refine ⟨fun id distinct _ => ?_, by simp [list]⟩
      rw [get_enlistRequest, if_neg (Ne.symm distinct)]
    · have other : r.operationType ≠ .stop := noStop head r (list ▸ mem_cons_self) known
      have key : r.id = head := idx.keyed known
      have taken : head ≠ req.id := by
        rintro rfl
        simp [known] at unused
      have replaced : ∀ r' : OperationRecord, r'.state.isTerminal = true →
          t = (s.retire head r').enlist (recordFromRequest req) .front →
          (∀ id : OperationId, id ≠ req.id →
            (s.activeForService req.service).head? ≠ some id →
            t.records[id]? = s.records[id]?) ∧
          ∀ id : OperationId, (s.activeForService req.service).head? = some id →
            ∃ r : OperationRecord, t.records[id]? = some r ∧ r.state.isTerminal = true := by
        rintro r' ended rfl
        rw [list]
        refine ⟨fun id distinct notHead => ?_, fun id atHead => ?_⟩
        · rw [get_replaced distinct, if_neg fun here => notHead (by rw [here, head?_cons])]
        · rw [head?_cons, Option.some.injEq] at atHead
          exact ⟨r', by rw [← atHead, get_replaced taken, if_pos rfl], ended⟩
      rw [stop] at applied
      rcases OperationRecord.resolve_stop live other with h | h | ⟨_, h⟩ <;> rw [h] at applied
      · rw [key] at applied
        cases applied
        exact replaced _ rfl rfl
      · rw [key] at applied
        cases applied
        exact replaced _ rfl rfl
      · cases applied

/-- An accepted stop leaves no earlier start or restart of its service live exactly when the only
ones there were stood at the head of the active list, with no stop behind them. -/
theorem stop_supersedes_iff (calls : List StoreCall) (request : OperationRequest)
    (stop : request.operationType = .stop) (outcome : OperationRequestOutcome) (t : OperationStore)
    (accepted : (requestOperation request).run (runCalls perform new calls) = (.ok outcome, t)) :
    Superseded (runCalls perform new calls) t request.service ↔
      OnlyHeadStarts (runCalls perform new calls) request.service := by
  have indexed := indexed_run calls
  generalize runCalls perform new calls = s at indexed accepted ⊢
  obtain ⟨unused, outcome⟩ := stop_accepted_cases indexed stop accepted
  have distinct : ∀ (id : OperationId) (r : OperationRecord), s.records[id]? = some r →
      id ≠ request.id := by
    rintro id r known rfl
    simp [known] at unused
  -- a start in the active list is live, so it must not survive unchanged
  have survives : Superseded s t request.service → ∀ (id : OperationId) (r : OperationRecord),
      id ∈ s.activeForService request.service → s.records[id]? = some r →
      r.operationType = .start ∨ r.operationType = .restart → t.records[id]? ≠ s.records[id]? := by
    intro superseded id r active known type same
    obtain ⟨r₁, known₁, own, live⟩ := indexed.mem_active.mp active
    rw [known] at known₁
    cases known₁
    obtain ⟨r₂, known₂, ended⟩ := superseded id r known own type
    rw [same, known] at known₂
    cases known₂
    rw [live] at ended
    cases ended
  rcases outcome with ⟨⟨stopId, r₀, active₀, known₀, type₀⟩, same⟩ | ⟨noStop, same, ended⟩
  · constructor
    · intro superseded id r active known type
      exact absurd (same id (distinct id r known)) (survives superseded id r active known type)
    · intro onlyHead id r known own type
      cases live : r.state.isTerminal with
      | true => exact ⟨r, (same id (distinct id r known)).trans known, live⟩
      | false =>
        have active := indexed.mem_active.mpr ⟨r, known, own, live⟩
        exact absurd type₀ ((onlyHead id r active known type).2 stopId r₀ active₀ known₀)
  · constructor
    · intro superseded id r active known type
      refine ⟨?_, noStop⟩
      by_contra notHead
      exact survives superseded id r active known type (same id (distinct id r known) notHead)
    · intro onlyHead id r known own type
      by_cases atHead : (s.activeForService request.service).head? = some id
      · exact ended id atHead
      · cases live : r.state.isTerminal with
        | true => exact ⟨r, (same id (distinct id r known) atHead).trans known, live⟩
        | false =>
          have active := indexed.mem_active.mpr ⟨r, known, own, live⟩
          exact absurd (onlyHead id r active known type).1 atHead

/-- A start queued behind a stop. -/
def stopThenStart : List StoreCall := [.requestOperation ⟨⟨1⟩, .stop, "web", .admin, none, 10⟩,
    .requestOperation ⟨⟨2⟩, .start, "web", .admin, none, 20⟩]

def laterStop : OperationRequest := ⟨⟨3⟩, .stop, "web", .admin, none, 30⟩

/-- Stop, start, stop: the second stop is accepted, and the start asked for before it is still
pending. -/
theorem stop_start_stop_leaves_start :
    ((requestOperation laterStop).run (runCalls perform new stopThenStart)).1.isOk = true ∧
      ((requestOperation laterStop).run (runCalls perform new stopThenStart)).2.records[
          (⟨2⟩ : OperationId)]? = some (.new ⟨2⟩ .start "web" .admin none 20) := by
  decide +kernel

/-- A start that nothing is queued behind. -/
def startAlone : List StoreCall := [.requestOperation ⟨⟨1⟩, .start, "web", .admin, none, 10⟩]

theorem stop_supersedes_lone_start :
    ∃ outcome t, (requestOperation laterStop).run (runCalls perform new startAlone) =
        (.ok outcome, t) ∧ Superseded (runCalls perform new startAlone) t "web" := by
  have accepted : ((requestOperation laterStop).run (runCalls perform new startAlone)).1.isOk =
      true := by decide +kernel
  rcases run : (requestOperation laterStop).run (runCalls perform new startAlone) with ⟨_ | outcome, t⟩
  · rw [run] at accepted
    cases accepted
  refine ⟨outcome, t, rfl, (stop_supersedes_iff startAlone laterStop rfl outcome t run).mpr ?_⟩
  have list : (runCalls perform new startAlone).activeForService "web" = [⟨1⟩] := by decide +kernel
  intro id r active _ _
  change id ∈ (runCalls perform new startAlone).activeForService "web" at active
  change ((runCalls perform new startAlone).activeForService "web").head? = some id ∧ _
  refine ⟨by simp_all, fun other r' active' known' => ?_⟩
  change other ∈ (runCalls perform new startAlone).activeForService "web" at active'
  rw [list, List.mem_singleton] at active'
  rw [active'] at known'
  cases known'
  decide

end Peinit.OperationStore
