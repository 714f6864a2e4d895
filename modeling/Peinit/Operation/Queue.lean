import Peinit.Operation.Supersede

/-!
# The queue

The operation a queued one waits for stands, while it is live, before the waiting one in the same list,
so the head of a list waits for nothing live. `requeueBehindHead` on the head itself breaks this
(`QueueOrdered`).
-/

namespace Peinit.OperationStore

open OrdMap List

/-- Queued operations are pending, and stand after the live operation they wait for. -/
structure QueueOrdered (s : OperationStore) : Prop where
  pending : ∀ {id behind : OperationId}, s.queuedBehind[id]? = some behind →
    ∃ r : OperationRecord, s.records[id]? = some r ∧ r.state = .pending
  precedes : ∀ {id behind : OperationId} {r live : OperationRecord},
    s.queuedBehind[id]? = some behind → s.records[id]? = some r →
    s.records[behind]? = some live → live.state.isTerminal = false →
    [behind, id].Sublist (s.activeForService r.service)

variable {s t : OperationStore} {id : OperationId} {r r' : OperationRecord} {head : Option OperationId}
  {α : Type} {svc : String}

namespace QueueOrdered

theorem of_queue (ordered : QueueOrdered s) (records : t.records = s.records)
    (active : t.activeByService = s.activeByService)
    (fewer : ∀ {id behind : OperationId}, t.queuedBehind[id]? = some behind →
      s.queuedBehind[id]? = some behind) : QueueOrdered t where
  pending := fun queued => records ▸ ordered.pending (fewer queued)
  precedes := by
    intro id behind r live queued known knownBehind unended
    rw [records] at known knownBehind
    rw [activeForService, active]
    exact ordered.precedes (fewer queued) known knownBehind unended

theorem revise (ordered : QueueOrdered s)
    (pending : ∀ behind : OperationId, s.queuedBehind[id]? = some behind →
      r'.state = .pending ∧ ∀ r, s.records[id]? = some r → r'.service = r.service)
    (live : r'.state.isTerminal = false → ∃ r, s.records[id]? = some r ∧ r.state.isTerminal = false) :
    QueueOrdered (s.revise id r') where
  pending := by
    intro other behind queued
    rw [revise_records, get_insert]
    split_ifs with here
    · exact ⟨r', rfl, (pending behind (here ▸ queued)).1⟩
    · exact ordered.pending queued
  precedes := by
    intro other behind r live' queued known knownBehind unended
    rw [revise_records, get_insert] at known knownBehind
    obtain ⟨before, knownBefore, _⟩ := ordered.pending queued
    have same : r.service = before.service := by
      split_ifs at known with here
      · subst here
        cases known
        exact (pending behind queued).2 before knownBefore
      · rw [knownBefore] at known
        cases known
        rfl
    obtain ⟨b, knownB, unendedB⟩ : ∃ b, s.records[behind]? = some b ∧ b.state.isTerminal = false := by
      split_ifs at knownBehind with here
      · cases knownBehind
        exact here ▸ live unended
      · exact ⟨live', knownBehind, unended⟩
    rw [same]
    exact ordered.precedes queued knownBefore knownB unendedB

theorem enlist (ordered : QueueOrdered s) (unused : s.records[r.id]? = none)
    (unnamed : ∀ id : OperationId, s.queuedBehind[id]? ≠ some r.id) (position : InsertPosition) :
    QueueOrdered (s.enlist r position) := by
  have kept : ∀ {id behind : OperationId}, s.queuedBehind[id]? = some behind →
      r.id ≠ id ∧ r.id ≠ behind := by
    intro id behind queued
    obtain ⟨_, known, _⟩ := ordered.pending queued
    exact ⟨fun here => by simp [← here, unused] at known, fun here => unnamed id (here ▸ queued)⟩
  constructor
  · intro id behind queued
    rw [enlist_records, get_insert, if_neg (kept queued).1]
    exact ordered.pending queued
  · intro id behind r' live queued known knownBehind unended
    rw [enlist_records, get_insert] at known knownBehind
    rw [if_neg (kept queued).1] at known
    rw [if_neg (kept queued).2] at knownBehind
    have before := ordered.precedes queued known knownBehind unended
    rw [enlist_activeForService]
    split_ifs
    · cases position
      · exact before.trans (sublist_cons_self _ _)
      · exact before.trans (sublist_append_left _ _)
    · exact before

theorem retire (ordered : QueueOrdered s) (ended : r'.state.isTerminal = true) :
    QueueOrdered (s.retire id r') where
  pending := by
    intro other behind queued
    rw [retire_queuedBehind, get_erase] at queued
    split_ifs at queued with here
    rw [retire_records, get_insert, if_neg here]
    exact ordered.pending queued
  precedes := by
    intro other behind r live queued known knownBehind unended
    rw [retire_queuedBehind, get_erase] at queued
    split_ifs at queued with here
    rw [retire_records, get_insert, if_neg here] at known
    rw [retire_records, get_insert] at knownBehind
    have other_behind : id ≠ behind := by
      rintro rfl
      rw [if_pos rfl] at knownBehind
      cases knownBehind
      rw [ended] at unended
      cases unended
    rw [if_neg other_behind] at knownBehind
    have before := ordered.precedes queued known knownBehind unended
    rw [retire_activeForService]
    split_ifs
    · have kept := before.filter (fun active => decide (active ≠ id))
      simpa [Ne.symm here, Ne.symm other_behind] using kept
    · exact before

theorem purged (ordered : QueueOrdered s) (cutoffNs : ℕ) : QueueOrdered (s.purged cutoffNs) where
  pending := by
    intro id behind queued
    obtain ⟨r, known, pending⟩ := ordered.pending queued
    exact ⟨r, get_filter_eq_some.mpr ⟨known, by simp [purgeable, pending]⟩, pending⟩
  precedes := fun queued known knownBehind unended =>
    ordered.precedes queued (get_filter_eq_some.mp known).1 (get_filter_eq_some.mp knownBehind).1 unended

theorem queueBehind (ordered : QueueOrdered s) (known : s.records[id]? = some r)
    (pending : r.state = .pending)
    (before : ∀ behind, head = some behind → [behind, id].Sublist (s.activeForService r.service)) :
    QueueOrdered (s.queueBehind id head) := by
  cases head with
  | none => exact ordered
  | some head =>
    constructor
    · intro other behind queued
      simp only [OperationStore.queueBehind, get_insert] at queued
      split_ifs at queued with here
      · exact ⟨r, here ▸ known, pending⟩
      · exact ordered.pending queued
    · intro other behind r₁ live queued known₁ knownBehind unended
      simp only [OperationStore.queueBehind, get_insert] at queued
      rw [queueBehind_records] at known₁ knownBehind
      split_ifs at queued with here
      · subst here
        cases queued
        rw [known] at known₁
        cases known₁
        exact before head rfl
      · exact ordered.precedes queued known₁ knownBehind unended

end QueueOrdered

/-! ## Heads -/

theorem Indexed.current_eq_head (idx : Indexed s) (svc : String) :
    (s.currentForService svc).map (·.id) = (s.activeForService svc).head? := by
  unfold currentForService
  cases list : s.activeForService svc with
  | nil => rfl
  | cons head rest =>
    obtain ⟨r, known, _, _⟩ := idx.mem_active.mp (list ▸ mem_cons_self : head ∈ _)
    simp [known, idx.keyed known]

theorem not_sublist_head {a b : α} {list : List α} (nodup : list.Nodup)
    (head : list.head? = some a) : ¬ [b, a].Sublist list := by
  cases list with
  | nil => cases head
  | cons first rest =>
    cases head
    have absent := (nodup_cons.mp nodup).1
    rintro (_ | _)
    · next sub => exact absent (sub.subset (by simp))
    · next sub => exact absent (sub.subset (by simp))

theorem QueueOrdered.head_not_waiting (ordered : QueueOrdered s) (idx : Indexed s)
    (head : (s.activeForService svc).head? = some id) :
    s.isQueuedBehindLive id = false := by
  by_contra waiting
  simp only [isQueuedBehindLive, Bool.not_eq_false, Option.any_eq_true] at waiting
  obtain ⟨behind, queued, live, knownBehind, unended⟩ := waiting
  obtain ⟨r, known, _⟩ := ordered.pending queued
  obtain ⟨r', known', own, _⟩ := idx.mem_active.mp (mem_of_head? head)
  rw [known] at known'
  cases known'
  have before := ordered.precedes queued known knownBehind (by simpa using unended)
  rw [own] at before
  exact not_sublist_head (idx.nodup svc) head before

theorem mem_readyQueuedOperations (idx : Indexed s) :
    r ∈ s.readyQueuedOperations ↔
      s.records[r.id]? = some r ∧ r.state = .pending ∧
        (∃ behind : OperationId, s.queuedBehind[r.id]? = some behind ∧
          ∀ ahead : OperationRecord, s.records[behind]? = some ahead → ahead.state.isTerminal = true) ∧
        (s.activeForService r.service).head? = some r.id := by
  have atHead : ∀ r : OperationRecord,
      ((s.currentForService r.service).any fun head => head.id = r.id) = true ↔
        (s.activeForService r.service).head? = some r.id := by
    intro r
    rw [← idx.current_eq_head]
    cases s.currentForService r.service <;> simp
  simp only [readyQueuedOperations, mem_filterMap, mem_filter, Prod.exists,
    mem_toList, Bool.and_eq_true, Option.any_eq_true, Option.all_eq_true,
    decide_eq_true_eq, atHead]
  constructor
  · rintro ⟨id, behind, ⟨queued, done, r', known', pending, head⟩, known⟩
    have key : r.id = id := idx.keyed known
    subst key
    rw [known] at known'
    cases known'
    exact ⟨known, pending, ⟨behind, queued, done⟩, head⟩
  · rintro ⟨known, pending, ⟨behind, queued, done⟩, head⟩
    exact ⟨r.id, behind, ⟨queued, done, r, known, pending, head⟩, known⟩

/-- When all active operations of a service are queued, the first of them is ready. -/
theorem QueueOrdered.ready_of_all_queued (ordered : QueueOrdered s) (idx : Indexed s)
    (some_active : s.activeForService svc ≠ [])
    (queued : ∀ id ∈ s.activeForService svc, ∃ behind : OperationId, s.queuedBehind[id]? = some behind) :
    ∃ r ∈ s.readyQueuedOperations, r.service = svc := by
  cases list : s.activeForService svc with
  | nil => exact absurd list some_active
  | cons id rest =>
    have active : id ∈ s.activeForService svc := list ▸ mem_cons_self
    have head : (s.activeForService svc).head? = some id := by rw [list, head?_cons]
    obtain ⟨r, known, own, _⟩ := idx.mem_active.mp active
    obtain ⟨behind, waits⟩ := queued id active
    obtain ⟨r', known', pending⟩ := ordered.pending waits
    rw [known] at known'
    cases known'
    have key : r.id = id := idx.keyed known
    subst key
    refine ⟨r, (mem_readyQueuedOperations idx).mpr
      ⟨known, pending, ⟨behind, waits, fun ahead knownAhead => ?_⟩, own ▸ head⟩, own⟩
    have done := ordered.head_not_waiting idx head
    simpa [isQueuedBehindLive, waits, knownAhead] using done

/-! ## Runs -/

/-- What the callers of the store keep to: identifiers in use as a predecessor are not given out
again, a queued operation is not started, and an operation is requeued only while it is pending
and not at the head of its list. -/
def QueueDiscipline (s : OperationStore) : StoreCall → Prop
  | .requestOperation request => ∀ id : OperationId, s.queuedBehind[id]? ≠ some request.id
  | .observeShutdownStop id _ _ => ∀ other : OperationId, s.queuedBehind[other]? ≠ some id
  | .startOperation id _ => s.queuedBehind[id]? = none
  | .requeueBehindHead id => ∀ r, s.records[id]? = some r →
      r.state = .pending ∧ (s.activeForService r.service).head? ≠ some id
  | _ => True

theorem sublist_of_find [DecidableEq α] {a b : α} {list : List α} (mem : a ∈ list)
    (notHead : list.head? ≠ some a) (got : (list.find? fun x => x ≠ a) = some b) :
    [b, a].Sublist list := by
  cases list with
  | nil => cases got
  | cons first rest =>
    have other : first ≠ a := fun here => notHead (by rw [here, head?_cons])
    rw [find?_cons_of_pos (by simpa using other), Option.some.injEq] at got
    subst got
    exact (singleton_sublist.mpr ((mem_cons.mp mem).resolve_left (Ne.symm other))).cons_cons _

variable {req : OperationRequest} {decision : OperationConflictDecision}

theorem sublist_of_appended {behind : OperationId} (distinct : behind ≠ req.id) (active : behind ∈
      (s.enlist (recordFromRequest req) .back).activeForService req.service) :
    [behind, req.id].Sublist ((s.enlist (recordFromRequest req) .back).activeForService req.service) := by
  rw [enlist_activeForService, if_pos (recordFromRequest_service req)] at active ⊢
  have mem := (InsertPosition.mem_place.mp active).resolve_left distinct
  exact (singleton_sublist.mpr mem).append (List.Sublist.refl [req.id])

theorem QueueOrdered.enlistRequest (ordered : QueueOrdered s) (unused : s.records[req.id]? = none)
    (unnamed : ∀ id : OperationId, s.queuedBehind[id]? ≠ some req.id)
    (position : InsertPosition) : QueueOrdered (s.enlist (recordFromRequest req) position) :=
  ordered.enlist unused unnamed position

theorem QueueOrdered.queueRequest
    (ordered : QueueOrdered (s.enlist (recordFromRequest req) .back))
    (mem : ∀ behind, head = some behind → behind ≠ req.id ∧
      behind ∈ (s.enlist (recordFromRequest req) .back).activeForService req.service) :
    QueueOrdered ((s.enlist (recordFromRequest req) .back).queueBehind req.id head) :=
  ordered.queueBehind (by rw [get_enlistRequest, if_pos rfl]) rfl fun behind eq =>
    sublist_of_appended (mem behind eq).1 (mem behind eq).2

theorem QueueOrdered.applied (ordered : QueueOrdered s) (idx : Indexed s)
    (unused : s.records[req.id]? = none)
    (unnamed : ∀ id : OperationId, s.queuedBehind[id]? ≠ some req.id)
    (applied : Applied s req decision t) : QueueOrdered t := by
  have unnamed' : ∀ {e r'}, ∀ id : OperationId,
      (s.retire e r').queuedBehind[id]? ≠ some req.id := by
    intro e r' id queued
    rw [retire_queuedBehind, get_erase] at queued
    split_ifs at queued
    exact unnamed id queued
  cases applied with
  | createNew => exact ordered.enlistRequest unused unnamed _
  | queueNew =>
    refine (ordered.enlistRequest unused unnamed _).queueRequest fun behind current => ?_
    rw [idx.current_eq_head] at current
    have mem := mem_of_head? current
    refine ⟨fun here => idx.absent_of_unused unused _ (here ▸ mem), ?_⟩
    rw [enlist_activeForService, if_pos (recordFromRequest_service req)]
    exact InsertPosition.mem_place.mpr (.inr mem)
  | merged existingId =>
    refine ordered.revise (fun behind queued => ?_) (fun live => by cases live)
    obtain ⟨_, known, _⟩ := ordered.pending queued
    simp [unused] at known
  | cancelled existingId r known live =>
    exact (ordered.retire rfl).enlistRequest (retire_unused known unused) unnamed' _
  | aborted existingId r known live =>
    exact (ordered.retire rfl).enlistRequest (retire_unused known unused) unnamed' _
  | requeued existingId r enlisted known live stored =>
    subst stored
    have unused' : (s.retire existingId (r.ended .cancelled req.createdAtNs
        "superseded_by_restart")).records[req.id]? = none := retire_unused known unused
    refine ((ordered.retire rfl).enlistRequest unused' unnamed' _).queueRequest fun behind current => ?_
    rw [((idx.retire_ended known rfl _ _).enlistRequest unused' _).current_eq_head,
      Option.filter_eq_some_iff] at current
    exact ⟨by simpa using current.2, mem_of_head? current.1⟩

theorem QueueOrdered.effect (ordered : QueueOrdered s) (idx : Indexed s) {call : StoreCall}
    (effect : Effect s call t) (discipline : QueueDiscipline s call) : QueueOrdered t := by
  cases effect with
  | unchanged => exact ordered
  | requested unused _ applied => exact ordered.applied idx unused discipline applied
  | absorbed unused _ _ =>
    refine ordered.revise (fun behind queued => ?_) (fun live => by cases live)
    obtain ⟨_, known, _⟩ := ordered.pending queued
    simp [unused] at known
  | observed unused => exact ordered.enlist unused (fun other => discipline other) _
  | clockRestarted known pending =>
    exact ordered.revise (fun _ _ => ⟨pending, fun r knownR => by simp_all⟩)
      fun _ => ⟨_, known, by simp [pending]⟩
  | started known pending =>
    refine ordered.revise (fun behind queued => ?_) fun _ => ⟨_, known, by simp [pending]⟩
    simp [show s.queuedBehind[_]? = none from discipline] at queued
  | retired known live created ended => exact ordered.retire ended
  | cleared id =>
    refine ordered.of_queue rfl rfl fun {other behind} queued => ?_
    simp only [clearQueuedBehind, get_erase] at queued
    split_ifs at queued
    exact queued
  | @requeued id r known =>
    obtain ⟨pending, notHead⟩ := discipline r known
    refine ordered.queueBehind known pending fun behind got => ?_
    have active : id ∈ s.activeForService r.service :=
      idx.mem_active.mpr ⟨r, known, rfl, by simp [pending]⟩
    exact sublist_of_find active notHead got
  | purged call cutoffNs => exact ordered.purged cutoffNs

end Peinit.OperationStore
