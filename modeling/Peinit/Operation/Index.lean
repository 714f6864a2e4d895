import Peinit.Operation.Calls

/-!
# The active index

The active lists hold exactly the live operations, each once and in the list of its service, and only
live operations are queued, except that `requeueBehindHead` queues whatever it is given.
-/

namespace Peinit.OperationStore

open Fallible OrdMap

/-- Records are stored under their identifier and the active lists are exactly the live ones. -/
structure Indexed (s : OperationStore) : Prop where
  keyed : ∀ {id : OperationId} {r : OperationRecord}, s.records[id]? = some r → r.id = id
  mem_active : ∀ {service : String} {id : OperationId}, id ∈ s.activeForService service ↔
    ∃ r, s.records[id]? = some r ∧ r.service = service ∧ r.state.isTerminal = false
  nodup : ∀ service : String, (s.activeForService service).Nodup
  nonempty : ∀ service : String, s.activeByService[service]? ≠ some []

def QueueLive (s : OperationStore) : Prop :=
  ∀ id behind : OperationId, s.queuedBehind[id]? = some behind →
    ∃ r : OperationRecord, s.records[id]? = some r ∧ r.state.isTerminal = false

variable {s : OperationStore} {id : OperationId} {r r' : OperationRecord} {call : StoreCall}

theorem indexed_new : Indexed new where
  keyed := by simp [new]
  mem_active := by simp [new, activeForService]
  nodup := by simp [new, activeForService]
  nonempty := by simp [new]

/-! ## The changes keep the index -/

namespace Indexed

theorem absent_of_unused (idx : Indexed s) (unused : s.records[id]? = none)
    (svc : String) : id ∉ s.activeForService svc := by
  rw [idx.mem_active, unused]
  simp

theorem of_same {t : OperationStore} (idx : Indexed s) (records : t.records = s.records)
    (active : t.activeByService = s.activeByService) : Indexed t := by
  have lists : ∀ svc, t.activeForService svc = s.activeForService svc := by
    intro svc
    rw [activeForService, active, activeForService]
  constructor
  · rw [records]
    exact idx.keyed
  · intro svc id
    rw [records, lists]
    exact idx.mem_active
  · intro svc
    rw [lists]
    exact idx.nodup svc
  · rw [active]
    exact idx.nonempty

/-- Writing a record is harmless if it moves no operation into or out of a list. -/
theorem revise (idx : Indexed s) (key : r'.id = id) (same : ∀ svc,
      (∃ r, s.records[id]? = some r ∧ r.service = svc ∧ r.state.isTerminal = false) ↔
        r'.service = svc ∧ r'.state.isTerminal = false) : Indexed (s.revise id r') where
  keyed := by
    intro other r known
    rw [revise_records, get_insert] at known
    split_ifs at known with here
    · cases known
      exact key.trans here
    · exact idx.keyed known
  mem_active := by
    intro svc other
    rw [revise_activeForService, idx.mem_active, revise_records, get_insert]
    by_cases here : id = other
    · subst here
      simp [same]
    · simp [here]
  nodup := idx.nodup
  nonempty := idx.nonempty

theorem enlist (idx : Indexed s) (unused : s.records[r.id]? = none)
    (live : r.state.isTerminal = false) (position : InsertPosition) :
    Indexed (s.enlist r position) where
  keyed := by
    intro id r' known
    rw [enlist_records, get_insert] at known
    split_ifs at known with here
    · cases known
      exact here
    · exact idx.keyed known
  mem_active := by
    intro svc id
    rw [enlist_activeForService, enlist_records, get_insert]
    by_cases here : r.id = id
    · subst here
      by_cases same : r.service = svc
      · simp [same, live]
      · simp [same, idx.absent_of_unused unused]
    · split_ifs with same
      · simp [Ne.symm here, idx.mem_active]
      · exact idx.mem_active
  nodup := by
    intro svc
    rw [enlist_activeForService]
    split_ifs
    · exact InsertPosition.nodup_place (idx.absent_of_unused unused svc) (idx.nodup svc)
    · exact idx.nodup svc
  nonempty := by
    intro svc
    rw [enlist_activeByService]
    split_ifs
    · cases position <;> simp [InsertPosition.place]
    · exact idx.nonempty svc

theorem retire (idx : Indexed s) (known : s.records[id]? = some r) (key : r'.id = id)
    (same : r'.service = r.service) (ended : r'.state.isTerminal = true) :
    Indexed (s.retire id r') where
  keyed := by
    intro other r₁ known₁
    rw [retire_records, get_insert] at known₁
    split_ifs at known₁ with here
    · cases known₁
      exact key.trans here
    · exact idx.keyed known₁
  mem_active := by
    intro svc other
    rw [retire_activeForService, retire_records, get_insert, same]
    by_cases here : id = other <;> by_cases own : r.service = svc
    · simp [here, own, ended]
    · simp [← here, own, ended, idx.mem_active, known]
    · simp [Ne.symm here, here, own, idx.mem_active]
    · simp [here, own, idx.mem_active]
  nodup := by
    intro svc
    rw [retire_activeForService]
    split_ifs
    · exact (idx.nodup svc).filter _
    · exact idx.nodup svc
  nonempty := by
    intro svc
    rw [retire_activeByService]
    split_ifs
    · cases h : s.activeByService[svc]? with
      | none => simp
      | some active =>
        rw [Option.bind_some]
        split_ifs with empty
        · simp
        · exact fun none_left => empty (by rw [Option.some.inj none_left, List.isEmpty_nil])
    · exact idx.nonempty svc

theorem purged (idx : Indexed s) (cutoffNs : ℕ) : Indexed (s.purged cutoffNs) where
  keyed := fun known => idx.keyed (get_filter_eq_some.mp known).1
  mem_active := by
    intro svc id
    refine idx.mem_active.trans ⟨?_, ?_⟩
    · rintro ⟨r, known, own, live⟩
      exact ⟨r, get_filter_eq_some.mpr ⟨known, by simp [purgeable, live]⟩, own, live⟩
    · rintro ⟨r, known, own, live⟩
      exact ⟨r, (get_filter_eq_some.mp known).1, own, live⟩
  nodup := idx.nodup
  nonempty := idx.nonempty

end Indexed

/-! ## The changes keep the queue live -/

namespace QueueLive

theorem revise (queue : QueueLive s) (live : ∀ r, s.records[id]? = some r → r.state.isTerminal = false →
      r'.state.isTerminal = false) : QueueLive (s.revise id r') := by
  intro other behind queued
  obtain ⟨r, known, unended⟩ := queue _ _ queued
  rw [revise_records, get_insert]
  split_ifs with here
  · exact ⟨r', rfl, live r (here ▸ known) unended⟩
  · exact ⟨r, known, unended⟩

theorem enlist (queue : QueueLive s) (live : r.state.isTerminal = false)
    (position : InsertPosition) : QueueLive (s.enlist r position) := by
  intro id behind queued
  obtain ⟨r', known, unended⟩ := queue _ _ queued
  rw [enlist_records, get_insert]
  split_ifs
  · exact ⟨r, rfl, live⟩
  · exact ⟨r', known, unended⟩

theorem retire (queue : QueueLive s) : QueueLive (s.retire id r') := by
  intro other behind queued
  rw [retire_queuedBehind, get_erase] at queued
  split_ifs at queued with here
  rw [retire_records, get_insert, if_neg here]
  exact queue _ _ queued

theorem purged (queue : QueueLive s) (cutoffNs : ℕ) : QueueLive (s.purged cutoffNs) := by
  intro id behind queued
  obtain ⟨r, known, live⟩ := queue _ _ queued
  exact ⟨r, get_filter_eq_some.mpr ⟨known, by simp [purgeable, live]⟩, live⟩

theorem queueBehind (queue : QueueLive s) (known : s.records[id]? = some r)
    (live : r.state.isTerminal = false) (head : Option OperationId) :
    QueueLive (s.queueBehind id head) := by
  intro other behind queued
  cases head with
  | none => exact queue _ _ queued
  | some head =>
    simp only [OperationStore.queueBehind, get_insert] at queued
    split_ifs at queued with here
    · exact ⟨r, here ▸ known, live⟩
    · exact queue _ _ queued

theorem clearQueuedBehind (queue : QueueLive s) : QueueLive (s.clearQueuedBehind id) := by
  intro other behind queued
  simp only [OperationStore.clearQueuedBehind, get_erase] at queued
  split_ifs at queued
  exact queue _ _ queued

end QueueLive

/-! ## Requests -/

variable {t : OperationStore} {req : OperationRequest} {decision : OperationConflictDecision}

theorem retire_unused (known : s.records[id]? = some r) {other : OperationId}
    (unused : s.records[other]? = none) : (s.retire id r').records[other]? = none := by
  have distinct : id ≠ other := by
    rintro rfl
    simp [known] at unused
  rw [retire_records, get_insert, if_neg distinct, unused]

theorem Indexed.retire_ended (idx : Indexed s) (known : s.records[id]? = some r)
    {final : OperationState} (ended : final.isTerminal = true) (doneNs : ℕ)
    (result : String) : Indexed (s.retire id (r.ended final doneNs result)) :=
  idx.retire known (idx.keyed known : r.id = id) rfl ended

theorem Indexed.enlistRequest (idx : Indexed s) (unused : s.records[req.id]? = none)
    (position : InsertPosition) : Indexed (s.enlist (recordFromRequest req) position) :=
  idx.enlist unused rfl position

theorem Indexed.applied (idx : Indexed s) (unused : s.records[req.id]? = none)
    (applied : Applied s req decision t) : Indexed t := by
  cases applied with
  | createNew => exact idx.enlistRequest unused _
  | queueNew =>
    exact (idx.enlistRequest unused _).of_same (queueBehind_records _) (queueBehind_activeByService _)
  | merged existingId =>
    exact idx.revise rfl fun svc => by simp [unused, mergedRecord, OperationState.isTerminal]
  | cancelled existingId r known live =>
    exact (idx.retire_ended known rfl _ _).enlistRequest (retire_unused known unused) _
  | aborted existingId r known live =>
    exact (idx.retire_ended known rfl _ _).enlistRequest (retire_unused known unused) _
  | requeued existingId r enlisted known live stored =>
    subst stored
    exact ((idx.retire_ended known rfl _ _).enlistRequest (retire_unused known unused) _).of_same
      (queueBehind_records _) (queueBehind_activeByService _)

theorem QueueLive.enlistRequest (queue : QueueLive s) (position : InsertPosition) :
    QueueLive (s.enlist (recordFromRequest req) position) :=
  queue.enlist rfl position

theorem QueueLive.applied (queue : QueueLive s) (unused : s.records[req.id]? = none)
    (applied : Applied s req decision t) : QueueLive t := by
  have stored : ∀ u : OperationStore, ∀ position,
      (u.enlist (recordFromRequest req) position).records[req.id]? =
        some (recordFromRequest req) := fun u position => by
    rw [get_enlistRequest, if_pos rfl]
  cases applied with
  | createNew => exact queue.enlistRequest _
  | queueNew => exact (queue.enlistRequest _).queueBehind (stored s _) rfl _
  | merged existingId => exact queue.revise fun r known => by simp [unused] at known
  | requeued existingId r enlisted known live stored' =>
    subst stored'
    exact (queue.retire.enlistRequest _).queueBehind (stored _ _) rfl _
  | _ => exact queue.retire.enlistRequest _

/-! ## Runs -/

theorem Indexed.effect (idx : Indexed s) (effect : Effect s call t) :
    Indexed t := by
  cases effect with
  | unchanged => exact idx
  | requested unused _ applied => exact idx.applied unused applied
  | absorbed unused _ _ => exact idx.applied unused (.merged _)
  | observed unused => exact idx.enlist unused rfl _
  | @clockRestarted id _ r known pending =>
    exact idx.revise (idx.keyed known : r.id = id) fun svc => by simp [known]
  | @started id _ r known pending =>
    exact idx.revise (idx.keyed known : r.id = id) fun svc => by
      simp [known, pending]
  | retired known live created ended => exact idx.retire_ended known ended _ _
  | cleared => exact idx.of_same rfl rfl
  | requeued known => exact idx.of_same (queueBehind_records _) (queueBehind_activeByService _)
  | purged call cutoffNs => exact idx.purged cutoffNs

theorem indexed_run (calls : List StoreCall) : Indexed (runCalls perform new calls) :=
  invariant_of_calls Indexed (fun s call idx => idx.effect (perform_effect s call)) calls indexed_new

/-- `requeueBehindHead` is only called on operations that have not ended. -/
def RequeuesLive (s : OperationStore) : StoreCall → Prop
  | .requeueBehindHead id => ∀ r, s.records[id]? = some r → r.state.isTerminal = false
  | _ => True

theorem QueueLive.effect (queue : QueueLive s) (effect : Effect s call t)
    (requeues : RequeuesLive s call) : QueueLive t := by
  cases effect with
  | unchanged => exact queue
  | requested unused _ applied => exact queue.applied unused applied
  | absorbed unused _ _ => exact queue.applied unused (.merged _)
  | observed unused => exact queue.enlist rfl _
  | clockRestarted known pending =>
    exact queue.revise fun _ _ _ => by simp [pending]
  | started known pending => exact queue.revise fun _ _ _ => rfl
  | retired known live created ended => exact queue.retire
  | cleared => exact queue.clearQueuedBehind
  | requeued known => exact queue.queueBehind known (requeues _ known) _
  | purged call cutoffNs => exact queue.purged cutoffNs

/-- After any calls, failing ones included: the active list of a service holds exactly its operations
that have not ended, each once and in no other list, and no list is empty.  Every queued operation is
in an active list as well, if `requeueBehindHead` was only ever called on live operations. -/
theorem active_index_exact (calls : List StoreCall) :
    let s := runCalls perform new calls
    (∀ service id, id ∈ s.activeForService service ↔
      ∃ r, s.records[id]? = some r ∧ r.service = service ∧ r.state.isTerminal = false) ∧
    (∀ service id, id ∈ s.activeForService service →
      (s.activeForService service).count id = 1 ∧
        ∀ other, other ≠ service → id ∉ s.activeForService other) ∧
    (∀ service : String, s.activeByService[service]? ≠ some []) ∧
    (Admissible perform RequeuesLive new calls →
      ∀ id behind : OperationId, s.queuedBehind[id]? = some behind →
        ∃ service, id ∈ s.activeForService service) := by
  intro s
  have indexed : Indexed s := indexed_run calls
  refine ⟨fun _ _ => indexed.mem_active, fun service id active => ⟨?_, ?_⟩, indexed.nonempty, ?_⟩
  · exact List.count_eq_one_of_mem (indexed.nodup service) active
  · rintro other distinct elsewhere
    obtain ⟨r, known, own, _⟩ := indexed.mem_active.mp active
    obtain ⟨r', known', own', _⟩ := indexed.mem_active.mp elsewhere
    rw [known] at known'
    cases known'
    exact distinct (own'.symm.trans own)
  · intro requeues id behind queued
    have queue : QueueLive s := invariant_of_step QueueLive (fun s call queue requeues =>
      queue.effect (perform_effect s call) requeues) calls (by simp [QueueLive, new]) requeues
    obtain ⟨r, known, live⟩ := queue id behind queued
    exact ⟨r.service, indexed.mem_active.mpr ⟨r, known, rfl, live⟩⟩

/-- A start is queued behind a stop and requeued while it is pending. -/
def requeuePending : List StoreCall := [.requestOperation ⟨⟨1⟩, .stop, "web", .admin, none, 10⟩,
    .requestOperation ⟨⟨2⟩, .start, "web", .admin, none, 20⟩,
    .requeueBehindHead ⟨2⟩]

theorem active_index_exact_requeuePending :
    ∃ service, (⟨2⟩ : OperationId) ∈ (runCalls perform new requeuePending).activeForService service := by
  refine (active_index_exact requeuePending).2.2.2 ⟨trivial, trivial, fun r known => ?_, trivial⟩
    ⟨2⟩ ⟨1⟩ (by decide +kernel)
  have pending : (runCalls perform new (requeuePending.take 2)).records[(⟨2⟩ : OperationId)]? =
      some (.new ⟨2⟩ .start "web" .admin none 20) := by decide +kernel
  cases pending.symm.trans known
  rfl

/-- A run of four calls after which an operation that was cancelled is still queued. -/
def requeueAfterCancel : List StoreCall := [.requestOperation ⟨⟨1⟩, .stop, "web", .admin, none, 10⟩,
    .requestOperation ⟨⟨2⟩, .start, "web", .admin, none, 20⟩,
    .cancelOperation ⟨2⟩ 30 "withdrawn",
    .requeueBehindHead ⟨2⟩]

theorem requeued_after_cancel :
    ∃ id behind : OperationId,
      (runCalls perform new requeueAfterCancel).queuedBehind[id]? = some behind ∧
        ∀ service, id ∉ (runCalls perform new requeueAfterCancel).activeForService service := by
  refine ⟨⟨2⟩, ⟨1⟩, by decide +kernel, fun service active => ?_⟩
  obtain ⟨r, known, _, live⟩ := (indexed_run requeueAfterCancel).mem_active.mp active
  have ended : (runCalls perform new requeueAfterCancel).records[(⟨2⟩ : OperationId)]?.map
      (·.state.isTerminal) = some true := by decide +kernel
  rw [known, Option.map_some, live] at ended
  cases ended

end Peinit.OperationStore
