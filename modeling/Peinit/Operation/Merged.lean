import Peinit.Operation.Supersede

/-!
# Merged operations

A merged request ends when it is made, not after the operation it was merged into, and a purge goes by
the end alone: it takes that operation only together with all that was merged into it.
-/

namespace Peinit.OperationStore

open OrdMap

variable {s t : OperationStore} {nowNs atNs : ℕ} {id : OperationId} {r : OperationRecord}
  {final : OperationState} {req : OperationRequest}

def StoreCall.clockNs : StoreCall → Option ℕ
  | .requestOperation request | .mergeRequestInto request _ => some request.createdAtNs
  | .observeShutdownStop _ _ atNs | .restartLifetimeClock _ atNs | .startOperation _ atNs
  | .completeOperation _ atNs _ | .failOperation _ atNs _ | .cancelOperation _ atNs _
  | .abortOperation _ atNs _ | .purgeTerminalRetainedUntil atNs _ => some atNs
  | .clearQueuedBehind _ | .requeueBehindHead _ | .purgeTerminalCompletedAtOrBefore _ => none

/-- What `r` was merged into is there, and has not ended before `r`. -/
def Leads (s : OperationStore) (nowNs : ℕ) (r : OperationRecord) : Prop :=
  ∃ into target mergedAtNs, r.mergedInto = some into ∧ s.records[into]? = some target ∧
    r.completedAtNs = some mergedAtNs ∧ mergedAtNs ≤ nowNs ∧
    (target.state.isTerminal = true → ∀ endedAtNs ∈ target.completedAtNs, mergedAtNs ≤ endedAtNs)

def Followable (s : OperationStore) (nowNs : ℕ) : Prop :=
  ∀ (id : OperationId) (r : OperationRecord), s.records[id]? = some r → r.state = .merged →
    s.Leads nowNs r

namespace Followable

theorem mono (inv : Followable s nowNs) (later : nowNs ≤ atNs) (records : t.records = s.records) :
    Followable t atNs := by
  intro id r known merged
  rw [records] at known
  obtain ⟨into, target, mergedAtNs, link, there, ended, early, order⟩ := inv id r known merged
  exact ⟨into, target, mergedAtNs, link, by rw [records, there], ended, early.trans later, order⟩

/-- A record may be written that leads on, or is not merged, unless it ends in the past. -/
theorem put (inv : Followable s nowNs) (later : nowNs ≤ atNs)
    (records : t.records = s.records.insert id r) (own : r.state = .merged → t.Leads atNs r)
    (ends : r.state.isTerminal = true → ∀ endNs ∈ r.completedAtNs, nowNs ≤ endNs) :
    Followable t atNs := by
  intro other r' known merged
  rw [records, get_insert] at known
  split_ifs at known with here
  · cases known
    exact own merged
  · obtain ⟨into, target, mergedAtNs, link, there, ended, early, order⟩ := inv other r' known merged
    by_cases moved : id = into
    · subst moved
      refine ⟨id, r, mergedAtNs, link, by rw [records, get_insert, if_pos rfl], ended,
        early.trans later, fun terminal endNs mem => early.trans (ends terminal endNs mem)⟩
    · exact ⟨into, target, mergedAtNs, link, by rw [records, get_insert, if_neg moved, there], ended,
        early.trans later, order⟩

theorem retire (inv : Followable s nowNs) (later : nowNs ≤ atNs)
    (other : final ≠ .merged) (result : String) :
    Followable (s.retire id (r.ended final atNs result)) atNs := by
  refine inv.put later (retire_records ..) (fun merged => absurd merged other) fun _ endNs ended => ?_
  cases ended
  exact later

theorem enlist (inv : Followable s nowNs) (later : nowNs ≤ atNs) (position : InsertPosition)
    (pending : r.state = .pending) : Followable (s.enlist r position) atNs := by
  refine inv.put later rfl (fun merged => ?_) fun terminal => ?_
  · rw [pending] at merged
    cases merged
  · rw [pending] at terminal
    cases terminal

theorem absorb (inv : Followable s nowNs) (later : nowNs ≤ req.createdAtNs)
    (unused : s.records[req.id]? = none) {into : OperationId} (known : s.records[into]? = some r)
    (live : r.state.isTerminal = false) :
    Followable (s.revise req.id (mergedRecord req into)) req.createdAtNs := by
  have other : req.id ≠ into := by
    rintro rfl
    rw [unused] at known
    cases known
  refine inv.put later rfl (fun _ => ⟨into, r, req.createdAtNs, rfl, ?_, rfl, le_rfl, ?_⟩) ?_
  · rw [revise_records, get_insert, if_neg other, known]
  · simp [live]
  · rintro - endNs ⟨⟩
    exact later

theorem applied (inv : Followable s nowNs) (idx : Indexed s)
    (later : nowNs ≤ req.createdAtNs) (unused : s.records[req.id]? = none)
    {decision : OperationConflictDecision} (resolved : s.resolveRequest req = .ok decision)
    (applied : Applied s req decision t) : Followable t req.createdAtNs := by
  cases applied with
  | createNew => exact inv.enlist later _ rfl
  | queueNew => exact (inv.enlist later _ rfl).mono le_rfl (queueBehind_records _)
  | merged existingId =>
    rcases resolveRequest_cases idx req with ⟨id, -, r, known, live, -, is⟩ | ⟨none, rest⟩
    · cases resolved.symm.trans is
      exact inv.absorb later unused known live
    · rcases rest with ⟨-, is⟩ | ⟨head, rest, r, active, known, -, is⟩
      · cases resolved.symm.trans is
      · have merges := Except.ok.inj (is.symm.trans resolved)
        exact absurd merges (none head (by simp [active]) r known existingId)
  | cancelled existingId r known live => exact (inv.retire later (by decide) _).enlist le_rfl _ rfl
  | aborted existingId r known live => exact (inv.retire later (by decide) _).enlist le_rfl _ rfl
  | requeued existingId r enlisted known live stored =>
    subst stored
    exact ((inv.retire later (by decide) _).enlist le_rfl _ rfl).mono le_rfl (queueBehind_records _)

/-- What a purge takes has ended, and before it all that was merged into it. -/
theorem purged (inv : Followable s nowNs) (cutoffNs : ℕ) : Followable (s.purged cutoffNs) nowNs := by
  intro id r known merged
  obtain ⟨known, kept⟩ := get_filter_eq_some.mp known
  obtain ⟨into, target, mergedAtNs, link, there, ended, early, order⟩ := inv id r known merged
  refine ⟨into, target, mergedAtNs, link, get_filter_eq_some.mpr ⟨there, ?_⟩, ended, early, order⟩
  have recent : cutoffNs < mergedAtNs := by
    simpa [purgeable, merged, ended, OperationState.isTerminal] using kept
  by_contra dropped
  simp only [purgeable, Bool.not_eq_true', Bool.not_eq_false, Bool.and_eq_true,
    Option.any_eq_true, decide_eq_true_eq] at dropped
  obtain ⟨terminal, endNs, is, old⟩ := dropped
  exact absurd (order terminal endNs is) (by omega)

theorem retires (inv : Followable s nowNs) (later : nowNs ≤ atNs) {m : Mutator OperationEvent}
    {result : String} (retires : Retires m id final atNs result)
    (other : final ≠ .merged) : Followable (m.run s).2 atNs := by
  rcases retires s with ⟨r, event, -, -, -, run⟩ | ⟨e, run⟩ <;> rw [run]
  · exact inv.retire later other _
  · exact inv.mono later rfl

/-- A call keeps merged operations followable, unless it is made in the past. -/
theorem perform (inv : Followable s nowNs) (idx : Indexed s) (call : StoreCall)
    (later : ∀ atNs ∈ call.clockNs, nowNs ≤ atNs) :
    Followable (s.perform call) (call.clockNs.getD nowNs) := by
  cases call with
  | requestOperation req =>
    rcases requestOperation_cases req s with
      ⟨_, _, t, unused, resolved, applied, run⟩ | ⟨e, run⟩ <;> simp only [OperationStore.perform, run]
    · exact inv.applied idx (later _ rfl) unused resolved applied
    · exact inv.mono (later _ rfl) rfl
  | mergeRequestInto req existingId =>
    rcases mergeRequestInto_cases req existingId s with
      ⟨r, _, unused, known, live, run⟩ | ⟨e, run⟩ <;> simp only [OperationStore.perform, run]
    · exact inv.absorb (later _ rfl) unused known live
    · exact inv.mono (later _ rfl) rfl
  | observeShutdownStop id svc atNs =>
    rcases observeShutdownStop_cases id svc atNs s with ⟨_, -, run⟩ | ⟨e, run⟩ <;>
      simp only [OperationStore.perform, run]
    · exact inv.enlist (later _ rfl) _ rfl
    · exact inv.mono (later _ rfl) rfl
  | restartLifetimeClock id atNs =>
    rcases restartLifetimeClock_revises id atNs s with ⟨r, _, -, pending, run⟩ | ⟨e, run⟩ <;>
      simp only [OperationStore.perform, run]
    · exact inv.put (later _ rfl) rfl (by simp [pending]) (by simp [pending])
    · exact inv.mono (later _ rfl) rfl
  | startOperation id atNs =>
    rcases startOperation_revises id atNs s with ⟨r, _, -, -, run⟩ | ⟨e, run⟩ <;>
      simp only [OperationStore.perform, run]
    · exact inv.put (later _ rfl) rfl (by simp) (by simp)
    · exact inv.mono (later _ rfl) rfl
  | completeOperation id atNs result =>
    exact inv.retires (later _ rfl) (completeOperation_retires atNs result) (by decide)
  | failOperation id atNs reason =>
    exact inv.retires (later _ rfl) (failOperation_retires atNs reason) (by decide)
  | cancelOperation id atNs reason =>
    exact inv.retires (later _ rfl) (cancelOperation_retires atNs reason) (by decide)
  | abortOperation id atNs reason =>
    exact inv.retires (later _ rfl) (abortOperation_retires atNs reason) (by decide)
  | clearQueuedBehind id => exact inv.mono le_rfl rfl
  | requeueBehindHead id =>
    simp only [OperationStore.perform, requeueBehindHead]
    split
    · exact inv
    · exact inv.mono le_rfl (queueBehind_records _)
  | purgeTerminalCompletedAtOrBefore cutoffNs =>
    obtain ⟨ids, run⟩ := run_purgeTerminalCompletedAtOrBefore cutoffNs s
    simp only [OperationStore.perform, run]
    exact inv.purged cutoffNs
  | purgeTerminalRetainedUntil atNs retentionNs =>
    obtain ⟨ids, run⟩ := run_purgeTerminalRetainedUntil atNs retentionNs s
    simp only [OperationStore.perform, run]
    split_ifs
    · exact inv.mono (later _ rfl) rfl
    · exact (inv.purged _).mono (later _ rfl) rfl

theorem run (calls : List StoreCall) (inv : Followable s nowNs) (idx : Indexed s)
    (later : ∀ atNs ∈ calls.filterMap StoreCall.clockNs, nowNs ≤ atNs)
    (clock : (calls.filterMap StoreCall.clockNs).Pairwise (· ≤ ·)) :
    ∃ lastNs, Followable (runCalls OperationStore.perform s calls) lastNs := by
  induction calls generalizing s nowNs with
  | nil => exact ⟨nowNs, inv⟩
  | cons call calls ih =>
    have next := idx.effect (perform_effect s call)
    cases at_ : call.clockNs with
    | none =>
      rw [List.filterMap_cons_none at_] at later clock
      have kept := inv.perform idx call (by simp [at_])
      rw [at_] at kept
      exact ih kept next later clock
    | some atNs =>
      rw [List.filterMap_cons_some at_] at later clock
      have kept := inv.perform idx call (by simpa [at_] using later atNs (by simp))
      rw [at_] at kept
      exact ih kept next (List.pairwise_cons.mp clock).1 (List.pairwise_cons.mp clock).2

end Followable

/-- As long as the clock does not go back, what a merged operation was merged into is in the store. -/
theorem merged_operation_followed (calls : List StoreCall)
    (clock : (calls.filterMap StoreCall.clockNs).Pairwise (· ≤ ·)) (id : OperationId)
    (record : OperationRecord) (known : (runCalls perform new calls).records[id]? = some record)
    (merged : record.state = .merged) :
    ∃ into target, record.mergedInto = some into ∧
      (runCalls perform new calls).records[into]? = some target := by
  have start : Followable new 0 := fun id r known => by simp [new] at known
  obtain ⟨lastNs, inv⟩ := Followable.run calls start indexed_new (fun _ _ => Nat.zero_le _) clock
  obtain ⟨into, target, -, link, there, -⟩ := inv id record known merged
  exact ⟨into, target, link, there⟩

/-- A second start is merged into the first, which ends and is not old enough to be purged. -/
def mergedStart : List StoreCall := [.requestOperation ⟨⟨1⟩, .start, "web", .admin, none, 10⟩,
    .requestOperation ⟨⟨2⟩, .start, "web", .admin, none, 20⟩,
    .completeOperation ⟨1⟩ 30 "started", .purgeTerminalRetainedUntil 45 30]

theorem merged_operation_followed_mergedStart :
    ∃ record into target, (runCalls perform new mergedStart).records[(⟨2⟩ : OperationId)]? = some record ∧
      record.mergedInto = some into ∧
      (runCalls perform new mergedStart).records[into]? = some target := by
  obtain ⟨record, known, merged⟩ : ∃ record ∈
      (runCalls perform new mergedStart).records[(⟨2⟩ : OperationId)]?, record.state = .merged := by
    decide +kernel
  obtain ⟨into, target, link, there⟩ :=
    merged_operation_followed mergedStart (by decide) ⟨2⟩ record known merged
  exact ⟨record, into, target, known, link, there⟩

end Peinit.OperationStore
