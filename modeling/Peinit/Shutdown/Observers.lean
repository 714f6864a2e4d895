import Peinit.Operation.Index
import Peinit.Shutdown.Effects

/-!
# The operations that observe a shutdown do not stop it

As long as the clock does not fall behind the records, the operations that observe a shutdown can be
started and ended whenever the shutdown wants to.
-/

namespace Peinit

open OperationStore List

/-- The index of the operations is exact, and no live operation was created after `nowNs`. -/
structure OperationsSound (operations : OperationStore) (nowNs : ℕ) : Prop where
  indexed : operations.Indexed
  created : ∀ (id : OperationId) (r : OperationRecord), operations.records[id]? = some r →
    r.state.isTerminal = false → r.createdAtNs ≤ nowNs

namespace OperationsSound

variable {operations : OperationStore} {nowNs : ℕ} {id : OperationId} {r : OperationRecord}

theorem retire (sound : OperationsSound operations nowNs) (known : operations.records[id]? = some r)
    {final : OperationState} (terminal : final.isTerminal = true) (result : String) :
    OperationsSound (operations.retire id (r.ended final nowNs result)) nowNs where
  indexed := sound.indexed.retire_ended known terminal nowNs result
  created := by
    intro other r' known' live
    rw [retire_records, OrdMap.get_insert] at known'
    split_ifs at known'
    · cases known'
      rw [show (r.ended final nowNs result).state = final from rfl, terminal] at live
      cases live
    · exact sound.created other r' known' live

end OperationsSound

namespace ShutdownWork

variable {w : ShutdownWork} {nowNs : ℕ}

theorem onOperations_of_run {α : Type} {m : OperationStore.Mutator α} {a : α} {operations : OperationStore}
    (run : m.run w.operations = (.ok a, operations)) : w.onOperations m = .ok { w with operations } := by
  unfold onOperations
  rw [run]

def LiveAt (operations : OperationStore) (id : OperationId) : Prop :=
  ∃ r, operations.records[id]? = some r ∧ r.state.isTerminal = false

/-! ## Services that have stopped -/

theorem settleObservation_total (sound : OperationsSound w.operations nowNs)
    {observation : OperationId × String} (alive : LiveAt w.operations observation.1) :
    ∃ next, w.settleObservation nowNs observation = .ok next ∧
      OperationsSound next.operations nowNs ∧
      ∀ id, id ≠ observation.1 → next.operations.records[id]? = w.operations.records[id]? := by
  obtain ⟨r, known, live⟩ := alive
  have created := sound.created _ r known live
  have others : ∀ (r' : OperationRecord) (id : OperationId), id ≠ observation.1 →
      (w.operations.retire observation.1 r').records[id]? = w.operations.records[id]? := by
    intro r' id away
    rw [retire_records, OrdMap.get_insert, if_neg (Ne.symm away)]
  have completes : ∃ next, w.onOperations
      (completeOperation observation.1 nowNs "inactive") = .ok next ∧
      OperationsSound next.operations nowNs ∧
      ∀ id, id ≠ observation.1 → next.operations.records[id]? = w.operations.records[id]? := by
    exact ⟨_, onOperations_of_run (run_endOperation known (OperationRecord.run_finish _ _ _ _ live created) rfl),
      sound.retire known rfl _, others _⟩
  have fails : ∃ next, w.onOperations (failOperation observation.1 nowNs
      "service failed during shutdown") = .ok next ∧
      OperationsSound next.operations nowNs ∧
      ∀ id, id ≠ observation.1 → next.operations.records[id]? = w.operations.records[id]? := by
    exact ⟨_, onOperations_of_run (run_endOperation known (OperationRecord.run_finish _ _ _ _ live created) rfl),
      sound.retire known rfl _, others _⟩
  unfold settleObservation
  split
  · exact completes
  · exact completes
  · exact completes
  · exact fails
  · exact fails
  · exact ⟨w, rfl, sound, fun _ _ => rfl⟩

theorem observations_live (idx : w.operations.Indexed) : (w.observations.map Prod.fst).Nodup ∧
      ∀ observation ∈ w.observations, LiveAt w.operations observation.1 := by
  have lists : ∀ {svc : String} {active : List OperationId},
      w.operations.activeByService[svc]? = some active → active = w.operations.activeForService svc := by
    intro svc active got
    rw [activeForService, got]
    rfl
  have distinct : w.operations.activeByService.values.flatten.Nodup := by
    rw [nodup_flatten]
    constructor
    · intro active value
      obtain ⟨svc, got⟩ := (OrdMap.mem_values _ _).mp value
      rw [lists got]
      exact idx.nodup svc
    · -- an operation stands in the list of its own service only
      unfold OrdMap.values
      rw [pairwise_map]
      refine Std.ExtTreeMap.distinct_keys_toList.imp_of_mem fun {a b} here there away id one two => ?_
      rw [lists ((OrdMap.mem_toList _ _ _).mp here)] at one
      rw [lists ((OrdMap.mem_toList _ _ _).mp there)] at two
      obtain ⟨r, known, same, -⟩ := idx.mem_active.mp one
      obtain ⟨r', known', same', -⟩ := idx.mem_active.mp two
      cases known.symm.trans known'
      exact away (by rw [← same, ← same']; exact compare_eq_iff_eq.mpr rfl)
  constructor
  · refine distinct.sublist ?_
    unfold observations
    generalize w.operations.activeByService.values.flatten = ids
    induction ids with
    | nil => exact List.Sublist.refl _
    | cons id ids ih =>
      rw [filterMap_cons]
      split
      · exact ih.cons id
      · next r known =>
        rw [filter_cons]
        split_ifs
        · rw [map_cons, map_cons, idx.keyed known]
          exact ih.cons_cons id
        · exact ih.cons id
  · intro observation mem
    unfold observations at mem
    obtain ⟨r, member, rfl⟩ := mem_map.mp mem
    obtain ⟨id, active, known⟩ := mem_filterMap.mp (mem_filter.mp member).1
    obtain ⟨list, value, here⟩ := mem_flatten.mp active
    obtain ⟨svc, got⟩ := (OrdMap.mem_values _ _).mp value
    rw [lists got] at here
    obtain ⟨r', known', -, live⟩ := idx.mem_active.mp here
    cases known.symm.trans known'
    exact ⟨r, (idx.keyed known).symm ▸ known, live⟩

theorem settleStopped_total (sound : OperationsSound w.operations nowNs) :
    ∃ next, w.settleStopped nowNs = .ok next ∧ OperationsSound next.operations nowNs := by
  obtain ⟨distinct, alive⟩ := observations_live sound.indexed
  unfold settleStopped
  generalize w.observations = observations at distinct alive
  induction observations generalizing w with
  | nil => exact ⟨w, rfl, sound⟩
  | cons observation observations ih =>
    obtain ⟨mid, settled, sound', others⟩ :=
      settleObservation_total sound (alive observation (mem_cons_self ..))
    rw [map_cons, nodup_cons] at distinct
    rw [foldlM_cons, settled]
    refine ih sound' distinct.2 fun later mem => ?_
    obtain ⟨r, known, live⟩ := alive later (mem_cons_of_mem _ mem)
    refine ⟨r, ?_, live⟩
    rw [others later.1 fun same => distinct.1 (mem_map.mpr ⟨later, mem, same⟩)]
    exact known

end ShutdownWork

end Peinit
