import Peinit.Operation.Merged

/-!
# The life of an operation

`Change` says what a call can make of the record under one id. What becomes of a record over a run, and
what every record satisfies, is read off it.
-/

namespace Peinit.OperationStore

open OrdMap

variable {s t u : OperationStore} {id key : OperationId} {r r' r'' : OperationRecord}
  {old new : Option OperationRecord}

inductive Change : Option OperationRecord → Option OperationRecord → Prop
  | same (old : Option OperationRecord) : Change old old
  | made (request : OperationRequest) : Change none (some (recordFromRequest request))
  | absorbed (request : OperationRequest) (into : OperationId) :
      Change none (some (mergedRecord request into))
  | clockRestarted (r : OperationRecord) (atNs : ℕ) (pending : r.state = .pending) :
      Change (some r) (some { r with lifetimeFromNs := max atNs r.createdAtNs })
  | started (r : OperationRecord) (atNs : ℕ) (pending : r.state = .pending) :
      Change (some r) (some { r with state := .running, startedAtNs := some atNs })
  | ended (r : OperationRecord) {final : OperationState} (atNs : ℕ) (result : String)
      (live : r.state.isTerminal = false) (terminal : final.isTerminal = true) :
      Change (some r) (some (r.ended final atNs result))
  | purged (r : OperationRecord) (terminal : r.state.isTerminal = true) : Change (some r) none

/-- A further write, under `key`, concerns no other id. -/
theorem Change.put (own : Change s.records[key]? (some r))
    (other : Change s.records[id]? t.records[id]?) (written : u.records = t.records.insert key r) :
    Change s.records[id]? u.records[id]? := by
  rw [written, get_insert]
  split_ifs with here
  · exact here ▸ own
  · exact other

theorem Applied.change {req : OperationRequest} (unused : s.records[req.id]? = none)
    {decision : OperationConflictDecision} (applied : Applied s req decision t) (id : OperationId) :
    Change s.records[id]? t.records[id]? := by
  have made : Change s.records[req.id]? (some (recordFromRequest req)) := unused ▸ .made req
  cases applied with
  | createNew => exact made.put (.same _) rfl
  | queueNew => exact made.put (.same _) (queueBehind_records _)
  | merged into => exact .put (unused ▸ .absorbed req into) (.same _) rfl
  | cancelled into r known live | aborted into r known live =>
    exact made.put (.put (known ▸ .ended r _ _ live rfl) (.same _) retire_records) rfl
  | requeued into r enlisted known live stored =>
    subst stored
    exact made.put (.put (known ▸ .ended r _ _ live rfl) (.same _) retire_records) (queueBehind_records _)

theorem Effect.change {call : StoreCall} (effect : Effect s call t) (id : OperationId) :
    Change s.records[id]? t.records[id]? := by
  cases effect with
  | unchanged | cleared => exact .same _
  | requested unused resolved applied => exact applied.change unused id
  | absorbed unused known live => exact .put (unused ▸ .absorbed _ _) (.same _) rfl
  | @observed id' service atNs unused =>
    exact .put (unused ▸ .made ⟨id', .stop, service, .shutdown, none, atNs⟩) (.same _) rfl
  | clockRestarted known pending =>
    exact .put (known ▸ .clockRestarted _ _ pending) (.same _) rfl
  | started known pending => exact .put (known ▸ .started _ _ pending) (.same _) rfl
  | retired known live created ended =>
    exact .put (known ▸ .ended _ _ _ live ended) (.same _) retire_records
  | requeued known => exact queueBehind_records (s := s) _ ▸ .same _
  | purged call cutoffNs =>
    simp only [OperationStore.purged, get_filter]
    cases s.records[id]? with
    | none => exact .same _
    | some r =>
      rw [Option.filter_some]
      cases drop : purgeable cutoffNs r with
      | true => exact .purged r (Bool.and_eq_true_iff.mp drop).1
      | false => exact .same _

/-! ## What a record keeps -/

/-- `r'` is what has become of `r`: the request stays what it was, it is started once, and what has
ended is not written again. -/
structure Continues (r r' : OperationRecord) : Prop where
  request : r'.id = r.id ∧ r'.operationType = r.operationType ∧ r'.service = r.service ∧
    r'.source = r.source ∧ r'.caller = r.caller ∧ r'.createdAtNs = r.createdAtNs
  begun : r.state ≠ .pending → r'.state ≠ .pending ∧ r'.startedAtNs = r.startedAtNs ∧
    r'.lifetimeFromNs = r.lifetimeFromNs
  ended : r.state.isTerminal = true → r' = r

theorem Continues.refl (r : OperationRecord) : Continues r r := by
  constructor <;> simp

theorem Continues.trans (first : Continues r r') (next : Continues r' r'') : Continues r r'' where
  request := by simp [next.request, first.request]
  begun := by
    intro begun
    obtain ⟨still, startedAt, lifetime⟩ := first.begun begun
    simpa [startedAt, lifetime] using next.begun still
  ended := by
    intro terminal
    obtain rfl := first.ended terminal
    exact next.ended terminal

theorem Change.continues (change : Change (some r) new) :
    (∃ r', new = some r' ∧ Continues r r') ∨ (new = none ∧ r.state.isTerminal = true) := by
  cases change with
  | same => exact .inl ⟨r, rfl, .refl r⟩
  | clockRestarted _ atNs pending | started _ atNs pending =>
    refine .inl ⟨_, rfl, ?_⟩
    constructor <;> simp [pending]
  | @ended _ final atNs result live terminal =>
    refine .inl ⟨_, rfl, by simp [OperationRecord.ended], fun _ => ⟨?_, rfl, rfl⟩, by simp [live]⟩
    rintro rfl
    cases terminal
  | purged _ terminal => exact .inr ⟨rfl, terminal⟩

/-- The record `r` goes on as that of the same operation, or it ends and is then dropped. -/
def LivesUntilDropped (s : OperationStore) (calls : List StoreCall) (id : OperationId)
    (r : OperationRecord) : Prop :=
  (∃ r', (runCalls perform s calls).records[id]? = some r' ∧ Continues r r') ∨
    ∃ done call rest last, calls = done ++ call :: rest ∧
      (runCalls perform s done).records[id]? = some last ∧ Continues r last ∧
      last.state.isTerminal = true ∧ (runCalls perform s (done ++ [call])).records[id]? = none

theorem operation_lives_until_dropped (s : OperationStore) (calls : List StoreCall) (id : OperationId)
    (r : OperationRecord) (known : s.records[id]? = some r) : s.LivesUntilDropped calls id r := by
  induction calls generalizing s r with
  | nil => exact .inl ⟨r, known, .refl r⟩
  | cons call calls ih =>
    have change := (perform_effect s call).change id
    rw [known] at change
    rcases change.continues with ⟨r', next, first⟩ | ⟨dropped, terminal⟩
    · rcases ih (s.perform call) r' next with
        ⟨last, there, life⟩ | ⟨done, at_, rest, last, rfl, there, life, ended⟩
      · exact .inl ⟨last, there, first.trans life⟩
      · exact .inr ⟨call :: done, at_, rest, last, rfl, there, first.trans life, ended⟩
    · exact .inr ⟨[], call, calls, r, rfl, known, .refl r, terminal, dropped⟩

theorem operation_lives_mergedStart :
    ∃ r, (runCalls perform .new mergedStart).records[(⟨1⟩ : OperationId)]? = some r ∧
      (runCalls perform .new mergedStart).LivesUntilDropped [.purgeTerminalCompletedAtOrBefore 30]
        ⟨1⟩ r := by
  obtain ⟨r, known⟩ := Option.isSome_iff_exists.mp (by decide +kernel :
    (runCalls perform .new mergedStart).records[(⟨1⟩ : OperationId)]?.isSome = true)
  exact ⟨r, known, operation_lives_until_dropped _ _ _ r known⟩

/-! ## What every record satisfies -/

structure Coherent (r : OperationRecord) : Prop where
  completed : r.completedAtNs.isSome = r.state.isTerminal
  merged : r.mergedInto.isSome = true → r.state = .merged
  pending : r.state = .pending → r.startedAtNs = none
  running : r.state = .running → r.startedAtNs.isSome = true
  lifetime : r.createdAtNs ≤ r.lifetimeFromNs

theorem Change.coherent (change : Change old new) (coherent : ∀ r ∈ old, Coherent r) :
    ∀ r ∈ new, Coherent r := by
  cases change with
  | same => exact coherent
  | made request =>
    rintro _ ⟨⟩
    constructor <;> simp [recordFromRequest, OperationRecord.new]
  | absorbed request into =>
    rintro _ ⟨⟩
    constructor <;> simp [mergedRecord, recordFromRequest, OperationRecord.new, OperationState.isTerminal]
  | clockRestarted r atNs pending =>
    rintro _ ⟨⟩
    have before := coherent r rfl
    exact { before with lifetime := le_max_right .. }
  | started r atNs pending =>
    rintro _ ⟨⟩
    obtain ⟨completed, merged, -, -, lifetime⟩ := coherent r rfl
    constructor <;> simp_all
  | @ended r final atNs result live terminal =>
    rintro _ ⟨⟩
    obtain ⟨-, merged, -, -, lifetime⟩ := coherent r rfl
    constructor <;> simp only [OperationRecord.ended, Option.isSome_some, terminal, lifetime]
    · intro linked
      rw [merged linked] at live
      cases live
    all_goals
      rintro rfl
      cases terminal
  | purged => simp

theorem records_coherent (calls : List StoreCall) (id : OperationId) (r : OperationRecord)
    (known : (runCalls perform .new calls).records[id]? = some r) : Coherent r := by
  have kept : ∀ r ∈ (runCalls perform .new calls).records[id]?, Coherent r :=
    invariant_of_calls (fun s : OperationStore => ∀ r ∈ s.records[id]?, Coherent r)
      (fun s call inv => ((perform_effect s call).change id).coherent inv) calls
      (by simp [OperationStore.new])
  exact kept r known

theorem records_coherent_mergedStart :
    ∃ r, (runCalls perform .new mergedStart).records[(⟨2⟩ : OperationId)]? = some r ∧
      Coherent r := by
  obtain ⟨r, known⟩ := Option.isSome_iff_exists.mp (by decide +kernel :
    (runCalls perform .new mergedStart).records[(⟨2⟩ : OperationId)]?.isSome = true)
  exact ⟨r, known, records_coherent mergedStart ⟨2⟩ r known⟩

end Peinit.OperationStore
