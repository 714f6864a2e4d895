import Mathlib

/-!
# Rounds until nothing changes

`settle round fuel s` repeats a round until one has changed nothing. If a measure falls with every
change, fuel above the measure is enough. A round that looks at the elements of a list in turn and
marks some of them ends with nothing left to mark.
-/

namespace Peinit

variable {σ : Type}

def settle (round : σ → σ × Bool) : ℕ → σ → σ
  | 0, s => s
  | fuel + 1, s => match round s with
    | (t, true) => settle round fuel t
    | (t, false) => t

theorem settle_spec (round : σ → σ × Bool) (Inv : σ → Prop) (measure : σ → ℕ)
    (keeps : ∀ s, Inv s → Inv (round s).1)
    (falls : ∀ s, Inv s → (round s).2 = true → measure (round s).1 < measure s) :
    ∀ (fuel : ℕ) (s : σ), Inv s → measure s < fuel →
      ∃ last, Inv last ∧ round last = (settle round fuel s, false)
  | fuel + 1, s, inv, enough => by
    unfold settle
    have next := keeps s inv
    have lower := falls s inv
    rcases is : round s with ⟨t, _ | _⟩ <;> rw [is] at next lower
    · exact ⟨s, inv, is⟩
    · have less : measure t < measure s := lower rfl
      exact settle_spec round Inv measure keeps falls fuel t next (by omega)

/-! ## Marking -/

section Marking

variable {ι : Type} {visit : σ × Bool → ι → σ × Bool} {Marked Settled : σ → ι → Prop}
  {Marks : σ → ι → σ → Prop}

/-- What looking at an element does: it is settled and nothing changes, or it is marked and that is
reported. -/
def Spreads (visit : σ × Bool → ι → σ × Bool) (Marked Settled : σ → ι → Prop)
    (Marks : σ → ι → σ → Prop) : Prop :=
  ∀ state x, visit state x = state ∧ Settled state.1 x ∨
    ¬ Marked state.1 x ∧ ∃ after, visit state x = (after, true) ∧ Marks state.1 x after ∧
      Marked after x ∧ ∀ y, Marked state.1 y → Marked after y

/-- What looking at the elements `looked` does. -/
structure SpreadRound (Marked Settled : σ → ι → Prop) (Marks : σ → ι → σ → Prop) (looked : List ι)
    (state after : σ × Bool) : Prop where
  keeps : ∀ Inv : σ → Prop, (∀ s x t, x ∈ looked → Inv s → Marks s x t → Inv t) →
    Inv state.1 → Inv after.1
  grows : ∀ y, Marked state.1 y → Marked after.1 y
  unchanged : after.2 = false → after = state ∧ ∀ x ∈ looked, Settled state.1 x
  changed : after.2 = true → state.2 = true ∨ ∃ x ∈ looked, ¬ Marked state.1 x ∧ Marked after.1 x

theorem Spreads.round (spreads : Spreads visit Marked Settled Marks) (looked : List ι) :
    ∀ state, SpreadRound Marked Settled Marks looked state (looked.foldl visit state) := by
  induction looked with
  | nil => exact fun state => ⟨fun _ _ inv => inv, fun _ h => h, fun _ => ⟨rfl, by simp⟩, .inl⟩
  | cons x looked ih =>
    intro state
    rw [List.foldl_cons]
    rcases spreads state x with ⟨same, settled⟩ | ⟨fresh, after, next, marks, marked, kept⟩
    · rw [same]
      obtain ⟨keeps, grows, unchanged, changed⟩ := ih state
      refine ⟨fun Inv step => keeps Inv fun s y t mem => step s y t (by simp [mem]), grows,
        fun quiet => ⟨(unchanged quiet).1, fun y mem => ?_⟩, fun loud =>
        (changed loud).imp_right fun ⟨y, mem, new⟩ => ⟨y, by simp [mem], new⟩⟩
      rcases List.mem_cons.mp mem with rfl | mem
      · exact settled
      · exact (unchanged quiet).2 y mem
    · rw [next]
      obtain ⟨keeps, grows, unchanged, -⟩ := ih (after, true)
      refine ⟨fun Inv step inv => keeps Inv (fun s y t mem => step s y t (by simp [mem]))
        (step state.1 x after (by simp) inv marks), fun y h => grows y (kept y h),
        fun quiet => ?_, fun _ => .inr ⟨x, by simp, fresh, grows x marked⟩⟩
      rw [(unchanged quiet).1] at quiet
      cases quiet

/-- Rounds until nothing is marked keep what each marking keeps, and leave every element settled. -/
theorem Spreads.settle (spreads : Spreads visit Marked Settled Marks) (looked : List ι)
    (Inv : σ → Prop) (step : ∀ s x t, x ∈ looked → Inv s → Marks s x t → Inv t) (start : σ)
    (inv : Inv start) :
    ∃ last, settle (fun s => looked.foldl visit (s, false)) (looked.length + 1) start = last ∧
      Inv last ∧ ∀ x ∈ looked, Settled last x := by
  classical
  let unmarked : σ → Finset ι := fun s => looked.toFinset.filter fun x => ¬ Marked s x
  have falls : ∀ s, (looked.foldl visit (s, false)).2 = true →
      (unmarked (looked.foldl visit (s, false)).1).card < (unmarked s).card := by
    intro s loud
    have round := spreads.round looked (s, false)
    obtain ⟨x, mem, fresh, now⟩ := (round.changed loud).resolve_left (by simp)
    apply Finset.card_lt_card
    refine Finset.ssubset_iff_of_subset (fun y here => ?_) |>.mpr ⟨x, ?_, fun here => ?_⟩
    · obtain ⟨among, still⟩ := Finset.mem_filter.mp here
      exact Finset.mem_filter.mpr ⟨among, fun earlier => still (round.grows y earlier)⟩
    · exact Finset.mem_filter.mpr ⟨List.mem_toFinset.mpr mem, fresh⟩
    · exact (Finset.mem_filter.mp here).2 now
  obtain ⟨last, inv, done⟩ := settle_spec (fun s => looked.foldl visit (s, false)) Inv
    (fun s => (unmarked s).card) (fun s inv => (spreads.round looked (s, false)).keeps Inv step inv)
    (fun s _ loud => falls s loud) (looked.length + 1) start inv
    (Nat.lt_succ_of_le ((Finset.card_filter_le _ _).trans (List.toFinset_card_le _)))
  obtain ⟨same, settled⟩ := (spreads.round looked (last, false)).unchanged (congrArg Prod.snd done)
  exact ⟨last, congrArg Prod.fst (done.symm.trans same), inv, settled⟩

end Marking

end Peinit
