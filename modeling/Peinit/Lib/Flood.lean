import Peinit.Lib.Fallible

/-!
# Depth-first marking

`flood succ ok fuel seen x` walks from `x` along `succ` and marks every node that is `ok` and not yet
marked. As each level marks a node, the number of nodes that can be marked is enough fuel. `Marks` says
what one visit of a program has to do for it to compute `flood`.
-/

namespace Peinit

open Fallible List

variable {α : Type}

/-- Mark what is reached from `x` through `ok` nodes, starting with the nodes of `seen` marked. -/
def flood [DecidableEq α] (succ : α → List α) (ok : α → Bool) : ℕ → List α → α → List α
  | 0, seen, _ => seen
  | fuel + 1, seen, x =>
      (succ x).foldl
        (fun seen y => if ok y = true ∧ y ∉ seen then flood succ ok fuel (seen ++ [y]) y else seen)
        seen

/-- One step of the walk: to a successor that is `ok`. -/
def FloodStep (succ : α → List α) (ok : α → Bool) (x y : α) : Prop := y ∈ succ x ∧ ok y = true

/-- The walk from `x` through its successors `ys`, with `seen` marked, has marked `out`. -/
structure Walked (succ : α → List α) (ok : α → Bool) (seen : List α) (x : α) (ys out : List α) :
    Prop where
  grows : seen <+: out
  nodup : seen.Nodup → out.Nodup
  covers : ∀ y ∈ ys, ok y = true → y ∈ out
  /-- Nothing is left to mark behind a newly marked node. -/
  closed : ∀ z ∈ out, z ∉ seen → ∀ y, FloodStep succ ok z y → y ∈ out
  sound : ∀ z ∈ out, z ∉ seen → Relation.TransGen (FloodStep succ ok) x z

namespace Walked

variable {succ : α → List α} {ok : α → Bool} {seen mid out : List α} {x y : α} {ys zs : List α}

theorem refl (covers : ∀ y ∈ ys, ok y = true → y ∈ seen) : Walked succ ok seen x ys seen where
  grows := prefix_rfl
  nodup := id
  covers := covers
  closed _ marked unseen := absurd marked unseen
  sound _ marked unseen := absurd marked unseen

theorem trans (first : Walked succ ok seen x ys mid) (second : Walked succ ok mid x zs out) :
    Walked succ ok seen x (ys ++ zs) out where
  grows := first.grows.trans second.grows
  nodup distinct := second.nodup (first.nodup distinct)
  covers y hy hok := by
    rcases mem_append.mp hy with hy | hy
    · exact second.grows.subset (first.covers y hy hok)
    · exact second.covers y hy hok
  closed z hz unseen y hy := by
    by_cases earlier : z ∈ mid
    · exact second.grows.subset (first.closed z earlier unseen y hy)
    · exact second.closed z hz earlier y hy
  sound z hz unseen := by
    by_cases earlier : z ∈ mid
    · exact first.sound z earlier unseen
    · exact second.sound z hz earlier

theorem mark (step : FloodStep succ ok x y) (fresh : y ∉ seen)
    (rest : Walked succ ok (seen ++ [y]) y (succ y) out) : Walked succ ok seen x [y] out where
  grows := (prefix_append seen [y]).trans rest.grows
  nodup distinct := rest.nodup (by rw [← concat_eq_append]; exact distinct.concat fresh)
  covers z hz _ := by
    rw [mem_singleton.mp hz]
    exact rest.grows.subset (by simp)
  closed z hz unseen w hw := by
    by_cases here : z = y
    · subst here
      exact rest.covers w hw.1 hw.2
    · exact rest.closed z hz (by simp [unseen, here]) w hw
  sound z hz unseen := by
    by_cases here : z = y
    · exact here ▸ .single step
    · exact .head step (rest.sound z hz (by simp [unseen, here]))

end Walked

variable [DecidableEq α] {succ : α → List α} {ok : α → Bool} {nodes : Finset α}

/-- With fuel for every node that can still be marked, the walk is complete. -/
theorem walked_flood (bounded : ∀ y, ok y = true → y ∈ nodes) (fuel : ℕ) (seen : List α) (x : α)
    (enough : (nodes \ seen.toFinset).card ≤ fuel) :
    Walked succ ok seen x (succ x) (flood succ ok fuel seen x) := by
  induction fuel generalizing seen x with
  | zero =>
    apply Walked.refl
    intro y _ hok
    have empty : nodes \ seen.toFinset = ∅ := Finset.card_eq_zero.mp (Nat.le_zero.mp enough)
    have marked := Finset.sdiff_eq_empty_iff_subset.mp empty (bounded y hok)
    exact mem_toFinset.mp marked
  | succ fuel ih =>
    -- The successors are walked one after the other; only those of `x` itself may be met.
    suffices walk : ∀ ys, (∀ y ∈ ys, y ∈ succ x) → ∀ seen : List α,
        (nodes \ seen.toFinset).card ≤ fuel + 1 → Walked succ ok seen x ys (ys.foldl
          (fun seen y => if ok y = true ∧ y ∉ seen then flood succ ok fuel (seen ++ [y]) y else seen)
          seen) from walk (succ x) (fun _ hy => hy) seen enough
    intro ys
    induction ys with
    | nil => exact fun _ _ _ => Walked.refl (by simp)
    | cons y ys inner =>
      intro successors seen enough
      have first : Walked succ ok seen x [y]
          (if ok y = true ∧ y ∉ seen then flood succ ok fuel (seen ++ [y]) y else seen) := by
        split_ifs with hy
        · have member : y ∈ nodes \ seen.toFinset := by simp [bounded y hy.1, hy.2]
          have smaller : nodes \ (seen ++ [y]).toFinset = (nodes \ seen.toFinset).erase y := by
            ext z
            simp [and_left_comm]
          apply Walked.mark ⟨successors y (by simp), hy.1⟩ hy.2
          apply ih
          rw [smaller, Finset.card_erase_of_mem member]
          omega
        · apply Walked.refl
          intro z hz hok
          rw [mem_singleton.mp hz] at hok ⊢
          by_contra fresh
          exact hy ⟨hok, fresh⟩
      have fewer : (nodes \ toFinset (if ok y = true ∧ y ∉ seen then
          flood succ ok fuel (seen ++ [y]) y else seen)).card ≤ fuel + 1 := by
        refine le_trans (Finset.card_le_card ?_) enough
        apply Finset.sdiff_subset_sdiff subset_rfl
        intro z hz
        exact mem_toFinset.mpr (first.grows.subset (mem_toFinset.mp hz))
      exact first.trans (inner (fun z hz => successors z (by simp [hz])) _ fewer)

theorem mem_flood (bounded : ∀ y, ok y = true → y ∈ nodes) {fuel : ℕ} (enough : nodes.card ≤ fuel)
    {x y : α} : y ∈ flood succ ok fuel [] x ↔ Relation.TransGen (FloodStep succ ok) x y := by
  have walked : Walked succ ok [] x (succ x) (flood succ ok fuel [] x) :=
    walked_flood bounded fuel [] x (by simpa using enough)
  constructor
  · exact fun marked => walked.sound y marked (by simp)
  · intro reached
    induction reached with
    | single step => exact walked.covers _ step.1 step.2
    | tail _ step marked => exact walked.closed _ marked (by simp) _ step

/-! ## Programs that walk -/

section Program

variable {σ ε γ : Type}

/-- `visit` walks as `flood` does: `state seen` is the state in which `seen` is marked, `next s x` the
successors it tries, `one rest y` what it does at `y` before going on with `rest`, and `emit y` what it
reports for a marked node.  Only nodes of `known` are tried. -/
structure Marks (succ : α → List α) (ok : α → Bool) (known : α → Prop) (state : List α → σ)
    (next : σ → α → List α)
    (one : (α → Fallible σ ε (List γ)) → α → Fallible σ ε (List γ)) (emit : α → γ)
    (visit : ℕ → α → Fallible σ ε (List γ)) : Prop where
  stops : ∀ x, visit 0 x = pure []
  walks : ∀ fuel x s, (visit (fuel + 1) x).run s = (Fallible.forEach (one (visit fuel)) (next s x)).run s
  /-- The tried successors are all but some that would not be marked. -/
  tried : ∀ seen x, (∀ z ∈ seen, ok z = true) → ∃ p : α → Bool,
    next (state seen) x = (succ x).filter p ∧
      ∀ y ∈ succ x, (p y = true → known y) ∧ (ok y = true → y ∉ seen → p y = true)
  hit : ∀ rest y seen, (∀ z ∈ seen, ok z = true) → ok y = true → y ∉ seen →
    (one rest y).run (state seen) = ((emit y :: ·) <$> rest y).run (state (seen ++ [y]))
  miss : ∀ rest y seen, (∀ z ∈ seen, ok z = true) → known y → ¬ (ok y = true ∧ y ∉ seen) →
    (one rest y).run (state seen) = (.ok [], state seen)

/-- A program that walks as `flood` does marks what `flood` marks and never fails. -/
theorem Marks.run {known : α → Prop} {state : List α → σ} {next : σ → α → List α}
    {one : (α → Fallible σ ε (List γ)) → α → Fallible σ ε (List γ)} {emit : α → γ}
    {visit : ℕ → α → Fallible σ ε (List γ)}
    (marks : Marks succ ok known state next one emit visit) (fuel : ℕ) (seen : List α) (x : α)
    (good : ∀ z ∈ seen, ok z = true) : ∃ new, flood succ ok fuel seen x = seen ++ new ∧
      (∀ z ∈ new, ok z = true) ∧
      (visit fuel x).run (state seen) = (.ok (new.map emit), state (seen ++ new)) := by
  induction fuel generalizing seen x with
  | zero =>
    refine ⟨[], by simp [flood], by simp, ?_⟩
    rw [marks.stops, run_pure, map_nil, append_nil]
  | succ fuel ih =>
    obtain ⟨p, tried, kept⟩ := marks.tried seen x good
    rw [marks.walks, tried, flood]
    -- A successor that is not tried would not have been marked; this stays so as marks are added.
    suffices walk : ∀ ys : List α, (∀ y ∈ ys, y ∈ succ x) → ∀ more : List α,
        (∀ z ∈ more, ok z = true) → ∃ new : List α,
        ys.foldl (fun seen y => if ok y = true ∧ y ∉ seen then flood succ ok fuel (seen ++ [y]) y
          else seen) (seen ++ more) = seen ++ more ++ new ∧ (∀ z ∈ new, ok z = true) ∧
        (forEach (one (visit fuel)) (ys.filter p)).run (state (seen ++ more)) =
          (.ok (new.map emit), state (seen ++ more ++ new)) by
      simpa using walk (succ x) (fun _ h => h) [] (by simp)
    intro ys
    induction ys with
    | nil => exact fun _ more _ => ⟨[], by simp, by simp, by simp [forEach]⟩
    | cons y ys inner =>
      intro successors more goodMore
      have marked : ∀ z ∈ seen ++ more, ok z = true := fun z hz =>
        (mem_append.mp hz).elim (good z) (goodMore z)
      have later := inner fun z hz => successors z (by simp [hz])
      obtain ⟨tryKnown, tryAll⟩ := kept y (successors y (by simp))
      by_cases new : ok y = true ∧ y ∉ seen ++ more
      · have py : p y = true := tryAll new.1 fun h => new.2 (by simp [h])
        obtain ⟨first, floodFirst, goodFirst, runFirst⟩ := ih (seen ++ more ++ [y]) y (by
          intro z hz
          rcases mem_append.mp hz with hz | hz
          · exact marked z hz
          · rw [mem_singleton.mp hz]
            exact new.1)
        obtain ⟨rest, floodRest, goodRest, runRest⟩ := later (more ++ [y] ++ first) (by
          simp only [mem_append, mem_singleton]
          rintro z ((hz | rfl) | hz)
          · exact goodMore z hz
          · exact new.1
          · exact goodFirst z hz)
        refine ⟨y :: first ++ rest, ?_, ?_, ?_⟩
        · rw [foldl_cons, if_pos new, floodFirst]
          simpa using floodRest
        · simp only [mem_append, mem_cons]
          rintro z ((rfl | hz) | hz)
          · exact new.1
          · exact goodFirst z hz
          · exact goodRest z hz
        · have visited : (one (visit fuel) y).run (state (seen ++ more)) =
              (.ok (emit y :: first.map emit), state (seen ++ (more ++ [y] ++ first))) := by
            rw [marks.hit _ y _ marked new.1 new.2, run_map, runFirst]
            simp
          rw [filter_cons_of_pos py, forEach, run_bind_of_ok visited, run_bind_of_ok runRest]
          simp
      · obtain ⟨rest, floodRest, goodRest, runRest⟩ := later more goodMore
        refine ⟨rest, by rw [foldl_cons, if_neg new, floodRest], goodRest, ?_⟩
        by_cases py : p y = true
        · rw [filter_cons_of_pos py, forEach,
            run_bind_of_ok (marks.miss _ y _ marked (tryKnown py) new),
            run_bind_of_ok runRest]
          simp
        · rw [filter_cons_of_neg py, runRest]

end Program

end Peinit
