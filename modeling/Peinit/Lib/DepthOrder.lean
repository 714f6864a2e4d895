import Mathlib

/-!
# Depth-first ordering

`visitOrder` goes down the dependencies of a node and then appends the node. `temporary` is the path it
came along; a dependency on the path is a cycle, which is reported. Only nodes of `within` are visited.
The path visits none twice, so with one more fuel than their number an error is a cycle.
-/

namespace Peinit

open List

variable {α : Type} [DecidableEq α] {visit : List α → α → Except (List α) (List α)}

def visitOrder (within : α → Bool) (deps : α → List α) :
    ℕ → List α → List α → α → Except (List α) (List α)
  | 0, temporary, _, _ => .error temporary
  | fuel + 1, temporary, order, node =>
    -- What is in the order is permanent.
    if node ∈ order then .ok order
    else match temporary.idxOf? node with
      | some index => .error (temporary.drop index)
      | none => do
        let order ← (deps node).foldlM (fun order target =>
          if within target = true then
            visitOrder within deps fuel (temporary ++ [node]) order target
          else .ok order) order
        return order ++ [node]

/-- `order` has become `out`, which lists `nodes` and nothing new that `within` does not hold of. -/
structure Visited (within : α → Bool) (order nodes out : List α) : Prop where
  grows : order <+: out
  lists : ∀ node ∈ nodes, node ∈ out
  inside : ∀ node ∈ out, node ∈ order ∨ within node = true

namespace Visited

variable {within : α → Bool} {order mid out nodes more : List α}

omit [DecidableEq α] in
theorem refl (order : List α) : Visited within order [] order :=
  ⟨prefix_rfl, by simp, fun _ mem => .inl mem⟩

omit [DecidableEq α] in
theorem trans (first : Visited within order nodes mid) (second : Visited within mid more out) :
    Visited within order (nodes ++ more) out where
  grows := first.grows.trans second.grows
  lists node mem := by
    rcases mem_append.mp mem with mem | mem
    · exact second.grows.subset (first.lists node mem)
    · exact second.lists node mem
  inside node mem := by
    rcases second.inside node mem with mem | holds
    · exact first.inside node mem
    · exact .inr holds

end Visited

variable {within : α → Bool} {deps : α → List α}

omit [DecidableEq α] in
theorem visited_foldlM (nodes : List α)
    (step : ∀ node ∈ nodes, ∀ order out, visit order node = .ok out →
      Visited within order ([node].filter (within ·)) out) :
    ∀ order out, nodes.foldlM visit order = .ok out →
      Visited within order (nodes.filter (within ·)) out := by
  induction nodes with
  | nil =>
    rintro order out ⟨⟩
    exact .refl order
  | cons node nodes ih =>
    intro order out folded
    rw [foldlM_cons] at folded
    rcases visited : visit order node with error | mid <;> rw [visited] at folded
    · cases folded
    · have first := step node (by simp) order mid visited
      have rest := ih (fun other mem => step other (by simp [mem])) mid out folded
      rw [← singleton_append, filter_append]
      exact first.trans rest

omit [DecidableEq α] in
theorem visited_if {node : α} {order out : List α}
    (step : within node = true → visit order node = .ok out → Visited within order [node] out)
    (visited : (if within node = true then visit order node else .ok order) = .ok out) :
    Visited within order ([node].filter (within ·)) out := by
  by_cases inside : within node = true
  · rw [if_pos inside] at visited
    rw [filter_cons_of_pos inside]
    exact step inside visited
  · rw [if_neg inside] at visited
    cases visited
    rw [filter_cons_of_neg inside]
    exact .refl order

theorem visitOrder_ok (fuel : ℕ) : ∀ (temporary order : List α) (node : α) (out : List α),
    within node = true → visitOrder within deps fuel temporary order node = .ok out →
      Visited within order [node] out := by
  induction fuel with
  | zero =>
    intro temporary order node out _ done
    cases done
  | succ fuel ih =>
    intro temporary order node out inside done
    rw [visitOrder] at done
    split_ifs at done with known
    · cases done
      refine ⟨prefix_rfl, fun other mem => ?_, fun _ mem => .inl mem⟩
      rwa [mem_singleton.mp mem]
    · split at done
      · cases done
      · rcases folded : (deps node).foldlM (fun order target =>
          if within target = true then
            visitOrder within deps fuel (temporary ++ [node]) order target
          else .ok order) order with error | mid <;> rw [folded] at done
        · cases done
        · cases done
          have below := visited_foldlM (deps node) (fun target _ order out visited =>
            visited_if (ih (temporary ++ [node]) order target out) visited) order mid folded
          refine ⟨below.grows.trans (prefix_append mid [node]), fun other mem => ?_,
            fun other mem => ?_⟩
          · rw [mem_singleton.mp mem]
            simp
          · rcases mem_append.mp mem with mem | mem
            · exact below.inside other mem
            · rw [mem_singleton.mp mem]
              exact .inr inside

end Peinit
