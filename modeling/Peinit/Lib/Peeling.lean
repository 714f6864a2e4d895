import Mathlib

/-!
# Taking what nothing comes before

From a set one takes, round after round, what nothing left in it goes before. Round `i` takes what the
longest chain has `i` steps back from, and everything is taken unless there is a cycle.  A finite set
without a cycle has a last element, and where every step lowers a rank there is no cycle.
-/

namespace Peinit

variable {α : Type} {before : α → α → Prop} {S : Set α} {c x : α} {n : ℕ}

/-- A chain of `n` steps back from `c`, all of it in `S`. -/
inductive ChainBack (before : α → α → Prop) (S : Set α) : ℕ → α → Prop where
  | here {c : α} (inside : c ∈ S) : ChainBack before S 0 c
  | back {n : ℕ} {c d : α} (inside : c ∈ S) (step : before d c) (rest : ChainBack before S n d) :
      ChainBack before S (n + 1) c

/-- The longest chain back from `c` has `n` steps. -/
def LongestBack (before : α → α → Prop) (S : Set α) (c : α) (n : ℕ) : Prop :=
  IsGreatest {n | ChainBack before S n c} n

/-- What is left of `S` after a round. -/
def peel (before : α → α → Prop) (S : Set α) : Set α := {c | c ∈ S ∧ ∃ d ∈ S, before d c}

namespace ChainBack

theorem mem (chain : ChainBack before S n c) : c ∈ S := by
  cases chain with
  | here inside => exact inside
  | back inside => exact inside

theorem shorten (chain : ChainBack before S (n + 1) c) : ChainBack before S n c := by
  induction n generalizing c with
  | zero => exact .here chain.mem
  | succ n ih =>
    cases chain with
    | back inside step rest => exact .back inside step (ih rest)

theorem along {d : α} (path : Relation.TransGen (fun a b => a ∈ S ∧ b ∈ S ∧ before a b) d c)
    (chain : ChainBack before S n d) : ChainBack before S (n + 1) c := by
  induction path with
  | single edge => exact .back edge.2.1 edge.2.2 chain
  | tail _ edge ih => exact .back edge.2.1 edge.2.2 ih.shorten

theorem of_cycle (cycle : Relation.TransGen (fun a b => a ∈ S ∧ b ∈ S ∧ before a b) c c) (n : ℕ) :
    ChainBack before S n c := by
  induction n with
  | zero =>
    obtain ⟨_, edge, -⟩ := Relation.TransGen.head'_iff.mp cycle
    exact .here edge.1
  | succ n ih => exact ih.along cycle

end ChainBack

theorem chainBack_peel : ChainBack before (peel before S) n c ↔ ChainBack before S (n + 1) c := by
  constructor
  · intro chain
    induction chain with
    | here inside =>
      obtain ⟨inside, d, there, step⟩ := inside
      exact .back inside step (.here there)
    | back inside step _ ih => exact .back inside.1 step ih
  · intro chain
    induction n generalizing c with
    | zero =>
      cases chain with
      | back inside step rest => exact .here ⟨inside, _, rest.mem, step⟩
    | succ n ih =>
      cases chain with
      | back inside step rest => exact .back ⟨inside, _, rest.mem, step⟩ step (ih rest)

theorem longestBack_zero : LongestBack before S c 0 ↔ c ∈ S ∧ c ∉ peel before S := by
  constructor
  · rintro ⟨chain, greatest⟩
    refine ⟨chain.mem, fun left => ?_⟩
    obtain ⟨inside, d, there, step⟩ := left
    have := greatest (.back inside step (.here there))
    omega
  · rintro ⟨inside, gone⟩
    refine ⟨.here inside, fun n chain => ?_⟩
    cases n with
    | zero => exact le_rfl
    | succ n => exact absurd (chainBack_peel.mpr chain).mem gone

theorem longestBack_peel : LongestBack before (peel before S) c n ↔ LongestBack before S c (n + 1) := by
  constructor
  · rintro ⟨chain, greatest⟩
    refine ⟨chainBack_peel.mp chain, fun m longer => ?_⟩
    cases m with
    | zero => omega
    | succ m =>
      have := greatest (chainBack_peel.mpr longer)
      omega
  · rintro ⟨chain, greatest⟩
    refine ⟨chainBack_peel.mpr chain, fun m longer => ?_⟩
    have := greatest (chainBack_peel.mp longer)
    omega

/-! ## Cycles -/

variable {r : α → α → Prop}

theorem exists_last_of_acyclic (acyclic : ∀ x, ¬ Relation.TransGen r x x) {S : Set α}
    (finite : S.Finite) (member : x ∈ S) : ∃ y ∈ S, ∀ z ∈ S, ¬ r y z := by
  have strict : IsStrictOrder α fun a b => Relation.TransGen r b a :=
    { irrefl := acyclic, trans := fun a b c ab bc => bc.trans ab }
  have wf : S.WellFoundedOn fun a b => Relation.TransGen r b a := finite.wellFoundedOn
  obtain ⟨y, -, least⟩ := wf.has_min Set.univ ⟨⟨x, member⟩, trivial⟩
  exact ⟨y, y.2, fun z inside step => least ⟨z, inside⟩ trivial (.single step)⟩

theorem acyclic_of_rank (rank : α → ℕ) (lowers : ∀ x y, r x y → rank y < rank x) (x : α) :
    ¬ Relation.TransGen r x x := by
  intro cycle
  have below : Relation.TransGen (· > ·) (rank x) (rank x) := cycle.lift rank lowers
  rw [Relation.transGen_eq_self] at below
  exact lt_irrefl _ below

theorem transGen_cases (seen : α → α → Prop) {y : α} (path : Relation.TransGen r x y) :
    Relation.TransGen seen x y ∨
      ∃ s t, r s t ∧ ¬ seen s t ∧ Relation.ReflTransGen r x s ∧ Relation.ReflTransGen r t y := by
  induction path with
  | @single b edge =>
    by_cases known : seen x b
    · exact .inl (.single known)
    · exact .inr ⟨x, b, edge, known, .refl, .refl⟩
  | @tail b c path edge ih =>
    rcases ih with before | ⟨s, t, first, unseen, start, rest⟩
    · by_cases known : seen b c
      · exact .inl (before.tail known)
      · exact .inr ⟨b, c, edge, known, path.to_reflTransGen, .refl⟩
    · exact .inr ⟨s, t, first, unseen, start, rest.tail edge⟩

end Peinit
