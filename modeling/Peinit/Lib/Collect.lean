import Mathlib

/-!
# Collecting what is reached

A program includes a node, follows what it declares, and blocks it if it lacks something. `Tracks` says
what holds while the nodes of `pending` are being followed, `Follows` what following one declaration
has to come to.
-/

namespace Peinit

/-- A program that collects nodes: what its state includes and blocks, and what it is meant to.
`Inv` is kept besides, and a node that is not `Able` may be left out. -/
structure Collecting (σ α : Type) where
  included : σ → α → Prop
  blocked : σ → α → Prop
  Reached : α → Prop
  Pulls : α → α → Prop
  Lacks : α → Prop
  Able : α → Prop
  Inv : σ → Prop
  nodes : Finset α

namespace Collecting

variable {σ α : Type} (C : Collecting σ α)

/-- What has been collected so far: all but the nodes of `pending` have been followed. -/
structure Tracks (pending : List α) (s : σ) : Prop where
  reached : ∀ x, C.included s x → C.Reached x
  closed : ∀ x, C.included s x → x ∉ pending → ∀ y, C.Pulls x y → C.included s y
  lacks : ∀ x, C.included s x → x ∉ pending → C.Lacks x → C.blocked s x
  inside : ∀ x, C.blocked s x → C.included s x
  inv : C.Inv s

/-- `t` includes and blocks at least what `s` does. -/
structure Grows (s t : σ) : Prop where
  included : ∀ x, C.included s x → C.included t x
  blocked : ∀ x, C.blocked s x → C.blocked t x

open scoped Classical in
/-- The nodes that are not included yet. -/
noncomputable def remaining (s : σ) : Finset α := C.nodes.filter (¬ C.included s ·)

noncomputable def outside (s : σ) : ℕ := (C.remaining s).card

/-- Visiting a node includes it, with room for the nodes that are not included yet. -/
def Visits (room : ℕ) (visit : α → σ → σ) : Prop :=
  ∀ pending y s, C.Tracks pending s → (C.Able y → C.Reached y) → C.outside s ≤ room →
    C.Grows s (visit y s) ∧ C.Tracks pending (visit y s) ∧ (C.Able y → C.included (visit y s) y)

/-- Following the declaration `i` of `x` includes its target if it pulls, and blocks `x` if it lacks. -/
def Follows {ι : Type} (x : α) (room : ℕ) (f : σ → ι → σ) (target : ι → α) (pull lack : ι → Prop)
    (i : ι) : Prop :=
  ∀ pending s, C.Tracks pending s → C.included s x → C.outside s ≤ room →
    C.Grows s (f s i) ∧ C.Tracks pending (f s i) ∧ (pull i → C.included (f s i) (target i)) ∧
      (lack i → C.blocked (f s i) x)

variable {C} {s t u : σ} {x : α} {pending : List α} {room : ℕ}

theorem Grows.refl (s : σ) : C.Grows s s := ⟨fun _ h => h, fun _ h => h⟩

theorem Grows.trans (first : C.Grows s t) (second : C.Grows t u) : C.Grows s u :=
  ⟨fun x h => second.included x (first.included x h), fun x h => second.blocked x (first.blocked x h)⟩

theorem mem_remaining : x ∈ C.remaining s ↔ x ∈ C.nodes ∧ ¬ C.included s x := by
  simp [remaining]

theorem outside_le_card (s : σ) : C.outside s ≤ C.nodes.card :=
  Finset.card_le_card fun _ away => (mem_remaining.mp away).1

theorem included_of_outside (none : C.outside s ≤ 0) (known : x ∈ C.nodes) : C.included s x := by
  by_contra away
  have empty : C.remaining s = ∅ := Finset.card_eq_zero.mp (Nat.le_zero.mp none)
  have still : x ∈ C.remaining s := mem_remaining.mpr ⟨known, away⟩
  simp [empty] at still

theorem Grows.remaining_subset (grows : C.Grows s t) : C.remaining t ⊆ C.remaining s := by
  intro x away
  rw [mem_remaining] at away ⊢
  exact ⟨away.1, fun here => away.2 (grows.included x here)⟩

theorem Grows.outside_le (grows : C.Grows s t) : C.outside t ≤ C.outside s :=
  Finset.card_le_card grows.remaining_subset

theorem Grows.outside_lt (grows : C.Grows s t) (known : x ∈ C.nodes) (fresh : ¬ C.included s x)
    (entered : C.included t x) : C.outside t < C.outside s := by
  refine Finset.card_lt_card (Finset.ssubset_iff_subset_ne.mpr ⟨grows.remaining_subset, fun same => ?_⟩)
  have still := mem_remaining.mpr ⟨known, fresh⟩
  rw [← same] at still
  exact (mem_remaining.mp still).2 entered

theorem Tracks.insert (tracks : C.Tracks pending s) (reached : C.Reached x)
    (incl : ∀ y, C.included t y ↔ x = y ∨ C.included s y)
    (blocked : ∀ y, C.blocked t y ↔ C.blocked s y) (inv : C.Inv t) :
    C.Grows s t ∧ C.included t x ∧ C.Tracks (x :: pending) t := by
  have before : ∀ y, C.included t y → y ∉ x :: pending → C.included s y ∧ y ∉ pending := by
    intro y here away
    obtain ⟨different, away⟩ := not_or.mp fun h => away (List.mem_cons.mpr h)
    exact ⟨((incl y).mp here).resolve_left (Ne.symm different), away⟩
  refine ⟨⟨fun y here => (incl y).mpr (.inr here), fun y => (blocked y).mpr⟩,
    (incl x).mpr (.inl rfl), fun y here => ?_, fun y here away z pulls => ?_, fun y here away lacks => ?_, fun y here => ?_, inv⟩
  · rcases (incl y).mp here with rfl | here
    · exact reached
    · exact tracks.reached y here
  · obtain ⟨here, away⟩ := before y here away
    exact (incl z).mpr (.inr (tracks.closed y here away z pulls))
  · obtain ⟨here, away⟩ := before y here away
    exact (blocked y).mpr (tracks.lacks y here away lacks)
  · exact (incl y).mpr (.inr (tracks.inside y ((blocked y).mp here)))

theorem Tracks.block (tracks : C.Tracks pending s) (inside : C.included s x)
    (incl : ∀ y, C.included t y ↔ C.included s y)
    (blocked : ∀ y, C.blocked t y ↔ y = x ∨ C.blocked s y) (inv : C.Inv t) :
    C.Grows s t ∧ C.Tracks pending t := by
  refine ⟨⟨fun y => (incl y).mpr, fun y here => (blocked y).mpr (.inr here)⟩,
    fun y here => tracks.reached y ((incl y).mp here), fun y here away z pulls => ?_,
    fun y here away lacks => ?_, fun y here => (incl y).mpr ?_, inv⟩
  · exact (incl z).mpr (tracks.closed y ((incl y).mp here) away z pulls)
  · exact (blocked y).mpr (.inr (tracks.lacks y ((incl y).mp here) away lacks))
  · rcases (blocked y).mp here with rfl | here
    · exact inside
    · exact tracks.inside y here

theorem Tracks.done (tracks : C.Tracks (x :: pending) s) (pulled : ∀ y, C.Pulls x y → C.included s y)
    (lacking : C.Lacks x → C.blocked s x) : C.Tracks pending s := by
  refine ⟨tracks.reached, fun y here away z pulls => ?_, fun y here away lacks => ?_, tracks.inside,
    tracks.inv⟩
  · by_cases same : y = x
    · exact pulled z (same ▸ pulls)
    · exact tracks.closed y here (by simp [same, away]) z pulls
  · by_cases same : y = x
    · exact same ▸ lacking (same ▸ lacks)
    · exact tracks.lacks y here (by simp [same, away]) lacks

theorem Visits.foldl {visit : α → σ → σ} (visits : C.Visits room visit) (enough : C.nodes.card ≤ room)
    {xs : List α} (reached : ∀ x ∈ xs, C.Able x → C.Reached x) (tracks : C.Tracks pending s) :
    C.Grows s (xs.foldl (fun s x => visit x s) s) ∧
      C.Tracks pending (xs.foldl (fun s x => visit x s) s) ∧
      ∀ x ∈ xs, C.Able x → C.included (xs.foldl (fun s x => visit x s) s) x := by
  induction xs generalizing s with
  | nil => exact ⟨.refl s, tracks, by simp⟩
  | cons x xs ih =>
    obtain ⟨grows, tracks, here⟩ := visits pending x s tracks (reached x (by simp))
      ((outside_le_card s).trans enough)
    obtain ⟨grows', tracks', all⟩ := ih (fun y mem => reached y (by simp [mem])) tracks
    refine ⟨grows.trans grows', tracks', fun y mem able => ?_⟩
    rcases List.mem_cons.mp mem with rfl | mem
    · exact grows'.included y (here able)
    · exact all y mem able

theorem Follows.foldl {ι : Type} {f : σ → ι → σ} {target : ι → α} {pull lack : ι → Prop} {is : List ι}
    (each : ∀ i ∈ is, C.Follows x room f target pull lack i) (tracks : C.Tracks pending s)
    (inside : C.included s x) (fits : C.outside s ≤ room) :
    C.Grows s (is.foldl f s) ∧ C.Tracks pending (is.foldl f s) ∧
      ∀ i ∈ is, (pull i → C.included (is.foldl f s) (target i)) ∧
        (lack i → C.blocked (is.foldl f s) x) := by
  induction is generalizing s with
  | nil => exact ⟨.refl s, tracks, by simp⟩
  | cons i is ih =>
    obtain ⟨grows, tracks, pulled, lacking⟩ := each i (by simp) pending s tracks inside fits
    obtain ⟨grows', tracks', all⟩ := ih (fun j mem => each j (by simp [mem])) tracks
      (grows.included x inside) (grows.outside_le.trans fits)
    refine ⟨grows.trans grows', tracks', fun j mem => ?_⟩
    rcases List.mem_cons.mp mem with rfl | mem
    · exact ⟨fun h => grows'.included _ (pulled h), fun h => grows'.blocked x (lacking h)⟩
    · exact all j mem

end Collecting

end Peinit
