import Peinit.Lib.Fallible

/-!
# Searching with a test that can fail

`firstAccepted test xs` tries the elements in order: the first one the test accepts ends the search,
and so does the first one at which the test fails.
-/

namespace Peinit

variable {ε α β γ : Type} {xs : List α}

def firstAccepted (test : α → Except ε (Option β)) : List α → Except ε (Option β)
  | [] => .ok none
  | x :: xs => do
      match ← test x with
      | some found => .ok (some found)
      | none => firstAccepted test xs

/-- The first element that is not passed over is accepted. -/
def Accepts (test : α → Except ε (Option β)) (xs : List α) (found : β) : Prop :=
  ∃ before x after, xs = before ++ x :: after ∧ (∀ y ∈ before, test y = .ok none) ∧
    test x = .ok (some found)

theorem firstAccepted_cons {test : α → Except ε (Option β)} {x : α}
    {out : Option β} : firstAccepted test (x :: xs) = .ok out ↔
      (∃ got, test x = .ok (some got) ∧ out = some got) ∨
        test x = .ok none ∧ firstAccepted test xs = .ok out := by
  rw [firstAccepted, bind_eq_ok]
  constructor
  · rintro ⟨_ | got, tried, rest⟩
    · exact .inr ⟨tried, rest⟩
    · cases rest
      exact .inl ⟨got, tried, rfl⟩
  · rintro (⟨got, tried, rfl⟩ | ⟨tried, rest⟩)
    · exact ⟨some got, tried, rfl⟩
    · exact ⟨none, tried, rest⟩

theorem firstAccepted_eq_some {test : α → Except ε (Option β)} {got : β} :
    firstAccepted test xs = .ok (some got) ↔ Accepts test xs got := by
  induction xs with
  | nil =>
    refine iff_of_false nofun ?_
    rintro ⟨before, x, after, empty, -⟩
    simp at empty
  | cons x xs ih =>
    rw [firstAccepted_cons, ih]
    constructor
    · rintro (⟨_, tried, ⟨⟩⟩ | ⟨tried, before, y, after, rfl, passed, accepted⟩)
      · exact ⟨[], x, xs, rfl, by simp, tried⟩
      · refine ⟨x :: before, y, after, rfl, ?_, accepted⟩
        rintro z (_ | ⟨_, mem⟩)
        · exact tried
        · exact passed z mem
    · rintro ⟨_ | ⟨z, before⟩, y, after, split, passed, accepted⟩
      · obtain ⟨rfl, rfl⟩ := List.cons.inj split
        exact .inl ⟨got, accepted, rfl⟩
      · obtain ⟨rfl, rfl⟩ := List.cons.inj split
        exact .inr ⟨passed x (by simp), before, y, after, rfl,
          fun w mem => passed w (by simp [mem]), accepted⟩

theorem firstAccepted_eq_none {test : α → Except ε (Option β)} :
    firstAccepted test xs = .ok none ↔ ∀ x ∈ xs, test x = .ok none := by
  induction xs with
  | nil => simp [firstAccepted]
  | cons x xs ih =>
    rw [firstAccepted_cons, ih, List.forall_mem_cons]
    simp

theorem firstAccepted_eq_error {test : α → Except ε (Option β)} {e : ε}
    (failed : firstAccepted test xs = .error e) : ∃ before x after, xs = before ++ x :: after ∧
      (∀ y ∈ before, test y = .ok none) ∧ test x = .error e := by
  induction xs with
  | nil => cases failed
  | cons x xs ih =>
    rw [firstAccepted] at failed
    rcases bind_eq_error.mp failed with tried | ⟨got, tried, rest⟩
    · exact ⟨[], x, xs, rfl, by simp, tried⟩
    cases got with
    | some got => cases rest
    | none =>
      obtain ⟨before, y, after, rfl, passed, broken⟩ := ih rest
      refine ⟨x :: before, y, after, rfl, ?_, broken⟩
      rintro z (_ | ⟨_, mem⟩)
      · exact tried
      · exact passed z mem

theorem firstAccepted_append {test : α → Except ε (Option β)} {ys : List α} :
    firstAccepted test (xs ++ ys) = (firstAccepted test xs).bind fun
      | some got => .ok (some got)
      | none => firstAccepted test ys := by
  induction xs with
  | nil => rfl
  | cons x xs ih =>
    rw [List.cons_append, firstAccepted, firstAccepted, ih]
    cases test x with
    | error e => rfl
    | ok out => cases out <;> rfl

theorem firstAccepted_flatMap {test : β → Except ε (Option γ)} {inner : α → List β} :
    firstAccepted (fun x => firstAccepted test (inner x)) xs = firstAccepted test (xs.flatMap inner) := by
  induction xs with
  | nil => rfl
  | cons x xs ih =>
    rw [List.flatMap_cons, firstAccepted_append, firstAccepted, ih]
    rfl

end Peinit
