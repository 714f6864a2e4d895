import Mathlib

/-!
# Fallible computations on a mutable state

A method that borrows its receiver mutably and returns a result can stop half-way, and whatever was written
before the error stays written. `Fallible σ ε α` is such a computation; `StateT σ (Except ε)` would forget
the state at an error.

* `wp m Q E s` says that `m` started in `s` ends in `Q` when it returns and in `E` when it fails.
* `Keeps R m` says that the states before and after `m` are related by `R`, whichever way it ended.
* `forEach` is the loop that collects what each round returns and leaves at the first error.
-/

namespace Peinit

/-- A computation on the state `σ` that returns an `α` or fails with an `ε`; a failure keeps the
state it had reached. -/
@[ext] structure Fallible (σ ε α : Type) where
  run : σ → Except ε α × σ

namespace Fallible

variable {σ τ ε δ α β γ : Type}

/-- Run `m`; go on with `f` when it returns, stop when it fails. -/
protected def bind (m : Fallible σ ε α) (f : α → Fallible σ ε β) : Fallible σ ε β where
  run s := match m.run s with
    | (.ok a, t) => (f a).run t
    | (.error e, t) => (.error e, t)

instance : Monad (Fallible σ ε) where
  pure a := ⟨fun s => (.ok a, s)⟩
  bind := Fallible.bind

theorem run_bind (m : Fallible σ ε α) (f : α → Fallible σ ε β) (s : σ) :
    (m >>= f).run s = match m.run s with
      | (.ok a, t) => (f a).run t
      | (.error e, t) => (.error e, t) := rfl

@[simp] theorem run_pure (a : α) (s : σ) : (pure a : Fallible σ ε α).run s = (.ok a, s) := rfl

theorem run_map (f : α → β) (m : Fallible σ ε α) (s : σ) : (f <$> m).run s = match m.run s with
      | (.ok a, t) => (.ok (f a), t)
      | (.error e, t) => (.error e, t) := rfl

instance : LawfulMonad (Fallible σ ε) := by
  refine LawfulMonad.mk' (Fallible σ ε) ?_ (fun _ _ => rfl) ?_
  · intro _ m
    ext1
    funext s
    rw [run_map]
    rcases m.run s with ⟨_ | _, t⟩ <;> rfl
  · intro _ _ _ m f g
    ext1
    funext s
    simp only [run_bind]
    rcases m.run s with ⟨_ | _, t⟩ <;> rfl

/-- Stop with the error `e`. -/
def raise (e : ε) : Fallible σ ε α := ⟨fun s => (.error e, s)⟩

/-- Read the state. -/
def fetch : Fallible σ ε σ := ⟨fun s => (.ok s, s)⟩

/-- Overwrite the state. -/
def update (f : σ → σ) : Fallible σ ε Unit := ⟨fun s => (.ok (), f s)⟩

/-- The `?` operator on a plain result. -/
def ofExcept (r : Except ε α) : Fallible σ ε α := ⟨fun s => (r, s)⟩

/-- `map_err`. -/
def mapError (f : ε → δ) (m : Fallible σ ε α) : Fallible σ δ α where
  run s := match m.run s with
    | (.ok a, t) => (.ok a, t)
    | (.error e, t) => (.error (f e), t)

/-- Run `f` on every element, collecting the results; leave the loop at the first error. -/
def forEach (f : β → Fallible σ ε (List γ)) : List β → Fallible σ ε (List γ)
  | [] => pure []
  | x :: xs => do
      let first ← f x
      let rest ← forEach f xs
      return first ++ rest

@[simp] theorem run_raise (e : ε) (s : σ) : (raise e : Fallible σ ε α).run s = (.error e, s) := rfl

@[simp] theorem run_fetch (s : σ) : (fetch : Fallible σ ε σ).run s = (.ok s, s) := rfl

@[simp] theorem run_update (f : σ → σ) (s : σ) :
    (update f : Fallible σ ε Unit).run s = (.ok (), f s) := rfl

@[simp] theorem run_ofExcept (r : Except ε α) (s : σ) :
    (ofExcept r : Fallible σ ε α).run s = (r, s) := rfl

theorem run_mapError (f : ε → δ) (m : Fallible σ ε α) (s : σ) : (mapError f m).run s = match m.run s with
      | (.ok a, t) => (.ok a, t)
      | (.error e, t) => (.error (f e), t) := rfl

theorem run_bind_of_ok {m : Fallible σ ε α} {f : α → Fallible σ ε β} {s t : σ} {a : α}
    (h : m.run s = (.ok a, t)) : (m >>= f).run s = (f a).run t := by
  rw [run_bind, h]

theorem run_bind_of_error {m : Fallible σ ε α} {f : α → Fallible σ ε β} {s t : σ} {e : ε}
    (h : m.run s = (.error e, t)) : (m >>= f).run s = (.error e, t) := by
  rw [run_bind, h]

theorem run_mapError_of_ok {f : ε → δ} {m : Fallible σ ε α} {s t : σ} {a : α}
    (h : m.run s = (.ok a, t)) : (mapError f m).run s = (.ok a, t) := by
  rw [run_mapError, h]

theorem run_mapError_of_error {f : ε → δ} {m : Fallible σ ε α} {s t : σ} {e : ε}
    (h : m.run s = (.error e, t)) : (mapError f m).run s = (.error (f e), t) := by
  rw [run_mapError, h]

theorem run_bind_eq_ok {m : Fallible σ ε α} {f : α → Fallible σ ε β} {s t : σ} {b : β} :
    (m >>= f).run s = (.ok b, t) ↔ ∃ a u, m.run s = (.ok a, u) ∧ (f a).run u = (.ok b, t) := by
  rw [run_bind]
  rcases m.run s with ⟨e | a, u⟩ <;> simp

theorem run_mapError_eq_ok {f : ε → δ} {m : Fallible σ ε α} {s t : σ} {a : α} :
    (mapError f m).run s = (.ok a, t) ↔ m.run s = (.ok a, t) := by
  rw [run_mapError]
  rcases m.run s with ⟨e | a, u⟩ <;> simp

theorem run_forEach_cons_eq_ok {f : β → Fallible σ ε (List γ)} {x : β} {xs : List β} {s t : σ}
    {out : List γ} : (forEach f (x :: xs)).run s = (.ok out, t) ↔ ∃ first u rest,
      (f x).run s = (.ok first, u) ∧ (forEach f xs).run u = (.ok rest, t) ∧ out = first ++ rest := by
  rw [forEach, run_bind_eq_ok]
  refine exists_congr fun first => exists_congr fun u => ?_
  simp only [run_bind_eq_ok]
  constructor
  · rintro ⟨done, rest, v, ran, last⟩
    cases last
    exact ⟨rest, done, ran, rfl⟩
  · rintro ⟨rest, done, ran, rfl⟩
    exact ⟨done, rest, t, ran, rfl⟩

@[simp] theorem run_fetch_bind (f : σ → Fallible σ ε β) (s : σ) : (fetch >>= f).run s = (f s).run s := rfl

/-! ## Weakest preconditions -/

/-- `m` started in `s` ends in `Q` if it returns and in `E` if it fails. -/
def wp (m : Fallible σ ε α) (Q : α → σ → Prop) (E : ε → σ → Prop) (s : σ) : Prop :=
  match m.run s with
  | (.ok a, t) => Q a t
  | (.error e, t) => E e t

variable {Q Q' : α → σ → Prop} {E E' : ε → σ → Prop} {s : σ}

@[simp] theorem wp_pure (a : α) : wp (pure a : Fallible σ ε α) Q E s ↔ Q a s := Iff.rfl

@[simp] theorem wp_raise (e : ε) : wp (raise e : Fallible σ ε α) Q E s ↔ E e s := Iff.rfl

@[simp] theorem wp_fetch {Q : σ → σ → Prop} : wp (fetch : Fallible σ ε σ) Q E s ↔ Q s s := Iff.rfl

@[simp] theorem wp_update {Q : Unit → σ → Prop} (f : σ → σ) :
    wp (update f : Fallible σ ε Unit) Q E s ↔ Q () (f s) := Iff.rfl

@[simp] theorem wp_bind (m : Fallible σ ε α) (f : α → Fallible σ ε β) {Q : β → σ → Prop} :
    wp (m >>= f) Q E s ↔ wp m (fun a t => wp (f a) Q E t) E s := by
  unfold wp
  rw [run_bind]
  rcases m.run s with ⟨_ | _, t⟩ <;> rfl

theorem wp_ite (c : Prop) [Decidable c] (m n : Fallible σ ε α) :
    wp (if c then m else n) Q E s ↔ (c → wp m Q E s) ∧ (¬ c → wp n Q E s) := by
  by_cases h : c <;> simp [h]

theorem wp_of_error {m : Fallible σ ε α} {e : ε} {t : σ} (h : wp m Q E s)
    (run : m.run s = (.error e, t)) : E e t := by
  unfold wp at h
  rwa [run] at h

/-! ## Relations kept by a computation -/

/-- The states before and after `m` are related by `R`, also when `m` fails. -/
def Keeps (R : σ → σ → Prop) (m : Fallible σ ε α) : Prop := ∀ s, R s (m.run s).2

section Keeps

variable {R : σ → σ → Prop}

theorem Keeps.of_wp {m : Fallible σ ε α}
    (h : ∀ s, wp m (fun _ t => R s t) (fun _ t => R s t) s) : Keeps R m := by
  intro s
  have := h s
  unfold wp at this
  rcases hm : m.run s with ⟨_ | _, t⟩ <;> rw [hm] at this <;> exact this

theorem Keeps.of_ok {m : Fallible σ ε α} (keeps : Keeps R m) {s t : σ} {a : α}
    (run : m.run s = (.ok a, t)) : R s t := by
  have kept := keeps s
  rw [run] at kept
  exact kept

theorem Keeps.bind [IsTrans σ R] {m : Fallible σ ε α} {f : α → Fallible σ ε β}
    (hm : Keeps R m) (hf : ∀ a, Keeps R (f a)) : Keeps R (m >>= f) := by
  intro s
  have first := hm s
  rw [run_bind]
  rcases h : m.run s with ⟨_ | a, t⟩ <;> rw [h] at first
  · exact first
  · exact trans_of R first (hf a t)

theorem keeps_pure [Std.Refl R] (a : α) : Keeps R (pure a : Fallible σ ε α) :=
  fun s => refl_of R s

theorem keeps_forEach [Std.Refl R] [IsTrans σ R] {f : β → Fallible σ ε (List γ)}
    (hf : ∀ x, Keeps R (f x)) : ∀ xs, Keeps R (forEach f xs)
  | [] => keeps_pure _
  | x :: xs => (hf x).bind fun _ => (keeps_forEach hf xs).bind fun _ => keeps_pure _

/-! ## Errors that cannot happen -/

/-- Started in `P`, `m` fails with no other errors than those of `E`. -/
def FailsOnly (P : σ → Prop) (E : ε → Prop) (m : Fallible σ ε α) : Prop :=
  ∀ s e t, P s → m.run s = (.error e, t) → E e

variable {P : σ → Prop} {E : ε → Prop}

theorem failsOnly_pure (a : α) : FailsOnly P E (pure a : Fallible σ ε α) := by
  intro s e t _ failed
  cases failed

theorem FailsOnly.bind (stable : ∀ s t, P s → R s t → P t) {m : Fallible σ ε α}
    {f : α → Fallible σ ε β} (keeps : Keeps R m) (first : FailsOnly P E m)
    (rest : ∀ a, FailsOnly P E (f a)) : FailsOnly P E (m >>= f) := by
  intro s e t inv failed
  have kept := keeps s
  rcases run : m.run s with ⟨error | a, u⟩
  · rw [run_bind_of_error run] at failed
    cases failed
    exact first s _ _ inv run
  · rw [run_bind_of_ok run] at failed
    rw [run] at kept
    exact rest a u e t (stable s u inv kept) failed

theorem failsOnly_forEach (stable : ∀ s t, P s → R s t → P t) {f : β → Fallible σ ε (List γ)}
    (keeps : ∀ x, Keeps R (f x)) (xs : List β) (each : ∀ x ∈ xs, FailsOnly P E (f x)) :
    FailsOnly P E (forEach f xs) := by
  induction xs with
  | nil => exact failsOnly_pure _
  | cons x xs ih =>
    have tail : FailsOnly P E (forEach f xs) := ih fun y hy => each y (List.mem_cons_of_mem x hy)
    intro s e t inv failed
    have kept := keeps x s
    rcases run : (f x).run s with ⟨error | a, u⟩
    · rw [forEach, run_bind_of_error run] at failed
      cases failed
      exact each x (by simp) s _ _ inv run
    · rw [forEach, run_bind_of_ok run] at failed
      rw [run] at kept
      rcases rest : (forEach f xs).run u with ⟨error | b, v⟩
      · rw [run_bind_of_error rest] at failed
        cases failed
        exact tail u _ _ (stable s u inv kept) rest
      · rw [run_bind_of_ok rest] at failed
        cases failed

end Keeps

/-! ## Atomic computations -/

/-- A failure leaves the state as it was. -/
def Atomic (m : Fallible σ ε α) : Prop := ∀ s e t, m.run s = (.error e, t) → t = s

theorem atomic_of_cases {m : Fallible σ ε α}
    (h : ∀ s, (∃ a t, m.run s = (.ok a, t)) ∨ ∃ e, m.run s = (.error e, s)) : Atomic m := by
  intro s e t run
  rcases h s with ⟨_, _, ok⟩ | ⟨_, failed⟩
  · rw [ok] at run
    cases run
  · rw [failed] at run
    cases run
    rfl

/-- Started in `s`, `m` moves to the state that `r` returns, or fails with the error of `r` and leaves
`s` alone. -/
def Commits (m : Fallible σ ε α) (s : σ) (r : Except ε σ) : Prop :=
  match r with
  | .ok t => ∃ a, m.run s = (.ok a, t)
  | .error e => m.run s = (.error e, s)

theorem Commits.unchanged {m : Fallible σ ε α} {r : Except ε σ} {e : ε} {t : σ} (commits : Commits m s r)
    (failed : m.run s = (.error e, t)) : t = s := by
  cases r with
  | ok u =>
    obtain ⟨a, ran⟩ := commits
    cases ran.symm.trans failed
  | error e' =>
    have ran : m.run s = (.error e', s) := commits
    cases ran.symm.trans failed
    rfl

theorem Commits.map {m : Fallible σ ε α} {r : Except ε σ} (commits : Commits m s r) (f : α → β) :
    Commits (f <$> m) s r := by
  cases r with
  | ok t =>
    obtain ⟨a, ran⟩ := commits
    exact ⟨f a, by rw [run_map, ran]⟩
  | error e =>
    have ran : m.run s = (.error e, s) := commits
    show (f <$> m).run s = (.error e, s)
    rw [run_map, ran]

end Fallible

/-! ## Plain results -/

section Except

variable {ε α β : Type}

theorem bind_eq_ok {x : Except ε α} {f : α → Except ε β} {b : β} :
    x >>= f = .ok b ↔ ∃ a, x = .ok a ∧ f a = .ok b := by
  cases x <;> simp [bind, Except.bind]

theorem bind_eq_error {x : Except ε α} {f : α → Except ε β} {e : ε} :
    x >>= f = .error e ↔ x = .error e ∨ ∃ a, x = .ok a ∧ f a = .error e := by
  cases x <;> simp [bind, Except.bind]

theorem toOption_eq_some {x : Except ε α} {a : α} : x.toOption = some a ↔ x = .ok a := by
  cases x <;> simp [Except.toOption]

/-! What a closed computation returns is found by running it. -/

instance decidableIsOk {x : Except ε α} : Decidable (∃ a, x = .ok a) :=
  match x with
  | .ok a => isTrue ⟨a, rfl⟩
  | .error _ => isFalse (by simp)

instance decidableExistsOk {x : Except ε α} {p : α → Prop} [DecidablePred p] :
    Decidable (∃ a, x = .ok a ∧ p a) :=
  match x with
  | .ok a => decidable_of_iff (p a) (by simp)
  | .error _ => isFalse (by simp)

instance decidableExistsOkPair {x : Except ε (α × β)} {p : α → β → Prop}
    [∀ a b, Decidable (p a b)] : Decidable (∃ a b, x = .ok (a, b) ∧ p a b) :=
  match x with
  | .ok (a, b) => decidable_of_iff (p a b) (by simp)
  | .error _ => isFalse (by simp)

theorem mapError_eq_ok {δ : Type} {x : Except ε α} {f : ε → δ} {a : α} :
    x.mapError f = .ok a ↔ x = .ok a := by
  cases x <;> simp [Except.mapError]

theorem map_eq_ok {x : Except ε α} {f : α → β} {b : β} : x.map f = .ok b ↔ ∃ a, x = .ok a ∧ f a = b := by
  cases x <;> simp [Except.map]

theorem if_error_eq_ok {c : Prop} [Decidable c] {x : Except ε α} {e : ε} {a : α} :
    (if c then .error e else x) = .ok a ↔ ¬ c ∧ x = .ok a := by
  split_ifs with h <;> simp [h]

theorem forM_eq_ok {f : α → Except ε Unit} {xs : List α} :
    xs.forM f = .ok () ↔ ∀ x ∈ xs, f x = .ok () := by
  induction xs with
  | nil => exact ⟨fun _ x mem => absurd mem List.not_mem_nil, fun _ => rfl⟩
  | cons x xs ih =>
    change (f x >>= fun _ => xs.forM f) = .ok () ↔ _
    rw [List.forall_mem_cons, ← ih, bind_eq_ok]
    exact ⟨fun ⟨_, first, rest⟩ => ⟨first, rest⟩, fun ⟨first, rest⟩ => ⟨(), first, rest⟩⟩

theorem foldlM_invariant {f : β → α → Except ε β} (Inv : β → Prop) {xs : List α}
    (step : ∀ x ∈ xs, ∀ b b', Inv b → f b x = .ok b' → Inv b') {b b' : β} (inv : Inv b)
    (run : xs.foldlM f b = .ok b') : Inv b' := by
  induction xs generalizing b with
  | nil =>
    cases run
    exact inv
  | cons x xs ih =>
    obtain ⟨c, first, rest⟩ := bind_eq_ok.mp run
    exact ih (fun y hy => step y (List.mem_cons_of_mem x hy)) (step x (by simp) b c inv first) rest

theorem foldlM_collects {f : β → α → Except ε β} (has : β → Prop) (adds : α → Prop)
    (step : ∀ x b b', f b x = .ok b' → (has b' ↔ has b ∨ adds x)) {xs : List α} {b b' : β}
    (run : xs.foldlM f b = .ok b') : has b' ↔ has b ∨ ∃ x ∈ xs, adds x := by
  induction xs generalizing b with
  | nil =>
    cases run
    simp
  | cons x xs ih =>
    obtain ⟨mid, first, rest⟩ := bind_eq_ok.mp run
    rw [ih rest, step x b mid first, List.exists_mem_cons_iff, or_assoc]

theorem foldlM_total {f : β → α → Except ε β} (Inv : β → Prop) {xs : List α}
    (step : ∀ x ∈ xs, ∀ b, Inv b → ∃ b', f b x = .ok b' ∧ Inv b') {b : β} (init : Inv b) :
    ∃ out, xs.foldlM f b = .ok out ∧ Inv out := by
  induction xs generalizing b with
  | nil => exact ⟨b, rfl, init⟩
  | cons x xs ih =>
    obtain ⟨mid, first, inv⟩ := step x (List.mem_cons_self ..) b init
    rw [List.foldlM_cons, first]
    exact ih (fun y mem => step y (List.mem_cons_of_mem x mem)) inv

theorem foldlM_split_error {f : β → α → Except ε β} {xs : List α} {b : β} {e : ε}
    (run : xs.foldlM f b = .error e) : ∃ before x after c, xs = before ++ x :: after ∧
      before.foldlM f b = .ok c ∧ f c x = .error e := by
  induction xs generalizing b with
  | nil => cases run
  | cons x xs ih =>
    rcases bind_eq_error.mp run with failed | ⟨c, first, rest⟩
    · exact ⟨[], x, xs, b, rfl, rfl, failed⟩
    · obtain ⟨before, y, after, d, rfl, ran, failed⟩ := ih rest
      exact ⟨x :: before, y, after, d, rfl, bind_eq_ok.mpr ⟨c, first, ran⟩, failed⟩

theorem foldlM_eq_error {f : β → α → Except ε β} {xs : List α} {b : β} {e : ε}
    (run : xs.foldlM f b = .error e) : ∃ x ∈ xs, ∃ c, f c x = .error e := by
  obtain ⟨before, x, after, c, rfl, -, failed⟩ := foldlM_split_error run
  exact ⟨x, by simp, c, failed⟩

end Except

theorem exists_of_forall₂ {α β : Type} {R : α → β → Prop} {xs : List α} {ys : List β} {y : β}
    (all : List.Forall₂ R xs ys) (mem : y ∈ ys) : ∃ x ∈ xs, R x y := by
  induction all with
  | nil => cases mem
  | cons first _ ih =>
    rcases List.mem_cons.mp mem with rfl | later
    · exact ⟨_, List.mem_cons_self, first⟩
    · obtain ⟨x, among, related⟩ := ih later
      exact ⟨x, List.mem_cons_of_mem _ among, related⟩

end Peinit
