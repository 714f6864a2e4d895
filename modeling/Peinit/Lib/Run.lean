import Mathlib

/-!
# Runs of a system of calls

Calls take a state to the next one; a run is a list of calls. `Admissible ok s calls` says that each
call of the run from `s` meets `ok` in the state it is made in.
-/

namespace Peinit

variable {σ κ : Type}

def runCalls (perform : σ → κ → σ) (s : σ) (calls : List κ) : σ := calls.foldl perform s

/-- Each call meets `ok` in the state it is made in. -/
def Admissible (perform : σ → κ → σ) (ok : σ → κ → Prop) : σ → List κ → Prop
  | _, [] => True
  | s, call :: calls => ok s call ∧ Admissible perform ok (perform s call) calls

variable {perform : σ → κ → σ} {ok : σ → κ → Prop}

/-- What every admissible call preserves, every admissible run preserves. -/
theorem invariant_of_step (Inv : σ → Prop) (step : ∀ s call, Inv s → ok s call → Inv (perform s call)) :
    ∀ {s : σ} (calls : List κ), Inv s → Admissible perform ok s calls → Inv (runCalls perform s calls)
  | _, [], inv, _ => inv
  | s, call :: calls, inv, ⟨first, rest⟩ =>
    invariant_of_step Inv step calls (step s call inv first) rest

theorem admissible_of_forall (h : ∀ s call, ok s call) :
    ∀ (s : σ) (calls : List κ), Admissible perform ok s calls
  | _, [] => trivial
  | s, call :: calls => ⟨h s call, admissible_of_forall h (perform s call) calls⟩

theorem admissible_of_mem {p : κ → Prop} :
    ∀ (s : σ) (calls : List κ), (∀ call ∈ calls, p call) → Admissible perform (fun _ => p) s calls
  | _, [], _ => trivial
  | s, call :: calls, all =>
    ⟨all call (by simp), admissible_of_mem (perform s call) calls fun other mem =>
      all other (by simp [mem])⟩

theorem invariant_of_calls (Inv : σ → Prop) (step : ∀ s call, Inv s → Inv (perform s call)) {s : σ}
    (calls : List κ) (inv : Inv s) : Inv (runCalls perform s calls) :=
  invariant_of_step Inv (fun s call inv (_ : True) => step s call inv) calls inv
    (admissible_of_forall (fun _ _ => trivial) s calls)

end Peinit
