import Mathlib

/-!
# Names that are used again

When the end of an object has been reported its name may go to another one. Users know an object by its
name only, and the report may be held. `Tracked` says that a name in use is that of the user's object,
which lives or whose own report is held.
-/

namespace Peinit

variable {ν ω ρ : Type} {uses uses' : ν → ω → Prop} {live live' : ν → Option ω}
  {held held' : ν → Option ρ} {reported reported' : ω → ρ → Prop} {name : ν} {owner : ω} {report : ρ}

structure Tracked (uses : ν → ω → Prop) (live : ν → Option ω) (held : ν → Option ρ)
    (reported : ω → ρ → Prop) : Prop where
  used : ∀ {name owner}, uses name owner →
    live name = some owner ∨ ∃ report, held name = some report ∧ reported owner report
  unique : ∀ {name owner other}, uses name owner → uses name other → owner = other
  waits : ∀ {name report}, held name = some report → live name = none ∧ ∃ owner, uses name owner

namespace Tracked

theorem live_of_uses (tracked : Tracked uses live held reported) (lives : live name = some owner)
    {other : ω} (use : uses name other) : other = owner := by
  obtain lives' | ⟨report, waiting, -⟩ := tracked.used use
  · exact Option.some.inj (lives'.symm.trans lives)
  · exact absurd ((tracked.waits waiting).1.symm.trans lives) nofun

theorem reported_of_held (tracked : Tracked uses live held reported) (waiting : held name = some report)
    (use : uses name owner) : reported owner report := by
  obtain lives | ⟨report', waiting', told⟩ := tracked.used use
  · exact absurd ((tracked.waits waiting).1.symm.trans lives) nofun
  · cases waiting.symm.trans waiting'
    exact told

theorem not_uses (tracked : Tracked uses live held reported) (dead : live name = none)
    (nothing : held name = none) : ¬ uses name owner := by
  intro use
  obtain lives | ⟨report, waiting, -⟩ := tracked.used use
  · exact absurd (dead.symm.trans lives) nofun
  · exact absurd (nothing.symm.trans waiting) nofun

variable [DecidableEq ν]

theorem claim (tracked : Tracked uses live held reported) (dead : live name = none)
    (nothing : held name = none)
    (uses_iff : ∀ n o, uses' n o ↔ uses n o ∨ name = n ∧ owner = o)
    (lives : ∀ n, live' n = if name = n then some owner else live n) :
    Tracked uses' live' held reported where
  used {n o} use := by
    rw [lives]
    obtain use | ⟨rfl, rfl⟩ := (uses_iff n o).mp use
    · have away : name ≠ n := fun here => tracked.not_uses dead nothing (here ▸ use)
      rw [if_neg away]
      exact tracked.used use
    · exact .inl (if_pos rfl)
  unique {n o o'} use use' := by
    have free (o : ω) : ¬ uses name o := tracked.not_uses dead nothing
    obtain use | ⟨here, rfl⟩ := (uses_iff n o).mp use <;>
      obtain use' | ⟨here', rfl⟩ := (uses_iff n o').mp use'
    · exact tracked.unique use use'
    · exact absurd (here' ▸ use) (free o)
    · exact absurd (here ▸ use') (free o')
    · rfl
  waits {n report} waiting := by
    have away : name ≠ n := by
      rintro rfl
      rw [nothing] at waiting
      cases waiting
    obtain ⟨gone, o, use⟩ := tracked.waits waiting
    rw [lives, if_neg away]
    exact ⟨gone, o, (uses_iff n o).mpr (.inl use)⟩

omit [DecidableEq ν] in
theorem release (tracked : Tracked uses live held reported) (fewer : ∀ n o, uses' n o → uses n o)
    (kept : ∀ n o, held n ≠ none → uses n o → uses' n o) : Tracked uses' live held reported where
  used use := tracked.used (fewer _ _ use)
  unique use use' := tracked.unique (fewer _ _ use) (fewer _ _ use')
  waits waiting := by
    obtain ⟨gone, o, use⟩ := tracked.waits waiting
    refine ⟨gone, o, kept _ _ ?_ use⟩
    rw [waiting]
    nofun

theorem forget (tracked : Tracked uses live held reported) (lives : live name = some owner)
    (fewer : ∀ n o, uses' n o ↔ uses n o ∧ name ≠ n)
    (gone : ∀ n, live' n = if name = n then none else live n)
    (more : ∀ o r, reported o r → reported' o r) : Tracked uses' live' held reported' where
  used {n o} use := by
    obtain ⟨use, away⟩ := (fewer n o).mp use
    rw [gone, if_neg away]
    obtain lives | ⟨r, waiting, told⟩ := tracked.used use
    · exact .inl lives
    · exact .inr ⟨r, waiting, more _ _ told⟩
  unique {n o o'} use use' := tracked.unique ((fewer n o).mp use).1 ((fewer n o').mp use').1
  waits {n r} waiting := by
    obtain ⟨dead, o, use⟩ := tracked.waits waiting
    have away : name ≠ n := by
      rintro rfl
      rw [lives] at dead
      cases dead
    rw [gone, if_neg away]
    exact ⟨dead, o, (fewer n o).mpr ⟨use, away⟩⟩

theorem hold (tracked : Tracked uses live held reported) (lives : live name = some owner)
    {user : ω} (use : uses name user) (gone : ∀ n, live' n = if name = n then none else live n)
    (holds : ∀ n, held' n = if name = n then some report else held n)
    (told : reported' owner report) (more : ∀ o r, reported o r → reported' o r) :
    Tracked uses live' held' reported' where
  used {n o} use' := by
    rw [gone]
    by_cases here : name = n
    · subst here
      rw [tracked.live_of_uses lives use']
      exact .inr ⟨report, (holds name).trans (if_pos rfl), told⟩
    · rw [if_neg here, holds, if_neg here]
      obtain lives | ⟨r, waiting, told⟩ := tracked.used use'
      · exact .inl lives
      · exact .inr ⟨r, waiting, more _ _ told⟩
  unique := tracked.unique
  waits {n r} waiting := by
    rw [gone]
    by_cases here : name = n
    · subst here
      exact ⟨if_pos rfl, user, use⟩
    · rw [holds, if_neg here] at waiting
      rw [if_neg here]
      exact tracked.waits waiting

theorem deliver (tracked : Tracked uses live held reported)
    (fewer : ∀ n o, uses' n o ↔ uses n o ∧ name ≠ n)
    (taken : ∀ n, held' n = if name = n then none else held n) :
    Tracked uses' live held' reported where
  used {n o} use := by
    obtain ⟨use, away⟩ := (fewer n o).mp use
    rw [taken, if_neg away]
    exact tracked.used use
  unique {n o o'} use use' := tracked.unique ((fewer n o).mp use).1 ((fewer n o').mp use').1
  waits {n r} waiting := by
    rw [taken] at waiting
    by_cases here : name = n
    · rw [if_pos here] at waiting
      cases waiting
    · rw [if_neg here] at waiting
      obtain ⟨dead, o, use⟩ := tracked.waits waiting
      exact ⟨dead, o, (fewer n o).mpr ⟨use, here⟩⟩

end Tracked

end Peinit
