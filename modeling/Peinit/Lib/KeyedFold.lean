import Peinit.Lib.Fallible
import Peinit.Lib.OrdMap

/-!
# Folds that work key by key

A pass over a list whose rounds each change the value under one key: what becomes of a key depends on the
rounds for that key alone.
-/

namespace Peinit

open List

variable {σ α K V : Type} [DecidableEq K] {f : α → V → V} {l : List α}

theorem view_foldl (key : α → K) (view : σ → K → V) (step : σ → α → σ) (f : α → V → V)
    (local_ : ∀ s a k, view (step s a) k = if key a = k then f a (view s k) else view s k)
    (l : List α) : ∀ (s : σ) (k : K),
      view (l.foldl step s) k = l.foldl (fun v a => if key a = k then f a v else v) (view s k) := by
  induction l with
  | nil => exact fun _ _ => rfl
  | cons a l ih =>
    intro s k
    rw [foldl_cons, ih, local_]
    rfl

theorem foldl_absent (key : α → K) {k : K} (absent : ∀ a ∈ l, key a ≠ k) (v : V) :
    l.foldl (fun v a => if key a = k then f a v else v) v = v := by
  induction l generalizing v with
  | nil => rfl
  | cons a l ih =>
    rw [foldl_cons, if_neg (absent a (by simp))]
    exact ih (fun b mem => absent b (by simp [mem])) v

theorem foldl_once (key : α → K) (nodup : (l.map key).Nodup) {a : α} (mem : a ∈ l) (v : V) :
    l.foldl (fun v b => if key b = key a then f b v else v) v = f a v := by
  induction l generalizing v with
  | nil => cases mem
  | cons b l ih =>
    rw [map_cons, nodup_cons] at nodup
    rw [foldl_cons]
    rcases mem_cons.mp mem with rfl | later
    · rw [if_pos rfl]
      refine foldl_absent key (fun b mem same => nodup.1 ?_) _
      rw [← same]
      exact mem_map_of_mem mem
    · have other : key b ≠ key a := by
        intro same
        apply nodup.1
        rw [same]
        exact mem_map_of_mem later
      rw [if_neg other]
      exact ih nodup.2 later v

theorem filter_flatMap_key (key : α → K) {keys : List K} (nodup : keys.Nodup) {parts : K → List α}
    (keyed : ∀ k ∈ keys, ∀ a ∈ parts k, key a = k) (k : K) :
    (keys.flatMap parts).filter (key · = k) = if k ∈ keys then parts k else [] := by
  induction keys with
  | nil => rfl
  | cons first keys ih =>
    rw [nodup_cons] at nodup
    rw [flatMap_cons, filter_append, ih nodup.2 fun k mem => keyed k (by simp [mem])]
    have all : ∀ a ∈ parts first, key a = first := keyed first (by simp)
    by_cases here : k = first
    · subst here
      have kept : (parts k).filter (key · = k) = parts k := by
        rw [filter_eq_self]
        exact fun a mem => decide_eq_true (all a mem)
      rw [kept, if_neg nodup.1, if_pos (by simp), append_nil]
    · have none : (parts first).filter (key · = k) = [] := by
        rw [filter_eq_nil_iff]
        intro a mem is
        exact here ((of_decide_eq_true is).symm.trans (all a mem))
      simp only [none, nil_append, mem_cons, here, false_or]

theorem get_foldlM_insert {ε : Type} [Ord K] [Std.TransOrd K] [Std.LawfulEqOrd K] (key : α → K)
    {add : OrdMap K α → α → Except ε (OrdMap K α)}
    (adds : ∀ {m a m'}, add m a = .ok m' → key a ∉ m ∧ m' = m.insert (key a) a) :
    ∀ {before after : OrdMap K α}, l.foldlM add before = .ok after → ∀ (k : K) (a : α),
      after[k]? = some a ↔ before[k]? = some a ∨ a ∈ l ∧ key a = k := by
  induction l with
  | nil =>
    rintro before after ⟨⟩ k a
    simp
  | cons first l ih =>
    intro before after ran k a
    rw [foldlM_cons] at ran
    obtain ⟨mid, step, ran⟩ := bind_eq_ok.mp ran
    obtain ⟨new, rfl⟩ := adds step
    rw [ih ran, OrdMap.get_insert, mem_cons]
    by_cases here : key first = k
    · subst here
      have absent : before[key first]? = none := Std.ExtTreeMap.getElem?_eq_none new
      simp only [if_pos, absent, Option.some.injEq, reduceCtorEq, false_or]
      constructor
      · rintro (rfl | ⟨mem, same⟩)
        · exact ⟨.inl rfl, rfl⟩
        · exact ⟨.inr mem, same⟩
      · rintro ⟨rfl | mem, same⟩
        · exact .inl rfl
        · exact .inr ⟨mem, same⟩
    · rw [if_neg here]
      refine or_congr_right (and_congr_left fun keyed => ?_)
      rw [or_iff_right]
      rintro rfl
      exact here keyed

end Peinit
