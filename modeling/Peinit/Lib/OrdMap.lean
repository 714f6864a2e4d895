import Mathlib

/-!
# Ordered maps and sets

The standard library's extensional search trees, so two maps with the same entries are equal; the lemmas
restate the library's in terms of equality of keys.
-/

namespace Peinit

open Std.ExtTreeMap

/-- A map from `K` to `V`, iterated in the order of `K`. -/
abbrev OrdMap (K V : Type) [Ord K] : Type := Std.ExtTreeMap K V compare

/-- A set of `K`, iterated in the order of `K`. -/
abbrev OrdSet (K : Type) [Ord K] : Type := Std.ExtTreeSet K compare

namespace OrdMap

variable {K V : Type} [Ord K] [Std.TransOrd K]

def values (m : OrdMap K V) : List V := m.toList.map Prod.snd

@[simp] theorem get_empty (a : K) : (∅ : OrdMap K V)[a]? = none :=
  getElem?_empty

variable [Std.LawfulEqOrd K]

theorem get_filter (m : OrdMap K V) (p : K → V → Bool) (a : K) : (m.filter p)[a]? = m[a]?.filter (p a) :=
  getElem?_filter'

theorem get_filter_eq_some {m : OrdMap K V} {p : K → V → Bool} {a : K} {v : V} :
    (m.filter p)[a]? = some v ↔ m[a]? = some v ∧ p a v = true := by
  rw [get_filter, Option.filter_eq_some_iff]

theorem mem_toList (m : OrdMap K V) (k : K) (v : V) : (k, v) ∈ m.toList ↔ m[k]? = some v :=
  mem_toList_iff_getElem?_eq_some

theorem mem_values (m : OrdMap K V) (v : V) : v ∈ m.values ↔ ∃ k : K, m[k]? = some v := by
  simp [values]

theorem map_values_congr {W : Type} {m m' : OrdMap K V} {f : V → W}
    (same : ∀ a : K, m'[a]?.map f = m[a]?.map f) : m'.values.map f = m.values.map f := by
  have maps : m'.map (fun _ v => f v) = m.map (fun _ v => f v) :=
    ext_getElem? fun a => by
      rw [getElem?_map, getElem?_map]
      exact same a
  have lists := congrArg (fun m => (toList m).map Prod.snd) maps
  simp only [toList_map, List.map_map] at lists
  rw [values, values, List.map_map, List.map_map]
  exact lists

theorem get_ne_some {m : OrdMap K V} {v : V} (absent : ∀ entry ∈ m.toList, entry.2 ≠ v) (k : K) :
    m[k]? ≠ some v :=
  fun got => absent (k, v) ((mem_toList m k v).mpr got) rfl

theorem mem_keys (m : OrdMap K V) (k : K) : k ∈ m.keys ↔ ∃ v, m[k]? = some v := by
  rw [Std.ExtTreeMap.mem_keys, Std.ExtTreeMap.mem_iff_isSome_getElem?, Option.isSome_iff_exists]

theorem nodup_keys (m : OrdMap K V) : m.keys.Nodup := by
  have distinct := m.distinct_keys
  simp only [Std.compare_eq_iff_eq] at distinct
  exact distinct

/-! ## Updates at one key -/

variable [DecidableEq K]

theorem get_insert (m : OrdMap K V) (k a : K) (v : V) :
    (m.insert k v)[a]? = if k = a then some v else m[a]? := by
  simp only [getElem?_insert, Std.compare_eq_iff_eq]

theorem get_erase (m : OrdMap K V) (k a : K) : (m.erase k)[a]? = if k = a then none else m[a]? := by
  simp only [getElem?_erase, Std.compare_eq_iff_eq]

theorem get_erase_eq_some {m : OrdMap K V} {k a : K} {v : V} :
    (m.erase k)[a]? = some v ↔ k ≠ a ∧ m[a]? = some v := by
  rw [get_erase, ite_eq_iff']
  tauto

theorem insert_insert {m : OrdMap K V} {k : K} {v w : V} :
    (m.insert k v).insert k w = m.insert k w :=
  ext_getElem? fun a => by
    rw [get_insert, get_insert, get_insert]
    split_ifs <;> rfl

theorem erase_insert {m : OrdMap K V} {k : K} {v : V} (absent : k ∉ m) : (m.insert k v).erase k = m :=
  ext_getElem? fun a => by
    rw [get_erase, get_insert]
    split_ifs with here
    · rw [← here, getElem?_eq_none absent]
    · rfl

theorem get_foldl_erase (keys : List K) (a : K) :
    ∀ m : OrdMap K V, (keys.foldl (fun m k => m.erase k) m)[a]? = if a ∈ keys then none else m[a]? := by
  induction keys with
  | nil => simp
  | cons k keys ih =>
    intro m
    rw [List.foldl_cons, ih, get_erase]
    by_cases here : k = a
    · simp [here]
    · simp [here, Ne.symm here]

theorem insert_of_get {m : OrdMap K V} {k : K} {v : V} (h : m[k]? = some v) : m.insert k v = m := by
  apply ext_getElem?
  intro a
  rw [get_insert]
  split_ifs with ha
  · rw [← ha, h]
  · rfl

end OrdMap

namespace OrdSet

variable {K : Type} [Ord K] [Std.TransOrd K] [Std.LawfulEqOrd K]

theorem mem_insert (s : OrdSet K) (k a : K) : a ∈ s.insert k ↔ k = a ∨ a ∈ s := by
  rw [Std.ExtTreeSet.mem_insert, Std.compare_eq_iff_eq]

theorem mem_erase (s : OrdSet K) (k a : K) : a ∈ s.erase k ↔ k ≠ a ∧ a ∈ s := by
  rw [Std.ExtTreeSet.mem_erase, ne_eq, Std.compare_eq_iff_eq]

theorem mem_filter (s : OrdSet K) (p : K → Bool) (a : K) : a ∈ s.filter p ↔ a ∈ s ∧ p a = true := by
  rw [Std.ExtTreeSet.mem_filter]
  constructor
  · rintro ⟨mem, holds⟩
    rw [Std.ExtTreeSet.get_eq] at holds
    exact ⟨mem, holds⟩
  · rintro ⟨mem, holds⟩
    exact ⟨mem, by rw [Std.ExtTreeSet.get_eq]; exact holds⟩

end OrdSet

end Peinit
