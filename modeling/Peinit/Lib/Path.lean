import Mathlib

/-!
# Lexical paths

The components of an absolute path, with empty ones, `.` and `..` resolved as the kernel would resolve
them where nothing is a link.  One path lies within another if its components continue the other's.
-/

namespace Peinit

/-- Go on from the directory with the components `above` to `name`. -/
def resolveName (above : List (List Char)) (name : List Char) : List (List Char) :=
  if name = [] ∨ name = ['.'] then above
  else if name = ['.', '.'] then above.dropLast
  else above ++ [name]

def pathComponents (path : String) : List (List Char) := (path.toList.splitOn '/').foldl resolveName []

/-- `path` is `root`, or lies inside it. -/
def PathWithin (path root : String) : Prop := pathComponents root <+: pathComponents path

def PathsOverlap (a b : String) : Prop := PathWithin a b ∨ PathWithin b a

/-- A component that is not resolved away. -/
def ProperName (name : List Char) : Prop := name ≠ [] ∧ name ≠ ['.'] ∧ name ≠ ['.', '.']

theorem resolveName_proper {above : List (List Char)} {name : List Char} (proper : ProperName name) :
    resolveName above name = above ++ [name] := by
  obtain ⟨some_, notDot, notDots⟩ := proper
  rw [resolveName, if_neg (by simp [some_, notDot]), if_neg notDots]

theorem pathComponents_append (above leaf : String) (noSlash : '/' ∉ leaf.toList) :
    pathComponents (above ++ "/" ++ leaf) = resolveName (pathComponents above) leaf.toList := by
  have split : (above ++ "/" ++ leaf).toList = above.toList ++ '/' :: leaf.toList := by simp
  unfold pathComponents
  rw [split, List.splitOn_eq_splitOnP, List.splitOnP_append_cons _ _ (by simp),
    ← List.splitOn_eq_splitOnP, ← List.splitOn_eq_splitOnP, List.splitOn_eq_singleton noSlash,
    List.foldl_append]
  rfl

theorem pathsOverlap_siblings {a b : String} {above : List (List Char)} {x y : List Char}
    (first : pathComponents a = above ++ [x]) (second : pathComponents b = above ++ [y]) :
    PathsOverlap a b ↔ x = y := by
  unfold PathsOverlap PathWithin
  rw [first, second]
  simp [eq_comm]

theorem pathsOverlap_nephew {a b : String} {above : List (List Char)} {x y z : List Char}
    (first : pathComponents a = above ++ [x]) (second : pathComponents b = above ++ [y] ++ [z]) :
    PathsOverlap a b ↔ x = y := by
  unfold PathsOverlap PathWithin
  rw [first, second]
  simp [eq_comm]

end Peinit
