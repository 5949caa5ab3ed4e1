import Mathlib.Data.List.Basic
import Mathlib.Tactic.Basic

/-!
# Path names

What a relative path names, read the way the system reads it: components
separated by `/`, an empty component or `.` staying where it is, `..` going up
one level. `resolve` gives the list of directory entries walked, so two paths
name the same entry when they resolve alike, and a path stays inside a directory
when its resolution extends the directory's.

`resolve_leaf` is the fact a server needs: appending a component that is none of
the special ones goes down exactly one level.

## Main definitions

* `resolve`: The entries a path walks through.

## Theorems

* `resolve_leaf`: An ordinary component is one level down.
-/

namespace SendingSystem

namespace Path

/-- The separator, `/`. -/
def slash : UInt8 := 47

/-- The dot, `.`. -/
def dot : UInt8 := 46

/-- Walk one component from where the walk has got to. -/
def walk (at_ : List (List UInt8)) (c : List UInt8) : List (List UInt8) :=
  if c = [] ∨ c = [dot] then at_ else if c = [dot, dot] then at_.dropLast else at_ ++ [c]

/-- The entries a path walks through, from the starting directory. -/
def resolve (path : List UInt8) : List (List UInt8) := (path.splitOn slash).foldl walk []

/-- An ordinary component goes down one level. -/
theorem resolve_leaf (dir name : List UInt8) (hslash : slash ∉ name) (hne : name ≠ [])
    (hdot : name.head? ≠ some dot) :
    resolve (dir ++ slash :: name) = resolve dir ++ [name] := by
  -- Neither of the special components: both are empty or start with a dot.
  have hwalk : ∀ st, walk st name = st ++ [name] := by
    intro st
    rw [walk, if_neg, if_neg]
    · rintro rfl
      exact hdot rfl
    · rintro (rfl | rfl)
      · exact hne rfl
      · exact hdot rfl
  rw [resolve, List.splitOn_append_cons_self, List.splitOn_eq_singleton hslash,
    List.foldl_append]
  exact hwalk _

end Path

end SendingSystem
