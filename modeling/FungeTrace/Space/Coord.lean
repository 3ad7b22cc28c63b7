import Std.Data.ExtTreeMap

/-!
# Coordinates

A coordinate has one signed 64-bit component per axis of the space it addresses.  Coordinates are
plain values, ordered lexicographically with a shorter one before its extensions, so they can be
the keys of sparse storage.
-/

namespace FungeTrace

/-- A position, one component per axis. -/
structure Coord where
  /-- The component of each axis, axis 0 first. -/
  components : List Int64
deriving DecidableEq, Inhabited

namespace Coord

/-- The position with column `x` and row `y`. -/
def planar (x y : Int64) : Coord := ⟨[x, y]⟩

/-- The all-zero position of a space with `dims` axes. -/
def origin (dims : Nat) : Coord := ⟨List.replicate dims 0⟩

/-- Number of axes. -/
def dims (c : Coord) : Nat := c.components.length

/-- Component along `axis`, if there is such an axis. -/
def get? (c : Coord) (axis : Nat) : Option Int64 := c.components[axis]?

/-- Components in parentheses, separated by a comma and a blank. -/
def text (c : Coord) : String :=
  "(" ++ ", ".intercalate (c.components.map fun x => toString x.toInt) ++ ")"

/-- Lexicographic order of the components. -/
instance : Ord Coord := ⟨compareOn components⟩

instance : Std.TransOrd Coord :=
  inferInstanceAs (Std.TransCmp (compareOn components))

instance : Std.LawfulEqOrd Coord where
  eq_of_compare {a b} h := by
    have same : compare a.components b.components = .eq := h
    cases a
    cases b
    exact congrArg Coord.mk (Std.LawfulEqCmp.eq_of_compare same)

/-- Coordinates in lexicographic order. -/
def sorted (coords : List Coord) : List Coord := coords.mergeSort fun a b => (compare a b).isLE

@[simp] theorem dims_origin (n : Nat) : (origin n).dims = n := by
  simp [origin, dims]

@[simp] theorem dims_planar (x y : Int64) : (planar x y).dims = 2 := rfl

end Coord

end FungeTrace
