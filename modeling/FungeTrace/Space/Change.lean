import FungeTrace.Space.Layered

/-!
# Differences between spaces

What a run did to a space is the sorted list of the cells that read differently afterwards.
-/

namespace FungeTrace

variable {C : Type}

namespace Extent

/-- All coordinates of rings of the given sizes, in row-major order. -/
def coordinates : List Nat → List (List Int64)
  | [] => [[]]
  | size :: sizes =>
    let rest := coordinates sizes
    (List.range size).flatMap fun i => rest.map (Int64.ofNat i :: ·)

end Extent

/-- A cell and the coordinate it stands at. -/
abbrev Placed (C : Type) := Coord × C

namespace Space

/-- The cells at `coords` that `after` reads differently from `before`. -/
def changesAt [BEq C] (before after : Space C) (coords : List Coord) : List (Placed C) :=
  coords.filterMap fun c =>
    match before.read c, after.read c with
    | .ok old, .ok new => if old == new then none else some (c, new)
    | _, .ok new => some (c, new)
    | _, .error _ => none

/-- The written cells of `after` that `before` did not hold, or held with another value. -/
def changesStored [BEq C] (before after : Sparse C) : List (Placed C) :=
  after.toList.filter fun (c, cell) =>
    match before.cells[c]? with
    | some old => !(old == cell)
    | none => true

/-- The changed cells by coordinate: over a torus all cells as they read, in a sparse space the
written ones.  Overlays on a sparse space report none. -/
def changes [BEq C] (before after : Space C) : List (Placed C) :=
  match before, after with
  | .ground (.sparse s), .ground (.sparse t) => changesStored s t
  | _, _ =>
    match after.base with
    | .torus t => changesAt before after ((Extent.coordinates t.sizes).map Coord.mk)
    | .sparse _ => []

end Space

end FungeTrace
