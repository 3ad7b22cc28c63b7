import FungeTrace.Space.Direction
import FungeTrace.Space.Precision

/-!
# Sparse spaces

The domain of a sparse space is the full range of its precision on every axis, but only written
cells are stored; all others read as the blank cell.  Movement is vector addition modulo the
precision.
-/

namespace FungeTrace

/-- Cells by coordinate. -/
abbrev CellMap (C : Type) := Std.ExtTreeMap Coord C

/-- A space that stores the written cells only. -/
structure Sparse (C : Type) where
  dims : Nat
  precision : Precision
  /-- The cell read where nothing was written. -/
  blank : C
  cells : CellMap C
  dims_pos : 0 < dims

namespace Sparse

variable {C : Type}

/-- A space with nothing written. -/
def empty (dims : Nat) (precision : Precision) (blank : C) : Except Fault (Sparse C) :=
  if h : 0 < dims then
    .ok { dims, precision, blank, cells := ∅, dims_pos := h }
  else
    .error (.invalidShape .noSparseAxis)

/-- Number of written cells. -/
def size (s : Sparse C) : Nat := s.cells.size

/-- Whether nothing was written. -/
def isEmpty (s : Sparse C) : Bool := s.cells.isEmpty

/-- The written cells in the order of their coordinates. -/
def toList (s : Sparse C) : List (Coord × C) := s.cells.toList

/-- Refuses coordinates of another arity and those the precision cannot represent. -/
def check (s : Sparse C) (c : Coord) : Except Fault Unit :=
  if c.dims ≠ s.dims then .error (.dimensionMismatch s.dims c.dims)
  else if c.components.all s.precision.contains then .ok ()
  else .error (.coordinateOutOfRange c)

/-- The cell at a coordinate. -/
def read (s : Sparse C) (c : Coord) : Except Fault C := do
  s.check c
  return s.cells[c]?.getD s.blank

/-- The space with one cell stored. -/
def write (s : Sparse C) (c : Coord) (cell : C) : Except Fault (Sparse C) := do
  s.check c
  return { s with cells := s.cells.insert c cell }

/-- Whether `c` can be read and written. -/
def contains (s : Sparse C) (c : Coord) : Bool :=
  match s.check c with
  | .ok _ => true
  | .error _ => false

/-- One displacement, each component cut down to the precision. -/
def move (s : Sparse C) (c : Coord) (d : Direction) : Except Fault Coord := do
  let next ← d.step c
  return ⟨next.components.map s.precision.wrap⟩

/-- The all-zero coordinate. -/
def origin (s : Sparse C) : Coord := Coord.origin s.dims

/-- The vector that is one along axis 0 and zero elsewhere. -/
def heading (s : Sparse C) : Direction :=
  .delta (1 :: List.replicate (s.dims - 1) 0) (by simp)

/-- Equality of shape, blank cell and written cells. -/
def same [BEq C] (s t : Sparse C) : Bool :=
  s.dims == t.dims && s.precision == t.precision && s.blank == t.blank &&
    s.toList == t.toList

end Sparse

end FungeTrace
