import FungeTrace.Fault

/-!
# Displacements

A direction is a unit step along one axis or an arbitrary vector.  The two shapes are kept apart:
a vector that happens to be a unit step is not equal to the axis step, and toroidal spaces accept
axis steps only.
-/

namespace FungeTrace

/-- A fixed displacement. -/
inductive Direction where
  /-- Unit step along `index` in a space of `dims` axes. -/
  | axis (dims index : Nat) (positive : Bool) (index_lt : index < dims)
  /-- One component per axis. -/
  | delta (components : List Int64) (ne_nil : components ≠ [])
deriving DecidableEq

namespace Direction

/-! The four steps of the plane; column numbers grow east and row numbers grow south. -/

def east : Direction := .axis 2 0 true (by decide)

def west : Direction := .axis 2 0 false (by decide)

def south : Direction := .axis 2 1 true (by decide)

def north : Direction := .axis 2 1 false (by decide)

/-- An axis step, refused for an axis the space does not have. -/
def ofAxis (dims index : Nat) (positive : Bool) : Except Fault Direction :=
  if dims = 0 then .error (.invalidDirection .noDimension)
  else if h : index < dims then .ok (.axis dims index positive h)
  else .error (.invalidDirection (.missingAxis index dims))

/-- A vector, refused when it has no component. -/
def ofDelta (components : List Int64) : Except Fault Direction :=
  if h : components = [] then .error (.invalidDirection .noComponent)
  else .ok (.delta components h)

/-- Number of axes the displacement applies to. -/
def dims : Direction → Nat
  | axis dims _ _ _ => dims
  | delta components _ => components.length

/-- Axis and sign of an axis step. -/
def axis? : Direction → Option (Nat × Bool)
  | axis _ index positive _ => some (index, positive)
  | delta _ _ => none

/-- Displacement along axis `i`, zero beyond the last axis. -/
def component : Direction → Nat → Int64
  | axis _ index positive _, i => if index = i then (if positive then 1 else -1) else 0
  | delta components _, i => components[i]?.getD 0

/-- The opposite displacement, of the same shape. -/
def reversed : Direction → Direction
  | axis dims index positive h => .axis dims index (!positive) h
  | delta components h => .delta (components.map (- ·)) (by simpa using h)

/-- The coordinate one displacement further.  Components wrap at 64 bits. -/
def step (d : Direction) (c : Coord) : Except Fault Coord :=
  if c.dims = d.dims then
    .ok ⟨c.components.mapIdx fun i x => x + d.component i⟩
  else
    .error (.dimensionMismatch d.dims c.dims)

/-- The coordinates that repeated steps reach, up to the first that fails. -/
def walk (d : Direction) (c : Coord) : Nat → List (Except Fault Coord)
  | 0 => []
  | n + 1 =>
    match d.step c with
    | .ok next => .ok next :: d.walk next n
    | .error f => [.error f]

/-- Shape and components in full, for displacements that no arrow stands for. -/
def describe : Direction → String
  | axis dims index positive _ =>
    s!"Axis \x7b dims: {dims}, axis: {index}, positive: {positive} \x7d"
  | delta components _ =>
    "Delta([" ++ ", ".intercalate (components.map fun x => toString x.toInt) ++ "])"

end Direction

end FungeTrace
