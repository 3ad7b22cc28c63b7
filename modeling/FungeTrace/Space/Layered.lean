import FungeTrace.Space.Shape

/-!
# Layered spaces

A ground is a space with storage of its own: a torus or a sparse space.  A space is a ground or an
overlay, which puts write layers over another space.

Reading scans the layers of an overlay from the top and falls through to the space below.  Writing
goes to the topmost layer that already holds the coordinate, or to the space below if none does, so
an overlay is transparent until a coordinate is seeded into a layer.  Movement, validity and
defaults are those of the ground at the bottom.
-/

namespace FungeTrace

variable {C : Type}

/-- A space with storage of its own. -/
inductive Ground (C : Type) where
  | torus (torus : Torus C)
  | sparse (sparse : Sparse C)

namespace Ground

/-- Number of axes. -/
def dims : Ground C → Nat
  | torus t => t.dims
  | sparse s => s.dims

/-- The cell at a coordinate. -/
def read : Ground C → Coord → Except Fault C
  | torus t, c => t.read c
  | sparse s, c => s.read c

/-- The ground with one cell replaced. -/
def write : Ground C → Coord → C → Except Fault (Ground C)
  | torus t, c, cell => torus <$> t.write c cell
  | sparse s, c, cell => sparse <$> s.write c cell

/-- Whether `c` is a coordinate of the ground. -/
def contains : Ground C → Coord → Bool
  | torus t, c => t.contains c
  | sparse s, c => s.contains c

/-- Whether the displacement may be taken. -/
def allows : Ground C → Direction → Bool
  | torus t, d => t.allows d
  | sparse _, _ => true

/-- One displacement under the ground's own policy. -/
def move : Ground C → Coord → Direction → Except Fault Coord
  | torus t, c, d => t.move c d
  | sparse s, c, d => s.move c d

/-- Where a pointer starts. -/
def origin : Ground C → Coord
  | torus t => t.origin
  | sparse s => s.origin

/-- Where a pointer heads at first. -/
def heading : Ground C → Direction
  | torus t => t.heading
  | sparse s => s.heading

/-- Structure of the ground. -/
def shape : Ground C → Shape
  | torus t => .toroidal t.sizes
  | sparse s => .sparse s.dims s.precision

end Ground

/-- One write layer of an overlay. -/
abbrev Layer (C : Type) := CellMap C

namespace Layer

/-- A layer with the given cells; of two cells at one coordinate the later one stays. -/
def ofList (cells : List (Coord × C)) : Layer C :=
  cells.foldl (fun layer cell => layer.insert cell.1 cell.2) ∅

end Layer

/-- Memory of a program: a ground, or layers over another space. -/
inductive Space (C : Type) where
  | ground (ground : Ground C)
  /-- Layers over `backing`, the topmost first. -/
  | overlay (backing : Space C) (layers : List (Layer C))

namespace Space

section Store

/-- The ground underneath all overlays. -/
def base : Space C → Ground C
  | ground g => g
  | overlay backing _ => backing.base

/-- The cell at a coordinate. -/
def read : Space C → Coord → Except Fault C
  | ground g, c => g.read c
  | overlay backing layers, c =>
    match layers.findSome? (·[c]?) with
    | some cell => .ok cell
    | none => backing.read c

/-- The layers after a write to the topmost one that holds `c`, if there is one. -/
def writeLayers (c : Coord) (cell : C) : List (Layer C) → Option (List (Layer C))
  | [] => none
  | layer :: below =>
    if layer.contains c then some (layer.insert c cell :: below)
    else (writeLayers c cell below).map (layer :: ·)

/-- The space with one cell replaced. -/
def write : Space C → Coord → C → Except Fault (Space C)
  | ground g, c, cell => ground <$> g.write c cell
  | overlay backing layers, c, cell =>
    match writeLayers c cell layers with
    | some layers => .ok (overlay backing layers)
    | none => (overlay · layers) <$> backing.write c cell

end Store

section Capabilities

/-- Number of axes. -/
def dims (s : Space C) : Nat := s.base.dims

/-- Whether `c` is a coordinate of the space. -/
def contains (s : Space C) (c : Coord) : Bool := s.base.contains c

/-- Whether the displacement may be taken. -/
def allows (s : Space C) (d : Direction) : Bool := s.base.allows d

/-- One displacement under the space's own policy. -/
def move (s : Space C) (c : Coord) (d : Direction) : Except Fault Coord := s.base.move c d

/-- Several displacements, one after the other. -/
def moveTimes (s : Space C) (d : Direction) : Nat → Coord → Except Fault Coord
  | 0, c => .ok c
  | n + 1, c => do s.moveTimes d n (← s.move c d)

/-- Where a pointer starts. -/
def origin (s : Space C) : Coord := s.base.origin

/-- Where a pointer heads at first. -/
def heading (s : Space C) : Direction := s.base.heading

/-- Structure of the space. -/
def shape : Space C → Shape
  | ground g => g.shape
  | overlay backing layers => .overlay layers.length backing.shape

end Capabilities

section Overlays

/-- An overlay without layers. -/
def covered (s : Space C) : Space C := overlay s []

/-- Further layers on top, the last of them topmost.  A ground is covered first. -/
def withLayers (s : Space C) (layers : List (Layer C)) : Space C :=
  match s with
  | ground g => overlay (ground g) layers.reverse
  | overlay backing below => overlay backing (layers.reverse ++ below)

/-- The space below the layers. -/
def backing? : Space C → Option (Space C)
  | ground _ => none
  | overlay backing _ => some backing

/-- Whether a layer of the space itself holds `c`. -/
def shadows : Space C → Coord → Bool
  | ground _, _ => false
  | overlay _ layers, c => layers.any (·.contains c)

end Overlays

end Space

end FungeTrace
