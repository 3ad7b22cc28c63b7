import FungeTrace.Space.Layered

/-!
# Shared overlays

Overlays derived from one another share their backing space and their earlier layers.  A `Family`
holds the stores, grounds and layers, by number.  A `View` says which stores an overlay is made of;
it never changes, only the stores do.

A view reads like the space it resolves to.  A write changes one store, the view's holder of the
coordinate.
-/

namespace FungeTrace

variable {C : Type}

/-- Stores that views refer to by number. -/
structure Family (C : Type) where
  grounds : Array (Ground C)
  layers : Array (Layer C)

/-- A space made of shared stores. -/
inductive View where
  | ground (slot : Nat)
  /-- Shared layers over `backing`, the topmost first. -/
  | overlay (backing : View) (layers : List Nat)
deriving DecidableEq

/-- One store of a family. -/
inductive Holder where
  | ground (slot : Nat)
  | layer (slot : Nat)
deriving DecidableEq

namespace Family

/-- No stores yet. -/
def empty : Family C := ⟨#[], #[]⟩

section Views

/-- A new store for a ground, and its view. -/
def addGround (f : Family C) (g : Ground C) : View × Family C :=
  (.ground f.grounds.size, { f with grounds := f.grounds.push g })

/-- New stores for layers, in order, and their numbers. -/
def addLayers (f : Family C) (layers : List (Layer C)) : List Nat × Family C :=
  ((List.range layers.length).map (f.layers.size + ·),
    { f with layers := f.layers ++ layers.toArray })

/-- Stores for all parts of a space, and its view. -/
def add (f : Family C) : Space C → View × Family C
  | .ground g => f.addGround g
  | .overlay backing layers =>
    let (below, f) := f.add backing
    let (slots, f) := f.addLayers layers
    (.overlay below slots, f)

/-- The view with further layers on top, the last of them topmost.  The layers it already has, and
its backing, are shared. -/
def withLayers (f : Family C) (view : View) (layers : List (Layer C)) : View × Family C :=
  let (slots, f) := f.addLayers layers
  match view with
  | .ground slot => (.overlay (.ground slot) slots.reverse, f)
  | .overlay backing below => (.overlay backing (slots.reverse ++ below), f)

/-- A ground is copied to a store of its own; an overlay shares everything with its copy. -/
def duplicate (f : Family C) (view : View) : View × Family C :=
  match view with
  | .ground slot =>
    match f.grounds[slot]? with
    | some g => f.addGround g
    | none => (view, f)
  | .overlay _ _ => (view, f)

/-- The space that a view shows at present; `none` when it names a missing store. -/
def resolve (f : Family C) : View → Option (Space C)
  | .ground slot => Space.ground <$> f.grounds[slot]?
  | .overlay backing layers => do
    let below ← f.resolve backing
    let layers ← layers.mapM (f.layers[·]?)
    return .overlay below layers

end Views

section Writing

/-- The store that a view reads `c` from and writes it to: the topmost layer that holds it, or the
ground at the bottom. -/
def holder (f : Family C) (c : Coord) : View → Holder
  | .ground slot => .ground slot
  | .overlay backing layers =>
    match layers.find? fun slot => (f.layers[slot]?.any (·.contains c)) with
    | some slot => .layer slot
    | none => f.holder c backing

/-- The family with one cell of one store replaced. -/
def store (f : Family C) (c : Coord) (cell : C) : Holder → Except Fault (Family C)
  | .layer slot => .ok { f with layers := f.layers.modify slot (·.insert c cell) }
  | .ground slot =>
    match f.grounds[slot]? with
    | some g => do
      let g ← g.write c cell
      return { f with grounds := f.grounds.setIfInBounds slot g }
    | none => .ok f

/-- Writes through a view. -/
def write (f : Family C) (view : View) (c : Coord) (cell : C) : Except Fault (Family C) :=
  f.store c cell (f.holder c view)

end Writing

end Family

namespace View

/-- The view below the layers of an overlay. -/
def backing? : View → Option View
  | ground _ => none
  | overlay backing _ => some backing

/-- Number of layers of an overlay. -/
def layerCount : View → Nat
  | ground _ => 0
  | overlay _ layers => layers.length

end View

end FungeTrace
