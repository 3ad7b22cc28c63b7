import FungeTrace.Befunge.Execute
import FungeTrace.Engine.Event

/-!
# Snapshots

A snapshot is a copy of a state of a run, to be looked at later: the cells of the grid row by row,
the live pointers and the captured output.
-/

namespace FungeTrace

/-- A grid of cells. -/
structure Picture where
  width : Nat
  height : Nat
  /-- The cells row by row, each row from left to right. -/
  cells : Array UInt8

namespace Picture

/-- The cell in column `x` of row `y`, if the grid reaches so far. -/
def cell? (p : Picture) (x y : Nat) : Option UInt8 :=
  if x < p.width ∧ y < p.height then p.cells[y * p.width + x]? else none

/-- Number of cells. -/
def size (p : Picture) : Nat := p.cells.size

/-- The grid row by row. -/
def rows (p : Picture) : List (List UInt8) :=
  (List.range p.height).map fun y =>
    (p.cells.extract (y * p.width) ((y + 1) * p.width)).toList

/-- The rows without blanks at their ends, and without empty rows at the end. -/
def trimmed (p : Picture) (blank : UInt8) : List (List UInt8) :=
  let trim (row : List UInt8) : List UInt8 := (row.reverse.dropWhile (· == blank)).reverse
  ((p.rows.map trim).reverse.dropWhile (·.isEmpty)).reverse

/-- A grid with rows laid out from the upper left and blanks elsewhere. -/
def ofRows (width height : Nat) (rows : List (List UInt8)) (blank : UInt8) : Picture :=
  let cell := Torus.cellOfRows (rows.map List.toArray).toArray blank
  { width
    height
    cells := Array.ofFn fun place : Fin (width * height) => cell (place % width) (place / width) }

section Capture

variable (space : Space UInt8)

/-- Puts the cells of row `y` behind those of the rows before it, reading them one by one from left
to right.  A cell that cannot be read ends the capture. -/
def captureRow (width : Nat) (cells : Array UInt8) (y : Nat) : Except Fault (Array UInt8) :=
  (List.range width).foldlM
    (fun cells x => do
      let cell ← space.read (.planar (Int64.ofNat x) (Int64.ofNat y))
      return cells.push cell)
    cells

/-- The cells of a plane, read row by row. -/
def captureCells (width height : Nat) : Except Fault (Array UInt8) :=
  (List.range height).foldlM (captureRow space width) (Array.emptyWithCapacity (width * height))

/-- The plane of a space as it reads at present.  A space without a plane gives the text of the
shape underneath its overlays. -/
def ofSpace : Except Fault Picture :=
  match space.shape.plane? with
  | none => .error (.invalidShape (.notPlanar space.shape.base.text))
  | some (width, height) => do
    let cells ← captureCells space width height
    return { width, height, cells }

end Capture

end Picture

/-- A pointer as it is captured. -/
structure IpView where
  id : Nat
  position : Coord
  direction : Direction
  /-- The operand stack; a missing one counts as empty. -/
  stack : Stack
  /-- Whether the pointer is in string mode; a missing flag counts as off. -/
  stringMode : Bool
deriving DecidableEq

namespace IpView

/-- What is captured of a pointer. -/
def ofIp (ip : Ip) : IpView where
  id := ip.id
  position := ip.position
  direction := ip.direction
  stack := (ip.state.get? Befunge.stackKey).getD []
  stringMode := (ip.state.get? Befunge.stringModeKey).getD false

/-- Whether the pointer stands in column `x` of row `y`. -/
def standsAt (ip : IpView) (x y : Nat) : Bool :=
  ip.position.get? 0 == some (Int64.ofNat x) && ip.position.get? 1 == some (Int64.ofNat y)

end IpView

/-- A captured state of a run. -/
structure Snapshot where
  tick : Nat
  phase : Phase
  /-- The pointer that the captured notification was about. -/
  current : Option Nat
  grid : Picture
  ips : List IpView
  terminal : Terminal

namespace Snapshot

/-- Captures the state of a machine at a notification. -/
def capture (event : Event) (m : Machine UInt8) (terminal : Terminal) :
    Except Fault Snapshot := do
  let grid ← Picture.ofSpace m.space
  return {
    tick := event.tick
    phase := event.phase
    current := event.ip
    grid
    ips := m.ips.map IpView.ofIp
    terminal }

/-- The pointers in column `x` of row `y`. -/
def ipsAt (s : Snapshot) (x y : Nat) : List IpView := s.ips.filter (·.standsAt x y)

/-- The pointer that the snapshot is about, or else the first one. -/
def active (s : Snapshot) : Option IpView :=
  (s.current.bind fun id => s.ips.find? (·.id == id)).or s.ips.head?

/-- Bytes put down to a pointer: a fixed part and four for each stack value. -/
def ipCost (ip : IpView) : Nat := 64 + ip.stack.length * 4

/-- Bytes put down to a piece of output: a fixed part and its text. -/
def lineCost (line : OutputLine) : Nat := 32 + line.text.utf8ByteSize

/-- The costs of some parts together. -/
def costs {α : Type} (cost : α → Nat) (parts : List α) : Nat :=
  parts.foldr (fun part rest => cost part + rest) 0

/-- Estimate of the memory a snapshot takes: one byte a cell, the pointers and the output. -/
def cost (s : Snapshot) : Nat :=
  s.grid.size + costs ipCost s.ips + costs lineCost s.terminal.lines

end Snapshot

end FungeTrace
