import FungeTrace.Befunge.Command
import FungeTrace.Befunge.Program
import FungeTrace.Debug.Snapshot
import FungeTrace.Text.Decimal
import FungeTrace.View.Scroll
import FungeTrace.View.Widget

/-!
# The grid pane

The grid pane shows a window of the program grid behind a gutter of row numbers.  The window follows
the active pointer, and cells under pointers are marked.
-/

namespace FungeTrace

/-- Upper left corner of the window. -/
structure GridScroll where
  x : Nat := 0
  y : Nat := 0
deriving DecidableEq

namespace GridPane

/-- Width of the row numbers and the blank behind them. -/
def gutter : Nat := 4

section Cells

/-- Colour of a command. -/
def commandColor : Befunge.Command → Color
  | .push _ => Theme.digit
  | .go _ | .random | .horizontalIf | .verticalIf => Theme.arrow
  | .halt => Theme.error
  | .stringMode => Theme.secondary
  | .outputNumber | .outputChar | .inputNumber | .inputChar => Theme.stream
  | .bridge | .get | .put => Theme.gridAccess
  | .nop => Theme.comment
  | _ => Theme.operator

/-- Whether a byte is a blank or a visible ASCII character. -/
def isPrintable (cell : UInt8) : Bool := 32 ≤ cell && cell < 127

/-- The character that stands for a cell. -/
def glyph (cell : UInt8) : Char :=
  if isPrintable cell then Char.ofNat cell.toNat else '·'

/-- The style of a cell, marked if pointers stand on it. -/
def cellStyle (cell : UInt8) (here : List IpView) (active : Option IpView) : Style :=
  if here.isEmpty then Theme.ink (commandColor (Befunge.Command.decode cell))
  else
    let isActive := here.any fun ip => some ip.id == active.map (·.id)
    { Theme.label (if isActive then Theme.activePointer else Theme.pointer) with bold := true }

end Cells

/-- Columns of the grid that fit into an area, at least one. -/
def visibleWidth (a : Area) : Nat := max (a.width - (2 + gutter)) 1

/-- Rows of the grid that fit into an area, at least one. -/
def visibleHeight (a : Area) : Nat := max (a.height - 2) 1

/-- A component of a position as a column or row; negative ones count as zero. -/
def place (component : Option Int64) : Nat := (component.getD 0).toInt.toNat

/-- The window that shows the active pointer. -/
def scrollTo (a : Area) (s : Snapshot) (scroll : GridScroll) : GridScroll :=
  match s.active with
  | none => scroll
  | some ip => {
      x := Scroll.follow scroll.x (place (ip.position.get? 0)) (visibleWidth a) s.grid.width
      y := Scroll.follow scroll.y (place (ip.position.get? 1)) (visibleHeight a) s.grid.height }

/-- The numbers from `first` up to `last`, which is left out. -/
def interval (first last : Nat) : List Nat := List.range' first (last - first)

/-- Row `y` of the grid from column `first` up to column `last`, behind its number. -/
def gridRow (s : Snapshot) (first last y : Nat) : TextRow :=
  let number : Span := ⟨Decimal.padLeft 3 (toString y) ++ " ", Theme.ink Theme.comment⟩
  number :: (interval first last).map fun x =>
    let cell := (s.grid.cell? x y).getD Befunge.blank
    ⟨String.singleton (glyph cell), cellStyle cell (s.ipsAt x y) s.active⟩

/-- The rows of the window. -/
def rows (a : Area) (s : Snapshot) (scroll : GridScroll) : List TextRow :=
  let right := min (scroll.x + visibleWidth a) s.grid.width
  let bottom := min (scroll.y + visibleHeight a) s.grid.height
  (interval scroll.y bottom).map (gridRow s scroll.x right)

/-- The title of the pane. -/
def title (s : Snapshot) : String := s!" Grid {s.grid.width}x{s.grid.height} "

/-- The pane as it is drawn into an area, and the window that is shown. -/
def draw (a : Area) (s : Snapshot) (focused : Bool) (scroll : GridScroll) : Widget × GridScroll :=
  let scroll := scrollTo a s scroll
  let border : Border := { title := title s, style := Theme.border focused }
  (.paragraph border {} .left (rows a s scroll), scroll)

end GridPane

end FungeTrace
