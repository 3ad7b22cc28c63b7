import FungeTrace.View.Style

/-!
# Widgets

What the debugger wants to be drawn, and where: rows of text in a border, or a list of items.  How a
widget gets onto a screen, and how a screen is divided into areas, is left to whoever draws it.
-/

namespace FungeTrace

/-- A rectangle of the screen. -/
structure Area where
  left : Nat
  top : Nat
  width : Nat
  height : Nat
deriving DecidableEq

namespace Area

/-- The area inside a border of one tile. -/
def inner (a : Area) : Area :=
  { left := a.left + 1, top := a.top + 1, width := a.width - 2, height := a.height - 2 }

/-- The area without its first columns. -/
def indented (a : Area) (columns : Nat) : Area :=
  { a with left := a.left + columns, width := a.width - columns }

/-- Row `y` of the area, without height if there is no such row. -/
def row (a : Area) (y : Nat) : Area := { a with top := a.top + y, height := min 1 (a.height - y) }

/-- Column just behind the area. -/
def right (a : Area) : Nat := a.left + a.width

/-- Row just below the area. -/
def bottom (a : Area) : Nat := a.top + a.height

end Area

/-- A border of one tile around an area, with a title in its upper side. -/
structure Border where
  title : String
  style : Style
  /-- Columns that stay free at the left inside the border. -/
  padding : Nat := 0

/-- The side of an area that rows of text are aligned to. -/
inductive Alignment where
  | left
  | right

/-- Something to be drawn into an area. -/
inductive Widget where
  /-- Rows of text that are cut at the area, all of which has a style of its own. -/
  | paragraph (border : Option Border) (style : Style) (alignment : Alignment)
      (rows : List TextRow)
  /-- Items of one row each, with a style for the whole width of the row. -/
  | list (border : Option Border) (items : List (Style × TextRow))

/-- The parts of a screen: the three panes and the two halves of the status bar. -/
structure Layout where
  grid : Area
  output : Area
  stack : Area
  report : Area
  hints : Area

end FungeTrace
