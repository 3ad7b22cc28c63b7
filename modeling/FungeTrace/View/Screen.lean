import FungeTrace.Text.Cluster
import FungeTrace.View.Widget

/-!
# The screen

A screen is a rectangle of tiles that widgets are drawn on.  Drawing outside it has no effect, and
rows of text are cut at the area they are drawn into.  There are two ways to draw rows:

* a paragraph leaves clusters out that take no column;
* a list puts them into the tile of the cluster before them, or into the first tile of their span,
  and leaves rows out that take no column at all.
-/

namespace FungeTrace

namespace Span

/-- Number of columns. -/
def width (span : Span) : Nat := Columns.ofChars span.text.toList

end Span

namespace TextRow

/-- The clusters of a row, each in its style. -/
def glyphs (row : TextRow) : List (Cluster × Style) :=
  row.flatMap fun span => (Cluster.ofString span.text).map (·, span.style)

/-- Number of columns. -/
def width (row : TextRow) : Nat := row.foldr (fun span columns => span.width + columns) 0

end TextRow

/-- A rectangle of tiles. -/
structure Screen where
  width : Nat
  height : Nat
  /-- The tiles row by row. -/
  tiles : Array Tile
  size_tiles : tiles.size = width * height

namespace Screen

section Drawing

/-- An empty screen. -/
def blank (width height : Nat) : Screen :=
  { width, height, tiles := .replicate (width * height) {}, size_tiles := Array.size_replicate }

/-- The whole screen. -/
def area (s : Screen) : Area := { left := 0, top := 0, width := s.width, height := s.height }

/-- Alters one tile. -/
def alter (s : Screen) (x y : Nat) (f : Tile → Tile) : Screen :=
  if x < s.width ∧ y < s.height then
    { s with
      tiles := s.tiles.modify (y * s.width + x) f
      size_tiles := Array.size_modify.trans s.size_tiles }
  else
    s

/-- Draws a glyph in place of the one that a tile has. -/
def put (s : Screen) (x y : Nat) (glyph : String) (style : Style) : Screen :=
  s.alter x y fun tile => { tile.paint style with glyph }

/-- Draws a glyph behind the one that a tile has. -/
def join (s : Screen) (x y : Nat) (glyph : String) (style : Style) : Screen :=
  s.alter x y fun tile => { tile.paint style with glyph := tile.glyph ++ glyph }

/-- Empties the tiles from column `first` up to column `last`, which is left out. -/
def clear (s : Screen) (first last y : Nat) : Screen :=
  (List.range' first (last - first)).foldl (fun s x => s.alter x y fun _ => {}) s

/-- Gives all tiles of an area a style. -/
def paint (s : Screen) (a : Area) (style : Style) : Screen :=
  (List.range a.height).foldl (fun s dy =>
    (List.range a.width).foldl (fun s dx =>
      s.alter (a.left + dx) (a.top + dy) (Tile.paint style)) s) s

section Paragraphs

/-- Draws clusters from a place on to the right, as long as they end before column `right`. -/
def write (s : Screen) (x y right : Nat) : List (Cluster × Style) → Screen
  | [] => s
  | (cluster, style) :: rest =>
    if x + cluster.columns ≤ right then
      (s.put x y cluster.text style).write (x + cluster.columns) y right rest
    else
      s

/-- Draws a row of a paragraph from column `indent` of an area's row `y` on.  A cluster that is wider
than the area is left out. -/
def writeRow (s : Screen) (a : Area) (y indent : Nat) (row : TextRow) : Screen :=
  let shown := row.glyphs.filter fun (cluster, _) =>
    0 < cluster.columns && cluster.columns ≤ a.width
  if y < a.height then s.write (a.left + indent) (a.top + y) a.right shown else s

/-- Draws the rows of a paragraph from the top of an area, as many as fit. -/
def writeRows (s : Screen) (a : Area) (rows : List TextRow) : Screen :=
  (rows.zipIdx).foldl (fun s (row, y) => s.writeRow a y 0 row) s

end Paragraphs

section Lists

/-- Draws further clusters of a span that starts in column `start`. -/
def putRest (s : Screen) (start x y right : Nat) (style : Style) : List Cluster → Screen
  | [] => s
  | cluster :: rest =>
    let next := x + cluster.columns
    if right < next then s
    else
      let s :=
        if x = start then s.join x y cluster.text style
        else if cluster.columns = 0 then s.join (x - 1) y cluster.text style
        else s.put x y cluster.text style
      (s.clear (x + 1) next y).putRest start next y right style rest

/-- Draws a span from a place on to the right, as long as its clusters end before column `right`. -/
def putSpan (s : Screen) (x y right : Nat) (span : Span) : Screen :=
  match Cluster.ofString span.text with
  | [] => s
  | first :: rest =>
    let next := x + first.columns
    if right < next then s
    else
      let s := (s.put x y first.text span.style).clear (x + 1) next y
      s.putRest x next y right span.style rest

/-- Draws spans from a place on to the right, as long as there are columns left. -/
def putSpans (s : Screen) (x y right : Nat) : List Span → Screen
  | [] => s
  | span :: rest =>
    if x < right then (s.putSpan x y right span).putSpans (x + span.width) y right rest else s

/-- Draws row `y` of a list in an area. -/
def listRow (s : Screen) (a : Area) (y : Nat) (row : TextRow) : Screen :=
  if y < a.height ∧ 0 < row.width then s.putSpans a.left (a.top + y) a.right row else s

/-- Draws the rows of a list from the top of an area, as many as fit. -/
def listRows (s : Screen) (a : Area) (rows : List TextRow) : Screen :=
  (rows.zipIdx).foldl (fun s (row, y) => s.listRow a y row) s

end Lists

/-- Draws a border around an area, with a title in its upper side. -/
def frame (s : Screen) (a : Area) (title : String) (style : Style) : Screen :=
  if a.width = 0 ∨ a.height = 0 then s else
  let put (s : Screen) (x y : Nat) (glyph : String) : Screen := s.put x y glyph style
  let right := a.right - 1
  let bottom := a.bottom - 1
  let columns := (List.range a.width).map (a.left + ·)
  let rows := (List.range a.height).map (a.top + ·)
  let s := rows.foldl (fun s y => put (put s a.left y "│") right y "│") s
  let s := columns.foldl (fun s x => put (put s x a.top "─") x bottom "─") s
  let s := put (put s right bottom "┘") right a.top "┐"
  let s := put (put s a.left bottom "└") a.left a.top "┌"
  s.write (a.left + 1) a.top right ((Cluster.ofString title).map (·, style))

section Widgets

/-- Draws a border, if there is one.  The answer has the area that is left. -/
def bordered (s : Screen) (a : Area) : Option Border → Screen × Area
  | none => (s, a)
  | some border => (s.frame a border.title border.style, a.inner.indented border.padding)

/-- Draws rows of text one below the other. -/
def drawRows (s : Screen) (a : Area) (alignment : Alignment) (rows : List TextRow) : Screen :=
  match alignment with
  | .left => s.writeRows a rows
  | .right => (rows.zipIdx).foldl (fun s (row, y) => s.writeRow a y (a.width - row.width) row) s

/-- Draws a widget into an area. -/
def draw (s : Screen) (a : Area) : Widget → Screen
  | .paragraph border style alignment rows =>
    let (s, content) := (s.paint a style).bordered a border
    s.drawRows content alignment rows
  | .list border items =>
    let (s, content) := s.bordered a border
    let s := (items.zipIdx).foldl (fun s ((style, _), y) => s.paint (content.row y) style) s
    s.listRows content (items.map (·.2))

/-- Draws widgets one after the other. -/
def drawAll (s : Screen) (parts : List (Area × Widget)) : Screen :=
  parts.foldl (fun s (a, widget) => s.draw a widget) s

end Widgets

end Drawing

section Reading

/-- The tile in a column of a row, if the screen reaches so far. -/
def tile? (s : Screen) (x y : Nat) : Option Tile :=
  if x < s.width then s.tiles[y * s.width + x]? else none

/-- The tiles of row `y`. -/
def row (s : Screen) (y : Nat) : List Tile :=
  (List.range s.width).filterMap (s.tile? · y)

/-- The tiles row by row. -/
def rows (s : Screen) : List (List Tile) := (List.range s.height).map s.row

/-- The text row by row. -/
def text (s : Screen) : List String :=
  s.rows.map fun row => String.join (row.map (·.glyph))

/-- Puts one more style in front of runs of equal styles. -/
def extend (name : String) : List (Nat × String) → List (Nat × String)
  | (n, other) :: rest =>
    if name = other then (n + 1, name) :: rest else (1, name) :: (n, other) :: rest
  | [] => [(1, name)]

/-- The runs of equal styles row by row, each with its length. -/
def styles (s : Screen) : List (List (Nat × String)) :=
  s.rows.map fun row => row.foldr (fun tile runs => extend tile.styleName runs) []

end Reading

end Screen

/-- An area in two halves side by side, of which the left one is the larger. -/
def Layout.halves (a : Area) : Area × Area :=
  let middle := (a.width + 1) / 2
  ({ a with width := middle }, { a with left := a.left + middle, width := a.width - middle })

/-- The status bar is the last row, in two halves.  Of the rest, seven tenths of the width are the
grid, three quarters of the height, over the output; the stacks are to the right. -/
def Layout.ofSize (width height : Nat) : Layout :=
  let rest := height - 1
  let left := (7 * width + 5) / 10
  let upper := (3 * rest + 2) / 4
  let (report, hints) := Layout.halves { left := 0, top := rest, width, height := min height 1 }
  { grid := { left := 0, top := 0, width := left, height := upper }
    output := { left := 0, top := upper, width := left, height := rest - upper }
    stack := { left := left, top := 0, width := width - left, height := rest }
    report
    hints }

end FungeTrace
