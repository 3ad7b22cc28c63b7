import FungeTrace.View.Screen

/-!
# Screens for a terminal

A terminal draws a screen from one text.  Before each run of tiles of one style stands the control
sequence that sets the style.
-/

namespace FungeTrace
namespace Ansi

/-- A control sequence. -/
def control (parameters : List String) (last : String) : String :=
  "\x1b[" ++ ";".intercalate parameters ++ last

/-- The parameters that set a colour, for the foreground from `base` 30 and for the background from
`base` 40 on. -/
def colorParameters (base : Nat) : Color → List String
  | .reset => [toString (base + 9)]
  | .black => [toString base]
  | .rgb red green blue => [toString (base + 8), "2", toString red, toString green, toString blue]

/-- The control sequence that sets the style of a tile. -/
def setStyle (tile : Tile) : String :=
  let weight := if tile.bold then "1" else "22"
  control (weight :: colorParameters 30 tile.foreground ++ colorParameters 40 tile.background) "m"

/-- The text of a row of tiles, of which the one in front has the style `before`.  The first `hidden`
tiles are behind a wide glyph. -/
def rowText (before : String) (hidden : Nat) : List Tile → String
  | [] => ""
  | tile :: rest =>
    match hidden with
    | hidden + 1 => rowText before hidden rest
    | 0 =>
      let style := setStyle tile
      let change := if style = before then "" else style
      change ++ tile.glyph ++ rowText style (Columns.ofChars tile.glyph.toList - 1) rest

/-- The text that draws a screen from the upper left corner of a terminal. -/
def text (s : Screen) : String :=
  control [] "H" ++ "\r\n".intercalate (s.rows.map (rowText "" 0)) ++ control ["0"] "m"

/-- The text that opens an empty screen of its own. -/
def enter : String := control ["?1049"] "h" ++ control ["2"] "J"

/-- The text that goes back to the screen as it was before `enter`. -/
def leave : String := control ["?1049"] "l"

end Ansi
end FungeTrace
