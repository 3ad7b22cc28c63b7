/-!
# Styled text

Text on the screen is made of spans with a style each.  A style may leave a colour open; a tile of
the screen keeps the colour it has then.
-/

namespace FungeTrace

/-- A colour of the screen. -/
inductive Color where
  /-- The colour the terminal came with. -/
  | reset
  | black
  | rgb (red green blue : Nat)
deriving DecidableEq

namespace Color

/-- Two hexadecimal digits. -/
def hexByte (n : Nat) : List Char := [Nat.digitChar (n / 16 % 16), Nat.digitChar (n % 16)]

/-- The name of a colour, or its parts in hexadecimal digits. -/
def name : Color → String
  | reset => "Reset"
  | black => "Black"
  | rgb red green blue => String.ofList ('#' :: hexByte red ++ hexByte green ++ hexByte blue)

end Color

/-- How text is drawn. -/
structure Style where
  foreground : Option Color := none
  background : Option Color := none
  bold : Bool := false
deriving DecidableEq

/-- One place of the screen. -/
structure Tile where
  /-- The clusters that stand here, mostly one. -/
  glyph : String := " "
  foreground : Color := .reset
  background : Color := .reset
  bold : Bool := false
deriving DecidableEq

namespace Tile

/-- The tile in a style. -/
def paint (style : Style) (tile : Tile) : Tile :=
  { tile with
    foreground := style.foreground.getD tile.foreground
    background := style.background.getD tile.background
    bold := tile.bold || style.bold }

/-- The names of a tile's colours, and whether it is bold. -/
def styleName (tile : Tile) : String :=
  let colors := tile.foreground.name ++ " " ++ tile.background.name
  if tile.bold then colors ++ " bold" else colors

end Tile

/-- A text in one style. -/
structure Span where
  text : String
  style : Style := {}
deriving DecidableEq

/-- One row of text. -/
abbrev TextRow := List Span

/-! The colours of the debugger. -/

namespace Theme

def text : Color := .rgb 205 214 244

def primary : Color := .rgb 137 180 250

def secondary : Color := .rgb 250 179 135

def comment : Color := .rgb 108 112 134

def success : Color := .rgb 166 227 161

def error : Color := .rgb 243 139 168

def borderFocused : Color := .rgb 249 226 175

def borderNormal : Color := .rgb 108 112 134

/-- Background of the status bar. -/
def bar : Color := .rgb 50 50 70

def digit : Color := .rgb 250 179 135

/-- Turns and branches. -/
def arrow : Color := .rgb 137 180 250

/-- Arithmetic and stack commands. -/
def operator : Color := .rgb 148 226 213

/-- Input and output commands. -/
def stream : Color := .rgb 245 194 231

/-- Commands that work on the grid. -/
def gridAccess : Color := .rgb 203 166 247

/-- A cell under a pointer. -/
def pointer : Color := .rgb 180 165 120

/-- The cell under the active pointer. -/
def activePointer : Color := .rgb 249 226 175

/-- Text in a colour. -/
def ink (color : Color) : Style := { foreground := some color }

/-- Black text on a colour. -/
def label (color : Color) : Style := { foreground := some .black, background := some color }

/-- Text in a colour on the status bar. -/
def onBar (color : Color) : Style := { foreground := some color, background := some bar }

/-- The style of a pane's border. -/
def border (focused : Bool) : Style :=
  if focused then { foreground := some borderFocused, bold := true } else ink borderNormal

end Theme

end FungeTrace
