import FungeTrace.Text.Pieces

/-!
# Lines

A text is cut at its newline bytes.  A carriage return directly before a newline belongs to the
line end; one at the end of the text without a newline does not.  An empty piece after the last
newline is no line.
-/

namespace FungeTrace
namespace Lines

/-- Byte that ends a line. -/
def newline : UInt8 := 10

/-- Byte that may stand before a newline. -/
def carriageReturn : UInt8 := 13

/-- A line without the carriage return at its end. -/
def trimReturn (line : List UInt8) : List UInt8 :=
  if line.getLast? = some carriageReturn then line.dropLast else line

/-- The lines made of some pieces, the last of which no newline follows. -/
def ofPieces : List (List UInt8) → List (List UInt8)
  | [] => []
  | [last] => if last.isEmpty then [] else [last]
  | piece :: rest => trimReturn piece :: ofPieces rest

/-- The lines of a text. -/
def ofBytes (bytes : List UInt8) : List (List UInt8) := ofPieces (pieces newline bytes)

end Lines
end FungeTrace
