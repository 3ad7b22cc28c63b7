import FungeTrace.Space.Torus
import FungeTrace.Text.Lines
import FungeTrace.Text.Utf8

/-!
# Program grids

The lines of a source text become the rows of a grid, from column 0.  The grid has 80 columns and 25
rows, or as many as the text needs; cells that the text does not cover are blank.
-/

namespace FungeTrace
namespace Befunge

/-- Least number of columns. -/
def gridWidth : Nat := 80

/-- Least number of rows. -/
def gridHeight : Nat := 25

/-- The cell of an uncovered place. -/
def blank : UInt8 := 32

/-- The grid of a source text. -/
def load (source : String) : Except Fault (Torus UInt8) :=
  let lines := Lines.ofBytes (Utf8.encode source)
  Torus.ofRows (max (Torus.longest lines) gridWidth) (max lines.length gridHeight) lines blank

end Befunge
end FungeTrace
