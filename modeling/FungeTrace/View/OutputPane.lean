import FungeTrace.Stream.Terminal
import FungeTrace.View.GridPane

/-!
# The output pane

The output pane shows what the program has printed.
-/

namespace FungeTrace
namespace OutputPane

/-- The title of the pane. -/
def title : String := " Output "

/-- The pane as it is drawn into an area, and the offset that is shown.  Without output there is
none to choose, and the offset stays as it is. -/
def draw (a : Area) (terminal : Terminal) (focused : Bool) (offset : Nat) : Widget × Nat :=
  let border : Border := { title, style := Theme.border focused }
  let rows := terminal.output
  if rows.isEmpty then
    (.paragraph border (Theme.ink Theme.comment) .left [[⟨"(no output)", {}⟩]], offset)
  else
    let visible := GridPane.visibleHeight a
    let offset := Scroll.clamp offset visible rows.length
    let items := (Scroll.window offset visible rows).map fun row =>
      (Theme.ink Theme.text, [⟨row, {}⟩])
    (.list (some { border with padding := 1 }) items, offset)

end OutputPane
end FungeTrace
