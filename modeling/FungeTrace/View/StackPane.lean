import FungeTrace.Debug.Snapshot
import FungeTrace.Text.Decimal
import FungeTrace.View.GridPane

/-!
# The stack pane

The stack pane lists every live pointer with its stack, the top value first.
-/

namespace FungeTrace
namespace StackPane

/-- An arrow for the steps along the first two axes, other directions in full. -/
def heading (d : Direction) : String :=
  match d.axis? with
  | some (0, true) => "→"
  | some (0, false) => "←"
  | some (1, true) => "↓"
  | some (1, false) => "↑"
  | _ => d.describe

/-- The row that names a pointer. -/
def header (ip : IpView) (isActive : Bool) : TextRow :=
  let name : Style :=
    if isActive then { Theme.ink Theme.activePointer with bold := true }
    else Theme.ink Theme.pointer
  let mode : TextRow :=
    if ip.stringMode then [⟨" \"string\"", Theme.ink Theme.secondary⟩] else []
  [⟨"IP#" ++ toString ip.id, name⟩,
    ⟨" at " ++ ip.position.text ++ " ", Theme.ink Theme.comment⟩,
    ⟨heading ip.direction, Theme.ink Theme.arrow⟩] ++ mode

/-- The byte that a value is the code of, if that is a printable one. -/
def character? (value : Int32) : Option Char :=
  let code := value.toInt
  if 32 ≤ code ∧ code < 127 then some (Char.ofNat code.toNat) else none

/-- The row of a stack value, with the character it is the code of. -/
def valueRow (value : Int32) : TextRow :=
  let number : Span := ⟨"  " ++ Decimal.padLeft 11 (Decimal.int32 value), Theme.ink Theme.digit⟩
  match character? value with
  | some c => [number, ⟨"  '" ++ String.singleton c ++ "'", Theme.ink Theme.comment⟩]
  | none => [number]

/-- A row of a remark. -/
def remark (text : String) : TextRow := [⟨text, Theme.ink Theme.comment⟩]

/-- The rows of one pointer. -/
def ipRows (current : Option Nat) (ip : IpView) : List TextRow :=
  let values := if ip.stack.isEmpty then [remark "  (empty)"] else ip.stack.map valueRow
  header ip (current == some ip.id) :: values

/-- The rows of all pointers. -/
def rows (s : Snapshot) : List TextRow :=
  if s.ips.isEmpty then [remark "(no live IPs)"] else s.ips.flatMap (ipRows s.current)

/-- The pane as it is drawn into an area, and the offset that is shown. -/
def draw (a : Area) (s : Snapshot) (focused : Bool) (offset : Nat) : Widget × Nat :=
  let border : Border := { title := " Stacks ", style := Theme.border focused }
  let rows := rows s
  let visible := GridPane.visibleHeight a
  let offset := Scroll.clamp offset visible rows.length
  (.list border ((Scroll.window offset visible rows).map ({}, ·)), offset)

end StackPane
end FungeTrace
