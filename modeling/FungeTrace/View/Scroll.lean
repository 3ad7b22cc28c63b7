/-!
# Scrolling

A pane shows a window of its content.  Windows either follow a target or are kept within the
content.
-/

namespace FungeTrace
namespace Scroll

/-- An offset past the end of any content. -/
def farEnd : Nat := 0xFFFFFFFFFFFFFFFF

/-- One row up. -/
def up (offset : Nat) : Nat := offset - 1

/-- One row down. -/
def down (offset : Nat) : Nat := min (offset + 1) farEnd

/-- Shifts a window of `visible` places over `total` so that it contains `target` and does not leave
the content. -/
def follow (offset target visible total : Nat) : Nat :=
  let shifted :=
    if target < offset then target
    else if offset + visible ≤ target then target + 1 - visible
    else offset
  min shifted (total - visible)

/-- Keeps a window of `visible` rows within `total`. -/
def clamp (offset visible total : Nat) : Nat :=
  if visible < total then min offset (total - visible) else 0

/-- The rows of a window. -/
def window {α : Type} (offset visible : Nat) (rows : List α) : List α :=
  (rows.drop offset).take visible

end Scroll
end FungeTrace
