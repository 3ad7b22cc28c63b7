import FungeTrace.Space.Direction

/-!
# Commands

Every cell is a command; cells that mean nothing do nothing.
-/

namespace FungeTrace
namespace Befunge

/-- One Befunge-93 instruction. -/
inductive Command where
  | push (value : Int32)
  | add
  | subtract
  | multiply
  | divide (division : Division)
  | not
  | greater
  | go (direction : Direction)
  | random
  /-- West on zero, east otherwise. -/
  | horizontalIf
  /-- North on zero, south otherwise. -/
  | verticalIf
  | stringMode
  | duplicate
  | swap
  | discard
  | outputNumber
  | outputChar
  | bridge
  | get
  | put
  | inputNumber
  | inputChar
  | halt
  | nop
deriving DecidableEq

/-- The cell that switches string mode. -/
def quote : UInt8 := 34

/-- The command of a cell. -/
def Command.decode (cell : UInt8) : Command :=
  match Char.ofNat cell.toNat with
  | '+' => add
  | '-' => subtract
  | '*' => multiply
  | '/' => divide .quotient
  | '%' => divide .remainder
  | '!' => not
  | '\x60' => greater
  | '>' => go .east
  | '<' => go .west
  | 'v' => go .south
  | '^' => go .north
  | '?' => random
  | '_' => horizontalIf
  | '|' => verticalIf
  | '"' => stringMode
  | ':' => duplicate
  | '\\' => swap
  | '$' => discard
  | '.' => outputNumber
  | ',' => outputChar
  | '#' => bridge
  | 'g' => get
  | 'p' => put
  | '&' => inputNumber
  | '~' => inputChar
  | '@' => halt
  | c => if c.isDigit then push (Int32.ofNat (c.toNat - '0'.toNat)) else nop

/-- The name of a command; operands are left out. -/
def Command.name : Command → String
  | push _ => "Push"
  | add => "Add"
  | subtract => "Subtract"
  | multiply => "Multiply"
  | divide .quotient => "Divide"
  | divide .remainder => "Modulo"
  | not => "Not"
  | greater => "Greater"
  | go _ => "Go"
  | random => "Random"
  | horizontalIf => "HorizontalIf"
  | verticalIf => "VerticalIf"
  | stringMode => "StringMode"
  | duplicate => "Duplicate"
  | swap => "Swap"
  | discard => "Discard"
  | outputNumber => "OutputNumber"
  | outputChar => "OutputChar"
  | bridge => "Bridge"
  | get => "Get"
  | put => "Put"
  | inputNumber => "InputNumber"
  | inputChar => "InputChar"
  | halt => "Halt"
  | nop => "Nop"

end Befunge
end FungeTrace
