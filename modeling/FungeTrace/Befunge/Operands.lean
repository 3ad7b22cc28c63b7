import FungeTrace.State.Bag

/-!
# Operands

Commands take their operands from a stack of 32-bit values.  Arithmetic wraps, and division goes
toward zero.  Two operands are taken only if both are there, and a refused division has used them
up.
-/

namespace FungeTrace

namespace Stack

/-- Puts a value on top. -/
def push (value : Int32) : Act Stack Unit := fun s => .ok () (value :: s)

/-- The value on top. -/
def peek : Act Stack Int32 := fun s =>
  match s with
  | [] => .error (.stackUnderflow 1 0) s
  | top :: _ => .ok top s

/-- Takes the value on top. -/
def pop : Act Stack Int32 := fun s =>
  match s with
  | [] => .error (.stackUnderflow 1 0) s
  | top :: rest => .ok top rest

/-- Takes the two values on top.  The answer has the lower one first. -/
def popTwo : Act Stack (Int32 × Int32) := fun s =>
  match s with
  | top :: second :: rest => .ok (second, top) rest
  | _ => .error (.stackUnderflow 2 s.length) s

/-- Replaces the two values on top by a function of them. -/
def binary (f : Int32 → Int32 → Except Fault Int32) : Act Stack Unit := do
  let (left, right) ← popTwo
  push (← Act.ofExcept (f left right))

/-- Quotient or remainder of a division toward zero. -/
def divide (division : Division) (left right : Int32) : Except Fault Int32 :=
  if right = 0 then .error (.divisionByZero division)
  else
    match division with
    | .quotient => .ok (left / right)
    | .remainder => .ok (left % right)

/-- One for true and zero for false. -/
def ofBool (b : Bool) : Int32 := if b then 1 else 0

end Stack

end FungeTrace
