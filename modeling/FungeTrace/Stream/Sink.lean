import FungeTrace.Fault
import FungeTrace.Stream.Terminal
import FungeTrace.Text.Decimal
import FungeTrace.Text.Utf8

/-!
# Program output

A sink is a writer, which collects bytes and counts flushes, both up to an optional limit, or a
captured terminal, which shows every byte as the character of that code.  A number is written as its
decimal text and one blank.
-/

namespace FungeTrace

/-- A byte collector. -/
structure Writer where
  /-- The bytes written, the latest first. -/
  recent : List UInt8 := []
  /-- How many bytes may be written in all. -/
  limit : Option Nat := none
  /-- How often the output was flushed. -/
  flushes : Nat := 0
  /-- How many flushes succeed in all. -/
  flushLimit : Option Nat := none
deriving DecidableEq

namespace Writer

/-- Everything written, in order. -/
def bytes (w : Writer) : List UInt8 := w.recent.reverse

/-- Whether the limit is reached. -/
def isFull (w : Writer) : Bool := w.limit.any (· ≤ w.recent.length)

/-- Writes bytes one by one; those before the limit stay when the rest does not fit. -/
def writeAll : List UInt8 → Act Writer Unit
  | [] => pure ()
  | byte :: rest => fun w =>
    if w.isFull then .error (.stream .sinkFull) w
    else writeAll rest { w with recent := byte :: w.recent }

/-- Whether a flush will fail. -/
def isClogged (w : Writer) : Bool := w.flushLimit.any (· ≤ w.flushes)

/-- Flushes what was written, which fails once the limit of flushes is reached. -/
def flush : Act Writer Unit := fun w =>
  if w.isClogged then .error (.stream .sinkFull) w
  else .ok () { w with flushes := w.flushes + 1 }

end Writer

/-- Output of a program. -/
inductive Sink where
  | writer (writer : Writer)
  /-- A captured terminal and the tick that output is put down to. -/
  | terminal (terminal : Terminal) (tick : Nat)
deriving DecidableEq

namespace Sink

/-- The text of a number and the blank after it. -/
def numberText (value : Int32) : String := Decimal.int32 value ++ " "

/-- The character of a byte's code. -/
def unitText (unit : UInt8) : String := String.singleton (Char.ofNat unit.toNat)

/-- Writes bytes to a writer, or the text that stands for them to a terminal. -/
def put (bytes : List UInt8) (text : String) : Act Sink Unit
  | .writer w =>
    match Writer.writeAll bytes w with
    | .ok _ w => .ok () (.writer w)
    | .error f w => .error f (.writer w)
  | .terminal t tick => .ok () (.terminal (t.print text tick) tick)

/-- Writes one byte. -/
def writeUnit (unit : UInt8) : Act Sink Unit := put [unit] (unitText unit)

/-- Writes a number. -/
def writeNumber (value : Int32) : Act Sink Unit :=
  put (Utf8.encode (numberText value)) (numberText value)

/-- Passes what was written on to the reader of the output.  A terminal shows it at once. -/
def flush : Act Sink Unit
  | .writer w =>
    match Writer.flush w with
    | .ok _ w => .ok () (.writer w)
    | .error f w => .error f (.writer w)
  | .terminal t tick => .ok () (.terminal t tick)

/-- The bytes of a writer; a terminal has none. -/
def bytes : Sink → List UInt8
  | writer w => w.bytes
  | terminal _ _ => []

/-- The captured output; a writer has captured none. -/
def captured : Sink → Terminal
  | writer _ => .empty
  | terminal t _ => t

/-- The flushes that reached a writer. -/
def flushes : Sink → Nat
  | writer w => w.flushes
  | terminal _ _ => 0

/-- The sink with later output put down to `tick`. -/
def atTick (tick : Nat) : Sink → Sink
  | writer w => writer w
  | terminal t _ => terminal t tick

end Sink

end FungeTrace
