import FungeTrace.Befunge.Command
import FungeTrace.Befunge.Operands
import FungeTrace.Engine.Language

/-!
# Execution of commands

A command works on a focus: one pointer, the space and the shared state.  `execute` runs it for the
pointer at a place of a machine's live sequence, and leaves the other pointers alone.
-/

namespace FungeTrace
namespace Befunge

section Entries

/-- The operand stack of a pointer. -/
def stackKey : Key Stack := ⟨"stack"⟩

/-- Whether a pointer is in string mode. -/
def stringModeKey : Key Bool := ⟨"stringmode"⟩

/-- The random generator of a pointer. -/
def randomKey : Key Generator := ⟨"random"⟩

/-- The program input, in shared state. -/
def inputKey : Key Source := ⟨"stdin"⟩

/-- The program output, in shared state. -/
def outputKey : Key Sink := ⟨"stdout"⟩

end Entries

/-- What one command sees. -/
structure Focus where
  ip : Ip
  space : Space UInt8
  shared : Bag

namespace Focus

variable {α : Type}

/-- Runs an action on the pointer's own state. -/
def onState (act : Act Bag α) : Act Focus α :=
  Act.zoom (·.ip.state) (fun state f => { f with ip := { f.ip with state } }) act

/-- Runs an action on the operand stack. -/
def onStack (act : Act Stack α) : Act Focus α := onState (Bag.update stackKey act)

/-- Runs an action on the shared state. -/
def onShared (act : Act Bag α) : Act Focus α :=
  Act.zoom (·.shared) (fun shared f => { f with shared }) act

/-- Turns the pointer. -/
def turn (direction : Direction) : Act Focus Unit :=
  modify fun f => { f with ip := { f.ip with direction } }

/-- Turns the pointer one way on zero and another way otherwise. -/
def branch (zero nonzero : Direction) : Act Focus Unit := do
  let value ← onStack Stack.pop
  turn (if value = 0 then zero else nonzero)

/-- Directions by choice number. -/
def choices : Nat → Direction
  | 0 => .east
  | 1 => .south
  | 2 => .west
  | _ => .north

/-- Turns the pointer at random. -/
def turnRandomly : Act Focus Unit := do
  let choice ← onState (Bag.update randomKey (modifyGet Generator.choose))
  turn (choices choice)

/-- Switches string mode. -/
def toggleStringMode : Act Focus Unit := onState (Bag.update stringModeKey (modify (!·)))

/-- Moves the pointer once along its direction. -/
def skip : Act Focus Unit := fun f =>
  match f.space.move f.ip.position f.ip.direction with
  | .ok position => .ok () { f with ip := { f.ip with position } }
  | .error fault => .error fault f

/-- The coordinate that two operands name. -/
def address (x y : Int32) : Coord := .planar x.toInt64 y.toInt64

/-- The cell that a stack value is written as. -/
def toCell (value : Int32) : UInt8 := UInt8.ofInt value.toInt

/-- The stack value of a cell. -/
def ofCell (cell : UInt8) : Int32 := Int32.ofNat cell.toNat

/-- Pushes the cell at a popped address. -/
def fetch : Act Focus Unit := do
  let (x, y) ← onStack Stack.popTwo
  let cell ← Act.ofExcept ((← get).space.read (address x y))
  onStack (Stack.push (ofCell cell))

/-- Writes a popped value at a popped address. -/
def store : Act Focus Unit := do
  let (x, y) ← onStack Stack.popTwo
  let value ← onStack Stack.pop
  let f ← get
  set { f with space := ← Act.ofExcept (f.space.write (address x y) (toCell value)) }

/-- Writes a popped value to the output. -/
def emit (write : Int32 → Act Sink Unit) : Act Focus Unit := do
  let value ← onStack Stack.pop
  onShared (Bag.update outputKey (write value))

/-- Flushes the output, if there is one.  What a program asks for is seen before it is answered. -/
def flushOutput : Act Focus Unit := fun f =>
  match f.shared.get outputKey with
  | .ok _ => onShared (Bag.update outputKey Sink.flush) f
  | .error _ => .ok () f

/-- Pushes a value read from the input. -/
def accept (read : Act Source Int32) : Act Focus Unit := do
  flushOutput
  let value ← onShared (Bag.update inputKey read)
  onStack (Stack.push value)

/-- The effect of a command that does not halt. -/
def effect : Command → Act Focus Unit
  | .push value => onStack (Stack.push value)
  | .add => onStack (Stack.binary fun a b => .ok (a + b))
  | .subtract => onStack (Stack.binary fun a b => .ok (a - b))
  | .multiply => onStack (Stack.binary fun a b => .ok (a * b))
  | .divide division => onStack (Stack.binary (Stack.divide division))
  | .not => onStack (do
      let value ← Stack.pop
      Stack.push (Stack.ofBool (value = 0)))
  | .greater => onStack (Stack.binary fun a b => .ok (Stack.ofBool (b < a)))
  | .go direction => turn direction
  | .random => turnRandomly
  | .horizontalIf => branch .west .east
  | .verticalIf => branch .north .south
  | .stringMode => toggleStringMode
  | .duplicate => onStack (do Stack.push (← Stack.peek))
  | .swap => onStack (do
      let (second, top) ← Stack.popTwo
      Stack.push top
      Stack.push second)
  | .discard => onStack (discard Stack.pop)
  | .outputNumber => emit Sink.writeNumber
  | .outputChar => emit fun value => Sink.writeUnit (toCell value)
  | .bridge => skip
  | .get => fetch
  | .put => store
  | .inputNumber => accept Source.readInteger
  | .inputChar => accept (do return ofCell (← Source.readUnit))
  | .halt => pure ()
  | .nop => pure ()

end Focus

/-- The result of a program that halts by command. -/
def haltResult : UInt8 := 0

/-- Runs a command on a focus. -/
def perform (command : Command) : Act Focus (Decision UInt8) := do
  Focus.effect command
  return if command = .halt then .halt (some haltResult) else .proceed

/-- Runs an action on the pointer at a place of the live sequence.  Without such a pointer nothing
happens. -/
def onFocus (index : Nat) (act : Act Focus (Decision UInt8)) :
    Act (Machine UInt8) (Decision UInt8) := fun m =>
  match m.ips[index]? with
  | none => .ok .proceed m
  | some ip =>
    let put (f : Focus) : Machine UInt8 :=
      { m with space := f.space, ips := m.ips.set index f.ip, shared := f.shared }
    match act { ip, space := m.space, shared := m.shared } with
    | .ok decision f => .ok decision (put f)
    | .error fault f => .error fault (put f)

/-- Runs a command for the pointer at a place of the live sequence. -/
def execute (command : Command) (index : Nat) : Act (Machine UInt8) (Decision UInt8) :=
  onFocus index (perform command)

end Befunge
end FungeTrace
