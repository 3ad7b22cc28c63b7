import FungeTrace.Befunge.Execute

/-!
# The Befunge-93 instruction set

Outside string mode a cell is executed as a command.  In string mode a quote ends the mode and every
other cell is pushed as its code.
-/

namespace FungeTrace
namespace Befunge

/-- A cell met in string mode. -/
def collect (cell : UInt8) : Act Focus Unit :=
  if cell = quote then
    modify fun f => { f with ip := { f.ip with state := f.ip.state.insert stringModeKey false } }
  else
    Focus.onStack (Stack.push (Focus.ofCell cell))

/-- What a cell does for the pointer that stands on it. -/
def react (cell : UInt8) : Act Focus (Decision UInt8) := do
  if ← Act.ofExcept ((← get).ip.state.get stringModeKey) then
    collect cell
    return .proceed
  else
    perform (Command.decode cell)

/-- What a cell does for the pointer of a number; nothing if it is not live. -/
def operation (cell : UInt8) (current : Option Nat) : Act (Machine UInt8) (Decision UInt8) :=
  fun m =>
    match current.bind m.indexOf? with
    | none => .ok .proceed m
    | some index => onFocus index (react cell) m

/-- A pointer at the start of a space, with an empty stack, out of string mode and with a generator
of its own. -/
def newIp (space : Space UInt8) (supply : Supply) : Ip × Supply :=
  let (ip, supply) := supply.newIp space.origin space.heading
  let (generator, supply) := supply.newGenerator
  let state := ((ip.state.insert stackKey []).insert stringModeKey false).insert randomKey generator
  ({ ip with state }, supply)

/-- Puts a new pointer in front of all others. -/
def populate : Act (Machine UInt8) Unit := modify fun m =>
  let (ip, supply) := newIp m.space m.supply
  { m with supply }.insertAt 0 ip

/-- Befunge-93 runs in the plane. -/
def language : Language UInt8 where
  name := "Befunge-93"
  accepts space := space.shape.plane?.isSome
  operation := operation
  populate := populate

end Befunge
end FungeTrace
