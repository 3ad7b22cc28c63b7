import FungeTrace.Engine.Language

/-!
# A language of pointers

The smallest language that creates, removes and reorders pointers.  It has no stack; its commands
act on the live sequence, on directions, and on the run.
-/

namespace FungeTrace
namespace Tiny

/-- One instruction. -/
inductive Command where
  | halt (result : Option UInt8)
  /-- Puts a copy that heads south, one step south of the current pointer, behind all others. -/
  | fork
  /-- The same, in front of all others. -/
  | forkFront
  /-- Removes the current pointer. -/
  | remove
  /-- Removes the pointer in front. -/
  | removeFront
  /-- Removes all pointers. -/
  | clear
  /-- Reverses the live sequence. -/
  | reverse
  | turn (direction : Direction)
  | fail (fault : Fault)
  | nop
deriving DecidableEq

/-- One step south-east. -/
def diagonal : Direction := .delta [1, 1] (by simp)

/-- The command of a cell. -/
def Command.decode (cell : UInt8) : Command :=
  match Char.ofNat cell.toNat with
  | '@' => halt (some 33)
  | 'H' => halt none
  | 'F' => fork
  | 'f' => forkFront
  | 'K' => remove
  | 'k' => removeFront
  | 'C' => clear
  | 'R' => reverse
  | 'D' => turn diagonal
  | 'E' => fail .cancelled
  | 'P' => fail .workerPanicked
  | '>' => turn .east
  | '<' => turn .west
  | 'v' => turn .south
  | '^' => turn .north
  | _ => nop

/-- Copies a pointer one step to the south and hands the copy on. -/
def branchSouth (id : Nat) (place : Ip → Machine UInt8 → Machine UInt8) :
    Act (Machine UInt8) Unit := fun m =>
  match m.fork? id with
  | none => .ok () m
  | some (copy, m) =>
    match m.space.move copy.position .south with
    | .ok position => .ok () (place { copy with position, direction := .south } m)
    | .error f => .error f m

/-- The effect of a command for the pointer of a number. -/
def effect (id : Nat) : Command → Act (Machine UInt8) Unit
  | .fork => branchSouth id fun ip m => m.spawn ip
  | .forkFront => branchSouth id fun ip m => m.insertAt 0 ip
  | .remove => modify fun m => (m.remove id).2
  | .removeFront => modify fun m => { m with ips := m.ips.tail }
  | .clear => modify fun m => { m with ips := [] }
  | .reverse => modify fun m => { m with ips := m.ips.reverse }
  | .turn direction => modify fun m => m.modifyIp id fun ip => { ip with direction }
  | .fail fault => throw fault
  | .halt _ => pure ()
  | .nop => pure ()

/-- What a command decides about the run. -/
def decision : Command → Decision UInt8
  | .halt result => .halt result
  | _ => .proceed

/-- The operation of a cell. -/
def operation (cell : UInt8) (current : Option Nat) : Act (Machine UInt8) (Decision UInt8) := do
  let command := Command.decode cell
  match current with
  | none => return .proceed
  | some id =>
    effect id command
    return decision command

/-- A pointer without state at the start of the space, behind all others. -/
def populate : Act (Machine UInt8) Unit := modify fun m =>
  let (ip, supply) := m.supply.newIp m.space.origin m.space.heading
  { m with supply }.spawn ip

/-- Runs on bare toruses only, of any number of axes. -/
def language : Language UInt8 where
  name := "tiny"
  accepts
    | .ground (.torus _) => true
    | _ => false
  operation := operation
  populate := populate

end Tiny
end FungeTrace
