import FungeTrace.Befunge.Execute
import FungeTrace.Engine.Event

/-!
# Scripted observers

A rule names the notifications it reacts to and what it does then.  A log keeps every notification,
with the current pointer and the cell it stands on.
-/

namespace FungeTrace

/-- A pointer that a rule acts on. -/
inductive Target where
  | current
  | id (number : Nat)
deriving DecidableEq

/-- One deed of a rule.  Deeds on a pointer that is not live do nothing.  A direction may be one
that was refused; the deed that needs it fails then. -/
inductive Deed where
  | write (coord : Coord) (cell : UInt8)
  | kill (target : Target)
  /-- Copies a pointer, to another position or direction if given, and puts the copy at an index or
  behind all others. -/
  | fork (target : Target) (position : Option Coord)
      (direction : Option (Except Fault Direction)) (index : Option Nat)
  | turn (target : Target) (direction : Except Fault Direction)
  | place (target : Target) (position : Coord)
  | push (target : Target) (value : Int32)
  | advance (target : Target)
  /-- Reverses the live sequence. -/
  | reverse
  | fail (message : String)
  /-- Breaks the worker down. -/
  | panic

/-- Deeds to do at certain notifications. -/
structure Rule where
  phase : Phase
  tick : Option Nat := none
  ip : Option Nat := none
  deeds : List Deed

namespace Rule

/-- The number of a target. -/
def resolve (event : Event) : Target → Option Nat
  | .current => event.current
  | .id number => some number

/-- Does something with a target that is live. -/
def onTarget (event : Event) (target : Target) (act : Nat → Act (Machine UInt8) Unit) :
    Act (Machine UInt8) Unit := fun m =>
  match resolve event target with
  | some id => if (m.ip? id).isSome then act id m else .ok () m
  | none => .ok () m

/-- Copies a pointer and puts the copy into the live sequence. -/
def copyIp (id : Nat) (position : Option Coord) (direction : Option (Except Fault Direction))
    (index : Option Nat) : Act (Machine UInt8) Unit := fun m =>
  match m.fork? id with
  | none => .ok () m
  | some (copy, m) =>
    match direction.getD (.ok copy.direction) with
    | .error f => .error f m
    | .ok direction =>
      let copy := { copy with position := position.getD copy.position, direction }
      match index with
      | some index => .ok () (m.insertAt index copy)
      | none => .ok () (m.spawn copy)

/-- Does one deed. -/
def perform (event : Event) : Deed → Act (Machine UInt8) Unit
  | .write coord cell => Machine.writeCell coord cell
  | .kill target => onTarget event target fun id => modify fun m => (m.remove id).2
  | .fork target position direction index =>
    onTarget event target fun id => copyIp id position direction index
  | .turn target direction =>
    onTarget event target fun id => do
      let direction ← Act.ofExcept direction
      modify fun m => m.modifyIp id fun ip => { ip with direction }
  | .place target position =>
    onTarget event target fun id => modify fun m => m.modifyIp id fun ip => { ip with position }
  | .push target value =>
    onTarget event target fun id =>
      discard (Machine.onState id (Bag.update Befunge.stackKey (Stack.push value)))
  | .advance target => onTarget event target fun id => discard (Machine.advance id)
  | .reverse => modify fun m => { m with ips := m.ips.reverse }
  | .fail message => throw (.observer event.phase.name message)
  | .panic => throw .workerPanicked

/-- Does deeds in order up to the first failure. -/
def performAll (event : Event) : List Deed → Act (Machine UInt8) Unit
  | [] => pure ()
  | deed :: rest => do
    perform event deed
    performAll event rest

/-- Whether a rule reacts to a notification. -/
def fits (rule : Rule) (event : Event) : Bool :=
  rule.phase == event.phase && rule.tick.all (· == event.tick) &&
    rule.ip.all (event.ip == some ·)

/-- The observer that follows a rule. -/
def observer {σ : Type} (rule : Rule) : Observer UInt8 σ := fun event =>
  if rule.fits event then
    Act.zoom Scene.machine (fun machine scene => { scene with machine })
      (performAll event rule.deeds)
  else
    pure ()

end Rule

/-- A notification as it was logged. -/
structure Note where
  event : Event
  /-- The current pointer, if it is live. -/
  ip : Option Ip
  /-- The cell under the current pointer. -/
  cell : Option (Except Fault UInt8)

namespace Note

/-- The observer that puts every notification in front of a log. -/
def observer : Observer UInt8 (List Note) := fun event => modify fun scene =>
  let m := scene.machine
  let note : Note := {
    event
    ip := event.current.bind m.ip?
    cell := event.current.bind m.cellUnder? }
  { scene with memory := note :: scene.memory }

end Note

end FungeTrace
