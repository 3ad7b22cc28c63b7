import FungeTrace.Space.Layered
import FungeTrace.State.Bag

/-!
# Machines

A machine is what the operations of a language work on: a space, the live instruction pointers in
the order they run, and the state they share.  Pointers are known by number.  The numbers, and the
seeds of random generators, come from a supply that hands out each of them once; the choices of a
seed come from dice that the supply is given.
-/

namespace FungeTrace

/-- An instruction pointer. -/
structure Ip where
  /-- The number of the pointer. -/
  id : Nat
  position : Coord
  direction : Direction
  /-- Whatever a language keeps per pointer. -/
  state : Bag

/-- The numbers and seeds that were not yet handed out, and the dice that go with the seeds. -/
structure Supply where
  nextId : Nat := 1
  nextSeed : UInt64 := 0
  dice : Dice

namespace Supply

/-- A pointer with a new number and no state. -/
def newIp (s : Supply) (position : Coord) (direction : Direction) : Ip × Supply :=
  ({ id := s.nextId, position, direction, state := .empty }, { s with nextId := s.nextId + 1 })

/-- A copy of a pointer under a new number. -/
def fork (s : Supply) (ip : Ip) : Ip × Supply :=
  ({ ip with id := s.nextId }, { s with nextId := s.nextId + 1 })

/-- A generator of the next seed.  Seeds go up by one, modulo two to the 64. -/
def newGenerator (s : Supply) : Generator × Supply :=
  ({ dice := s.dice, seed := s.nextSeed }, { s with nextSeed := s.nextSeed + 1 })

end Supply

/-- What operations work on. -/
structure Machine (C : Type) where
  space : Space C
  /-- The live pointers in the order they run. -/
  ips : List Ip
  /-- State that all pointers share. -/
  shared : Bag
  supply : Supply

namespace Machine

variable {C : Type}

section Pointers

/-- The pointer of a number. -/
def ip? (m : Machine C) (id : Nat) : Option Ip := m.ips.find? fun ip => ip.id == id

/-- Place of a pointer in the live sequence. -/
def indexOf? (m : Machine C) (id : Nat) : Option Nat := m.ips.findIdx? fun ip => ip.id == id

/-- The cell under the pointer of a number. -/
def cellUnder? (m : Machine C) (id : Nat) : Option (Except Fault C) :=
  (m.ip? id).map fun ip => m.space.read ip.position

/-- The machine with a pointer altered; nothing happens if it is not live. -/
def modifyIp (m : Machine C) (id : Nat) (f : Ip → Ip) : Machine C :=
  match m.indexOf? id with
  | some i => { m with ips := m.ips.modify i f }
  | none => m

/-- The machine with a pointer behind all others. -/
def spawn (m : Machine C) (ip : Ip) : Machine C := { m with ips := m.ips ++ [ip] }

/-- The machine with a pointer at a place, or behind all others if there is no such place. -/
def insertAt (m : Machine C) (index : Nat) (ip : Ip) : Machine C :=
  { m with ips := m.ips.insertIdx (min index m.ips.length) ip }

/-- Takes a pointer out of the live sequence. -/
def remove (m : Machine C) (id : Nat) : Option Ip × Machine C :=
  match m.indexOf? id with
  | some i => (m.ips[i]?, { m with ips := m.ips.eraseIdx i })
  | none => (none, m)

/-- Gives a live pointer a copy; what becomes of the copy is left to the caller. -/
def fork? (m : Machine C) (id : Nat) : Option (Ip × Machine C) :=
  (m.ip? id).map fun ip =>
    let (copy, supply) := m.supply.fork ip
    (copy, { m with supply })

end Pointers

section Actions

/-- Moves a pointer once along its direction.  The answer is whether it is live. -/
def advance (id : Nat) : Act (Machine C) Bool := fun m =>
  match m.ip? id with
  | none => .ok false m
  | some ip =>
    match m.space.move ip.position ip.direction with
    | .ok position => .ok true (m.modifyIp id fun ip => { ip with position })
    | .error f => .error f m

/-- Writes a cell of the space. -/
def writeCell (c : Coord) (cell : C) : Act (Machine C) Unit := fun m =>
  match m.space.write c cell with
  | .ok space => .ok () { m with space }
  | .error f => .error f m

/-- Runs an action on the state of a live pointer; `none` if it is not live. -/
def onState {α : Type} (id : Nat) (act : Act Bag α) : Act (Machine C) (Option α) := fun m =>
  match m.ip? id with
  | none => .ok none m
  | some ip =>
    match act ip.state with
    | .ok a state => .ok (some a) (m.modifyIp id fun ip => { ip with state })
    | .error f state => .error f (m.modifyIp id fun ip => { ip with state })

end Actions

end Machine

end FungeTrace
