import FungeTrace.Engine.Event
import FungeTrace.Engine.Language

/-!
# The engine

An engine drives a language over a machine in ticks.  A tick visits the live pointers from the
front: the current pointer's cell is executed, and unless the operation removed the pointer it then
moves along its direction.  The next visit goes to the pointer behind it, wherever it stands by
then; after a removal it goes to the place that became free.

A tick need not end, for operations may keep placing pointers behind the current one, and neither
need a run without a budget.  Both are least fixed points: what does not end is `none`.
-/

namespace FungeTrace

/-- A language at work on a machine. -/
structure Engine (C σ : Type) where
  scene : Scene C σ
  language : Language C
  observers : List (Observer C σ)
  /-- The pointer under execution. -/
  current : Option Nat := none
  /-- Ticks started so far. -/
  ticks : Nat := 0
  /-- Whether the notification before the first tick was sent. -/
  launched : Bool := false
  halted : Bool := false

/-- How a bounded run ended. -/
inductive RunOutcome (C : Type) where
  | halted (result : Option C)
  | tickLimit
deriving DecidableEq

/-- What a visit decides: stop, or go on at a place of the live sequence. -/
inductive Visit (C : Type) where
  | halted (result : Option C)
  | next (index : Nat)
deriving DecidableEq

/-- Outcome of an engine computation, and the engine it leaves. -/
abbrev Reached (C σ α : Type) := EStateM.Result Fault (Engine C σ) α

namespace Engine

variable {C σ : Type}

/-- The machine of an engine. -/
abbrev machine (e : Engine C σ) : Machine C := e.scene.machine

section Assembly

/-- An engine over a ready machine.  The language is not asked. -/
def assemble (machine : Machine C) (language : Language C) (memory : σ) : Engine C σ :=
  { scene := { machine, memory }, language, observers := [] }

/-- An engine whose pointers the language creates, refused if it cannot run in the space. -/
def start (space : Space C) (language : Language C) (shared : Bag) (supply : Supply)
    (memory : σ) : Except Fault (Engine C σ) :=
  if language.accepts space then
    match language.populate { space, ips := [], shared, supply } with
    | .ok _ machine => .ok (assemble machine language memory)
    | .error f _ => .error f
  else
    .error (.unsupportedSpace language.name space.shape.text)

/-- The engine with one more observer, notified after the others. -/
def subscribe (e : Engine C σ) (observer : Observer C σ) : Engine C σ :=
  { e with observers := e.observers ++ [observer] }

end Assembly

section Parts

/-- Runs an action on the machine. -/
def onMachine {α : Type} (act : Act (Machine C) α) : Act (Engine C σ) α :=
  Act.zoom machine (fun machine e => { e with scene := { e.scene with machine } }) act

/-- Names the pointer under execution. -/
def setCurrent (id : Option Nat) : Act (Engine C σ) Unit :=
  modify fun e => { e with current := id }

/-- Sends a notification to all observers. -/
def notify (phase : Phase) : Act (Engine C σ) Unit := fun e =>
  Act.zoom scene (fun scene e => { e with scene })
    (Observer.notifyAll { phase, tick := e.ticks, current := e.current } e.observers) e

/-- Place of a pointer in the live sequence. -/
def indexOf? (id : Nat) : Act (Engine C σ) (Option Nat) := do
  return (← get).machine.indexOf? id

end Parts

section Visits

/-- Moves the current pointer after its cell was executed. -/
def depart (index id : Nat) : Act (Engine C σ) (Visit C) := do
  notify .afterCommand
  if ← onMachine (Machine.advance id) then
    notify .afterMove
    return .next (((← indexOf? id).map (· + 1)).getD index)
  else
    return .next index

/-- Executes the cell under the current pointer, which stands at `index`. -/
def perform (index id : Nat) (cell : C) : Act (Engine C σ) (Visit C) := do
  let e ← get
  match ← onMachine (e.language.operation cell e.current) with
  | .halt result =>
    setCurrent none
    return .halted result
  | .proceed =>
    if (← indexOf? id).isSome then depart index id else return .next index

/-- Visits the pointer `id`, which stood at `index` when its turn came.  An observer may have
removed or displaced it by the time its cell is fetched. -/
def visit (index id : Nat) : Act (Engine C σ) (Visit C) := do
  setCurrent (some id)
  notify .beforeCommand
  match ← indexOf? id with
  | none => return .next index
  | some place =>
    match (← get).machine.cellUnder? id with
    | none => return .next place
    | some cell => perform place id (← Act.ofExcept cell)

/-- Visits the live pointers from a place on. -/
def visitsFrom (index : Nat) (e : Engine C σ) : Option (Reached C σ (Decision C)) :=
  match e.machine.ips[index]? with
  | none => some (.ok .proceed e)
  | some ip =>
    match visit index ip.id e with
    | .error f e => some (.error f e)
    | .ok (.halted result) e => some (.ok (.halt result) e)
    | .ok (.next index) e => e |>.visitsFrom index
partial_fixpoint

/-- Visits the live pointers from the front. -/
def visits (e : Engine C σ) : Option (Reached C σ (Decision C)) := visitsFrom 0 e

end Visits

section Ticks

/-- Counts a tick and announces it. -/
def openTick : Act (Engine C σ) Unit := do
  modify fun e => { e with ticks := e.ticks + 1 }
  notify .tickStart

/-- Announces the end of a tick, also of one that decided to halt. -/
def closeTick (decision : Decision C) : Act (Engine C σ) (Decision C) := do
  setCurrent none
  notify .tickFinish
  return decision

/-- One pass over the live pointers. -/
def tick (e : Engine C σ) : Option (Reached C σ (Decision C)) :=
  match openTick e with
  | .error f e => some (.error f e)
  | .ok _ e =>
    match visits e with
    | none => none
    | some (.error f e) => some (.error f e)
    | some (.ok decision e) => some (closeTick decision e)

end Ticks

section Runs

/-- Announces the run, once. -/
def launch : Act (Engine C σ) Unit := do
  if !(← get).launched then
    modify fun e => { e with launched := true }
    notify .launch

/-- Marks the engine as halted and announces it. -/
def finish (result : Option C) : Act (Engine C σ) (Option C) := do
  modify fun e => { e with halted := true }
  notify .halt
  return result

/-- Ticks until a decision to halt. -/
def tickOn (e : Engine C σ) : Option (Reached C σ (Option C)) :=
  match tick e with
  | none => none
  | some (.error f e) => some (.error f e)
  | some (.ok (.halt result) e) => some (finish result e)
  | some (.ok .proceed e) => e |>.tickOn
partial_fixpoint

/-- Runs until a decision to halt. -/
def run (e : Engine C σ) : Option (Reached C σ (Option C)) :=
  match launch e with
  | .error f e => some (.error f e)
  | .ok _ e => tickOn e

/-- Ticks at most `budget` times. -/
def tickWithin (e : Engine C σ) : Nat → Option (Reached C σ (RunOutcome C))
  | 0 => some (.ok .tickLimit e)
  | budget + 1 =>
    match tick e with
    | none => none
    | some (.error f e) => some (.error f e)
    | some (.ok (.halt result) e) =>
      match finish result e with
      | .error f e => some (.error f e)
      | .ok result e => some (.ok (.halted result) e)
    | some (.ok .proceed e) => tickWithin e budget

/-- Runs for at most `budget` more ticks. -/
def runFor (budget : Nat) (e : Engine C σ) : Option (Reached C σ (RunOutcome C)) :=
  match launch e with
  | .error f e => some (.error f e)
  | .ok _ e => tickWithin e budget

end Runs

end Engine

end FungeTrace
