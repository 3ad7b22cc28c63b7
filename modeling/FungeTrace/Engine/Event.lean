import FungeTrace.Engine.Machine

/-!
# Notifications

At fixed points of a run the engine tells its observers the point it has reached.  An observer may
change the machine, and keeps notes of its own in a memory that all observers of an engine share.
-/

namespace FungeTrace

/-- Point of a run. -/
inductive Phase where
  /-- Once, before the first tick. -/
  | launch
  | tickStart
  /-- The cell of the current pointer is about to run. -/
  | beforeCommand
  | afterCommand
  /-- The current pointer has moved. -/
  | afterMove
  | tickFinish
  /-- Once, after the decision to halt. -/
  | halt
deriving DecidableEq

namespace Phase

/-- Whether notifications of this phase are about a pointer. -/
def hasIp : Phase → Bool
  | beforeCommand | afterCommand | afterMove => true
  | _ => false

/-- The name of a phase. -/
def name : Phase → String
  | launch => "initialize"
  | tickStart => "tick-start"
  | beforeCommand => "before-command"
  | afterCommand => "after-command"
  | afterMove => "after-move"
  | tickFinish => "tick-finish"
  | halt => "halt"

/-- All phases. -/
def all : List Phase :=
  [launch, tickStart, beforeCommand, afterCommand, afterMove, tickFinish, halt]

/-- The phase of a name. -/
def ofName? (name : String) : Option Phase := all.find? fun phase => phase.name == name

end Phase

/-- One notification. -/
structure Event where
  phase : Phase
  /-- Ticks started so far. -/
  tick : Nat
  /-- The pointer that the engine is executing. -/
  current : Option Nat
deriving DecidableEq

/-- The pointer the notification is about. -/
def Event.ip (event : Event) : Option Nat :=
  if event.phase.hasIp then event.current else none

/-- What observers see and change: the machine and their own notes. -/
structure Scene (C σ : Type) where
  machine : Machine C
  memory : σ

/-- A subscriber to notifications. -/
abbrev Observer (C σ : Type) := Event → Act (Scene C σ) Unit

namespace Observer

variable {C σ : Type}

/-- Notifies observers in turn; the first failure ends the notification. -/
def notifyAll (event : Event) : List (Observer C σ) → Act (Scene C σ) Unit
  | [] => pure ()
  | observer :: rest => do
    observer event
    notifyAll event rest

end Observer

end FungeTrace
