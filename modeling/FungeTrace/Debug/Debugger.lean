import FungeTrace.Debug.History

/-!
# The debugger

A debugger is a recorded history with a position in it, and the outcome of the recorded run.  It
has at least one snapshot, and its position is always that of a snapshot.
-/

namespace FungeTrace

/-- How a recorded run ended. -/
inductive Outcome where
  | halted (result : Option UInt8)
  | tickLimit (ticks : Nat)
  /-- The wording of the fault. -/
  | faulted (message : String)
deriving DecidableEq

/-- One phrase for an outcome. -/
def Outcome.text : Outcome → String
  | halted (some result) => "halted with result " ++ toString result.toNat
  | halted none => "halted"
  | tickLimit ticks => s!"stopped after {ticks} ticks"
  | faulted message => "fault: " ++ message

/-- A recorded history to move about in. -/
structure Debugger where
  snapshots : Array Snapshot
  /-- How much memory the snapshots take. -/
  used : Nat
  /-- How much memory they were allowed. -/
  limit : Nat
  outcome : Outcome
  position : Nat
  position_lt : position < snapshots.size

namespace Debugger

section Recording

/-- A debugger at the first snapshot of a history. -/
def ofHistory (h : History) (outcome : Outcome) : Except Fault Debugger :=
  let snapshots := h.snapshots.toArray
  if pos : 0 < snapshots.size then
    .ok {
      snapshots
      used := h.used
      limit := h.limit
      outcome
      position := 0
      position_lt := pos }
  else
    .error (.history .noSnapshots)

/-- The engine with its output captured and a recorder behind its other observers. -/
def prepare (engine : Engine UInt8 History) (limit : Nat) : Engine UInt8 History :=
  let machine := engine.machine
  let shared := machine.shared.insert Befunge.outputKey (Sink.terminal Terminal.empty 0)
  let scene := { machine := { machine with shared }, memory := History.empty limit }
  { engine with scene }.subscribe Recorder.observer

/-- The outcome of a bounded run. -/
def outcomeOf : Reached UInt8 History (RunOutcome UInt8) → Outcome × History
  | .ok (.halted result) engine => (.halted result, engine.scene.memory)
  | .ok .tickLimit engine => (.tickLimit engine.ticks, engine.scene.memory)
  | .error f engine => (.faulted f.message, engine.scene.memory)

/-- Runs an engine for at most `maxTicks` ticks and records every move.  A fault of the run is an
outcome; only a run that left no snapshot is refused. -/
def record (engine : Engine UInt8 History) (limit maxTicks : Nat) :
    Option (Except Fault Debugger) :=
  match (prepare engine limit).runFor maxTicks with
  | none => none
  | some reached =>
    let (outcome, history) := outcomeOf reached
    some (ofHistory history outcome)

end Recording

section Navigation

/-- Number of snapshots. -/
def total (d : Debugger) : Nat := d.snapshots.size

/-- The snapshot at the position. -/
def current (d : Debugger) : Snapshot :=
  have := d.position_lt
  d.snapshots[d.position]

/-- Whether no snapshot follows. -/
def isAtEnd (d : Debugger) : Bool := d.total ≤ d.position + 1

/-- One snapshot on. -/
def stepForward (d : Debugger) : Except Fault Debugger :=
  if h : d.position + 1 < d.snapshots.size then
    .ok { d with position := d.position + 1, position_lt := h }
  else
    .error (.history .atEnd)

/-- One snapshot back. -/
def stepBackward (d : Debugger) : Except Fault Debugger :=
  if d.position = 0 then .error (.history .atStart)
  else
    have := d.position_lt
    .ok { d with position := d.position - 1, position_lt := by omega }

/-- To the first snapshot. -/
def rewind (d : Debugger) : Debugger :=
  have := d.position_lt
  { d with position := 0, position_lt := by omega }

/-- To the last snapshot. -/
def jumpToEnd (d : Debugger) : Debugger :=
  have := d.position_lt
  { d with position := d.snapshots.size - 1, position_lt := by omega }

end Navigation

end Debugger

end FungeTrace
