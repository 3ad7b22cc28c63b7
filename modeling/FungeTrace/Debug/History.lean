import FungeTrace.Debug.Snapshot
import FungeTrace.Engine.Basic

/-!
# Histories

A history is a growing sequence of snapshots whose estimated sizes may not exceed a limit.  The
recorder is the observer that fills it: it captures the run before its first tick, after every move
and when it halts.
-/

namespace FungeTrace

/-- Snapshots in the order they were taken. -/
structure History where
  /-- The snapshots, the latest first. -/
  recent : List Snapshot
  /-- How much memory the snapshots may take. -/
  limit : Nat
  /-- How much memory they take. -/
  used : Nat

namespace History

/-- A history without snapshots. -/
def empty (limit : Nat) : History := { recent := [], limit, used := 0 }

/-- Number of snapshots. -/
def size (h : History) : Nat := h.recent.length

/-- Whether there is no snapshot. -/
def isEmpty (h : History) : Bool := h.recent.isEmpty

/-- The latest snapshot. -/
def last? (h : History) : Option Snapshot := h.recent.head?

/-- The snapshots in order. -/
def snapshots (h : History) : List Snapshot := h.recent.reverse

/-- The history with one more snapshot, unless it does not fit. -/
def push (h : History) (s : Snapshot) : Except Fault History :=
  if h.used + s.cost ≤ h.limit then
    .ok { h with recent := s :: h.recent, used := h.used + s.cost }
  else
    .error (.snapshotLimitExceeded (h.used + s.cost) h.limit)

/-- Takes the snapshots out and leaves an empty history of the same limit. -/
def take (h : History) : History × History := (h, empty h.limit)

end History

namespace Recorder

/-- Whether the recorder captures at a phase. -/
def captures : Phase → Bool
  | .launch | .afterMove | .halt => true
  | _ => false

/-- Puts later output down to `tick`. -/
def stamp (tick : Nat) (m : Machine UInt8) : Machine UInt8 :=
  match m.shared.get Befunge.outputKey with
  | .ok sink => { m with shared := m.shared.insert Befunge.outputKey (sink.atTick tick) }
  | .error _ => m

/-- The output captured so far. -/
def captured (m : Machine UInt8) : Terminal :=
  match m.shared.get Befunge.outputKey with
  | .ok sink => sink.captured
  | .error _ => .empty

/-- Adds a snapshot of the scene to the history. -/
def record (event : Event) : Act (Scene UInt8 History) Unit := fun scene =>
  match Snapshot.capture event scene.machine (captured scene.machine) with
  | .error f => .error f scene
  | .ok snapshot =>
    match scene.memory.push snapshot with
    | .error f => .error f scene
    | .ok memory => .ok () { scene with memory }

/-- The observer that records a run. -/
def observer : Observer UInt8 History := fun event => do
  if event.phase = .tickStart then
    modify fun scene => { scene with machine := stamp event.tick scene.machine }
  if captures event.phase then
    record event

end Recorder

end FungeTrace
