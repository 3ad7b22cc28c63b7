import FungeTrace.Space.Coord

/-!
# Faults

Everything that can go wrong while a space is built, moved through, or executed in.  A fault is a
cause; its wording is given once, by `Fault.message`.
-/

namespace FungeTrace

/-- Why a displacement is refused. -/
inductive DirectionFlaw where
  | noDimension
  | missingAxis (axis dims : Nat)
  | noComponent
  | notAxisStep
deriving DecidableEq

/-- Wording of a refused displacement. -/
def DirectionFlaw.message : DirectionFlaw → String
  | noDimension => "an axis direction needs at least one dimension"
  | missingAxis axis dims => s!"axis {axis} does not exist in {dims} dimensions"
  | noComponent => "a delta direction needs at least one component"
  | notAxisStep => "a toroidal space only moves along axis-aligned unit steps"

/-- Why a space of some shape cannot be made or captured. -/
inductive ShapeFlaw where
  | noToroidalAxis
  | emptyAxis
  | axisTooLong
  | tooManyCells
  | wrongCellCount (given expected : Nat)
  | noSparseAxis
  | notPlanar (shape : String)
deriving DecidableEq

/-- Wording of an unusable shape. -/
def ShapeFlaw.message : ShapeFlaw → String
  | noToroidalAxis => "a toroidal space needs at least one axis"
  | emptyAxis => "axis sizes must be positive"
  | axisTooLong => "axis size does not fit a coordinate"
  | tooManyCells => "cell count overflows"
  | wrongCellCount given expected => s!"{given} cells given for a space of {expected} cells"
  | noSparseAxis => "a sparse space needs at least one axis"
  | notPlanar shape => s!"cannot snapshot a {shape} space"

/-- Why a step through a recorded history is refused. -/
inductive HistoryFlaw where
  | noSnapshots
  | atStart
  | atEnd
deriving DecidableEq

/-- Wording of a refused history step. -/
def HistoryFlaw.message : HistoryFlaw → String
  | noSnapshots => "No snapshots available"
  | atStart => "Already at the beginning of execution"
  | atEnd => "No more snapshots available (execution finished)"

/-- A stream that refuses further use. -/
inductive StreamFlaw where
  | sourceBroken
  /-- What was opened for reading is a directory. -/
  | directory
  | sinkFull
deriving DecidableEq

/-- Wording of a stream failure. -/
def StreamFlaw.message : StreamFlaw → String
  | sourceBroken => "source broken"
  | directory => "Is a directory (os error 21)"
  | sinkFull => "sink full"

/-- The two commands that refuse a zero divisor. -/
inductive Division where
  | quotient
  | remainder
deriving DecidableEq

/-- The command character of a division. -/
def Division.symbol : Division → String
  | quotient => "/"
  | remainder => "%"

/-- Cause of a failed operation. -/
inductive Fault where
  /-- A direction or coordinate met a space of another arity. -/
  | dimensionMismatch (expected got : Nat)
  | invalidDirection (flaw : DirectionFlaw)
  /-- Component `index` of `axis` is outside a ring of `size` cells. -/
  | indexOutOfRange (axis : Nat) (index : Int64) (size : Nat)
  /-- The space's precision cannot represent the coordinate. -/
  | coordinateOutOfRange (coord : Coord)
  | invalidShape (flaw : ShapeFlaw)
  /-- A token read as a number is not one. -/
  | inputFormat (token : String)
  | unexpectedEof
  | stackUnderflow (needed available : Nat)
  | divisionByZero (division : Division)
  | unsupportedSpace (language shape : String)
  | missingState (key : String)
  | stateTypeMismatch (key : String)
  | stream (flaw : StreamFlaw)
  /-- A subscriber gave up during `phase`. -/
  | observer (phase message : String)
  | cancelled
  /-- The worker of a background run broke down instead of returning. -/
  | workerPanicked
  | snapshotLimitExceeded (current limit : Nat)
  | history (flaw : HistoryFlaw)
deriving DecidableEq

namespace Fault

/-- One line of text for a fault. -/
def message : Fault → String
  | dimensionMismatch expected got =>
    s!"Dimension mismatch: expected {expected} axes, got {got}"
  | invalidDirection flaw => "Invalid direction: " ++ flaw.message
  | indexOutOfRange axis index size =>
    "Index " ++ toString index.toInt ++ s!" on axis {axis} is outside of the range [0, {size})"
  | coordinateOutOfRange coord => "Coordinate " ++ coord.text ++ " is out of range for this space"
  | invalidShape flaw => "Invalid space shape: " ++ flaw.message
  | inputFormat token => s!"Invalid number format given as input: '{token}'"
  | unexpectedEof => "Unexpected end of input"
  | stackUnderflow needed available =>
    s!"Stack underflow: needed {needed}, {available} available"
  | divisionByZero division => division.symbol ++ " by zero"
  | unsupportedSpace language shape =>
    s!"Language '{language}' does not support a {shape} space"
  | missingState key => s!"Missing state entry '{key}'"
  | stateTypeMismatch key => s!"State entry '{key}' holds a value of an unexpected type"
  | stream flaw => "IO error: " ++ flaw.message
  | observer phase message => s!"Observer failed during {phase}: {message}"
  | cancelled => "Run was cancelled before it started"
  | workerPanicked => "Background run panicked"
  | snapshotLimitExceeded current limit =>
    s!"Snapshot memory limit exceeded: {current} bytes used, limit is {limit}"
  | history flaw => "History operation failed: " ++ flaw.message

/-- Whether the fault comes from reading program input. -/
def isInputFault : Fault → Bool
  | inputFormat _ => true
  | unexpectedEof => true
  | _ => false

end Fault

/-- A computation on a state `σ` that may fail.  A failure keeps the state it had reached. -/
abbrev Act (σ α : Type) := EStateM Fault σ α

namespace Act

variable {σ τ α : Type}

/-- Succeeds or fails as `result` says and leaves the state alone. -/
def ofExcept : Except Fault α → Act σ α
  | .ok a => fun s => .ok a s
  | .error f => fun s => .error f s

/-- Runs an action on a part of the state.  The part is put back, also after a failure. -/
def zoom (view : σ → τ) (put : τ → σ → σ) (act : Act τ α) : Act σ α := fun s =>
  match act (view s) with
  | .ok a t => .ok a (put t s)
  | .error f t => .error f (put t s)

end Act

end FungeTrace
