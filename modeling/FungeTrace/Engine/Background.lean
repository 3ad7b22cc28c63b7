import FungeTrace.Engine.Basic

/-!
# Background runs

A run can be handed to a worker.  The handle may release a run that was submitted paused, and may
cancel a run that has not begun.  Whether a run begins is settled by its status, which leaves
`pending` at most once: the handle tries to set it to `cancelled`, the worker to `running`, and the
first to try succeeds.

Each function below is one indivisible step of the handle or of the worker; `settle` lets the worker
go on for as long as it can.
-/

namespace FungeTrace

/-- Whether a run has begun. -/
inductive RunStatus where
  | pending
  | running
  | cancelled
deriving DecidableEq

/-- The gate that a paused run waits at. -/
inductive Gate where
  /-- There is no gate, or it was used. -/
  | absent
  | shut
deriving DecidableEq

/-- Whether a signal for the worker is at the gate. -/
inductive Signal where
  | none
  | go
  /-- The gate is gone, and no signal will come. -/
  | gone
deriving DecidableEq

/-- Where the worker is. -/
inductive Worker (ρ : Type) where
  /-- At the gate. -/
  | waiting
  /-- The gate went away; the status is to be set to `cancelled`. -/
  | abandoned
  /-- About to begin. -/
  | claiming
  | working
  | finished (result : ρ)

/-- A run with its handle and its worker. -/
structure Background (ρ : Type) where
  status : RunStatus := .pending
  gate : Gate
  signal : Signal := .none
  worker : Worker ρ

namespace Background

variable {ρ : Type}

/-- A run that begins as soon as the worker gets to it, or one that waits for a release. -/
def submit (paused : Bool) : Background ρ :=
  if paused then { gate := .shut, worker := .waiting } else { gate := .absent, worker := .claiming }

section Handle

/-- Releases a paused run.  A gate can be used once. -/
def start (b : Background ρ) : Background ρ :=
  match b.gate with
  | .absent => b
  | .shut => { b with gate := .absent, signal := .go }

/-- Sets a pending status to `cancelled`.  The answer is whether it was pending. -/
def claimCancelled (b : Background ρ) : Bool × Background ρ :=
  match b.status with
  | .pending => (true, { b with status := .cancelled })
  | _ => (false, b)

/-- Lets go of the gate without a signal. -/
def dropGate (b : Background ρ) : Background ρ :=
  match b.gate with
  | .absent => b
  | .shut => { b with gate := .absent, signal := .gone }

/-- Cancels a run that has not begun.  The answer is whether it will never begin. -/
def cancel (b : Background ρ) : Bool × Background ρ :=
  let (cancelled, b) := b.claimCancelled
  (cancelled, b.dropGate)

/-- Whether the run was cancelled. -/
def isCancelled (b : Background ρ) : Bool := b.status == .cancelled

/-- Whether the run has begun. -/
def hasStarted (b : Background ρ) : Bool := b.status == .running

/-- The result of a worker that is done. -/
def result? (b : Background ρ) : Option ρ :=
  match b.worker with
  | .finished result => some result
  | _ => none

end Handle

section Work

/-- One step of the worker.  `work` gives the result of the run and `refused` that of a run that was
cancelled; `none` means that the worker has to wait or is done. -/
def step (work : Unit → ρ) (refused : ρ) (b : Background ρ) : Option (Background ρ) :=
  match b.worker with
  | .waiting =>
    match b.signal with
    | .none => none
    | .go => some { b with worker := .claiming }
    | .gone => some { b with worker := .abandoned }
  | .abandoned => some { b.claimCancelled.2 with worker := .claiming }
  | .claiming =>
    match b.status with
    | .pending => some { b with status := .running, worker := .working }
    | _ => some { b with worker := .finished refused }
  | .working => some { b with worker := .finished (work ()) }
  | .finished _ => none

/-- Number of steps after which a worker can only wait. -/
def lastStep : Nat := 4

/-- Lets the worker go on until it waits or is done. -/
def settleWithin (work : Unit → ρ) (refused : ρ) (b : Background ρ) : Nat → Background ρ
  | 0 => b
  | n + 1 =>
    match b.step work refused with
    | some b => settleWithin work refused b n
    | none => b

/-- Lets the worker go on for as long as it can. -/
def settle (work : Unit → ρ) (refused : ρ) (b : Background ρ) : Background ρ :=
  b.settleWithin work refused lastStep

/-- Releases the run and waits for its result. -/
def join (work : Unit → ρ) (refused : ρ) (b : Background ρ) : Option ρ × Background ρ :=
  let b := b.start.settle work refused
  (b.result?, b)

end Work

end Background

/-- What the worker of an engine does once it begins: the whole run. -/
def Engine.work {C σ : Type} (e : Engine C σ) : Unit → Option (Reached C σ (Option C)) :=
  fun _ => e.run

/-- What the worker of an engine answers when its run was cancelled. -/
def Engine.refused {C σ : Type} (e : Engine C σ) : Option (Reached C σ (Option C)) :=
  some (.error .cancelled e)

end FungeTrace
