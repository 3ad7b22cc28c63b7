import FungeTrace.Engine.Machine

/-!
# Languages

A language gives every cell an operation.  The engine tells the operation which pointer it runs
for; the operation answers whether the run goes on.
-/

namespace FungeTrace

/-- What an operation decides about the run. -/
inductive Decision (C : Type) where
  | proceed
  /-- Stop, possibly with a result. -/
  | halt (result : Option C)
deriving DecidableEq

/-- Whether the run stops. -/
def Decision.isHalt {C : Type} : Decision C → Bool
  | proceed => false
  | halt _ => true

/-- An instruction set. -/
structure Language (C : Type) where
  name : String
  /-- Whether the language can run in a space. -/
  accepts : Space C → Bool
  /-- The operation of a cell, for the pointer of the given number. -/
  operation : C → Option Nat → Act (Machine C) (Decision C)
  /-- Creates the pointers a run starts with. -/
  populate : Act (Machine C) Unit

end FungeTrace
