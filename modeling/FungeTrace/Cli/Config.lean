import FungeTrace.Text.Decimal

/-!
# Configuration

What the command line asks for, and the values that its options take.
-/

namespace FungeTrace

/-- What to do with the program. -/
inductive Mode where
  /-- Record the run, then browse it. -/
  | debug
  /-- Execute the program on standard input and output. -/
  | run
deriving DecidableEq

/-- How much is logged. -/
inductive LogLevel where
  | error
  | warn
  | info
  | debug
  | trace
deriving DecidableEq

namespace LogLevel

/-- The name of a level. -/
def name : LogLevel → String
  | error => "ERROR"
  | warn => "WARN"
  | info => "INFO"
  | debug => "DEBUG"
  | trace => "TRACE"

/-- All levels; the number of a level is its place in this list, from one. -/
def all : List LogLevel := [error, warn, info, debug, trace]

/-- The level of a number, or of a name in any case. -/
def ofText? (text : String) : Option LogLevel :=
  match Decimal.word64? text with
  | some n => if n = 0 then none else all[n - 1]?
  | none => all.find? fun level => level.name == String.ofList (text.toList.map Char.toUpper)

end LogLevel

/-- A request of the command line. -/
structure Config where
  /-- Path of the program. -/
  program : String
  /-- Path of the program's input, instead of standard input. -/
  input : Option String := none
  mode : Mode := .debug
  maxTicks : Option Nat := none
  /-- Seed of the random choices. -/
  seed : Option Nat := none
  /-- Memory limit of the history, in bytes. -/
  snapshotLimit : Nat
  logLevel : LogLevel := .warn
deriving DecidableEq

namespace Config

/-- Greatest number of bytes. -/
def maxBytes : Nat := 0xFFFFFFFFFFFFFFFF

/-- Bytes of a number of mebibytes, at most the greatest number. -/
def mebibytes (n : Nat) : Nat := min (n * 0x100000) maxBytes

/-- The memory limit in mebibytes if none is given. -/
def defaultLimit : Nat := 256

/-- The number of ticks that are recorded if none is given. -/
def defaultTicks : Nat := 100000

end Config

end FungeTrace
