import FungeTrace.Cli.Config

/-!
# Arguments

Arguments are read from left to right, and the first problem met is the answer:

* `--name`, `--name=value`, `-n`, `-nvalue`, `-n=value` and groups of short flags name options;
* the separate value of an option may not look like an option;
* `--` ends the options;
* anything else is the program.

A separate value, and the program, are taken over when the next argument is understood, or at the
end.  So an argument that cannot be understood is reported before a bad value in front of it.
Options that are absent may be set by the environment.
-/

namespace FungeTrace

/-- Why a command line is not run, or what it asks for instead. -/
inductive ArgumentFlaw where
  | unknownArgument
  /-- A value is missing, or a path is empty. -/
  | invalidValue
  /-- A value cannot be read. -/
  | valueValidation
  /-- The same option twice. -/
  | argumentConflict
  /-- A value for a flag. -/
  | tooManyValues
  | missingRequiredArgument
  | displayHelp
  | displayVersion
deriving DecidableEq

namespace ArgumentFlaw

/-- Exit code. -/
def code : ArgumentFlaw → Nat
  | displayHelp | displayVersion => 0
  | _ => 2

end ArgumentFlaw

/-- Things that take a value. -/
inductive Setting where
  | program
  | input
  | maxTicks
  | seed
  | snapshotLimit
  | log
deriving DecidableEq

/-- What an argument can name. -/
inductive Switch where
  | run
  | help
  | version
  | setting (setting : Setting)
deriving DecidableEq

namespace Switch

/-- The switch of a long name. -/
def ofLong? : String → Option Switch
  | "run" => some run
  | "help" => some help
  | "version" => some version
  | "input" => some (setting .input)
  | "max-ticks" => some (setting .maxTicks)
  | "seed" => some (setting .seed)
  | "snapshot-limit" => some (setting .snapshotLimit)
  | "log" => some (setting .log)
  | _ => none

/-- The switch of a short name. -/
def ofShort? : Char → Option Switch
  | 'r' => some run
  | 'h' => some help
  | 'V' => some version
  | 'i' => some (setting .input)
  | _ => none

end Switch

/-- What was read so far. -/
structure Reading where
  program : Option String := none
  input : Option String := none
  maxTicks : Option Nat := none
  seed : Option Nat := none
  snapshotLimit : Option Nat := none
  log : Option LogLevel := none
  run : Bool := false
  /-- A setting whose value was not yet taken over, and the value if there is one. -/
  pending : Option (Setting × Option String) := none
  /-- Whether the options are over. -/
  plain : Bool := false

namespace Reading

/-- The outcome of reading one more argument. -/
abbrev Step := Except ArgumentFlaw Reading

section Values

/-- Whether a setting has its value. -/
def isSet (r : Reading) : Setting → Bool
  | .program => r.program.isSome
  | .input => r.input.isSome
  | .maxTicks => r.maxTicks.isSome
  | .seed => r.seed.isSome
  | .snapshotLimit => r.snapshotLimit.isSome
  | .log => r.log.isSome

/-- A path, which may not be empty. -/
def path (value : String) : Except ArgumentFlaw String :=
  if value.isEmpty then .error .invalidValue else .ok value

/-- A value that can be read. -/
def readable {α : Type} : Option α → Except ArgumentFlaw α
  | some a => .ok a
  | none => .error .valueValidation

/-- Gives a setting its value. -/
def assign (r : Reading) (setting : Setting) (value : String) : Step :=
  match setting with
  | .program => (path value).map fun v => { r with program := some v }
  | .input => (path value).map fun v => { r with input := some v }
  | .maxTicks => (readable (Decimal.word64? value)).map fun v => { r with maxTicks := some v }
  | .seed => (readable (Decimal.word64? value)).map fun v => { r with seed := some v }
  | .snapshotLimit =>
    (readable (Decimal.word64? value)).map fun v => { r with snapshotLimit := some v }
  | .log => (readable (LogLevel.ofText? value)).map fun v => { r with log := some v }

/-- Gives a setting its value unless it already has one. -/
def assignOnce (r : Reading) (setting : Setting) (value : String) : Step :=
  if r.isSet setting then .error .argumentConflict else r.assign setting value

/-- Takes over the pending value. -/
def settle (r : Reading) : Step :=
  match r.pending with
  | none => .ok r
  | some (_, none) => .error .invalidValue
  | some (setting, some value) => { r with pending := none }.assignOnce setting value

end Values

section Options

/-- Follows a switch that has no value with it. -/
def follow (r : Reading) (switch : Switch) : Step := do
  let r ← r.settle
  match switch with
  | .run => if r.run then throw .argumentConflict else return { r with run := true }
  | .help => throw .displayHelp
  | .version => throw .displayVersion
  | .setting setting => return { r with pending := some (setting, none) }

/-- Follows a switch that has a value with it. -/
def followWith (r : Reading) (switch : Switch) (value : String) : Step :=
  match switch with
  | .setting setting => do (← r.settle).assignOnce setting value
  | _ => .error .tooManyValues

/-- The name in front of the first `=`, and the value behind it. -/
def splitName : List Char → String × Option String
  | [] => ("", none)
  | '=' :: rest => ("", some (String.ofList rest))
  | c :: rest =>
    let (name, value) := splitName rest
    (String.singleton c ++ name, value)

/-- Reads what stands behind `--`. -/
def readLong (r : Reading) (chars : List Char) : Step :=
  let (name, value) := splitName chars
  match Switch.ofLong? name with
  | none => .error .unknownArgument
  | some switch =>
    match value with
    | none => r.follow switch
    | some value => r.followWith switch value

/-- Reads what stands behind `-`: flags, of which the last may be a setting with its value. -/
def readShort (r : Reading) : List Char → Step
  | [] => .ok r
  | c :: rest =>
    match Switch.ofShort? c with
    | none => .error .unknownArgument
    | some (.setting setting) =>
      match rest with
      | [] => r.follow (.setting setting)
      | '=' :: value => r.followWith (.setting setting) (String.ofList value)
      | value => r.followWith (.setting setting) (String.ofList value)
    | some switch => do (← r.follow switch).readShort rest

end Options

/-- Reads an argument that names no option: a value that is waited for, or the program. -/
def readPlain (r : Reading) (argument : String) : Step :=
  match r.plain, r.pending with
  | false, some (setting, none) => .ok { r with pending := some (setting, some argument) }
  | _, pending =>
    if r.program.isSome || pending.any (·.1 == .program) then .error .unknownArgument
    else do return { (← r.settle) with pending := some (.program, some argument) }

/-- Reads one argument. -/
def read (r : Reading) (argument : String) : Step :=
  if r.plain then r.readPlain argument
  else
    match argument.toList with
    | ['-', '-'] => .ok { r with plain := true }
    | '-' :: '-' :: name => r.readLong name
    | ['-'] => r.readPlain argument
    | '-' :: flags => r.readShort flags
    | _ => r.readPlain argument

/-- Reads arguments up to the first problem. -/
def readAll (r : Reading) : List String → Step
  | [] => r.settle
  | argument :: rest => do (← r.read argument).readAll rest

/-- Lets a variable of the environment set an absent option. -/
def consult (r : Reading) (setting : Setting) (found : Option String) : Step :=
  match found with
  | some value => if r.isSet setting then .ok r else r.assign setting value
  | none => .ok r

/-- The configuration that was read, if it names a program. -/
def config (r : Reading) : Except ArgumentFlaw Config :=
  match r.program with
  | none => .error .missingRequiredArgument
  | some program =>
    .ok {
      program
      input := r.input
      mode := if r.run then .run else .debug
      maxTicks := r.maxTicks
      seed := r.seed
      snapshotLimit := Config.mebibytes (r.snapshotLimit.getD Config.defaultLimit)
      logLevel := r.log.getD .warn }

end Reading

namespace Config

/-- The variable of the environment that stands in for the seed. -/
def seedVariable : String := "FUNGETTY_SEED"

/-- The variable of the environment that stands in for the log level. -/
def logVariable : String := "FUNGETTY_LOG"

/-- The configuration that arguments and environment ask for. -/
def parse (arguments : List String) (environment : String → Option String) :
    Except ArgumentFlaw Config := do
  let r ← Reading.readAll {} arguments
  let r ← r.consult .seed (environment seedVariable)
  let r ← r.consult .log (environment logVariable)
  r.config

end Config

end FungeTrace
