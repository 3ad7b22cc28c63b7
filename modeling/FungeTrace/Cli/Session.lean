import FungeTrace.Befunge.Language
import FungeTrace.Befunge.Program
import FungeTrace.Cli.Arguments
import FungeTrace.Cli.Folder
import FungeTrace.Engine.Background
import FungeTrace.View.App

/-!
# Sessions

A session is one invocation of the command line: it reads its arguments, the program and the input,
and runs or records the program.  Its report is what it prints and the exit code; a recorded program
also gives the application to browse it with.
-/

namespace FungeTrace

/-- Surroundings of an invocation. -/
structure Surroundings where
  environment : String → Option String
  files : String → FileEntry
  stdin : List UInt8
  /-- Whether there is a terminal to browse on. -/
  terminal : Bool
  /-- The seed of a program that was given none. -/
  entropy : UInt64
  /-- Where the random choices of a seed come from. -/
  dice : Dice

/-- What an invocation leaves behind. -/
structure Report where
  code : Nat := 0
  stdout : List UInt8 := []
  stderr : String := ""

namespace Session

/-- Name and version. -/
def version : String := "fungetty 0.1.0"

/-- The options. -/
def usage : String :=
  "Usage: fungetty [OPTIONS] <PROGRAM>\n\n" ++
  "  -r, --run                   Execute directly on stdin/stdout\n" ++
  "  -i, --input <FILE>          Read program input from this file\n" ++
  "      --max-ticks <N>         Stop after this many ticks\n" ++
  "      --seed <SEED>           Seed the random choices\n" ++
  "      --snapshot-limit <MIB>  History limit in MiB\n" ++
  "      --log <LEVEL>           error, warn, info, debug or trace\n" ++
  "  -h, --help\n" ++
  "  -V, --version\n"

section Failures

/-- What an operating system refuses to do with a path or a terminal. -/
inductive OsFlaw where
  | path (flaw : PathFlaw)
  | isADirectory
  | noTerminal
deriving DecidableEq

/-- The refusal in full. -/
def OsFlaw.describe : OsFlaw → String
  | path .notFound =>
    "Os \x7b code: 2, kind: NotFound, message: \"No such file or directory\" \x7d"
  | path .notADirectory =>
    "Os \x7b code: 20, kind: NotADirectory, message: \"Not a directory\" \x7d"
  | path .nameTooLong =>
    "Os \x7b code: 36, kind: InvalidFilename, message: \"File name too long\" \x7d"
  | isADirectory => "Os \x7b code: 21, kind: IsADirectory, message: \"Is a directory\" \x7d"
  | noTerminal =>
    "Os \x7b code: 6, kind: Uncategorized, message: \"No such device or address\" \x7d"

/-- The report of a session that ends early. -/
def failure (description : String) : Report :=
  { code := 1, stderr := "Error: " ++ description ++ "\n" }

/-- The report on a command line that is not run. -/
def usageReport : ArgumentFlaw → Report
  | .displayVersion => { stdout := Utf8.encode (version ++ "\n") }
  | .displayHelp => { stdout := Utf8.encode usage }
  | flaw => { code := flaw.code, stderr := "error: invalid arguments\n\n" ++ usage }

end Failures

section Running

/-- The report of a bounded or unbounded run. -/
def runReport (stdout : List UInt8) (maxTicks : Option Nat) :
    Except Fault (RunOutcome UInt8) → Report
  | .ok (.halted _) => { stdout }
  | .ok .tickLimit =>
    { stdout, stderr := "\nStopped after " ++ toString (maxTicks.getD 0) ++ " ticks\n" }
  | .error f =>
    if f.isInputFault then
      { code := 2, stdout, stderr := "\nInput error: " ++ f.message ++ "\n" }
    else
      { code := 1, stdout, stderr := "\nRuntime error: " ++ f.message ++ "\n" }

/-- The bytes written to standard output. -/
def written {σ : Type} (engine : Engine UInt8 σ) : List UInt8 :=
  match engine.machine.shared.get Befunge.outputKey with
  | .ok sink => sink.bytes
  | .error _ => []

/-- Runs a program for as many ticks as it is given, or hands it to a worker and waits for its
end. -/
def runProgram (engine : Engine UInt8 Unit) (maxTicks : Option Nat) : Option Report :=
  match maxTicks with
  | some budget =>
    match engine.runFor budget with
    | some (.ok outcome engine) => some (runReport (written engine) maxTicks (.ok outcome))
    | some (.error f engine) => some (runReport (written engine) maxTicks (.error f))
    | none => none
  | none =>
    match ((Background.submit false).join engine.work engine.refused).1.join with
    | some (.ok result engine) => some (runReport (written engine) maxTicks (.ok (.halted result)))
    | some (.error f engine) => some (runReport (written engine) maxTicks (.error f))
    | none => none

end Running

section Recording

/-- Records a program and hands it over for browsing. -/
def recordProgram (engine : Engine UInt8 History) (config : Config) (terminal : Bool) :
    Option (Report × Option App) :=
  let opening := "Recording " ++ config.program ++ "...\n"
  match Debugger.record engine config.snapshotLimit (config.maxTicks.getD Config.defaultTicks) with
  | none => none
  | some (.error (.history flaw)) =>
    let report := failure ("History \x7b message: " ++ Quoted.text flaw.message ++ " \x7d")
    some ({ report with stderr := opening ++ report.stderr }, none)
  | some (.error f) =>
    let report := failure f.message
    some ({ report with stderr := opening ++ report.stderr }, none)
  | some (.ok debugger) =>
    let summary := opening ++
      s!"Recorded {debugger.total} snapshots; run " ++ debugger.outcome.text ++ ".\n"
    if terminal then some ({ stderr := summary }, some (.ofDebugger debugger))
    else
      let report := failure OsFlaw.noTerminal.describe
      some ({ report with stderr := summary ++ report.stderr }, none)

end Recording

/-- The input that a configuration names. -/
def openInput (config : Config) (s : Surroundings) : Except OsFlaw Source :=
  match config.input with
  | none => .ok { bytes := s.stdin }
  | some path =>
    match s.files path with
    | .absent flaw => .error (.path flaw)
    | .directory => .ok { bytes := [], failure := some .directory }
    | .file bytes => .ok { bytes }

/-- The supply of a program, whose random choices start from the seed it is given. -/
def supplyOf (config : Config) (s : Surroundings) : Supply :=
  { nextSeed := (config.seed.map UInt64.ofNat).getD s.entropy, dice := s.dice }

/-- The engine of a program that takes its input from a source and writes to standard output. -/
def directEngine (grid : Torus UInt8) (source : Source) (supply : Supply) :
    Except Fault (Engine UInt8 Unit) :=
  let shared := Bag.empty.insert Befunge.inputKey source
  Engine.start (.ground (.torus grid)) Befunge.language
    (shared.insert Befunge.outputKey (Sink.writer {})) supply ()

/-- The engine of a program that is recorded; its output goes to the recorder. -/
def recordedEngine (grid : Torus UInt8) (source : Source) (supply : Supply) :
    Except Fault (Engine UInt8 History) :=
  Engine.start (.ground (.torus grid)) Befunge.language
    (Bag.empty.insert Befunge.inputKey source) supply (History.empty 0)

/-- Runs or records a program that was found. -/
def execute (config : Config) (s : Surroundings) (bytes : List UInt8) :
    Option (Report × Option App) :=
  match Befunge.load (Utf8.decode bytes) with
  | .error f => some (failure f.message, none)
  | .ok grid =>
    match openInput config s with
    | .error flaw => some (failure flaw.describe, none)
    | .ok source =>
      match config.mode with
      | .run =>
        match directEngine grid source (supplyOf config s) with
        | .error f => some (failure f.message, none)
        | .ok engine => (runProgram engine config.maxTicks).map (·, none)
      | .debug =>
        match recordedEngine grid source (supplyOf config s) with
        | .error f => some (failure f.message, none)
        | .ok engine => recordProgram engine config s.terminal

/-- One invocation; `none` if the program had not ended when its run was cut off. -/
def invoke (arguments : List String) (s : Surroundings) : Option (Report × Option App) :=
  match Config.parse arguments s.environment with
  | .error flaw => some (usageReport flaw, none)
  | .ok config =>
    match s.files config.program with
    | .absent _ =>
      some ({ code := 1, stderr := "Error: File '" ++ config.program ++ "' not found\n" }, none)
    | .directory => some (failure OsFlaw.isADirectory.describe, none)
    | .file bytes => execute config s bytes

end Session

end FungeTrace
