import FungeTrace.Cli.ChaCha
import FungeTrace.Cli.Session
import FungeTrace.View.Ansi

/-!
# The command line

The outer layer of the program: it finds what an invocation needs, prints the report, and hands the
keys of a terminal to the application.  What an invocation does is said by `Session`, and what a key
does by `App`.
-/

namespace FungeTrace
namespace Outer

section Surroundings

/-- What is found at a path.  Only a failure to open names the path, and a directory can be opened
but not read. -/
def lookUp (path : String) : IO FileEntry := do
  try
    return .file (← IO.FS.readBinFile path).toList
  catch
    | .noFileOrDirectory .. => return .absent .notFound
    | .inappropriateType (some _) .. => return .absent .notADirectory
    | .invalidArgument .. => return .absent .nameTooLong
    | _ => return .directory

/-- The bytes of a stream up to its end, after those in `start`. -/
partial def readAll (stream : IO.FS.Stream) (start : ByteArray) : IO ByteArray := do
  let piece ← stream.read 4096
  if piece.isEmpty then return start else readAll stream (start ++ piece)

/-- A seed that cannot be foretold. -/
def entropy : IO UInt64 := do
  let bytes ← IO.getRandomBytes 8
  return bytes.toList.foldl (fun seed byte => seed * 256 + byte.toUInt64) 0

/-- Whether a program is to take standard input.  A terminal that a run is browsed on is left to the
keys. -/
def takesStdin (config : Config) (terminal : Bool) : Bool :=
  config.input.isNone && !(terminal && config.mode == .debug)

/-- The surroundings of an invocation. -/
def survey (arguments : List String) : IO Surroundings := do
  let seed ← IO.getEnv Config.seedVariable
  let log ← IO.getEnv Config.logVariable
  let environment (name : String) : Option String :=
    if name = Config.seedVariable then seed
    else if name = Config.logVariable then log
    else none
  let config := (Config.parse arguments environment).toOption
  let paths := config.elim [] fun config => config.program :: config.input.toList
  let entries ← paths.mapM fun path => return (path, ← lookUp path)
  let stdin ← IO.getStdin
  let terminal ← stdin.isTty
  let bytes ← if config.any (takesStdin · terminal) then readAll stdin .empty else pure .empty
  return {
    environment
    files := fun path => (entries.lookup path).getD (.absent .notFound)
    stdin := bytes.toList
    terminal
    entropy := ← entropy
    dice := ChaCha.dice }

end Surroundings

section Browsing

/-- Milliseconds between two steps of a playback. -/
def playInterval : Nat := 60

/-- The size of the terminal as its surroundings tell it, or else the usual one. -/
def terminalSize : IO (Nat × Nat) := do
  let number (name : String) (usual : Nat) : IO Nat :=
    return ((← IO.getEnv name).bind Decimal.word64?).getD usual
  return (← number "COLUMNS" 80, ← number "LINES" 24)

/-- An application and when the last step of its playback was. -/
abbrev Playback := App × Nat

/-- Hands a key to the application.  A playback that it starts has its first step an interval
later. -/
def press (now : Nat) (state : Playback) (key : KeyPress) : Playback :=
  let (app, step) := state
  let after := app.press now key
  (after, if after.playing && !app.playing then now else step)

/-- Lets a playback go on if its interval has passed. -/
def play (now : Nat) (state : Playback) : Playback :=
  let (app, step) := state
  if app.playing && step + playInterval ≤ now then (app.elapse, now) else state

/-- Draws the application and waits for keys until it quits or there are no more keys. -/
partial def browse (keys : IO.FS.Stream) (reading : Task (Except IO.Error ByteArray))
    (state : Playback) : IO Unit := do
  let (width, height) ← terminalSize
  let (parts, app) := state.1.draw (.ofSize width height)
  IO.print (Ansi.text ((Screen.blank width height).drawAll parts))
  (← IO.getStdout).flush
  if app.quitting then return
  let state := play (← IO.monoMsNow) (app, state.2)
  if ← IO.hasFinished reading then
    let bytes ← IO.ofExcept reading.get
    if bytes.isEmpty then return
    let typed := KeyPress.ofChars (Utf8.decode bytes.toList).toList
    let now ← IO.monoMsNow
    browse keys (← IO.asTask (keys.read 64)) (typed.foldl (press now) state)
  else
    IO.sleep 20
    browse keys reading state

/-- Browses a recorded run on a screen of its own. -/
def present (app : App) : IO Unit := do
  let keys ← IO.getStdin
  IO.print Ansi.enter
  browse keys (← IO.asTask (keys.read 64)) (app, 0)
  IO.print Ansi.leave

end Browsing

/-- Prints what an invocation has to say. -/
def print (report : Report) : IO Unit := do
  let stdout ← IO.getStdout
  stdout.write ⟨report.stdout.toArray⟩
  stdout.flush
  IO.eprint report.stderr

end Outer
end FungeTrace

/-- Runs or debugs a program. -/
def main (arguments : List String) : IO UInt32 := do
  let surroundings ← FungeTrace.Outer.survey arguments
  match FungeTrace.Session.invoke arguments surroundings with
  | none => return 1
  | some (report, app) =>
    FungeTrace.Outer.print report
    app.forM FungeTrace.Outer.present
    return UInt32.ofNat report.code
