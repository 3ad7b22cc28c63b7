import FungeTrace.Debug.Debugger
import FungeTrace.View.KeyPress
import FungeTrace.View.OutputPane
import FungeTrace.View.StackPane
import FungeTrace.View.StatusBar

/-!
# The debugger's screen

The application shows three panes and a status bar.  Keys move through the recorded history, switch
between the panes and scroll them; while it plays, every passing of an interval is one step forward.
A blank starts and stops playback, unless it comes too soon after the last one that did.

Positions move by clamped steps only: a digit goes that many snapshots on or to the last one, and a
refused step leaves the position where it is.
-/

namespace FungeTrace

/-- The pane that scroll keys act on. -/
inductive Pane where
  | grid
  | stack
  | output
deriving DecidableEq

namespace Pane

/-- The next pane: grid, output, stacks. -/
def next : Pane → Pane
  | grid => output
  | output => stack
  | stack => grid

/-- The pane before. -/
def previous : Pane → Pane
  | grid => stack
  | output => grid
  | stack => output

end Pane

/-- State of the application. -/
structure App where
  debugger : Debugger
  focus : Pane := .grid
  gridScroll : GridScroll := {}
  stackScroll : Nat := 0
  outputScroll : Nat := 0
  message : String
  playing : Bool := false
  quitting : Bool := false
  /-- When the last blank came that was not ignored, in milliseconds. -/
  lastSpace : Option Nat := none

namespace App

/-- The application at the start of a recorded history. -/
def ofDebugger (debugger : Debugger) : App :=
  { debugger, message := "Ready! Run " ++ debugger.outcome.text }

section Keys

/-- Shows the end of the output. -/
def showLatest (app : App) : App := { app with outputScroll := Scroll.farEnd }

/-- Takes a step if it is allowed, and says what became of it. -/
def report (app : App) (step : Except Fault Debugger) (done refused : String) : App :=
  match step with
  | .ok debugger => { app with debugger, message := done }.showLatest
  | .error (.history flaw) => { app with message := refused ++ ": " ++ flaw.message }
  | .error f => { app with message := "Error: " ++ f.message }

/-- Up to `n` steps forward, and how many they were. -/
def stepsForward (debugger : Debugger) : Nat → Nat × Debugger
  | 0 => (0, debugger)
  | n + 1 =>
    match debugger.stepForward with
    | .ok debugger =>
      let (taken, debugger) := stepsForward debugger n
      (taken + 1, debugger)
    | .error _ => (0, debugger)

/-- The application with the focused pane scrolled. -/
def scroll (app : App) (shift : Nat → Nat) : App :=
  match app.focus with
  | .grid => { app with gridScroll := { app.gridScroll with y := shift app.gridScroll.y } }
  | .stack => { app with stackScroll := shift app.stackScroll }
  | .output => { app with outputScroll := shift app.outputScroll }

/-- The application without playback. -/
def paused (app : App) : App := { app with playing := false }

/-- Milliseconds in which a repeated blank is ignored. -/
def spaceInterval : Nat := 200

/-- Whether a blank comes too soon after the last one. -/
def isTooSoon (app : App) (now : Nat) : Bool := app.lastSpace.any (now < · + spaceInterval)

/-- Starts or stops playback. -/
def togglePlayback (app : App) : App :=
  if app.playing then { app with playing := false, message := "Paused" }
  else { app with playing := true, message := "Playing..." }

/-- Reacts to a key that comes at some time. -/
def press (app : App) (now : Nat) : KeyPress → App
  | .quit => { app with quitting := true }
  | .digit n =>
    let (taken, debugger) := stepsForward app.debugger n
    { app.paused with debugger, message := s!"Stepped forward {taken} step(s)" }.showLatest
  | .tab => { app with focus := app.focus.next }
  | .backTab => { app with focus := app.focus.previous }
  | .left =>
    app.paused.report app.debugger.stepBackward "Stepped backward" "Cannot step backward"
  | .right =>
    app.paused.report app.debugger.stepForward "Stepped forward" "Cannot step forward"
  | .up => app.scroll Scroll.up
  | .down => app.scroll Scroll.down
  | .space =>
    if app.isTooSoon now then app else { app with lastSpace := some now }.togglePlayback
  | .enter =>
    let message := "Jumped to end: " ++ app.debugger.outcome.text
    { app.paused with debugger := app.debugger.jumpToEnd, message }.showLatest
  | .backspace =>
    { app.paused with debugger := app.debugger.rewind, message := "Jumped to start" }.showLatest
  | .other => app

/-- What the passing of the playback interval does. -/
def elapse (app : App) : App :=
  if app.playing then
    match app.debugger.stepForward with
    | .ok debugger => { app with debugger }.showLatest
    | .error _ =>
      { app.paused with message := "Playback complete: " ++ app.debugger.outcome.text }
  else
    app

end Keys

section Drawing

/-- What the status bar tells. -/
def status (app : App) : Status :=
  let s := app.debugger.current
  { message := app.message
    step := app.debugger.position
    total := app.debugger.total
    tick := s.tick
    phase := s.phase
    outcome := app.debugger.outcome
    playing := app.playing }

/-- What is drawn of the application, part by part, and the application with the scroll positions
that are shown. -/
def draw (app : App) (layout : Layout) : List (Area × Widget) × App :=
  let s := app.debugger.current
  let (grid, gridScroll) := GridPane.draw layout.grid s (app.focus == .grid) app.gridScroll
  let (output, outputScroll) :=
    OutputPane.draw layout.output s.terminal (app.focus == .output) app.outputScroll
  let (stack, stackScroll) := StackPane.draw layout.stack s (app.focus == .stack) app.stackScroll
  let (report, hints) := app.status.draw
  ([(layout.grid, grid), (layout.output, output), (layout.stack, stack), (layout.report, report),
      (layout.hints, hints)],
    { app with gridScroll, outputScroll, stackScroll })

/-- One round: the application is drawn, the interval may have passed, a key may come at some time,
and the application is drawn again. -/
def round (app : App) (layout : Layout) (elapsed : Bool) (key : Option (Nat × KeyPress)) :
    List (Area × Widget) × App :=
  let app := (app.draw layout).2
  let app := if elapsed then app.elapse else app
  let app := match key with
    | some (now, key) => app.press now key
    | none => app
  app.draw layout

end Drawing

end App

end FungeTrace
