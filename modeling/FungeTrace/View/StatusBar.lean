import FungeTrace.Debug.Debugger
import FungeTrace.View.Widget

/-!
# The status bar

The left half of the status bar tells the position in the history and the latest message, the right
half the keys.
-/

namespace FungeTrace

/-- What the status bar tells. -/
structure Status where
  message : String
  /-- Position in the history, from zero. -/
  step : Nat
  total : Nat
  tick : Nat
  phase : Phase
  outcome : Outcome
  playing : Bool

namespace Status

/-- Whether this is the last snapshot. -/
def isAtEnd (s : Status) : Bool := s.total ≤ s.step + 1

/-- Whether this is the last snapshot of a run that failed. -/
def isFaulted (s : Status) : Bool :=
  s.isAtEnd &&
    match s.outcome with
    | .faulted _ => true
    | _ => false

/-- The left half. -/
def report (s : Status) : TextRow :=
  let step := { Theme.label (if s.isFaulted then Theme.error else Theme.primary) with bold := true }
  let quiet := Theme.onBar Theme.comment
  [⟨s!" Step {s.step + 1}/{s.total} ", step⟩,
    ⟨s!" tick {s.tick} " ++ s.phase.name ++ " ", quiet⟩,
    ⟨"| ", quiet⟩,
    ⟨s.message ++ " ", Theme.onBar (if s.isFaulted then Theme.error else Theme.text)⟩]

/-- A word on where the history stands. -/
def badge? (s : Status) : Option (String × Color) :=
  if s.playing then some (" ▶ PLAYING ", Theme.secondary)
  else if s.isFaulted then some (" FAULT ", Theme.error)
  else if s.isAtEnd then some (" END ", Theme.error)
  else if s.step = 0 then some (" START ", Theme.success)
  else none

/-- The line between groups of keys. -/
def separator : Span := ⟨"│", Theme.onBar Theme.comment⟩

/-- A key and what it does. -/
def keyHint (key meaning : String) : TextRow :=
  [⟨key, Theme.label Theme.comment⟩, ⟨meaning, Theme.onBar Theme.text⟩]

/-- The keys. -/
def keys : TextRow :=
  let next : TextRow := [separator, ⟨" ", Theme.onBar Theme.text⟩]
  keyHint " ←/→ " " step " ++ next ++ keyHint " ⎵ " " play " ++ next ++
    keyHint " ↵ / ⌫ " " end/start " ++ next ++ keyHint "q" " quit "

/-- The right half. -/
def hints (s : Status) : TextRow :=
  match s.badge? with
  | some (word, color) => keys ++ [separator, ⟨word, { Theme.label color with bold := true }⟩]
  | none => keys

/-- A half of the bar. -/
def half (alignment : Alignment) (row : TextRow) : Widget :=
  .paragraph none { background := some Theme.bar } alignment [row]

/-- The two halves as they are drawn. -/
def draw (s : Status) : Widget × Widget := (half .left s.report, half .right s.hints)

end Status

end FungeTrace
