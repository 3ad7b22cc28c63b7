/-!
# Captured output

A terminal keeps what a program printed, cut where a print follows text that ended in a newline,
together with the tick each piece began in.
-/

namespace FungeTrace

/-- A piece of output and the tick it began in. -/
structure OutputLine where
  text : String
  tick : Nat
deriving DecidableEq

/-- Captured output. -/
structure Terminal where
  /-- The pieces, the latest first. -/
  recent : List OutputLine
deriving DecidableEq

namespace Terminal

/-- Nothing printed yet. -/
def empty : Terminal := ⟨[]⟩

/-- Appends output.  It continues the latest piece unless that one ends in a newline. -/
def print (t : Terminal) (text : String) (tick : Nat) : Terminal :=
  match t.recent with
  | [] => ⟨[⟨text, tick⟩]⟩
  | last :: earlier =>
    if last.text.endsWith '\n' then ⟨⟨text, tick⟩ :: last :: earlier⟩
    else ⟨{ last with text := last.text ++ text } :: earlier⟩

/-- The pieces in the order they were printed. -/
def lines (t : Terminal) : List OutputLine := t.recent.reverse

/-- The parts of a text between newlines. -/
def cut : List Char → List (List Char)
  | [] => [[]]
  | c :: rest =>
    if c = '\n' then [] :: cut rest
    else
      match cut rest with
      | [] => [[c]]
      | part :: others => (c :: part) :: others

/-- The parts of a text between newlines, without a last empty one. -/
def rows (text : String) : List String :=
  let parts := cut text.toList
  let kept := if parts.getLast?.any (·.isEmpty) then parts.dropLast else parts
  kept.map String.ofList

/-- All output, one text per row. -/
def output (t : Terminal) : List String := t.lines.flatMap fun line => rows line.text

/-- Everything printed. -/
def contents (t : Terminal) : String := String.join (t.lines.map (·.text))

/-- Whether nothing was printed. -/
def isEmpty (t : Terminal) : Bool := t.recent.isEmpty

end Terminal

end FungeTrace
