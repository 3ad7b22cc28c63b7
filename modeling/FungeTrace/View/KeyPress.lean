/-!
# Keys

The keys that the debugger's screen knows, and the text that a terminal sends for them.
-/

namespace FungeTrace

/-- A key press. -/
inductive KeyPress where
  | left
  | right
  | up
  | down
  | tab
  | backTab
  | enter
  | backspace
  | space
  | digit (n : Nat)
  | quit
  /-- A key that means nothing here. -/
  | other
deriving DecidableEq

namespace KeyPress

/-- The meaning of a character key. -/
def ofChar (c : Char) : KeyPress :=
  if c = 'q' ∨ c = 'Q' then quit
  else if '1' ≤ c ∧ c ≤ '9' then digit (c.toNat - '0'.toNat)
  else if c = ' ' then space
  else other

/-- The key of a control sequence, by the character that ends it. -/
def ofFinal : Char → KeyPress
  | 'A' => up
  | 'B' => down
  | 'C' => right
  | 'D' => left
  | 'Z' => backTab
  | _ => other

/-- The key of a single character that a terminal sends. -/
def ofSent : Char → KeyPress
  | '\t' => tab
  | '\r' => enter
  | '\x7f' => backspace
  | c => ofChar c

/-- The keys that a terminal sends as some characters: arrows and the back tab as a control
sequence, all others as one character. -/
def ofChars : List Char → List KeyPress
  | '\x1b' :: '[' :: c :: rest => ofFinal c :: ofChars rest
  | c :: rest => ofSent c :: ofChars rest
  | [] => []

end KeyPress

end FungeTrace
