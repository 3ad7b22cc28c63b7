import FungeTrace.Fault
import FungeTrace.Text.Decimal
import FungeTrace.Text.Utf8

/-!
# Program input

A source is the bytes that are still to be read, and how reading ends after the last one.  A
program reads single bytes, or blank-delimited tokens as numbers; a token read as a number is used
up whether it is one or not, and the blank after it is not.
-/

namespace FungeTrace

/-- Input of a program. -/
structure Source where
  /-- The bytes to come. -/
  bytes : List UInt8
  /-- The failure that comes after the last byte, in place of the end of input. -/
  failure : Option StreamFlaw := none
deriving DecidableEq

namespace Source

/-- Blank, tab, newline, carriage return, vertical tab and form feed. -/
def isBlank (byte : UInt8) : Bool :=
  byte == 32 || (9 ≤ byte && byte ≤ 13)

/-- What reading past the last byte gives. -/
def ending (s : Source) : Fault :=
  match s.failure with
  | some flaw => .stream flaw
  | none => .unexpectedEof

/-- Reads one byte. -/
def readUnit : Act Source UInt8 := fun s =>
  match s.bytes with
  | [] => .error s.ending s
  | byte :: rest => .ok byte { s with bytes := rest }

/-- The number a token stands for. -/
def parseToken (token : List UInt8) : Except Fault Int32 :=
  let text := Utf8.decode token
  match Decimal.int32? text with
  | some value => .ok value
  | none => .error (.inputFormat text)

/-- Skips blanks, then reads a token up to the next blank or the end of input as a number.  A
source that fails after its last byte fails also when the token is not ended by a blank. -/
def readInteger : Act Source Int32 := fun s =>
  let bytes := s.bytes.dropWhile isBlank
  let token := bytes.takeWhile (!isBlank ·)
  let rest := bytes.dropWhile (!isBlank ·)
  let left := { s with bytes := rest }
  if token.isEmpty || (rest.isEmpty && s.failure.isSome) then .error s.ending left
  else
    match parseToken token with
    | .ok value => .ok value left
    | .error f => .error f left

end Source

end FungeTrace
