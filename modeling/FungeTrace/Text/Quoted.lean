import FungeTrace.Text.Hidden

/-!
# Quoted names

A name is shown between double quotes.  Quotes, backslashes and the common control characters are
escaped by a backslash, characters without a visible form by their code in braces, and all other
characters stand for themselves.
-/

namespace FungeTrace
namespace Quoted

/-- The code of a character in lower-case hexadecimal digits. -/
def hexCode (c : Char) : List Char := Nat.toDigits 16 c.toNat

/-- One character as it is shown between quotes. -/
def escape (c : Char) : List Char :=
  match c with
  | '"' => ['\\', '"']
  | '\\' => ['\\', '\\']
  | '\n' => ['\\', 'n']
  | '\r' => ['\\', 'r']
  | '\t' => ['\\', 't']
  | '\x00' => ['\\', '0']
  | c => if isHidden c then ['\\', 'u', '\x7b'] ++ hexCode c ++ ['\x7d'] else [c]

/-- A name between double quotes. -/
def text (name : String) : String :=
  String.ofList ('"' :: name.toList.flatMap escape ++ ['"'])

end Quoted
end FungeTrace
