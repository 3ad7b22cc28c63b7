/-!
# Decimal tokens

A token is a number when it is one or more ASCII digits after an optional sign, and the value is in
range.  Signed tokens take `+` or `-`, unsigned ones `+` only.
-/

namespace FungeTrace
namespace Decimal

/-- Value of an ASCII digit. -/
def digit? (c : Char) : Option Nat :=
  if '0' ≤ c ∧ c ≤ '9' then some (c.toNat - '0'.toNat) else none

/-- Continues the value `acc` with further digits. -/
def digitsFrom (acc : Nat) : List Char → Option Nat
  | [] => some acc
  | c :: rest => do digitsFrom (acc * 10 + (← digit? c)) rest

/-- The value of one or more digits. -/
def natural? : List Char → Option Nat
  | [] => none
  | chars => digitsFrom 0 chars

/-- Digits after an optional `+`. -/
def unsigned? : List Char → Option Nat
  | '+' :: rest => natural? rest
  | chars => natural? chars

/-- Digits after an optional `+` or `-`. -/
def signed? : List Char → Option Int
  | '-' :: rest => (natural? rest).map fun n => -(n : Int)
  | chars => (unsigned? chars).map fun n => (n : Int)

/-- A signed token in the range of 32 bits. -/
def int32? (token : String) : Option Int32 := do
  let value ← signed? token.toList
  if -0x80000000 ≤ value ∧ value < 0x80000000 then some (Int32.ofInt value) else none

/-- An unsigned token in the range of 64 bits. -/
def word64? (token : String) : Option Nat := do
  let value ← unsigned? token.toList
  if value < 0x10000000000000000 then some value else none

/-- The decimal text of a 32-bit value. -/
def int32 (value : Int32) : String := toString value.toInt

/-- A text with blanks put in front up to `width` characters. -/
def padLeft (width : Nat) (text : String) : String :=
  String.ofList (List.replicate (width - text.length) ' ') ++ text

end Decimal
end FungeTrace
