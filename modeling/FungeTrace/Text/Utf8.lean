/-!
# Lenient UTF-8

Bytes are decoded as UTF-8, and every maximal invalid piece becomes one replacement character:

* a byte that starts no character is such a piece on its own;
* the beginning of a character that the next byte, or the end of the text, does not continue is
  one piece, and that next byte is looked at afresh.

The decoder reads one byte at a time and remembers the character it is in.
-/

namespace FungeTrace
namespace Utf8

/-- The replacement character. -/
def replacement : Char := '\uFFFD'

/-- A character that has begun: its bits so far, the bounds of the next byte, and the number of
bytes after that one. -/
structure Pending where
  bits : Nat
  low : Nat
  high : Nat
  after : Nat

/-- What a first byte means. -/
inductive Lead where
  | whole (c : Char)
  | more (pending : Pending)
  | invalid

/-- Classifies a first byte. -/
def lead (byte : UInt8) : Lead :=
  let b := byte.toNat
  if b < 0x80 then .whole (Char.ofNat b)
  else if b < 0xC2 then .invalid
  else if b < 0xE0 then .more ⟨b - 0xC0, 0x80, 0xBF, 0⟩
  else if b = 0xE0 then .more ⟨0, 0xA0, 0xBF, 1⟩
  else if b = 0xED then .more ⟨0xD, 0x80, 0x9F, 1⟩
  else if b < 0xF0 then .more ⟨b - 0xE0, 0x80, 0xBF, 1⟩
  else if b = 0xF0 then .more ⟨0, 0x90, 0xBF, 2⟩
  else if b < 0xF4 then .more ⟨b - 0xF0, 0x80, 0xBF, 2⟩
  else if b = 0xF4 then .more ⟨4, 0x80, 0x8F, 2⟩
  else .invalid

/-- Reads one byte: the characters it completes and the character that is under way after it. -/
def feed (pending : Option Pending) (byte : UInt8) : List Char × Option Pending :=
  let fresh : List Char × Option Pending :=
    match lead byte with
    | .whole c => ([c], none)
    | .more p => ([], some p)
    | .invalid => ([replacement], none)
  match pending with
  | none => fresh
  | some p =>
    if p.low ≤ byte.toNat ∧ byte.toNat ≤ p.high then
      let bits := p.bits * 64 + byte.toNat % 64
      match p.after with
      | 0 => ([Char.ofNat bits], none)
      | after + 1 => ([], some ⟨bits, 0x80, 0xBF, after⟩)
    else
      (replacement :: fresh.1, fresh.2)

/-- Decodes the remaining bytes after the beginning of a character. -/
def decodeFrom (pending : Option Pending) : List UInt8 → List Char
  | [] => if pending.isSome then [replacement] else []
  | byte :: rest =>
    let (chars, pending) := feed pending byte
    chars ++ decodeFrom pending rest

/-- The text of a list of bytes. -/
def decode (bytes : List UInt8) : String := String.ofList (decodeFrom none bytes)

/-- The bytes of a text. -/
def encode (text : String) : List UInt8 := text.toUTF8.toList

end Utf8
end FungeTrace
