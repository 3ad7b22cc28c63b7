import FungeTrace.Space.Coord

/-!
# Component widths

A sparse space fixes the width of its coordinate components.  Values of a width are those of
two's-complement integers, and longer ones are cut down to it modulo a power of two.
-/

namespace FungeTrace

/-- Width of each coordinate component. -/
inductive Precision where
  | i8
  | i16
  | i32
  | i64
deriving DecidableEq

namespace Precision

/-- Number of bits. -/
def bits : Precision → Nat
  | i8 => 8
  | i16 => 16
  | i32 => 32
  | i64 => 64

/-- The letter `i` and the number of bits. -/
def name (p : Precision) : String := s!"i{p.bits}"

/-- The width of a given name. -/
def ofName? : String → Option Precision
  | "i8" => some i8
  | "i16" => some i16
  | "i32" => some i32
  | "i64" => some i64
  | _ => none

/-- Two to the number of bits. -/
def modulus : Precision → Nat
  | i8 => 0x100
  | i16 => 0x10000
  | i32 => 0x100000000
  | i64 => 0x10000000000000000

/-- Half of the modulus. -/
def half (p : Precision) : Int := (p.modulus / 2 : Nat)

/-- Least value. -/
def min (p : Precision) : Int64 := Int64.ofInt (-p.half)

/-- Greatest value. -/
def max (p : Precision) : Int64 := Int64.ofInt (p.half - 1)

/-- Whether `x` is a value of this width. -/
def contains (p : Precision) (x : Int64) : Bool := decide (p.min ≤ x) && decide (x ≤ p.max)

/-- The value of this width that is congruent to `x` modulo two to the number of bits. -/
def wrap (p : Precision) (x : Int64) : Int64 := Int64.ofInt (x.toInt.bmod p.modulus)

end Precision

end FungeTrace
