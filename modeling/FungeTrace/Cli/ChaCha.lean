import FungeTrace.State.Generator

/-!
# The dice of the command line

The dice that an invocation plays with.  A seed is expanded by a linear congruence with permuted
output to the key of a stream of 32-bit words, which is that of the ChaCha block function with
twelve rounds, blocks numbered by a 64-bit counter.  A choice between four takes words until bit 29
is clear and answers with the top two bits, so every answer has the same number of words behind it.
-/

namespace FungeTrace
namespace ChaCha

section Seeding

/-- The next state of the seed expansion. -/
def nextState (state : UInt64) : UInt64 := state * 6364136223846793005 + 11634580027462260723

/-- A word rotated to the right. -/
def rotateRight (x n : UInt32) : UInt32 := (x >>> n) ||| (x <<< ((32 - n) % 32))

/-- The word that a state of the seed expansion gives. -/
def stateWord (state : UInt64) : UInt32 :=
  rotateRight ((((state >>> 18) ^^^ state) >>> 27).toUInt32) (state >>> 59).toUInt32

/-- State number `n` of the expansion of a seed. -/
def expand (seed : UInt64) : Nat → UInt64
  | 0 => nextState seed
  | n + 1 => nextState (expand seed n)

/-- The key that a seed is expanded to. -/
def key (seed : UInt64) : Vector UInt32 8 := Vector.ofFn fun i => stateWord (expand seed i)

end Seeding

section Blocks

/-- The words of one block. -/
abbrev Block := Vector UInt32 16

/-- A word rotated to the left. -/
def rotateLeft (x n : UInt32) : UInt32 := (x <<< n) ||| (x >>> (32 - n))

/-- Adds word `b` to word `a`, then mixes the sum into word `d` and rotates that one. -/
def mix (a b d : Fin 16) (n : UInt32) (block : Block) : Block :=
  let sum := block[a] + block[b]
  (block.set a sum).set d (rotateLeft (block[d] ^^^ sum) n)

/-- One quarter of a round. -/
def quarter (block : Block) (a b c d : Fin 16) : Block :=
  mix c d b 7 (mix a b d 8 (mix c d b 12 (mix a b d 16 block)))

/-- A round over the columns and a round over the diagonals. -/
def doubleRound (block : Block) : Block :=
  let block := quarter block 0 4 8 12
  let block := quarter block 1 5 9 13
  let block := quarter block 2 6 10 14
  let block := quarter block 3 7 11 15
  let block := quarter block 0 5 10 15
  let block := quarter block 1 6 11 12
  let block := quarter block 2 7 8 13
  quarter block 3 4 9 14

/-- The words that block `n` starts from: four constants, the key, the number and two zeros. -/
def start (key : Vector UInt32 8) (n : Nat) : Block :=
  let head : Vector UInt32 4 := #v[0x61707865, 0x3320646e, 0x79622d32, 0x6b206574]
  let tail : Vector UInt32 4 := #v[UInt32.ofNat n, UInt32.ofNat (n / 0x100000000), 0, 0]
  head ++ key ++ tail

/-- The words of block `n`. -/
def block (key : Vector UInt32 8) (n : Nat) : Block :=
  let first := start key n
  let mixed := Nat.repeat doubleRound 6 first
  Vector.zipWith (· + ·) mixed first

/-- Word `n` of the stream. -/
def word (key : Vector UInt32 8) (n : Nat) : UInt32 :=
  (block key (n / 16))[n % 16]

end Blocks

/-- The choice that the words from a place on give, and the place behind the word that decides. -/
partial def choiceFrom (key : Vector UInt32 8) (place : Nat) : Fin 4 × Nat :=
  let w := word key place
  if w.toNat.testBit 29 then choiceFrom key (place + 1)
  else (Fin.ofNat 4 (w >>> 30).toNat, place + 1)

/-- The dice of these streams. -/
def dice : Dice := ⟨fun seed => choiceFrom (key seed)⟩

end ChaCha
end FungeTrace
