/-!
# Random choices

Where random choices come from is not said here: dice give, for every seed, a row of choices between
four.  A generator is a seed and the place that it has come to in the row of that seed.
-/

namespace FungeTrace

/-- Where random choices come from: what a seed has at a place, and the place to go on from.  The
first place is zero. -/
structure Dice where
  roll : UInt64 → Nat → Fin 4 × Nat

namespace Dice

/-- Dice that always show the first choice. -/
def loaded : Dice := ⟨fun _ place => (⟨0, by decide⟩, place)⟩

/-- The place of a seed after a number of choices. -/
def place (dice : Dice) (seed : UInt64) : Nat → Nat
  | 0 => 0
  | k + 1 => (dice.roll seed (dice.place seed k)).2

/-- The choices of a seed, one after the other. -/
def choice (dice : Dice) (seed : UInt64) (k : Nat) : Fin 4 := (dice.roll seed (dice.place seed k)).1

end Dice

/-- A seed of some dice and a place in its row. -/
structure Generator where
  dice : Dice
  seed : UInt64
  place : Nat := 0

namespace Generator

/-- The next choice of a generator. -/
def choose (g : Generator) : Fin 4 × Generator :=
  let (choice, place) := g.dice.roll g.seed g.place
  (choice, { g with place })

end Generator

end FungeTrace
