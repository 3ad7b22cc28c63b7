/-!
# Ranges of codes

A class of characters is given by the first and the last code of each of its ranges, in ascending
order.
-/

namespace FungeTrace
namespace Ranges

/-- Whether a code lies in one of some ascending ranges. -/
def covers (code : Nat) : List (Nat × Nat) → Bool
  | [] => false
  | (first, last) :: rest => first ≤ code && (code ≤ last || covers code rest)

end Ranges
end FungeTrace
