/-!
# Pieces

A text is cut at every byte of one kind.  The cut bytes themselves are dropped, and pieces may be
empty.
-/

namespace FungeTrace

/-- The pieces of a text between separators; there is always one more than there are separators. -/
def pieces (separator : UInt8) : List UInt8 → List (List UInt8)
  | [] => [[]]
  | byte :: rest =>
    if byte = separator then [] :: pieces separator rest
    else
      match pieces separator rest with
      | [] => [[byte]]
      | piece :: others => (byte :: piece) :: others

end FungeTrace
