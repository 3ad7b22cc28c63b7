import FungeTrace.Text.Columns

/-!
# Clusters

What a reader takes for one character may be written as several: a character and the marks that
extend it.  A text is cut into such clusters from left to right.
-/

namespace FungeTrace

/-- A character with the marks that extend it. -/
structure Cluster where
  text : String
  columns : Nat
deriving DecidableEq

namespace Cluster

/-- The cluster of some characters. -/
def ofChars (chars : List Char) : Cluster :=
  { text := String.ofList chars, columns := Columns.ofChars chars }

/-- Whether a character can be extended.  Controls and characters that show nothing cannot. -/
def isExtensible (c : Char) : Bool :=
  !(c.toNat < 0x20 || (0x7F ≤ c.toNat && c.toNat < 0xA0) || Columns.isIgnorable c)

/-- Whether two neighbours stay together: a mark behind what it extends, and the two parts of a line
end. -/
def joined (c next : Char) : Bool :=
  (isExtensible c && Columns.isExtending next) || (c == '\r' && next == '\n')

/-- The characters of every cluster. -/
def groups : List Char → List (List Char)
  | [] => []
  | c :: rest =>
    match groups rest with
    | (next :: marks) :: others =>
      if joined c next then (c :: next :: marks) :: others else [c] :: (next :: marks) :: others
    | others => [c] :: others

/-- The clusters of a text. -/
def ofString (text : String) : List Cluster := (groups text.toList).map ofChars

end Cluster

end FungeTrace
