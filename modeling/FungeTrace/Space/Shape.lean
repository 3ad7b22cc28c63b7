import FungeTrace.Space.Sparse
import FungeTrace.Space.Torus

/-!
# Shapes

The structure of a space without its contents.  Languages decide by the shape whether they can run
in a space.
-/

namespace FungeTrace

/-- Structure of a space. -/
inductive Shape where
  | toroidal (sizes : List Nat)
  | sparse (dims : Nat) (precision : Precision)
  | overlay (layers : Nat) (backing : Shape)
deriving DecidableEq

namespace Shape

/-- The shape underneath all overlays. -/
def base : Shape → Shape
  | overlay _ backing => backing.base
  | shape => shape

/-- One phrase that describes a shape. -/
def text : Shape → String
  | toroidal sizes => "toroidal " ++ "x".intercalate (sizes.map toString)
  | sparse dims precision => s!"sparse {dims}-dimensional " ++ precision.name
  | overlay layers backing => s!"{layers}-layer overlay over " ++ backing.text

/-- Width and height, if the shape underneath all overlays is a torus with two axes. -/
def plane? (shape : Shape) : Option (Nat × Nat) :=
  match shape.base with
  | toroidal [width, height] => some (width, height)
  | _ => none

end Shape

end FungeTrace
