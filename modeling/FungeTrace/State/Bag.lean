import Std.Data.ExtTreeMap
import FungeTrace.State.Generator
import FungeTrace.Stream.Sink
import FungeTrace.Stream.Source
import FungeTrace.Text.Quoted

/-!
# Named state

A bag holds values of different types by name.  A key is a name together with the type that is
expected under it, and looking a key up tells a missing entry from one of another type.  Every
pointer carries a bag of its own; one more bag is shared by all of them and holds the streams.
-/

namespace FungeTrace

/-- Operand stack of a pointer, the top first. -/
abbrev Stack := List Int32

/-- What a bag can hold. -/
inductive Value where
  | integer (value : Int64)
  | text (value : String)
  | list (value : List Int64)
  | flag (value : Bool)
  | stack (value : Stack)
  | generator (value : Generator)
  | source (value : Source)
  | sink (value : Sink)

/-- Types whose values a bag can hold, each as a kind of its own. -/
class Storable (α : Type) where
  /-- The value as a bag holds it. -/
  pack : α → Value
  /-- The value of this type that a bag holds, if it is of this type. -/
  unpack : Value → Option α
  unpack_pack : ∀ a, unpack (pack a) = some a
  pack_of_unpack : ∀ value a, unpack value = some a → pack a = value

attribute [simp] Storable.unpack_pack

section Instances

instance : Storable Int64 where
  pack := .integer
  unpack
    | .integer x => some x
    | _ => none
  unpack_pack _ := rfl
  pack_of_unpack value _ h := by cases value <;> cases h <;> rfl

instance : Storable String where
  pack := .text
  unpack
    | .text x => some x
    | _ => none
  unpack_pack _ := rfl
  pack_of_unpack value _ h := by cases value <;> cases h <;> rfl

instance : Storable (List Int64) where
  pack := .list
  unpack
    | .list x => some x
    | _ => none
  unpack_pack _ := rfl
  pack_of_unpack value _ h := by cases value <;> cases h <;> rfl

instance : Storable Bool where
  pack := .flag
  unpack
    | .flag x => some x
    | _ => none
  unpack_pack _ := rfl
  pack_of_unpack value _ h := by cases value <;> cases h <;> rfl

instance : Storable Stack where
  pack := .stack
  unpack
    | .stack x => some x
    | _ => none
  unpack_pack _ := rfl
  pack_of_unpack value _ h := by cases value <;> cases h <;> rfl

instance : Storable Generator where
  pack := .generator
  unpack
    | .generator x => some x
    | _ => none
  unpack_pack _ := rfl
  pack_of_unpack value _ h := by cases value <;> cases h <;> rfl

instance : Storable Source where
  pack := .source
  unpack
    | .source x => some x
    | _ => none
  unpack_pack _ := rfl
  pack_of_unpack value _ h := by cases value <;> cases h <;> rfl

instance : Storable Sink where
  pack := .sink
  unpack
    | .sink x => some x
    | _ => none
  unpack_pack _ := rfl
  pack_of_unpack value _ h := by cases value <;> cases h <;> rfl

end Instances

/-- A name and the type expected under it. -/
structure Key (α : Type) where
  name : String

/-- The name of a key marked as such. -/
def Key.text {α : Type} (key : Key α) : String := "StateKey(" ++ key.name ++ ")"

/-- Values by name. -/
structure Bag where
  entries : Std.ExtTreeMap String Value

namespace Bag

variable {α β : Type} [Storable α]

/-- A bag without entries. -/
def empty : Bag := ⟨∅⟩

/-- Number of entries. -/
def size (b : Bag) : Nat := b.entries.size

/-- Whether there is no entry. -/
def isEmpty (b : Bag) : Bool := b.entries.isEmpty

/-- The names of the entries in byte order. -/
def names (b : Bag) : List String := b.entries.keys

/-- The bag with a value under a key, in place of any entry of that name. -/
def insert (b : Bag) (key : Key α) (value : α) : Bag :=
  ⟨b.entries.insert key.name (Storable.pack value)⟩

/-- The value under a key. -/
def get (b : Bag) (key : Key α) : Except Fault α :=
  match b.entries[key.name]? with
  | none => .error (.missingState key.name)
  | some value =>
    match Storable.unpack value with
    | some a => .ok a
    | none => .error (.stateTypeMismatch key.name)

/-- The value under a key, if there is one of its type. -/
def get? (b : Bag) (key : Key α) : Option α := (b.get key).toOption

/-- Whether there is an entry of this name, whatever its type. -/
def contains {α : Type} (b : Bag) (key : Key α) : Bool := b.entries.contains key.name

/-- Takes the entry of this name away.  The answer is its value if it is of the key's type. -/
def remove (b : Bag) (key : Key α) : Option α × Bag :=
  (b.entries[key.name]?.bind Storable.unpack, ⟨b.entries.erase key.name⟩)

/-- Runs an action on the value under a key.  What the action leaves is stored, also after a
failure of the action; a missing or ill-typed entry stays as it is. -/
def update (key : Key α) (act : Act α β) : Act Bag β := fun b =>
  match b.get key with
  | .error f => .error f b
  | .ok value =>
    match act value with
    | .ok x value => .ok x (b.insert key value)
    | .error f value => .error f (b.insert key value)

/-- The names of a bag in full. -/
def describe (b : Bag) : String :=
  "SharedState \x7b keys: [" ++ ", ".intercalate (b.names.map Quoted.text) ++ "] \x7d"

/-- What an insertion does to later look-ups of the same name. -/
@[simp] theorem get_insert_self (b : Bag) (key : Key α) (value : α) :
    (b.insert key value).get key = .ok value := by
  simp [insert, get]

end Bag

end FungeTrace
