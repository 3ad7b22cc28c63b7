import FungeTrace.Text.Pieces
import FungeTrace.Text.Utf8

/-!
# Folders

A path is a row of names that slashes divide.  It is followed name by name, and each name but the
last has to lead to a directory:

* an empty name and `.` stay where they are, and `..` goes to the directory around it;
* a name that is too long leads nowhere, whatever the directory holds;
* any other name leads to what the directory holds under it.

A folder is a directory of files without directories of their own.  Nothing is known of what lies
around it but that there are directories.
-/

namespace FungeTrace

/-- Why a path leads nowhere. -/
inductive PathFlaw where
  | notFound
  /-- A name follows a file. -/
  | notADirectory
  | nameTooLong
deriving DecidableEq

/-- What is found at a path. -/
inductive FileEntry where
  | absent (flaw : PathFlaw)
  | directory
  | file (bytes : List UInt8)

/-- Files with their names.  Of two files with one name the later one counts. -/
structure Folder where
  files : List (String × List UInt8)

namespace Folder

/-- Byte between two names of a path. -/
def slash : UInt8 := 47

/-- Most bytes of a name. -/
def longestName : Nat := 255

/-- Most bytes of a path. -/
def longestPath : Nat := 4095

/-- A place that a path has led to. -/
inductive Place where
  /-- The folder itself. -/
  | inside
  /-- A directory around the folder. -/
  | outside
  | file (bytes : List UInt8)

namespace Place

/-- What is found at a place. -/
def entry : Place → FileEntry
  | inside | outside => .directory
  | file bytes => .file bytes

end Place

/-- The file of a name. -/
def file? (folder : Folder) (name : List UInt8) : Option (List UInt8) :=
  (folder.files.reverse.find? fun file => Utf8.encode file.1 == name).map Prod.snd

/-- Follows one name from a place. -/
def step (folder : Folder) (place : Place) (name : List UInt8) : Except PathFlaw Place :=
  match place with
  | .file _ => .error .notADirectory
  | .inside =>
    if name.isEmpty || name == Utf8.encode "." then .ok .inside
    else if name == Utf8.encode ".." then .ok .outside
    else if longestName < name.length then .error .nameTooLong
    else
      match folder.file? name with
      | some bytes => .ok (.file bytes)
      | none => .error .notFound
  | .outside =>
    if name.isEmpty || name == Utf8.encode "." || name == Utf8.encode ".." then .ok .outside
    else if longestName < name.length then .error .nameTooLong
    else .error .notFound

/-- What is found at a path that starts in the folder, or outside if a slash stands in front. -/
def lookUp (folder : Folder) (path : String) : FileEntry :=
  let bytes := Utf8.encode path
  let start : Place := if bytes.head? = some slash then .outside else .inside
  if bytes.isEmpty then .absent .notFound
  else if longestPath < bytes.length then .absent .nameTooLong
  else
    match (pieces slash bytes).foldlM folder.step start with
    | .ok place => place.entry
    | .error flaw => .absent flaw

end Folder

end FungeTrace
