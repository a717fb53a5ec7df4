import Sagas.Json.Path

/-! From the path of a field to the name of its column. -/
namespace Sagas

/-- What a mapping renames: one path, or every path below one. -/
inductive Mapping.Kind where
  | exact
  | subtree
deriving DecidableEq, Inhabited

/-- A registered rule for column names. -/
structure Mapping where
  path : String
  name : String
  kind : Mapping.Kind
deriving DecidableEq, Inhabited

/-- The last segment of a dotted path. -/
def leaf (path : String) : String :=
  (segments path).getLastD ""

namespace Mapping

/-- Stores the field at `path` in the column `name`. -/
def property (path name : String) : Mapping :=
  ⟨path, name, .exact⟩

/-- Puts a word before every column below `path`, the leaf of the path if none is given. -/
def below (path : String) (word : Option String) : Mapping :=
  ⟨path, word.getD (leaf path), .subtree⟩

/-- Whether a path lies below another: it goes on after it with a dot. -/
def isParent (parent path : String) : Bool :=
  (parent.toList ++ ['.']).isPrefixOf path.toList

/-- Of two subtree mappings above one path the one that goes further down, the later on a tie. -/
def deeper (best : Option Mapping) (m : Mapping) : Option Mapping :=
  match best with
  | none => some m
  | some b => if b.path.length ≤ m.path.length then some m else best

/-- The last exact mapping of a path. -/
def exactFor? (mappings : List Mapping) (path : String) : Option Mapping :=
  mappings.reverse.find? fun m => m.kind = .exact && m.path = path

/-- The subtree mapping that reaches down furthest above a path. -/
def subtreeFor? (mappings : List Mapping) (path : String) : Option Mapping :=
  (mappings.filter fun m => m.kind = .subtree && isParent m.path path).foldl deeper none

/-- The column under a subtree mapping: its name, then what remains of the path without the dots. -/
def columnBelow (m : Mapping) (path : String) : String :=
  m.name ++ String.ofList ((path.toList.drop (m.path.length + 1)).filter (· ≠ '.'))

/-- The column of a field: by an exact mapping, else by the nearest subtree mapping, else the leaf
of its path. -/
def resolve (mappings : List Mapping) (path : String) : String :=
  match exactFor? mappings path with
  | some m => m.name
  | none =>
    match subtreeFor? mappings path with
    | some m => m.columnBelow path
    | none => leaf path

end Mapping

end Sagas
