import Sagas.Json.Basic

/-! Dotted paths into objects: reading the value at a path, and putting one there. -/
namespace Sagas

/-- The names between the dots of a path, at least one. -/
def segments (path : String) : List String :=
  (path.toList.splitOn '.').map String.ofList

namespace Json

/-- The member of an object; any other value has none. -/
def member? (name : String) : Json → Option Json
  | .object members => Members.get? name members
  | _ => none

/-- The value reached by taking one member after the other. -/
def walk : List String → Json → Option Json
  | [], value => some value
  | name :: rest, value => (value.member? name).bind (walk rest)

/-- The value at a dotted path. -/
def lookup (value : Json) (path : String) : Option Json :=
  walk (segments path) value

end Json

namespace Members

/-- Puts a value below the named members, creating the objects on the way. Nothing changes when a
value that is not an object stands on the way. -/
def insertAt : List String → Json → Members → Members
  | [], _, members => members
  | [name], value, members => put name value members
  | name :: next :: rest, value, members =>
    match get? name members with
    | none => put name (.object (insertAt (next :: rest) value [])) members
    | some (.object child) => put name (.object (insertAt (next :: rest) value child)) members
    | some _ => members

/-- Puts a value at a dotted path. -/
def insertPath (members : Members) (path : String) (value : Json) : Members :=
  insertAt (segments path) value members

/-- Puts a value below the named members, replacing whatever stands on the way by an object. -/
def overwriteAt : List String → Json → Members → Members
  | [], _, members => members
  | [name], value, members => put name value members
  | name :: next :: rest, value, members =>
    let child :=
      match get? name members with
      | some (.object child) => child
      | _ => []
    put name (.object (overwriteAt (next :: rest) value child)) members

end Members

end Sagas
