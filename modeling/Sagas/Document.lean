import Sagas.Json.Path
import Sagas.Metadata
import Sagas.Saga

/-! Sagas without a type of their own: any object, read by the paths that a descriptor declares. -/
namespace Sagas

/-- An object taken as an instance of the saga type that `d` declares. -/
structure Document (d : Descriptor) where
  members : Members

namespace Document

/-- The path of the key: the one declared as such, else a field with a conventional name. -/
def keyPath? (d : Descriptor) : Option String :=
  match d.key with
  | some path => some path
  | none => conventionalKeys.find? fun path => d.fields.any (·.path = path)

/-- The identifier that the text at a path denotes. -/
def uuidAt? (document : Json) (path : String) : Option Uuid :=
  ((document.lookup path).bind Json.string?).bind Uuid.parse?

/-- Reads an object, whose key must be an identifier if the type has one. -/
def ofJson? (d : Descriptor) (document : Json) : Option (Document d) :=
  match document with
  | .object members =>
    match keyPath? d with
    | none => some ⟨members⟩
    | some path => (uuidAt? document path).map fun _ => ⟨members⟩
  | _ => none

instance (d : Descriptor) : Saga (Document d) where
  descriptor := d
  encode? s := some (.object s.members)
  decode? := ofJson? d
  correlationId s := ((keyPath? d).bind (uuidAt? (.object s.members))).getD Uuid.nil
  version? s := (d.version.bind (Json.lookup (.object s.members))).bind Json.int32?
  setVersion version s :=
    match d.version with
    | some path => ⟨s.members.overwriteAt (segments path) (Json.int version.toInt)⟩
    | none => s

end Document

end Sagas
