import Sagas.Saga

/-! A note: a key and a text, without a version. -/
namespace Sagas.Samples

structure Note where
  correlationId : Uuid
  text : String
deriving DecidableEq, Inhabited

namespace Note

def descriptor : Descriptor :=
  ({ typeName := "Note" } : Descriptor).withField "CorrelationId" .uuid
    |>.withKey "CorrelationId"
    |>.withField "Text" .text

def toJson (n : Note) : Json :=
  .object [("CorrelationId", .string n.correlationId.text), ("Text", .string n.text)]

def ofJson? (json : Json) : Option Note := do
  let members ← json.record? ["CorrelationId", "Text"]
  let correlationId ← Members.required? (·.string?.bind Uuid.parse?) "CorrelationId" members
  let text ← Members.required? Json.string? "Text" members
  return { correlationId, text }

instance : Saga Note where
  descriptor := descriptor
  encode? n := some n.toJson
  decode? := ofJson?
  correlationId := Note.correlationId
  version? _ := none
  setVersion _ n := n

end Note

end Sagas.Samples
