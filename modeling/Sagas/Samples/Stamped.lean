import Sagas.Saga

/-! An instance with times: one without an offset, and one in UTC that may be missing. -/
namespace Sagas.Samples

structure Stamped where
  correlationId : Uuid
  created : Moment
  seen : Option Moment
deriving DecidableEq, Inhabited

namespace Stamped

def descriptor : Descriptor :=
  ({ typeName := "Stamped" } : Descriptor).withField "CorrelationId" .uuid
    |>.withKey "CorrelationId"
    |>.withField "Created" .timestamp
    |>.withField "Seen" .datetime

def toJson (s : Stamped) : Json :=
  .object [
    ("CorrelationId", .string s.correlationId.text),
    ("Created", .string s.created.localText),
    ("Seen", .ofOption (fun m => .string (m.utcText "Z")) s.seen)]

def ofJson? (json : Json) : Option Stamped := do
  let members ← json.record? ["CorrelationId", "Created", "Seen"]
  let correlationId ← Members.required? (·.string?.bind Uuid.parse?) "CorrelationId" members
  let created ← Members.required? (·.string?.bind Moment.parseLocal?) "Created" members
  let seen ← Members.optional? (·.string?.bind Moment.parseLoose?) "Seen" members
  return { correlationId, created, seen }

instance : Saga Stamped where
  descriptor := descriptor
  encode? s := some s.toJson
  decode? := ofJson?
  correlationId := Stamped.correlationId
  version? _ := none
  setVersion _ s := s

end Stamped

end Sagas.Samples
