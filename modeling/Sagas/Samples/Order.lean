import Sagas.Saga

/-! An order: versioned, with an address that may be missing and whose column has the name before
it. -/
namespace Sagas.Samples

structure Address where
  city : String
deriving DecidableEq, Inhabited

structure Order where
  correlationId : Uuid
  version : Int32
  name : Option String
  shipping : Option Address
deriving DecidableEq, Inhabited

namespace Order

def descriptor : Descriptor :=
  ({ typeName := "Order" } : Descriptor).withField "CorrelationId" .uuid
    |>.withKey "CorrelationId"
    |>.withVersion "Version"
    |>.withField "Name" .text
    |>.withNested "Shipping" [{ path := "City", type := .text }]
    |>.withMapping (.below "Shipping" none)

def addressJson (a : Address) : Json :=
  .object [("City", .string a.city)]

def address? (json : Json) : Option Address := do
  let members ← json.record? ["City"]
  let city ← Members.required? Json.string? "City" members
  return { city }

def toJson (o : Order) : Json :=
  .object [
    ("CorrelationId", .string o.correlationId.text),
    ("Version", .int o.version.toInt),
    ("Name", .ofOption .string o.name),
    ("Shipping", .ofOption addressJson o.shipping)]

def ofJson? (json : Json) : Option Order := do
  let members ← json.record? ["CorrelationId", "Version", "Name", "Shipping"]
  let correlationId ← Members.required? (·.string?.bind Uuid.parse?) "CorrelationId" members
  let version ← Members.required? Json.int32? "Version" members
  let name ← Members.optional? Json.string? "Name" members
  let shipping ← Members.optional? address? "Shipping" members
  return { correlationId, version, name, shipping }

instance : Saga Order where
  descriptor := descriptor
  encode? o := some o.toJson
  decode? := ofJson?
  correlationId := Order.correlationId
  version? o := some o.version
  setVersion version o := { o with version }

instance : LawfulSaga Order where
  version?_setVersion _ _ := rfl
  setVersion_setVersion _ _ _ := rfl
  setVersion_of_version? h := by cases h; rfl
  correlationId_setVersion _ _ := rfl

end Order

end Sagas.Samples
