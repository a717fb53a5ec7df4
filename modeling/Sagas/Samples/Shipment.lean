import Sagas.Saga

/-! A shipment: its version may be missing, and its destination is part of every instance. -/
namespace Sagas.Samples

structure Destination where
  id : Int32
  name : String
deriving DecidableEq, Inhabited

structure Shipment where
  shipmentId : Uuid
  revision : Option Int32
  delivered : Bool
  destination : Destination
deriving DecidableEq, Inhabited

namespace Shipment

def descriptor : Descriptor :=
  ({ typeName := "Shipment" } : Descriptor).withField "shipment_id" .uuid
    |>.withKey "shipment_id"
    |>.withVersion "revision"
    |>.withField "delivered" .bool
    |>.withNested "destination" [{ path := "Id", type := .int }, { path := "Name", type := .text }]

def destinationJson (d : Destination) : Json :=
  .object [("Id", .int d.id.toInt), ("Name", .string d.name)]

def destination? (json : Json) : Option Destination := do
  let members ← json.record? ["Id", "Name"]
  let id ← Members.required? Json.int32? "Id" members
  let name ← Members.required? Json.string? "Name" members
  return { id, name }

def toJson (s : Shipment) : Json :=
  .object [
    ("shipment_id", .string s.shipmentId.text),
    ("revision", .ofOption (fun v => .int v.toInt) s.revision),
    ("delivered", .bool s.delivered),
    ("destination", destinationJson s.destination)]

def ofJson? (json : Json) : Option Shipment := do
  let members ← json.record? ["shipment_id", "revision", "delivered", "destination"]
  let shipmentId ← Members.required? (·.string?.bind Uuid.parse?) "shipment_id" members
  let revision ← Members.optional? Json.int32? "revision" members
  let delivered ← Members.required? Json.bool? "delivered" members
  let destination ← Members.required? destination? "destination" members
  return { shipmentId, revision, delivered, destination }

instance : Saga Shipment where
  descriptor := descriptor
  encode? s := some s.toJson
  decode? := ofJson?
  correlationId := Shipment.shipmentId
  version? := Shipment.revision
  setVersion version s := { s with revision := some version }

instance : LawfulSaga Shipment where
  version?_setVersion _ _ := rfl
  setVersion_setVersion _ _ _ := rfl
  setVersion_of_version? {_ s} h := by
    obtain ⟨shipmentId, revision, delivered, destination⟩ := s
    cases h
    rfl
  correlationId_setVersion _ _ := rfl

end Shipment

end Sagas.Samples
