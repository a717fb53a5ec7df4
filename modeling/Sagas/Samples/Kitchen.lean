import Sagas.Saga

/-! A kitchen: one field of nearly every type, a table and a key column of its own, and a field that
is not stored. -/
namespace Sagas.Samples

structure Kitchen where
  correlationId : Uuid
  version : Int32
  isOpen : Bool
  seats : UInt16
  total : Int64
  tags : List String
  /-- Prices by dish, in the order of the dishes' names. -/
  menu : Option (List (String × Int32))
  ownerId : Option Uuid
  zipCode : Option String
  /-- Not stored: zero in every instance that is read from a row. -/
  scratch : Int32 := 0
deriving DecidableEq, Inhabited

namespace Kitchen

def descriptor : Descriptor :=
  ({ typeName := "Kitchen" } : Descriptor).withTable "kitchen_sink"
    |>.withField "correlationId" .uuid
    |>.withKey "correlationId"
    |>.withMapping (.property "correlationId" "kitchen_id")
    |>.withVersion "version"
    |>.withField "isOpen" .bool
    |>.withField "seats" .int
    |>.withField "total" .bigint
    |>.withField "tags" .json
    |>.withField "menu" .json
    |>.withField "ownerId" .uuid
    |>.withField "Zip_Code" .text

def menuJson (menu : List (String × Int32)) : Json :=
  .object (menu.map fun (dish, price) => (dish, .int price.toInt))

/-- The prices of a menu, put in the order of the dishes. -/
def menu? : Json → Option (List (String × Int32))
  | .object members => do
    let menu ← members.mapM fun (dish, price) => price.int32?.map fun p => (dish, p)
    return menu.mergeSort fun a b => a.1 ≤ b.1
  | _ => none

def tags? : Json → Option (List String)
  | .array items => items.mapM Json.string?
  | _ => none

def seats? (json : Json) : Option UInt16 :=
  (json.intIn? 0 65535).map fun n => UInt16.ofNat n.toNat

def toJson (k : Kitchen) : Json :=
  .object [
    ("correlationId", .string k.correlationId.text),
    ("version", .int k.version.toInt),
    ("isOpen", .bool k.isOpen),
    ("seats", .int k.seats.toNat),
    ("total", .int k.total.toInt),
    ("tags", .array (k.tags.map .string)),
    ("menu", .ofOption menuJson k.menu),
    ("ownerId", .ofOption (fun id => .string id.text) k.ownerId),
    ("Zip_Code", .ofOption .string k.zipCode),
    ("scratch", .int k.scratch.toInt)]

/-- The fields that are stored. -/
def storedFields : List String :=
  ["correlationId", "version", "isOpen", "seats", "total", "tags", "menu", "ownerId", "Zip_Code"]

def ofJson? (json : Json) : Option Kitchen := do
  let members ← (json.record? storedFields).or (json.record? (storedFields ++ ["scratch"]))
  let correlationId ← Members.required? (·.string?.bind Uuid.parse?) "correlationId" members
  let version ← Members.required? Json.int32? "version" members
  let isOpen ← Members.required? Json.bool? "isOpen" members
  let seats ← Members.required? seats? "seats" members
  let total ← Members.required? Json.int64? "total" members
  let tags ← Members.required? tags? "tags" members
  let menu ← Members.optional? menu? "menu" members
  let ownerId ← Members.optional? (·.string?.bind Uuid.parse?) "ownerId" members
  let zipCode ← Members.optional? Json.string? "Zip_Code" members
  let scratch ←
    match Members.get? "scratch" members with
    | none => some 0
    | some json => json.int32?
  return { correlationId, version, isOpen, seats, total, tags, menu, ownerId, zipCode, scratch }

instance : Saga Kitchen where
  descriptor := descriptor
  encode? k := some k.toJson
  decode? := ofJson?
  correlationId := Kitchen.correlationId
  version? k := some k.version
  setVersion version k := { k with version }

end Kitchen

end Sagas.Samples
