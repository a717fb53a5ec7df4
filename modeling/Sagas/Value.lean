import Sagas.Error
import Sagas.Json.Printer
import Sagas.Time.Reader

/-! The storage types of fields, and the values that statements are given for them. -/
namespace Sagas

/-- How a field is stored. A `datetime` is bound in UTC, a `timestamp` carries no offset. -/
inductive FieldType where
  | bool
  | int
  | bigint
  | float
  | text
  | uuid
  | datetime
  | timestamp
  | json
deriving DecidableEq, Inhabited

/-- A value bound to a parameter. -/
inductive Value where
  | string (s : String)
  | int (n : Int64)
  | float (x : Binary64)
  | bool (b : Bool)
  | uuid (id : Uuid)
  | datetime (m : Moment)
  | timestamp (m : Moment)
  | json (j : Json)
  | null
deriving Inhabited

namespace FieldType

/-- Texts and JSON have no zero value: a bare test on them asks for null. -/
def isReference : FieldType → Bool
  | .text | .json => true
  | _ => false

/-- The zero value of a type that has one. -/
def defaultValue? : FieldType → Option Value
  | .bool => some (.bool false)
  | .int | .bigint => some (.int 0)
  | .float => some (.float Binary64.zero)
  | .uuid => some (.uuid Uuid.nil)
  | .datetime => some (.datetime Moment.epoch)
  | .timestamp => some (.timestamp Moment.epoch)
  | .text | .json => none

end FieldType

namespace Value

def isNull : Value → Bool
  | .null => true
  | _ => false

/-- Equality as values: floats as numbers, JSON whatever the order of its members. -/
def same : Value → Value → Bool
  | .string a, .string b => a == b
  | .int a, .int b => a == b
  | .float a, .float b => a.sameNumber b
  | .bool a, .bool b => a == b
  | .uuid a, .uuid b => a == b
  | .datetime a, .datetime b => a == b
  | .timestamp a, .timestamp b => a == b
  | .json a, .json b => a.same b
  | .null, .null => true
  | _, _ => false

/-- An integer as it is when 64 signed bits hold it, any other number as a float. -/
def ofNumber (n : JsonNumber) : Value :=
  match n.toInt64? with
  | some i => .int i
  | none => .float n.toBinary64

/-- The value of a result, or the fault with which it could not be read. -/
def require (fault : SerializationFault) : Option Value → Except SerializationFault Value
  | some value => .ok value
  | none => .error fault

/-- The value of a serialized field of a known type. A value of a kind that the type has no reading
for is kept as JSON. -/
def ofJson (type : FieldType) (json : Json) : Except SerializationFault Value :=
  match type, json with
  | _, .null => .ok .null
  | .bool, .bool b => .ok (.bool b)
  | .int, .number n | .bigint, .number n => .ok (ofNumber n)
  | .float, .number n => .ok (.float n.toBinary64)
  | .uuid, .string s => require (.uuid s) ((Uuid.parse? s).map .uuid)
  | .datetime, .string s => require (.datetime s) ((Moment.parseRfc3339? s).map .datetime)
  | .timestamp, .string s => require (.timestamp s) ((Moment.parseLocal? s).map .timestamp)
  | .text, .string s => .ok (.string s)
  | .text, .bool b => .ok (.string (if b then "true" else "false"))
  | .text, .number n => .ok (.string n.text)
  | _, other => .ok (.json other)

/-- The value of a serialized field whose type is not known. -/
def infer : Json → Value
  | .null => .null
  | .bool b => .bool b
  | .number n => ofNumber n
  | .string s => .string s
  | other => .json other

end Value

end Sagas
