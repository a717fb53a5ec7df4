import Sagas.Postgres.Wire
import Sagas.Row

/-! Rows of a PostgreSQL server as records. -/
namespace Sagas.Postgres

structure Column where
  name : String
  type : WireType
deriving DecidableEq, Inhabited

/-- A value of a row: its bytes, unless it is null. -/
abbrev Cell := Option Bytes

/-- A number as JSON, which has none for the infinities and NaN. -/
def floatJson (x : Binary64) : Json :=
  if x.isFinite then .number (.float x) else .null

/-- The JSON of a value of a type. Of the types that are not told apart by a rule of their own only
texts can be read. -/
def cellJson? (type : WireType) (bytes : Bytes) : Option Json :=
  match type with
  | .bool => (Wire.bool? bytes).map .bool
  | .int2 => (Wire.int? 2 bytes).map Json.int
  | .int4 => (Wire.int? 4 bytes).map Json.int
  | .int8 => (Wire.int? 8 bytes).map Json.int
  | .float4 => (Wire.shortFloat? bytes).map floatJson
  | .float8 => (Wire.float? bytes).map floatJson
  | .uuid => (Wire.uuid? bytes).map fun id => .string id.text
  | .timestamptz => (Wire.moment? bytes).map fun m => .string m.microsecondText
  | .timestamp => (Wire.moment? bytes).map fun m => .string m.localText
  | .date => (Wire.date? bytes).map fun d => .string (String.ofList (Moment.dateText d))
  | .json => Wire.plainJson? bytes
  | .jsonb => Wire.json? bytes
  | .text | .varchar | .char | .name => (Wire.text? bytes).map .string
  | .numeric | .bytea | .time => none

/-- The JSON of a cell of a column. -/
def cellJson (column : Column) (cell : Cell) : Except DriverFault Json :=
  match cell with
  | none => .ok .null
  | some bytes =>
    match cellJson? column.type bytes with
    | some json => .ok json
    | none => .error (.undecodable column.type.sql)

/-- The record of a row. A name that columns share keeps its first place and has the last value. -/
def record (columns : List Column) (cells : List Cell) : Except DriverFault Record := do
  (columns.zip cells).foldlM
    (fun record (column, cell) => return Members.put column.name (← cellJson column cell) record) []

end Sagas.Postgres
