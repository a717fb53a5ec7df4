import Sagas.Postgres.Wire
import Sagas.Sql.Statement

/-! The arguments of a statement for a PostgreSQL server, which takes its parameters by position. -/
namespace Sagas.Postgres

/-- An argument: its type, and its bytes unless it is null. -/
structure Argument where
  type : WireType
  bytes : Option Bytes
deriving DecidableEq, Inhabited

/-- The type of a null, by the type of its field; a text where that is not known. -/
def nullType : Option FieldType → WireType
  | some .bool => .bool
  | some .int => .int4
  | some .bigint => .int8
  | some .float => .float8
  | some .uuid => .uuid
  | some .datetime => .timestamptz
  | some .timestamp => .timestamp
  | some .json => .jsonb
  | some .text | none => .text

/-- Whether an integer fits the 32 bits of a column of type `int`. -/
def fitsInt4 (n : Int64) : Bool :=
  Int32.minValue.toInt ≤ n.toInt && n.toInt ≤ Int32.maxValue.toInt

/-- The argument of a value. The type of its field decides where a value can be taken in several
ways. -/
def argument (value : Value) (type : Option FieldType) : Except DriverFault Argument :=
  match value, type with
  | .string s, some .uuid =>
    match Uuid.parse? s with
    | some id => .ok ⟨.uuid, some (Wire.ofUuid id)⟩
    | none => .error (.uuidText s)
  | .string s, some .json => .ok ⟨.jsonb, some (Wire.ofJson (.string s))⟩
  | .string s, _ => .ok ⟨.text, some (Wire.ofText s)⟩
  | .int n, some .int =>
    if fitsInt4 n then .ok ⟨.int4, some (Wire.ofInt 4 n.toInt)⟩ else .error (.integerRange n)
  | .int n, some .float => .ok ⟨.float8, some (Wire.ofFloat (Binary64.ofInt n.toInt))⟩
  | .int n, _ => .ok ⟨.int8, some (Wire.ofInt 8 n.toInt)⟩
  | .float x, _ => .ok ⟨.float8, some (Wire.ofFloat x)⟩
  | .bool b, _ => .ok ⟨.bool, some (Wire.ofBool b)⟩
  | .uuid id, _ => .ok ⟨.uuid, some (Wire.ofUuid id)⟩
  | .datetime m, _ => .ok ⟨.timestamptz, some (Wire.ofMoment m)⟩
  | .timestamp m, _ => .ok ⟨.timestamp, some (Wire.ofMoment m)⟩
  | .json j, _ => .ok ⟨.jsonb, some (Wire.ofJson j)⟩
  | .null, type => .ok ⟨nullType type, none⟩

/-- The position of a parameter, which must have one. -/
def positionOf (p : Parameter) : Except ConfigurationFault (Nat × Parameter) :=
  match p.key with
  | .positional position => .ok (position, p)
  | .named name => .error (.namedParameter name)

/-- The arguments of parameters in the order of their positions, which must go up by one from
`expected`. -/
def argumentsFrom (expected : Nat) : List (Nat × Parameter) → Except StorageError (List Argument)
  | [] => .ok []
  | (position, p) :: rest => do
    if position ≠ expected then throw (.configuration (.positionMismatch expected))
    let first ← (argument p.value p.type).mapError .driver
    return first :: (← argumentsFrom (expected + 1) rest)

/-- The arguments of a statement: parameters may stand in any order, but their positions must be the
numbers from one. -/
def bindArguments (parameters : List Parameter) : Except StorageError (List Argument) := do
  let placed ← (parameters.mapM positionOf).mapError .configuration
  argumentsFrom 1 (placed.mergeSort fun a b => a.1 ≤ b.1)

end Sagas.Postgres
