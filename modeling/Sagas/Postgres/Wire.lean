import Sagas.Value
import Sagas.Json.Parser

/-! The binary form of values on the wire to a PostgreSQL server: numbers are big-endian, and times
count microseconds from 2000-01-01. -/
namespace Sagas.Postgres

/-- The column types that are told apart. -/
inductive WireType where
  | bool
  | int2
  | int4
  | int8
  | float4
  | float8
  | uuid
  | timestamptz
  | timestamp
  | date
  | text
  | varchar
  | char
  | name
  | json
  | jsonb
  | numeric
  | bytea
  | time
deriving DecidableEq, Inhabited

def WireType.sql : WireType → String
  | .bool => "BOOL"
  | .int2 => "INT2"
  | .int4 => "INT4"
  | .int8 => "INT8"
  | .float4 => "FLOAT4"
  | .float8 => "FLOAT8"
  | .uuid => "UUID"
  | .timestamptz => "TIMESTAMPTZ"
  | .timestamp => "TIMESTAMP"
  | .date => "DATE"
  | .text => "TEXT"
  | .varchar => "VARCHAR"
  | .char => "CHAR"
  | .name => "NAME"
  | .json => "JSON"
  | .jsonb => "JSONB"
  | .numeric => "NUMERIC"
  | .bytea => "BYTEA"
  | .time => "TIME"

abbrev Bytes := List UInt8

namespace Wire

/-! ## Numbers -/

/-- The lowest `width` bytes of a number, the highest of them first. -/
def bigEndian : Nat → Nat → Bytes
  | 0, _ => []
  | width + 1, n => UInt8.ofNat (n >>> (8 * width)) :: bigEndian width n

def ofBigEndian (bytes : Bytes) : Nat :=
  bytes.foldl (fun n b => n * 256 + b.toNat) 0

/-- The bytes of a signed integer in two's complement. -/
def ofInt (width : Nat) (n : Int) : Bytes :=
  bigEndian width (BitVec.ofInt (8 * width) n).toNat

/-- The signed integer that exactly `width` bytes stand for. -/
def int? (width : Nat) (bytes : Bytes) : Option Int :=
  if bytes.length = width then some (BitVec.ofNat (8 * width) (ofBigEndian bytes)).toInt else none

/-- The number that exactly `width` bytes stand for. -/
def nat? (width : Nat) (bytes : Bytes) : Option Nat :=
  if bytes.length = width then some (ofBigEndian bytes) else none

/-! ## Values -/

def ofBool (b : Bool) : Bytes :=
  [if b then 1 else 0]

def bool? : Bytes → Option Bool
  | [b] => some (b != 0)
  | _ => none

def ofText (s : String) : Bytes :=
  s.toUTF8.data.toList

def text? (bytes : Bytes) : Option String :=
  String.fromUTF8? ⟨bytes.toArray⟩

def ofUuid (id : Uuid) : Bytes :=
  bigEndian 16 id.value.toNat

def uuid? (bytes : Bytes) : Option Uuid :=
  (nat? 16 bytes).map fun n => ⟨BitVec.ofNat 128 n⟩

def ofFloat (x : Binary64) : Bytes :=
  bigEndian 8 x.bits.toNat

def float? (bytes : Bytes) : Option Binary64 :=
  (nat? 8 bytes).map fun n => ⟨UInt64.ofNat n⟩

/-- A number of half the size, in the greater format. -/
def shortFloat? (bytes : Bytes) : Option Binary64 :=
  (nat? 4 bytes).map fun n => Binary64.ofBinary32 (UInt32.ofNat n)

/-- The version of the binary form of JSON. -/
def jsonVersion : UInt8 :=
  1

def ofJson (j : Json) : Bytes :=
  jsonVersion :: ofText j.text

def plainJson? (bytes : Bytes) : Option Json :=
  (text? bytes).bind Json.parse

def json? : Bytes → Option Json
  | version :: bytes => if version = jsonVersion then plainJson? bytes else none
  | [] => none

/-! ## Times -/

/-- 2000-01-01 00:00:00, in seconds from 1970-01-01. -/
def epoch : Int :=
  946684800

/-- Whole microseconds from the epoch, what is smaller being cut off toward it. -/
def microseconds (m : Moment) : Int :=
  Int.tdiv ((m.seconds - epoch) * 1000000000 + m.nanos) 1000

def ofMoment (m : Moment) : Bytes :=
  ofInt 8 (microseconds m)

/-- The moment a number of microseconds from the epoch. -/
def momentAt (microseconds : Int) : Moment :=
  let seconds := Int.fdiv microseconds 1000000
  ⟨epoch + seconds, ((microseconds - seconds * 1000000) * 1000).toNat⟩

def moment? (bytes : Bytes) : Option Moment := do
  let m := momentAt (← int? 8 bytes)
  if Moment.yearInRange m.date.year then some m else none

/-- The day a number of days from 2000-01-01. -/
def date? (bytes : Bytes) : Option Calendar.Date := do
  let date := Calendar.ofDays (epoch / 86400 + (← int? 4 bytes))
  if Moment.yearInRange date.year then some date else none

end Wire

end Sagas.Postgres
