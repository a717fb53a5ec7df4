import Sagas.Binary64.Basic

/-! JSON values, with object members in the order in which they were written. -/
namespace Sagas

/-- A number is an integer when it is written as one in the range of the 64-bit integers, signed or
not, and a binary64 number otherwise. -/
inductive JsonNumber where
  | int (n : Int)
  | float (x : Binary64)
deriving DecidableEq, Inhabited

inductive Json where
  | null
  | bool (b : Bool)
  | number (n : JsonNumber)
  | string (s : String)
  | array (items : List Json)
  | object (members : List (String × Json))
deriving Inhabited

/-- The members of an object, in order. -/
abbrev Members := List (String × Json)

namespace JsonNumber

/-- The value as a signed 64-bit integer, of an integer in that range. -/
def toInt64? : JsonNumber → Option Int64
  | .int n =>
    if Int64.minValue.toInt ≤ n ∧ n ≤ Int64.maxValue.toInt then some (Int64.ofInt n) else none
  | .float _ => none

/-- The value as a binary64 number, rounded to the nearest. -/
def toBinary64 : JsonNumber → Binary64
  | .int n => Binary64.ofInt n
  | .float x => x

/-- Equality as numbers within one kind: an integer never equals a binary64 number. -/
def same : JsonNumber → JsonNumber → Bool
  | .int a, .int b => a == b
  | .float a, .float b => a.sameNumber b
  | _, _ => false

end JsonNumber

namespace Json

def int (n : Int) : Json :=
  .number (.int n)

def string? : Json → Option String
  | .string s => some s
  | _ => none

def bool? : Json → Option Bool
  | .bool b => some b
  | _ => none

/-- The value as a whole number in the range from `low` to `high`. -/
def intIn? (low high : Int) : Json → Option Int
  | .number (.int n) => if low ≤ n ∧ n ≤ high then some n else none
  | _ => none

/-- The value as a signed integer of 32 bits. -/
def int32? (json : Json) : Option Int32 :=
  (json.intIn? Int32.minValue.toInt Int32.maxValue.toInt).map Int32.ofInt

/-- The value as a signed integer of 64 bits. -/
def int64? (json : Json) : Option Int64 :=
  (json.intIn? Int64.minValue.toInt Int64.maxValue.toInt).map Int64.ofInt

/-- The members of a record with the given fields: those of an object, or the items of an array that
has one for each field, in order. -/
def record? (fields : List String) : Json → Option Members
  | .object members => some members
  | .array items => if items.length = fields.length then some (fields.zip items) else none
  | _ => none

/-- A value that may be null. -/
def ofOption {α : Type} (write : α → Json) : Option α → Json
  | some value => write value
  | none => .null

end Json

/-! ## Members -/

namespace Members

/-- The value of the first member with the given name. -/
def get? (name : String) : Members → Option Json
  | [] => none
  | (key, value) :: rest => if key = name then some value else get? name rest

/-- The members with one value replaced where it stands, or added at the end. -/
def put (name : String) (value : Json) : Members → Members
  | [] => [(name, value)]
  | (key, old) :: rest =>
    if key = name then (key, value) :: rest else (key, old) :: put name value rest

/-- A member that must be there. -/
def required? {α : Type} (read : Json → Option α) (name : String) (members : Members) : Option α :=
  (get? name members).bind read

/-- A member that may be absent or null. -/
def optional? {α : Type} (read : Json → Option α) (name : String) (members : Members) :
    Option (Option α) :=
  match get? name members with
  | none | some .null => some none
  | some value => (read value).map some

/-- The names of the members, in order. -/
def names (members : Members) : List String :=
  members.map Prod.fst

theorem get?_put_self (name : String) (value : Json) (members : Members) :
    get? name (put name value members) = some value := by
  induction members with
  | nil => simp [put, get?]
  | cons head rest ih =>
    obtain ⟨key, old⟩ := head
    by_cases h : key = name <;> simp [put, get?, h, ih]

theorem get?_put_of_ne {name other : String} (h : other ≠ name) (value : Json)
    (members : Members) : get? other (put name value members) = get? other members := by
  induction members with
  | nil => simp [put, get?, Ne.symm h]
  | cons head rest ih =>
    obtain ⟨key, old⟩ := head
    by_cases hk : key = name
    · subst hk; simp [put, get?, Ne.symm h]
    · simp [put, get?, hk, ih]

end Members

/-! ## Equality -/

namespace Json

/-- Equality as values: numbers by `JsonNumber.same`, arrays item by item, and objects by their
members whatever their order. -/
def same : Json → Json → Bool
  | .null, .null => true
  | .bool a, .bool b => a == b
  | .number a, .number b => a.same b
  | .string a, .string b => a == b
  | .array as, .array bs => sameItems as bs
  | .object as, .object bs => as.length == bs.length && sameMembers as bs
  | _, _ => false
where
  sameItems : List Json → List Json → Bool
    | [], [] => true
    | a :: as, b :: bs => same a b && sameItems as bs
    | _, _ => false
  sameMembers : List (String × Json) → List (String × Json) → Bool
    | [], _ => true
    | (name, a) :: as, bs =>
      (match Members.get? name bs with
        | some b => same a b
        | none => false) && sameMembers as bs

end Sagas.Json
