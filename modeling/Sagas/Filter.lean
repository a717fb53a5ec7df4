import Sagas.Metadata

/-! Boolean filters over the fields of a saga, and the conjunctions of tests they stand for. -/
namespace Sagas

/-- The comparisons of a test. -/
inductive Comparison where
  | eq
  | ne
  | lt
  | lte
  | gt
  | gte
deriving DecidableEq, Inhabited

/-- The comparison as SQL writes it. -/
def Comparison.sql : Comparison → String
  | .eq => "="
  | .ne => "<>"
  | .lt => "<"
  | .lte => "<="
  | .gt => ">"
  | .gte => ">="

/-- A boolean condition on a saga. -/
inductive Filter where
  /-- Holds of every saga. -/
  | all
  | and (left right : Filter)
  | or (left right : Filter)
  | not (inner : Filter)
  | compare (field : String) (comparison : Comparison) (value : Value)
  /-- A field by itself: true, or different from the zero of its type. -/
  | field (path : String)
  | call (method field : String) (arguments : List Value)
deriving Inhabited

/-- A test of one column. -/
structure Predicate where
  column : String
  comparison : Comparison
  value : Value
  type : Option FieldType
deriving Inhabited

namespace Metadata

/-- The test of the column of a field. -/
def predicate (m : Metadata) (field : String) (comparison : Comparison) (value : Value) :
    Predicate :=
  { column := m.columnFor field, comparison, value, type := m.fieldType? field }

/-- The value that a field by itself is compared with: true, or the zero of its type, or null. -/
def bareValue (type : FieldType) : Value :=
  match type with
  | .bool => .bool true
  | other => other.defaultValue?.getD .null

/-- The tests whose conjunction is the filter, from left to right. Only conjunctions of comparisons,
of declared fields and of negated boolean fields have them. -/
def predicates (m : Metadata) : Filter → Except UnsupportedFault (List Predicate)
  | .all => .ok []
  | .and left right => do
    let first ← predicates m left
    let second ← predicates m right
    return first ++ second
  | .compare field comparison value => .ok [m.predicate field comparison value]
  | .not (.field path) =>
    if m.fieldType? path = some .bool then .ok [m.predicate path .eq (.bool false)]
    else .error .negation
  | .not _ => .error .negation
  | .field path =>
    match m.fieldType? path with
    | some type => .ok [m.predicate path .eq (bareValue type)]
    | none => .error (.untypedField path)
  | .or _ _ => .error .disjunction
  | .call method field _ => .error (.methodCall field method)

end Metadata

end Sagas
