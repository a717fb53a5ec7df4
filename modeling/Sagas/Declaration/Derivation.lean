import Sagas.Declaration.Settings
import Sagas.Declaration.TypeExpr.Storage
import Sagas.Descriptor

/-! Descriptors from declarations: first what a declaration asks for, then the fields of the nested
types that it names. -/
namespace Sagas

namespace Declaration

/-- The fields of a declaration of the right kind. -/
def namedFields (d : Declaration) : Except DeclarationFault (List FieldDeclaration) :=
  match d.shape with
  | .record fields => .ok fields
  | .tuple | .unit => .error .namelessFields
  | .enumeration => .error .notRecord

/-- How a field is stored: as JSON if it is marked so, else by its type. -/
def storage (f : FieldDeclaration) (s : FieldSettings) : FieldType :=
  if s.json then .json else f.type.storage

end Declaration

/-! ## Nested types -/

/-- A piece of the fields of a nested type. -/
inductive NestedPiece where
  | field (f : Field)
  /-- The fields of a further type, below a property. -/
  | fieldsOf (key type : String)

namespace NestedPiece

/-- What a field of a nested type adds, nothing if it is skipped. -/
def ofField (f : FieldDeclaration) (s : FieldSettings) :
    Except DeclarationFault (List NestedPiece) :=
  if s.skip then .ok []
  else if s.correlationId ∨ s.version then .error .roleInNested
  else
    match s.nesting with
    | some .plain => .ok [.fieldsOf s.key f.type.required.text]
    | some _ => .error .columnWordInNested
    | none =>
      .ok [.field { path := s.key, type := Declaration.storage f s, column := s.column }]

/-- The pieces of a nested type, in order. -/
def ofDeclaration (d : Declaration) : Except DeclarationFault (List NestedPiece) := do
  let settings ← TypeSettings.read d.settings
  let fields ← d.namedFields
  let pieces ← fields.mapM fun f => do ofField f (← FieldSettings.read settings.naming f)
  return pieces.flatten

end NestedPiece

namespace Declaration

/-- The last of the declarations that has a name. -/
def find? (nested : List Declaration) (name : String) : Option Declaration :=
  nested.reverse.find? (·.name = name)

/-- The fields that pieces stand for, given the fields of every type by its name. -/
def resolvePieces (fieldsOf : String → Except DeclarationFault (List Field)) :
    List NestedPiece → Except DeclarationFault (List Field)
  | [] => .ok []
  | .field f :: rest => do
    return f :: (← resolvePieces fieldsOf rest)
  | .fieldsOf key type :: rest => do
    let inner ← fieldsOf type
    return inner.map (Field.under key) ++ (← resolvePieces fieldsOf rest)

/-- The fields of the declared type with the given name; types within types are followed `depth`
deep. -/
def typeFields (nested : List Declaration) : Nat → String → Except DeclarationFault (List Field)
  | 0, name => .error (.unknownType name)
  | depth + 1, name =>
    match find? nested name with
    | none => .error (.unknownType name)
    | some d => do
      resolvePieces (typeFields nested depth) (← NestedPiece.ofDeclaration d)

/-- The fields of the declared type with the given name. -/
def fieldsOf (nested : List Declaration) (name : String) : Except DeclarationFault (List Field) :=
  typeFields nested (nested.length + 1) name

end Declaration

/-! ## Saga types -/

/-- A piece of the descriptor of a saga type. -/
inductive SagaPiece where
  | table (name : String)
  | key (path : String)
  | version (path : String)
  | field (path : String) (type : FieldType)
  /-- The fields of a further type, below a property. -/
  | fieldsOf (path type : String)
  | mapping (m : Mapping)

/-- What a declaration asks for: the pieces of its descriptor in order, and the fields with a
role. -/
structure SagaPlan where
  pieces : List SagaPiece := []
  keyField : Option String := none
  versionField : Option FieldDeclaration := none

/-- What is derived from a declaration. -/
structure Derived where
  descriptor : Descriptor
  keyField : String
  /-- The field of the version, and whether its type lets it be missing. -/
  versionField : Option (String × Bool)

namespace SagaPlan

def add (p : SagaPlan) (pieces : List SagaPiece) : SagaPlan :=
  { p with pieces := p.pieces ++ pieces }

/-- The mapping of a field with a column of its own. -/
def columnPieces (s : FieldSettings) : List SagaPiece :=
  s.column.toList.map fun column => .mapping (.property s.key column)

/-- The mapping for the columns of a nested object. -/
def nestingPieces (key : String) : Nesting → List SagaPiece
  | .plain => []
  | .leafWord => [.mapping (.below key none)]
  | .word text => [.mapping (.below key (some text))]

/-- Adds a field. It is the key if it is marked so, or has the name for it while there is no key
yet; likewise for the version. -/
def addField (p : SagaPlan) (f : FieldDeclaration) (s : FieldSettings) :
    Except DeclarationFault SagaPlan :=
  if s.skip then .ok p
  else if s.correlationId || (p.keyField.isNone && f.name = "correlation_id") then
    if p.keyField.isSome then .error .secondKey
    else .ok { p.add (.key s.key :: columnPieces s) with keyField := some f.name }
  else if s.version || (p.versionField.isNone && f.name = "version") then
    if p.versionField.isSome then .error .secondVersion
    else .ok { p.add (.version s.key :: columnPieces s) with versionField := some f }
  else
    match s.nesting with
    | some nesting =>
      .ok (p.add (.fieldsOf s.key f.type.required.text :: nestingPieces s.key nesting))
    | none => .ok (p.add (.field s.key (Declaration.storage f s) :: columnPieces s))

/-- The plan of a declaration. -/
def ofDeclaration (d : Declaration) : Except DeclarationFault SagaPlan := do
  let settings ← TypeSettings.read d.settings
  let fields ← d.namedFields
  let start : SagaPlan := { pieces := settings.table.toList.map .table }
  let plan ← fields.foldlM
    (fun p f => do addField p f (← FieldSettings.read settings.naming f)) start
  if plan.keyField.isNone then throw .noKey
  return plan

end SagaPlan

namespace SagaPiece

/-- Adds a piece to a descriptor. -/
def applyTo (nested : List Declaration) (d : Descriptor) :
    SagaPiece → Except DeclarationFault Descriptor
  | .table name => .ok (d.withTable name)
  | .key path => .ok ((d.withField path .uuid).withKey path)
  | .version path => .ok (d.withVersion path)
  | .field path type => .ok (d.withField path type)
  | .fieldsOf path type => do
    return d.withNested path (← Declaration.fieldsOf nested type)
  | .mapping m => .ok (d.withMapping m)

end SagaPiece

namespace Declaration

/-- The descriptor of a saga type, and the fields that are its key and version. -/
def derive (nested : List Declaration) (d : Declaration) : Except DeclarationFault Derived := do
  let plan ← SagaPlan.ofDeclaration d
  let descriptor ← plan.pieces.foldlM (SagaPiece.applyTo nested) { typeName := d.name }
  return {
    descriptor
    keyField := plan.keyField.getD ""
    versionField := plan.versionField.map fun f => (f.name, f.type.isOptional) }

end Declaration

end Sagas
