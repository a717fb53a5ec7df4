import Sagas.Descriptor
import Sagas.Text.Case

/-! The table, key, version and columns of a saga type, worked out once from its declaration. -/
namespace Sagas

/-- The property that is the key of a saga type by convention. -/
def conventionalKeys : List String :=
  ["CorrelationId", "correlation_id"]

/-- The parameter that carries the key. -/
def keyParameter : String :=
  "correlationId"

/-- The parameter that carries the version. -/
def versionParameter : String :=
  "version"

/-! ## Parameter names -/

/-- The words of a path: what stands between spaces, underscores and dots. -/
def pathWords (path : String) : List (List Char) :=
  (path.toList.splitOnP fun c => c = ' ' || c = '_' || c = '.').filter (· ≠ [])

/-- The words of a path in camel case: the first begins small and the others with a capital. -/
def parameterName (path : String) : String :=
  match pathWords path with
  | [] => ""
  | first :: rest => String.ofList (Text.lowerFirst first ++ rest.flatMap Text.upperFirst)

/-! ## Resolution -/

/-- A field with its column and the name of its parameter. -/
structure ResolvedField where
  path : String
  column : String
  parameter : String
  type : FieldType
deriving DecidableEq, Inhabited

namespace Descriptor

/-- The table: the one asked for, else the declared one, else the name of the type with an `s`. -/
def tableName (d : Descriptor) (override : Option String) : String :=
  match override, d.table with
  | some table, _ => table
  | none, some table => table
  | none, none => d.typeName ++ "s"

/-- The key property: the one declared, else the first field with a conventional name. -/
def keyProperty? (d : Descriptor) : Option String :=
  match d.key with
  | some path => some path
  | none => (d.fields.find? fun f => conventionalKeys.contains f.path).map (·.path)

/-- The column of the key: the one asked for, else that of the key property. -/
def keyColumn (d : Descriptor) (mappings : List Mapping) (override : Option String) :
    Except ConfigurationFault String :=
  match override with
  | some column => .ok column
  | none =>
    match d.keyProperty? with
    | some path => .ok (Mapping.resolve mappings path)
    | none => .error (.keyNotFound d.typeName)

/-- The column of the version, of a type that has one. -/
def versionColumn? (d : Descriptor) (mappings : List Mapping) : Option String :=
  d.version.map (Mapping.resolve mappings)

def resolveField (mappings : List Mapping) (f : Field) : ResolvedField :=
  { path := f.path
    column := Mapping.resolve mappings f.path
    parameter := parameterName f.path
    type := f.type }

/-- The fields in order, without those at the excluded paths and those in the excluded columns. -/
def storedFields (d : Descriptor) (mappings : List Mapping)
    (excludedColumns excludedPaths : List String) : List ResolvedField :=
  ((d.fields.filter fun f => !excludedPaths.contains f.path).map (resolveField mappings)).filter
    fun f => !excludedColumns.contains f.column

end Descriptor

/-! ## Collisions -/

/-- The columns, in lower case, and the parameters in use, each with the property that uses it. -/
structure NamesInUse where
  columns : List (String × String)
  parameters : List (String × String)

namespace NamesInUse

/-- The first property that uses a name. -/
def owner? (names : List (String × String)) (name : String) : Option String :=
  (names.find? (·.1 = name)).map (·.2)

/-- Adds the column and the parameter of a field, unless one of them is in use. -/
def add (sagaType : String) (used : NamesInUse) (f : ResolvedField) :
    Except ConfigurationFault NamesInUse :=
  let column := Text.lower f.column
  match owner? used.columns column with
  | some owner => .error (.sharedColumn owner f.path sagaType f.column)
  | none =>
    match owner? used.parameters f.parameter with
    | some owner => .error (.sharedParameter owner f.path sagaType f.parameter)
    | none =>
      .ok ⟨used.columns ++ [(column, f.path)], used.parameters ++ [(f.parameter, f.path)]⟩

end NamesInUse

namespace Descriptor

/-- The names that the key and the version use. -/
def namesOfKeys (d : Descriptor) (keyColumn : String) (versionColumn : Option String) :
    NamesInUse :=
  let owner := d.keyProperty?.getD keyColumn
  match versionColumn, d.version with
  | some column, some path =>
    ⟨[(Text.lower keyColumn, owner), (Text.lower column, path)],
      [(keyParameter, owner), (versionParameter, path)]⟩
  | _, _ => ⟨[(Text.lower keyColumn, owner)], [(keyParameter, owner)]⟩

/-- Fails when a field uses a column, compared without case, or a parameter that the key, the
version or a field before it uses. -/
def ensureDistinct (d : Descriptor) (keyColumn : String) (versionColumn : Option String)
    (fields : List ResolvedField) : Except ConfigurationFault Unit :=
  (fields.foldlM (NamesInUse.add d.typeName) (d.namesOfKeys keyColumn versionColumn)).map
    fun _ => ()

end Descriptor

/-! ## Metadata -/

/-- What statements and contexts need to know of a saga type. -/
structure Metadata where
  sagaType : String
  table : String
  keyColumn : String
  keyProperty : Option String
  versionColumn : Option String
  versionProperty : Option String
  /-- The fields that are written, without the key and the version. -/
  fields : List ResolvedField
  /-- Every declared field, for reading rows and typing filters. -/
  columns : List ResolvedField
  mappings : List Mapping
deriving DecidableEq, Inhabited

namespace Metadata

/-- Works out the metadata of a declaration under the given mappings and names. -/
def resolve (d : Descriptor) (mappings : List Mapping) (table idColumn : Option String) :
    Except ConfigurationFault Metadata := do
  let keyColumn ← d.keyColumn mappings idColumn
  let keyProperty := d.keyProperty?
  let versionColumn := d.versionColumn? mappings
  let fields := d.storedFields mappings (keyColumn :: versionColumn.toList)
    (keyProperty.toList ++ d.version.toList)
  d.ensureDistinct keyColumn versionColumn fields
  return {
    sagaType := d.typeName
    table := d.tableName table
    keyColumn
    keyProperty
    versionColumn
    versionProperty := d.version
    fields
    columns := d.storedFields mappings [] []
    mappings
  }

/-- Whether writes are guarded by a version. -/
def isVersioned (m : Metadata) : Bool :=
  m.versionColumn.isSome

/-- The column of any path, declared or not. -/
def columnFor (m : Metadata) (path : String) : String :=
  Mapping.resolve m.mappings path

/-- The type of the first field declared at a path. -/
def fieldType? (m : Metadata) (path : String) : Option FieldType :=
  (m.columns.find? (·.path = path)).map (·.type)

end Metadata

end Sagas
