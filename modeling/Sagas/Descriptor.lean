import Sagas.Mapping
import Sagas.Value

/-! What a saga type declares about the way it is stored. -/
namespace Sagas

/-- A stored property. A column given here stands for an exact mapping of its path. -/
structure Field where
  path : String
  type : FieldType
  column : Option String := none
deriving DecidableEq, Inhabited

/-- The same field in an object that is itself the property `parent`. -/
def Field.under (parent : String) (f : Field) : Field :=
  { f with path := parent ++ "." ++ f.path }

/-- The declaration of a saga type: its fields in order, which of them is the key and which the
version, and how columns are named. -/
structure Descriptor where
  typeName : String
  table : Option String := none
  key : Option String := none
  version : Option String := none
  fields : List Field := []
  ownMappings : List Mapping := []
deriving DecidableEq, Inhabited

namespace Descriptor

def withTable (table : String) (d : Descriptor) : Descriptor :=
  { d with table := some table }

/-- Adds a property. -/
def withField (path : String) (type : FieldType) (d : Descriptor) : Descriptor :=
  { d with fields := d.fields ++ [{ path, type }] }

/-- Adds a property with a column of its own. -/
def withColumn (path : String) (type : FieldType) (column : String) (d : Descriptor) : Descriptor :=
  { d with fields := d.fields ++ [{ path, type, column := some column }] }

/-- Adds the properties of a nested object. -/
def withNested (parent : String) (fields : List Field) (d : Descriptor) : Descriptor :=
  { d with fields := d.fields ++ fields.map (Field.under parent) }

/-- Makes a property the key. -/
def withKey (path : String) (d : Descriptor) : Descriptor :=
  { d with key := some path }

/-- Makes a property the version; it is added as an integer if it is not declared. -/
def withVersion (path : String) (d : Descriptor) : Descriptor :=
  let fields :=
    if d.fields.any (·.path = path) then d.fields else d.fields ++ [{ path, type := .int }]
  { d with fields, version := some path }

/-- Adds a mapping. -/
def withMapping (m : Mapping) (d : Descriptor) : Descriptor :=
  { d with ownMappings := d.ownMappings ++ [m] }

/-- The type of the first field declared at a path. -/
def fieldType? (d : Descriptor) (path : String) : Option FieldType :=
  (d.fields.find? (·.path = path)).map (·.type)

/-- The mappings that the columns of the fields stand for, then those declared as such. As the last
exact mapping of a path decides, one declared as such replaces the column of its field. -/
def mappings (d : Descriptor) : List Mapping :=
  d.fields.filterMap (fun f => f.column.map (Mapping.property f.path)) ++ d.ownMappings

end Descriptor

end Sagas
