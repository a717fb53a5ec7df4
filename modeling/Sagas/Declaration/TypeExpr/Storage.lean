import Sagas.Declaration.TypeExpr.Basic
import Sagas.Value

/-! How a field is stored, by the text of its declared type. -/
namespace Sagas.TypeExpr

/-- Whether a word stands somewhere in a text. -/
def contains (word : List Char) : List Char → Bool
  | [] => word.isEmpty
  | c :: cs => word.isPrefixOf (c :: cs) || contains word cs

/-- How values of a type are stored, by the text of the type without spaces. -/
def storageOf (cs : List Char) : FieldType :=
  let starts (word : String) : Bool := word.toList.isPrefixOf cs
  let ends (word : String) : Bool := word.toList.isSuffixOf cs
  let isOneOf (words : List String) : Bool := Token.isOneOf words cs
  if contains "NaiveDateTime".toList cs then .timestamp
  else if contains "DateTime".toList cs then .datetime
  else if isOneOf ["Uuid"] || ends "::Uuid" then .uuid
  else if isOneOf ["i8", "i16", "i32", "u8", "u16"] then .int
  else if isOneOf ["i64", "u32", "u64", "isize", "usize"] then .bigint
  else if isOneOf ["f32", "f64"] then .float
  else if isOneOf ["bool"] then .bool
  else if starts "Vec<" || starts "HashMap<" || starts "BTreeMap<" || ends "Value" then .json
  else .text

/-- How a field of a declared type is stored: as the type inside, if it is an `Option`. -/
def storage (t : TypeExpr) : FieldType :=
  storageOf t.required.chars

end Sagas.TypeExpr
