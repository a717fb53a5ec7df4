import Sagas.Metadata

/-! From the rows of a result to the documents of instances. -/
namespace Sagas

/-- A row: a value for each column, in order. -/
abbrev Record := Members

namespace Record

/-- The value of a column: under its very name, else under the first that differs from it only in
the case of ASCII letters. -/
def column? (record : Record) (name : String) : Option Json :=
  match Members.get? name record with
  | some value => some value
  | none => (record.find? fun (key, _) => Text.sameIgnoringAsciiCase key name).map (·.2)

end Record

/-- The value of a column as it enters a document: a text without an offset in a `datetime` column
is taken to be in UTC. -/
def columnJson (type : FieldType) (value : Json) : Json :=
  match type, value with
  | .datetime, .string s =>
    match Moment.parseRfc3339? s, Moment.parseLocal? s with
    | none, some m => .string (m.utcText "+00:00")
    | _, _ => value
  | _, _ => value

theorem columnJson_eq_self {type : FieldType} {value : Json}
    (h : type = .datetime → ∀ text, value = .string text →
      (Moment.parseRfc3339? text).isSome = true) : columnJson type value = value := by
  unfold columnJson
  split
  · rename_i text
    obtain ⟨moment, hm⟩ := Option.isSome_iff_exists.mp (h rfl text rfl)
    rw [hm]
  · rfl

namespace Metadata

/-- Puts the key into a document, if the row has its column. -/
def insertKey (m : Metadata) (record : Record) (document : Members) : Members :=
  match m.keyProperty, Record.column? record m.keyColumn with
  | some path, some value => document.insertPath path value
  | _, _ => document

/-- Puts a field into a document. The key is left out, and so are nulls and absent columns. -/
def insertField (m : Metadata) (record : Record) (document : Members) (f : ResolvedField) :
    Members :=
  if some f.path = m.keyProperty then document
  else
    match Record.column? record f.column with
    | none | some .null => document
    | some value => document.insertPath f.path (columnJson f.type value)

/-- The document of a row: the key first, then every declared field in order. -/
def materialize (m : Metadata) (record : Record) : Members :=
  m.columns.foldl (m.insertField record) (m.insertKey record [])

end Metadata

end Sagas
