import Sagas.Filter
import Sagas.Sql.BindingPlan

/-! The statements that keep sagas of one type in a table. -/
namespace Sagas

/-- The statements of a saga type, with the metadata by which rows are read back. -/
structure Formatter where
  metadata : Metadata
  /-- Selects one row by its key and locks it. -/
  load : Statement
  /-- Selects the rows that a filter describes and locks them. -/
  query : Filter → Except UnsupportedFault Command
  insert : Statement
  /-- Updates a row by its key, and by its version if it has one. -/
  update : Statement
  /-- Deletes a row by its key, and by its version if it has one. -/
  delete : Statement

/-- The statement of a write. -/
def Formatter.statement (f : Formatter) : WriteOperation → Statement
  | .insert => f.insert
  | .update => f.update
  | .delete => f.delete

/-- A dialect together with resolved metadata. -/
structure Schema where
  dialect : Dialect
  metadata : Metadata
deriving DecidableEq, Inhabited

namespace Schema

open BindingPlan

/-! ## Columns -/

/-- The columns of the key and the version, as far as there is one. -/
def keyColumns (s : Schema) : List String :=
  s.metadata.keyColumn :: s.metadata.versionColumn.toList

def fieldColumns (s : Schema) : List String :=
  s.metadata.fields.map (·.column)

/-- The columns that an insert names. -/
def insertedColumns (s : Schema) : List String :=
  s.keyColumns ++ s.fieldColumns

/-- The columns that an update assigns: the fields first and the version last. -/
def assignedColumns (s : Schema) : List String :=
  s.fieldColumns ++ s.metadata.versionColumn.toList

/-- A quoted column, a comparison or assignment, and a placeholder. -/
def clause (s : Schema) (column operator placeholder : String) : String :=
  s.dialect.quote column ++ " " ++ operator ++ " " ++ placeholder

/-! ## Statements -/

/-- The condition that finds the row of an instance: its key, and a version below the new one. The
parameters of both are added, and the placeholder of the version is given as well. -/
def keyPredicate (s : Schema) : Planned (String × Option String) := do
  let key ← addKey
  let condition := s.clause s.metadata.keyColumn "=" key
  match s.metadata.versionColumn with
  | none => return (condition, none)
  | some column =>
    let version ← addVersion
    return (condition ++ (" AND " ++ s.clause column "<" version), some version)

def loadStatement (s : Schema) : Statement :=
  statement s.dialect.parameters do
    let key ← addKey
    return s.dialect.lockedSelect s.metadata.table ++ " WHERE " ++
      s.clause s.metadata.keyColumn "=" key ++ s.dialect.lockEnding

def insertStatement (s : Schema) : Statement :=
  statement s.dialect.parameters do
    let key ← addKey
    let version ← s.metadata.versionColumn.toList.mapM fun _ => addVersion
    let fields ← s.metadata.fields.mapM addField
    return "INSERT INTO " ++ s.metadata.table ++ " (" ++
      ", ".intercalate (s.insertedColumns.map s.dialect.quote) ++ ") VALUES (" ++
      ", ".intercalate (key :: version ++ fields) ++ ")"

/-- Each assigned column gets the placeholder of its own value. That of the version is among the
first to be added, as the condition asks for it too. -/
def updateStatement (s : Schema) : Statement :=
  statement s.dialect.parameters do
    let (condition, version) ← s.keyPredicate
    let fields ← s.metadata.fields.mapM addField
    let assignments := List.zipWith (fun column placeholder => s.clause column "=" placeholder)
      s.assignedColumns (fields ++ version.toList)
    return "UPDATE " ++ s.metadata.table ++ " SET " ++ ", ".intercalate assignments ++
      " WHERE " ++ condition

def deleteStatement (s : Schema) : Statement :=
  statement s.dialect.parameters do
    let (condition, _) ← s.keyPredicate
    return "DELETE FROM " ++ s.metadata.table ++ " WHERE " ++ condition

/-! ## Queries -/

/-- The parameter of the predicate at a place, counted from zero. -/
def queryParameter (s : Schema) (p : Predicate) (place : Nat) : Parameter where
  key := s.dialect.parameters.key (place + 1) ("value" ++ toString place)
  value := p.value
  type := p.type

/-- The selection of the rows for which all predicates hold. -/
def selection (s : Schema) (predicates : List Predicate) : Command :=
  let parameters := predicates.zipIdx.map fun (p, i) => s.queryParameter p i
  let clauses := List.zipWith
    (fun (p : Predicate) (q : Parameter) => s.clause p.column p.comparison.sql q.key.placeholder)
    predicates parameters
  let condition := if clauses.isEmpty then "" else " WHERE " ++ " AND ".intercalate clauses
  { sql := s.dialect.lockedSelect s.metadata.table ++ condition ++ s.dialect.lockEnding
    parameters }

def queryCommand (s : Schema) (filter : Filter) : Except UnsupportedFault Command :=
  (s.metadata.predicates filter).map s.selection

/-- All statements of the schema. -/
def formatter (s : Schema) : Formatter where
  metadata := s.metadata
  load := s.loadStatement
  query := s.queryCommand
  insert := s.insertStatement
  update := s.updateStatement
  delete := s.deleteStatement

/-- The schema of a declaration in a dialect, with names that replace its own and mappings that come
after its own. -/
def ofDescriptor (dialect : Dialect) (d : Descriptor) (table idColumn : Option String)
    (mappings : List Mapping) : Except ConfigurationFault Schema :=
  (Metadata.resolve d (d.mappings ++ mappings) table idColumn).map fun metadata =>
    { dialect, metadata }

end Schema

end Sagas
