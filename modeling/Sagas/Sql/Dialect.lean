import Sagas.Sql.Statement

/-! The dialects of SQL: how names are quoted, parameters written and rows locked. -/
namespace Sagas

inductive ParameterStyle where
  | named
  | positional
deriving DecidableEq, Inhabited

/-- The key of the parameter at a position, counted from one, with the given natural name. -/
def ParameterStyle.key (style : ParameterStyle) (position : Nat) (name : String) : ParameterKey :=
  match style with
  | .named => .named name
  | .positional => .positional position

/-- How a read locks its rows: by a hint after the table, or by a clause at the end. -/
inductive LockClause where
  | tableHint (text : String)
  | ending (text : String)
deriving DecidableEq, Inhabited

structure Dialect where
  name : String
  /-- The characters around a column name; none leaves it bare. -/
  quotes : Option (Char × Char)
  parameters : ParameterStyle
  lock : LockClause
deriving DecidableEq, Inhabited

namespace Dialect

def sqlServer : Dialect where
  name := "sqlserver"
  quotes := some ('[', ']')
  parameters := .named
  lock := .tableHint "WITH (UPDLOCK, ROWLOCK)"

def postgres : Dialect where
  name := "postgres"
  quotes := none
  parameters := .positional
  lock := .ending "FOR UPDATE"

/-- A column name between the quotes of the dialect, otherwise as it is. -/
def quote (d : Dialect) (name : String) : String :=
  match d.quotes with
  | some (before, after) => before.toString ++ name ++ after.toString
  | none => name

/-- The selection of all columns of a table, with the hint that locks its rows. -/
def lockedSelect (d : Dialect) (table : String) : String :=
  match d.lock with
  | .tableHint hint => "SELECT * FROM " ++ table ++ " " ++ hint
  | .ending _ => "SELECT * FROM " ++ table

/-- The clause that locks rows at the end of a selection, after a space; empty for a hint. -/
def lockEnding (d : Dialect) : String :=
  match d.lock with
  | .tableHint _ => ""
  | .ending text => " " ++ text

end Dialect

/-- The dialect of an engine. -/
def Provider.dialect : Provider → Dialect
  | .sqlServer => .sqlServer
  | .postgres => .postgres

end Sagas
