import Sagas.Error
import Sagas.Json.Basic
import Sagas.Text.Blank

/-! The settings under which sagas of one type are stored. -/
namespace Sagas

/-- How far a unit of work is kept apart from those that run beside it. -/
inductive IsolationLevel where
  | readUncommitted
  | readCommitted
  | repeatableRead
  | snapshot
  | serializable
deriving DecidableEq, Inhabited

namespace IsolationLevel

/-- The level as SQL writes it. -/
def sql : IsolationLevel → String
  | .readUncommitted => "READ UNCOMMITTED"
  | .readCommitted => "READ COMMITTED"
  | .repeatableRead => "REPEATABLE READ"
  | .snapshot => "SNAPSHOT"
  | .serializable => "SERIALIZABLE"

/-- The level with the given name in a configuration. -/
def ofName? : String → Option IsolationLevel
  | "read_uncommitted" => some .readUncommitted
  | "read_committed" => some .readCommitted
  | "repeatable_read" => some .repeatableRead
  | "snapshot" => some .snapshot
  | "serializable" => some .serializable
  | _ => none

end IsolationLevel

/-- The engine with the given name in a configuration. -/
def Provider.ofName? : String → Option Provider
  | "sqlserver" => some .sqlServer
  | "postgres" => some .postgres
  | _ => none

/-- Settings of a repository. A table or a column given here replaces the declared one. -/
structure Options where
  connection : Option String := none
  provider : Option Provider := none
  isolation : IsolationLevel := .serializable
  tableName : Option String := none
  idColumnName : Option String := none
deriving DecidableEq, Inhabited

namespace Options

/-- Connects to an engine. -/
def connectTo (provider : Provider) (connection : String) (o : Options) : Options :=
  { o with connection := some connection, provider := some provider }

/-! ## Validation -/

/-- The connection string, which must not be blank. -/
def connectionUrl (o : Options) : Except ConfigurationFault String :=
  match o.connection with
  | some url => if Text.isBlank url then .error .connectionMissing else .ok url
  | none => .error .connectionMissing

/-- Whether a name is given and blank. -/
def isBlankName (name : Option String) : Bool :=
  name.any Text.isBlank

/-- Checks what is still read once a connection exists: nothing that is given may be blank. -/
def validateSettings (o : Options) : Except ConfigurationFault Unit := do
  if o.connection.isSome then
    let _ ← o.connectionUrl
  if isBlankName o.tableName then throw .tableNameBlank
  if isBlankName o.idColumnName then throw .idColumnNameBlank

/-- Checks that the settings are complete enough to connect. -/
def validate (o : Options) : Except ConfigurationFault Unit := do
  let _ ← o.connectionUrl
  if o.provider.isNone then throw .providerMissing
  o.validateSettings

/-! ## Configuration files -/

/-- A name by itself, or as the only member of an object, with the value null. -/
def readName? : Json → Option String
  | .string name => some name
  | .object [(name, .null)] => some name
  | _ => none

/-- Reads settings from an object; members that no setting has are left out. -/
def ofJson? : Json → Option Options
  | .object members => do
    let connection ← Members.optional? Json.string? "connection" members
    let provider ←
      Members.optional? (fun value => (readName? value).bind Provider.ofName?) "provider" members
    let isolation ←
      match Members.get? "isolation_level" members with
      | none => some .serializable
      | some value => (readName? value).bind IsolationLevel.ofName?
    let tableName ← Members.optional? Json.string? "table_name" members
    let idColumnName ← Members.optional? Json.string? "id_column_name" members
    return { connection, provider, isolation, tableName, idColumnName }
  | _ => none

end Options

end Sagas
