import Sagas.Provider
import Sagas.Uuid

/-! Why storing or reading a saga can fail, and the wording of each failure. -/
namespace Sagas

/-- A write on one instance. -/
inductive WriteOperation where
  | insert
  | update
  | delete
deriving DecidableEq, Inhabited

def WriteOperation.title : WriteOperation → String
  | .insert => "Saga Insert"
  | .update => "Saga Update"
  | .delete => "Saga Delete"

/-- Faults of the setup, found before or while statements are built. -/
inductive ConfigurationFault where
  | keyNotFound (sagaType : String)
  | sharedColumn (owner path sagaType column : String)
  | sharedParameter (owner path sagaType parameter : String)
  | connectionMissing
  | providerMissing
  | tableNameBlank
  | idColumnNameBlank
  | providerMismatch (configured connected : Provider)
  | providerNotServed (configured : Option Provider)
  | namedParameter (name : String)
  | positionMismatch (position : Nat)
deriving DecidableEq

/-- Filters that have no predicates. -/
inductive UnsupportedFault where
  | negation
  | disjunction
  | methodCall (field method : String)
  | untypedField (field : String)
deriving DecidableEq

/-- Values and documents that do not have the form their type asks for. -/
inductive SerializationFault where
  | uuid (text : String)
  | datetime (text : String)
  | timestamp (text : String)
  | document
deriving DecidableEq

/-- Failures on the side of the database. -/
inductive DriverFault where
  /-- The transaction reports a failure in its own words. -/
  | reported (text : String)
  /-- No connection can be opened. -/
  | unreachable
  /-- The server answers a statement with an error. -/
  | statement (sql : String)
  /-- An integer does not fit the 32 bits of its column. -/
  | integerRange (n : Int64)
  /-- A text bound to a column of identifiers is none. -/
  | uuidText (text : String)
  /-- A column of a row cannot be read as a value. -/
  | undecodable (typeName : String)
deriving DecidableEq

/-- Everything that an operation on stored sagas can fail with. -/
inductive StorageError where
  | configuration (fault : ConfigurationFault)
  | unsupported (fault : UnsupportedFault)
  | concurrency (operation : WriteOperation) (sagaType : String) (id : Uuid)
  | versionOverflow (sagaType : String) (id : Uuid) (version : Int32)
  | serialization (fault : SerializationFault)
  | driver (fault : DriverFault)
deriving DecidableEq

/-! ## Wording -/

def ConfigurationFault.message : ConfigurationFault → String
  | .keyNotFound sagaType =>
    "Only CorrelationId can be auto-detected as the key column of " ++ sagaType ++
      "; configure an id column override"
  | .sharedColumn owner path sagaType column =>
    owner ++ " and " ++ path ++ " of " ++ sagaType ++ " both map to column " ++ column ++
      "; map a prefix or a column override"
  | .sharedParameter owner path sagaType parameter =>
    owner ++ " and " ++ path ++ " of " ++ sagaType ++ " both bind as @" ++ parameter
  | .connectionMissing => "ConnectionString must be specified"
  | .providerMissing => "Provider must be specified"
  | .tableNameBlank => "TableName must not be blank"
  | .idColumnNameBlank => "IdColumnName must not be blank"
  | .providerMismatch configured connected =>
    "Provider " ++ configured.title ++ " does not match connector provider " ++ connected.title
  | .providerNotServed none => "PgConnector cannot serve provider None"
  | .providerNotServed (some configured) =>
    "PgConnector cannot serve provider Some(" ++ configured.title ++ ")"
  | .namedParameter name => "PostgreSQL requires positional parameters, got @" ++ name
  | .positionMismatch position =>
    "Parameter $" ++ toString position ++ " is missing or bound twice"

def UnsupportedFault.message : UnsupportedFault → String
  | .negation => "Negation is only supported for boolean fields"
  | .disjunction => "Disjunctions cannot be translated to predicates"
  | .methodCall field method => "Method call " ++ field ++ "." ++ method ++ " is not supported"
  | .untypedField field => "Cannot infer the type of " ++ field ++ " for a bare field test"

/-- The beginning of the wording. What is wrong with the text follows after a colon in the words of
the parser that refused it, and what is wrong with a document in those of the reader of its type;
neither is modelled. -/
def SerializationFault.message : SerializationFault → String
  | .uuid text => "Invalid uuid " ++ text
  | .datetime text => "Invalid datetime " ++ text
  | .timestamp text => "Invalid timestamp " ++ text
  | .document => ""

/-- The wording of the failure that is passed on. The words of the server's client and of the parser
of identifiers are not modelled. -/
def DriverFault.message : DriverFault → String
  | .reported text => text
  | .integerRange _ => "out of range integral type conversion attempted"
  | .unreachable | .statement _ | .uuidText _ | .undecodable _ => ""

namespace StorageError

def message : StorageError → String
  | .configuration fault => "Configuration error: " ++ fault.message
  | .unsupported fault => "Unsupported expression: " ++ fault.message
  | .concurrency operation sagaType id =>
    operation.title ++ " failed for " ++ sagaType ++ " (" ++ id.text ++ ")"
  | .versionOverflow sagaType id version =>
    "Version of " ++ sagaType ++ " (" ++ id.text ++ ") cannot advance past " ++
      toString version.toInt
  | .serialization fault => "Serialization error: " ++ fault.message
  | .driver fault => "Driver error: " ++ fault.message

/-- Whether the error is the expected outcome of two writers racing. -/
def isConcurrency : StorageError → Bool
  | .concurrency .. => true
  | _ => false

end StorageError

end Sagas
