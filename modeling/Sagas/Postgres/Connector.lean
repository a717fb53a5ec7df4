import Sagas.Postgres.Binding
import Sagas.Postgres.Row
import Sagas.Repository

/-! Transactions on a PostgreSQL server. -/
namespace Sagas.Postgres

/-- The statements that begin and end transactions. -/
inductive Control where
  | begin
  | commit
  | rollback
deriving DecidableEq, Inhabited

def Control.sql : Control → String
  | .begin => "BEGIN"
  | .commit => "COMMIT"
  | .rollback => "ROLLBACK"

/-- What a server answers to a statement. -/
structure Answer where
  columns : List Column
  rows : List (List Cell)
  affected : Nat
deriving Inhabited

/-- A connection to a server that keeps the state `σ`. -/
structure Session (σ : Type) where
  /-- Begins or ends a transaction, and tells whether the server did so. -/
  control : Control → StateM σ Bool
  /-- Runs a statement; nothing is answered when the server refuses it. -/
  run : String → List Argument → StateM σ (Option Answer)
  /-- Takes the connection back with its transaction still open. -/
  reclaim : StateM σ Unit

/-- The level that the server offers for a level: its repeatable read is snapshot isolation. -/
def serverIsolation : IsolationLevel → IsolationLevel
  | .snapshot => .repeatableRead
  | other => other

def isolationStatement (isolation : IsolationLevel) : String :=
  "SET TRANSACTION ISOLATION LEVEL " ++ (serverIsolation isolation).sql

namespace Session

variable {σ : Type}

/-- Begins or ends a transaction. -/
def perform (s : Session σ) (c : Control) : StateM σ (Except StorageError Unit) := do
  if ← s.control c then return .ok () else return .error (.driver (.statement c.sql))

/-- Ends a transaction. One that the server did not end is still open when its connection is taken
back. -/
def conclude (s : Session σ) (c : Control) : StateM σ (Except StorageError Unit) := do
  match ← s.perform c with
  | .ok () => return .ok ()
  | .error e =>
    s.reclaim
    return .error e

/-- Runs a command. Nothing is sent if its parameters cannot be bound. -/
def runCommand (s : Session σ) (c : Command) : StateM σ (Except StorageError Answer) := do
  match bindArguments c.parameters with
  | .error e => return .error e
  | .ok arguments =>
    match ← s.run c.sql arguments with
    | some answer => return .ok answer
    | none => return .error (.driver (.statement c.sql))

def transaction (s : Session σ) : Transaction σ where
  fetch c := do
    match ← s.runCommand c with
    | .error e => return .error e
    | .ok answer => return (answer.rows.mapM (record answer.columns)).mapError .driver
  execute c := return (← s.runCommand c).map (·.affected)
  commit := s.conclude .commit
  rollback := s.conclude .rollback
  abandon := s.reclaim

/-- Begins a transaction and sets its isolation level. When that fails, the transaction is rolled
back, and what setting the level failed with is the error. -/
def start (s : Session σ) (isolation : IsolationLevel) : StateM σ (Except StorageError Unit) := do
  match ← s.perform .begin with
  | .error e => return .error e
  | .ok () =>
    let sql := isolationStatement isolation
    match ← s.run sql [] with
    | some _ => return .ok ()
    | none =>
      let _ ← s.conclude .rollback
      return .error (.driver (.statement sql))

def connector (s : Session σ) : Connector σ where
  provider := some .postgres
  start := s.start
  transaction := s.transaction

end Session

/-- A repository on the server that the settings name. They are checked before anything is
connected; `connect` opens a connection, if there is a server to connect to. -/
def openRepository {S σ : Type} [Saga S] (connect : String → Option (Session σ)) (o : Options) :
    Except StorageError (Repository S σ) := do
  o.validate.mapError .configuration
  if o.provider ≠ some .postgres then
    throw (.configuration (.providerNotServed o.provider))
  let url ← o.connectionUrl.mapError .configuration
  match connect url with
  | none => throw (.driver .unreachable)
  | some session => (Repository.ofOptions session.connector o).mapError .configuration

end Sagas.Postgres
