import Sagas.Context

/-! Units of work: each runs in a transaction of its own, which is committed only if the work
succeeds. -/
namespace Sagas

/-- Where the sagas of one type are kept. -/
structure Repository (S σ : Type) where
  connector : Connector σ
  formatter : Formatter
  isolation : IsolationLevel
  /-- Makes the context that a unit of work is handed. -/
  openContext : Transaction σ → Formatter → StateM σ (Context S σ)

namespace Repository

variable {S σ E R : Type}

/-- The engine of a repository: that of the settings, else the connector's; the two must agree. -/
def chooseProvider (configured connected : Option Provider) : Except ConfigurationFault Provider :=
  match configured, connected with
  | some c, some a => if c = a then .ok c else .error (.providerMismatch c a)
  | some c, none => .ok c
  | none, some a => .ok a
  | none, none => .error .providerMissing

/-- A repository with generated statements, under settings that are checked first. -/
def ofOptions [Saga S] (connector : Connector σ) (o : Options) :
    Except ConfigurationFault (Repository S σ) := do
  o.validateSettings
  let provider ← chooseProvider o.provider connector.provider
  let schema ←
    Schema.ofDescriptor provider.dialect (Saga.descriptor S) o.tableName o.idColumnName []
  return {
    connector
    formatter := schema.formatter
    isolation := o.isolation
    openContext := fun t f => pure (Context.ofFormatter t f)
  }

/-- Begins a transaction and opens a context on it. -/
def start (r : Repository S σ) : StateM σ (Except StorageError (Context S σ)) := do
  match ← r.connector.start r.isolation with
  | .error e => return .error e
  | .ok () => return .ok (← r.openContext r.connector.transaction r.formatter)

/-- Ends a unit of work: commits after a success, and otherwise rolls back and keeps the error, also
when rolling back fails. -/
def finish (lift : StorageError → E) (context : Context S σ) (result : Except E R) :
    StateM σ (Except E R) := do
  match result with
  | .ok value =>
    match ← context.commit with
    | .ok () => return .ok value
    | .error e => return .error (lift e)
  | .error e =>
    let _ ← context.rollback
    return .error e

/-- Runs work in a transaction. `lift` makes an error of the work's own kind of a storage error. -/
def execute (r : Repository S σ) (lift : StorageError → E)
    (work : Context S σ → StateM σ (Except E R)) : StateM σ (Except E R) := do
  match ← r.start with
  | .error e => return .error (lift e)
  | .ok context => finish lift context (← work context)

/-- Runs work on the sagas that a filter describes, in the transaction that read them. -/
def executeQuery (r : Repository S σ) (lift : StorageError → E) (filter : Filter)
    (work : Context S σ → List S → StateM σ (Except E R)) : StateM σ (Except E R) := do
  match ← r.start with
  | .error e => return .error (lift e)
  | .ok context =>
    match ← context.query filter with
    | .error e => finish lift context (.error (lift e))
    | .ok found => finish lift context (← work context found)

end Repository

end Sagas
