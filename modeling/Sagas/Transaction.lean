import Sagas.Options
import Sagas.Row
import Sagas.Sql.Statement

/-! What a database offers to a unit of work, over any state that it keeps. -/
namespace Sagas

/-- An open transaction. Each operation may fail and may change the state `σ`. -/
structure Transaction (σ : Type) where
  /-- Runs a query and returns all rows. -/
  fetch : Command → StateM σ (Except StorageError (List Record))
  /-- Runs a statement and returns the number of rows it touched. -/
  execute : Command → StateM σ (Except StorageError Nat)
  commit : StateM σ (Except StorageError Unit)
  rollback : StateM σ (Except StorageError Unit)
  /-- Gives the transaction up without either. -/
  abandon : StateM σ Unit

/-- A place to open transactions at. -/
structure Connector (σ : Type) where
  /-- The engine it talks to, if that is fixed. -/
  provider : Option Provider
  /-- Begins a transaction; when it fails, nothing stays open. -/
  start : IsolationLevel → StateM σ (Except StorageError Unit)
  transaction : Transaction σ

end Sagas
