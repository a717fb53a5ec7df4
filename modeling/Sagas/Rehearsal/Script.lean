import Sagas.Repository

/-! A database that plays a script: it returns what it is told to, and keeps a record of what it was
asked for. -/
namespace Sagas.Rehearsal

/-- What the database was asked for. -/
inductive Event where
  | started (isolation : IsolationLevel)
  /-- A context that is not the usual one was opened. -/
  | customContext
  | fetch (c : Command)
  | execute (c : Command)
  | commit
  | rollback
  /-- A transaction was given up without a commit or a rollback. -/
  | dropped
deriving Inhabited

/-- What the database does next, and what it was asked for so far. -/
structure Script where
  /-- The rows that a query returns. -/
  rows : List Record := []
  /-- The number of rows that a statement touches. -/
  affected : Nat := 1
  /-- The failure of the next query or statement. -/
  failure : Option String := none
  startFailure : Option String := none
  commitFailure : Option String := none
  rollbackFailure : Option String := none
  events : List Event := []
deriving Inhabited

namespace Script

/-- Success, or the failure that the script has for it. -/
def outcome {α : Type} (failure : Option String) (value : α) : Except StorageError α :=
  match failure with
  | some text => .error (.driver (.reported text))
  | none => .ok value

def record (event : Event) (s : Script) : Script :=
  { s with events := s.events ++ [event] }

/-- The failure of the next query or statement is used up by it. -/
def transaction : Transaction Script where
  fetch c := fun s => (outcome s.failure s.rows, { s.record (.fetch c) with failure := none })
  execute c := fun s =>
    (outcome s.failure s.affected, { s.record (.execute c) with failure := none })
  commit := fun s => (outcome s.commitFailure (), s.record .commit)
  rollback := fun s => (outcome s.rollbackFailure (), s.record .rollback)
  abandon := fun s => ((), s.record .dropped)

/-- A failure to begin leaves no record. -/
def connector (provider : Option Provider) : Connector Script where
  provider := provider
  start isolation := fun s =>
    match s.startFailure with
    | some text => (.error (.driver (.reported text)), s)
    | none => (.ok (), s.record (.started isolation))
  transaction := transaction

/-- The events since the last time they were taken. -/
def takeEvents : StateM Script (List Event) := fun s =>
  (s.events, { s with events := [] })

end Script

end Sagas.Rehearsal
