import Sagas.Postgres.Connector
import Sagas.Rehearsal.Stage

/-! A PostgreSQL server that plays a script and keeps a record of what it saw. -/
namespace Sagas.Rehearsal

open Postgres

/-- What the server saw. -/
inductive Request where
  | control (c : Control)
  | statement (sql : String) (arguments : List Argument)
  /-- The rollback of a transaction that was left open. -/
  | reclaimed
deriving Inhabited

/-- What the server answers to the next statement. -/
structure Reply where
  answer : Answer := { columns := [], rows := [], affected := 1 }
  /-- Whether it reports an error instead. -/
  fails : Bool := false
deriving Inhabited

structure Server where
  /-- Statements that begin with one of these texts fail. -/
  refused : List String
  reply : Reply := {}
  seen : List Request := []
deriving Inhabited

namespace Server

def refuses (s : Server) (sql : String) : Bool :=
  s.refused.any fun text => text.toList.isPrefixOf sql.toList

def see (request : Request) (s : Server) : Server :=
  { s with seen := s.seen ++ [request] }

/-- A connection to the server. A statement that is refused is seen all the same. -/
def session : Session Server where
  control c := fun s => (!s.refuses c.sql, s.see (.control c))
  run sql arguments := fun s =>
    (if s.refuses sql || s.reply.fails then none else some s.reply.answer,
      s.see (.statement sql arguments))
  reclaim := fun s => ((), s.see .reclaimed)

/-- What the server saw since the last time it was asked. -/
def takeSeen : StateM Server (List Request) := fun s =>
  (s.seen, { s with seen := [] })

def prepare (reply : Reply) : StateM Server Unit :=
  modify fun s => { s with reply }

end Server

/-! ## One transaction -/

/-- A command for the server, with its answer to it. -/
structure ServerStep where
  command : Command
  /-- Whether rows are asked for. -/
  fetches : Bool
  reply : Reply

/-- What a call came to, with what the server saw during it. -/
structure Exchange (α : Type) where
  result : Except StorageError α
  seen : List Request

/-- The rows of a query or the count of a statement. -/
inductive Yield where
  | records (rows : List Record)
  | affected (count : Nat)

/-- How a transaction on a server is ended: by a commit, a rollback, or neither. -/
inductive ServerEnding where
  | commit
  | rollback
  | drop

/-- What the calls of one transaction came to; without a beginning there is nothing else. -/
structure ServerReport where
  begun : Exchange Unit
  rest : Option (List (Exchange Yield) × Exchange Unit)

def exchange {α : Type} (call : StateM Server (Except StorageError α)) :
    StateM Server (Exchange α) := do
  let result ← call
  return { result, seen := ← Server.takeSeen }

def playCommand (t : Transaction Server) (step : ServerStep) : StateM Server (Exchange Yield) := do
  Server.prepare step.reply
  exchange <|
    if step.fetches then return (← t.fetch step.command).map .records
    else return (← t.execute step.command).map .affected

def playEnding (t : Transaction Server) : ServerEnding → StateM Server (Except StorageError Unit)
  | .commit => t.commit
  | .rollback => t.rollback
  | .drop => do
    t.abandon
    return .ok ()

/-- Plays commands in one transaction on a connection. -/
def playTransaction (connector : Connector Server) (isolation : IsolationLevel)
    (steps : List ServerStep) (ending : ServerEnding) : StateM Server ServerReport := do
  let begun ← exchange (connector.start isolation)
  match begun.result with
  | .error _ => return { begun, rest := none }
  | .ok () =>
    let played ← steps.mapM (playCommand connector.transaction)
    let ended ← exchange (playEnding connector.transaction ending)
    return { begun, rest := some (played, ended) }

/-! ## Units of work -/

section
variable {S : Type} [Saga S]

/-- A unit of work of a single step, with the server's answer to it. -/
structure ServerUnit where
  slot : String
  action : Action
  reply : Reply

/-- What a unit came to, and its step if the work ran. -/
structure ServerUnitReport where
  result : Except StorageError Unit
  played : Option Played
  seen : List Request

abbrev ServerStage (S : Type) := Stage Server S (Option Played)

def serverWork (accept : Json → Option S) (u : ServerUnit) (context : Context S (ServerStage S)) :
    StateM (ServerStage S) (Except StorageError Unit) := do
  Stage.onWorld (Server.prepare u.reply)
  let played ← play accept context u.slot u.action
  Stage.onNotes fun _ => some played
  match played.outcome with
  | .failed e => return .error e
  | _ => return .ok ()

def playServerUnit (accept : Json → Option S) (r : Repository S (ServerStage S)) (u : ServerUnit) :
    StateM (ServerStage S) ServerUnitReport := do
  Stage.onNotes fun _ => none
  let result ← r.execute id (serverWork accept u)
  let played := (← get).notes
  return { result, played, seen := ← Stage.onWorld Server.takeSeen }

/-- A connection whose server is part of a stage. -/
def stagedSession (s : Session Server) : Session (ServerStage S) where
  control c := Stage.onWorld (s.control c)
  run sql arguments := Stage.onWorld (s.run sql arguments)
  reclaim := Stage.onWorld s.reclaim

end

end Sagas.Rehearsal
