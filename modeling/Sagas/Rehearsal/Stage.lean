import Sagas.Repository

/-! Operations on sagas played one after the other, with the instances at hand in named slots. -/
namespace Sagas.Rehearsal

/-- The state of a database, the instances at hand, and notes on what happened. -/
structure Stage (σ S ν : Type) where
  world : σ
  slots : List (String × S)
  notes : ν

namespace Stage

variable {σ S ν α : Type}

/-- An action of the database alone. -/
def onWorld (action : StateM σ α) : StateM (Stage σ S ν) α := fun stage =>
  let (a, world) := action stage.world
  (a, { stage with world })

def onNotes (f : ν → ν) : StateM (Stage σ S ν) Unit :=
  modify fun stage => { stage with notes := f stage.notes }

/-- A transaction whose database is part of the stage. -/
def transaction (t : Transaction σ) : Transaction (Stage σ S ν) where
  fetch c := onWorld (t.fetch c)
  execute c := onWorld (t.execute c)
  commit := onWorld t.commit
  rollback := onWorld t.rollback
  abandon := onWorld t.abandon

def connector (c : Connector σ) : Connector (Stage σ S ν) where
  provider := c.provider
  start isolation := onWorld (c.start isolation)
  transaction := transaction c.transaction

/-- The instance in a slot. -/
def slot? (name : String) : StateM (Stage σ S ν) (Option S) := fun stage =>
  (stage.slots.lookup name, stage)

/-- Puts an instance into a slot. -/
def fill (name : String) (s : S) : StateM (Stage σ S ν) Unit :=
  modify fun stage =>
    { stage with slots := (name, s) :: stage.slots.filter fun (other, _) => other ≠ name }

/-- Puts instances into the slots `name0`, `name1` and so on. -/
def fillAll (name : String) (sagas : List S) : StateM (Stage σ S ν) Unit :=
  sagas.zipIdx.forM fun (s, i) => fill (name ++ toString i) s

end Stage

/-- An operation on the slot of a step. -/
inductive Action where
  | load (id : Uuid)
  | query (filter : Filter)
  | write (operation : WriteOperation)
  | put (document : Json)

/-- What a step came to. -/
inductive Outcome where
  /-- The slot is empty. -/
  | noInstance
  | done (shown : Json)
  | failed (e : StorageError)

/-- What a step came to; after a write, also the document and the version of the instance. -/
structure Played where
  outcome : Outcome
  written : Option (Json × Option Int32) := none

section
variable {S σ ν : Type} [Saga S]

/-- The document of an instance, null if it has none. -/
def document (s : S) : Json :=
  (Saga.encode? s).getD .null

def Outcome.ofResult {α : Type} (render : α → Json) : Except StorageError α → Outcome
  | .ok value => .done (render value)
  | .error e => .failed e

/-- Plays an operation. `accept` makes an instance of a document. -/
def play (accept : Json → Option S) (context : Context S (Stage σ S ν)) (slot : String) :
    Action → StateM (Stage σ S ν) Played
  | .load id => do
    let result ← context.load id
    match result with
    | .ok (some s) => Stage.fill slot s
    | _ => pure ()
    return { outcome := .ofResult (fun found => .ofOption document found) result }
  | .query filter => do
    let result ← context.query filter
    match result with
    | .ok sagas => Stage.fillAll slot sagas
    | _ => pure ()
    return { outcome := .ofResult (fun sagas => .array (sagas.map document)) result }
  | .write operation => do
    match ← Stage.slot? slot with
    | none => return { outcome := .noInstance }
    | some s =>
      let (result, s) ← context.perform operation s
      Stage.fill slot s
      return {
        outcome := .ofResult (fun _ => .null) result
        written := some (document s, Saga.version? s) }
  | .put json => do
    match accept json with
    | none => return { outcome := .failed (.serialization .document) }
    | some s =>
      Stage.fill slot s
      return { outcome := .done .null }

end

end Sagas.Rehearsal
