import Sagas.Rehearsal.Script
import Sagas.Rehearsal.Stage

/-! Steps against a scripted database: in one transaction, and in units of work. -/
namespace Sagas.Rehearsal

/-- A step, with what the database does during it. -/
structure Step where
  slot : String
  action : Action
  rows : List Record
  affected : Nat
  failure : Option String

/-- What a step came to, with what the database was asked for during it. -/
structure Entry where
  played : Played
  events : List Event

section
variable {S ν : Type} [Saga S]

/-- Plays a step after telling the database what to do during it. -/
def playStep (accept : Json → Option S) (context : Context S (Stage Script S ν)) (step : Step) :
    StateM (Stage Script S ν) Entry := do
  Stage.onWorld <| modify fun script =>
    { script with rows := step.rows, affected := step.affected, failure := step.failure }
  let played ← play accept context step.slot step.action
  return { played, events := ← Stage.onWorld Script.takeEvents }

/-! ## One transaction -/

/-- How a transaction is ended. -/
inductive Ending where
  | commit
  | rollback
  | drop

/-- What steps in one transaction came to, and its end. -/
structure ScenarioReport where
  entries : List Entry
  ended : Except StorageError Unit
  closing : List Event

/-- Plays steps in one open transaction and ends it. -/
def playScenario (accept : Json → Option S) (f : Formatter) (slots : List (String × S))
    (steps : List Step) (ending : Ending) (endFailure : Option String) : ScenarioReport :=
  let context : Context S (Stage Script S Unit) :=
    Context.ofFormatter (Stage.transaction Script.transaction) f
  let script : Script := { commitFailure := endFailure, rollbackFailure := endFailure }
  let run : StateM (Stage Script S Unit) ScenarioReport := do
    let entries ← steps.mapM (playStep accept context)
    let ended ←
      match ending with
      | .commit => context.commit
      | .rollback => context.rollback
      | .drop => do
        Stage.onWorld Script.transaction.abandon
        pure (.ok ())
    return { entries, ended, closing := ← Stage.onWorld Script.takeEvents }
  (run.run { world := script, slots, notes := () }).1

/-! ## Units of work -/

/-- Why a unit of work failed: by an error of storage, or by one of the caller's own. -/
inductive UnitError where
  | storage (e : StorageError)
  | application (message : String)

/-- A unit of work and what the database does during it. -/
structure WorkUnit where
  steps : List Step
  /-- The filter whose sagas the work is handed. -/
  query : Option Filter
  /-- The database until the first step. -/
  script : Script
  /-- Whether the work goes on after a step that failed. -/
  goesOn : Bool
  /-- The error with which the work ends of its own accord. -/
  applicationError : Option String

/-- What is noted during a unit of work. -/
structure UnitNotes where
  opened : List Event := []
  found : Option (List Json) := none
  entries : List Entry := []
deriving Inhabited

/-- What a unit of work came to: its result, counting the steps played, and what the database was
asked for before, during and after the steps. -/
structure UnitReport where
  result : Except UnitError Nat
  notes : UnitNotes
  closing : List Event

/-- The storage error of a step that failed with one. -/
def Entry.error? (e : Entry) : Option StorageError :=
  match e.played.outcome with
  | .failed error => some error
  | _ => none

/-- Plays the steps of a unit, up to the first that fails unless the unit goes on. -/
def playSteps (accept : Json → Option S) (context : Context S (Stage Script S UnitNotes))
    (goesOn : Bool) : List Step → StateM (Stage Script S UnitNotes) (Except UnitError Unit)
  | [] => return .ok ()
  | step :: rest => do
    let entry ← playStep accept context step
    Stage.onNotes fun notes => { notes with entries := notes.entries ++ [entry] }
    match entry.error?, goesOn with
    | some e, false => return .error (.storage e)
    | _, _ => playSteps accept context goesOn rest

/-- The work of a unit, on the sagas it is handed if it asked for any. -/
def work (accept : Json → Option S) (u : WorkUnit) (found : Option (List S))
    (context : Context S (Stage Script S UnitNotes)) :
    StateM (Stage Script S UnitNotes) (Except UnitError Nat) := do
  let opened ← Stage.onWorld Script.takeEvents
  let shown := found.map fun sagas => sagas.map document
  Stage.onNotes fun notes => { notes with opened, found := shown }
  Stage.fillAll "q" (found.getD [])
  match ← playSteps accept context u.goesOn u.steps with
  | .error e => return .error e
  | .ok () =>
    match u.applicationError with
    | some message => return .error (.application message)
    | none =>
      let stage ← get
      return .ok stage.notes.entries.length

/-- Runs a unit of work on a repository. -/
def playUnit (accept : Json → Option S) (r : Repository S (Stage Script S UnitNotes)) (u : WorkUnit)
    (slots : List (String × S)) : UnitReport × List (String × S) :=
  let run : StateM (Stage Script S UnitNotes) (Except UnitError Nat) :=
    match u.query with
    | some filter =>
      r.executeQuery .storage filter fun context found => work accept u (some found) context
    | none => r.execute .storage (work accept u none)
  let (result, stage) := run.run { world := u.script, slots, notes := {} }
  ({ result, notes := stage.notes, closing := stage.world.events }, stage.slots)

/-- Runs units of work one after the other; what is in the slots after one is there for the next. -/
def playUnits (accept : Json → Option S) (r : Repository S (Stage Script S UnitNotes)) :
    List (String × S) → List WorkUnit → List UnitReport
  | _, [] => []
  | slots, u :: rest =>
    let (report, slots) := playUnit accept r u slots
    report :: playUnits accept r slots rest

/-- A repository that records each opening of a context. -/
def announcingContexts (r : Repository S (Stage Script S ν)) : Repository S (Stage Script S ν) :=
  { r with
    openContext := fun t f => do
      Stage.onWorld (modify (Script.record .customContext))
      return Context.ofFormatter t f }

end

end Sagas.Rehearsal
