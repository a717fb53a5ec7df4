import Sagas.Proofs.Programs

/-! A database whose calls are written down, and programs that call it only to read and to write. -/
namespace Sagas

/-- A call of a database with the answer that it got. -/
inductive DriverCall where
  | start (isolation : IsolationLevel) (answer : Except StorageError Unit)
  | fetch (c : Command) (answer : Except StorageError (List Record))
  | execute (c : Command) (answer : Except StorageError Nat)
  | commit (answer : Except StorageError Unit)
  | rollback (answer : Except StorageError Unit)
  | abandon

/-- Whether a call is for a command, and neither opens nor ends a transaction. -/
def DriverCall.isCommand : DriverCall → Bool
  | .fetch .. | .execute .. => true
  | _ => false

/-- A world and the calls of its database so far. -/
structure Observed (σ : Type) where
  world : σ
  calls : List DriverCall

variable {S σ α β : Type}

/-- Makes a call and writes it down. -/
def Observed.call (action : StateM σ α) (entry : α → DriverCall) : StateM (Observed σ) α := fun w =>
  let (answer, world) := action w.world
  (answer, { world, calls := w.calls ++ [entry answer] })

def Transaction.observed (t : Transaction σ) : Transaction (Observed σ) where
  fetch c := Observed.call (t.fetch c) (.fetch c)
  execute c := Observed.call (t.execute c) (.execute c)
  commit := Observed.call t.commit .commit
  rollback := Observed.call t.rollback .rollback
  abandon := Observed.call t.abandon fun _ => .abandon

def Connector.observed (c : Connector σ) : Connector (Observed σ) where
  provider := c.provider
  start isolation := Observed.call (c.start isolation) (.start isolation)
  transaction := c.transaction.observed

/-! ## Programs of commands -/

/-- A program that makes no calls but commands, wherever it starts. -/
def Observed.OnlyCommands (program : StateM (Observed σ) α) : Prop :=
  ∀ w, ∃ commands, (program w).2.calls = w.calls ++ commands ∧
    ∀ call ∈ commands, call.isCommand = true

/-! ## Contexts -/

namespace Context

open Observed (OnlyCommands)

variable [Saga S] {t : Transaction σ}

/-- What can be programmed with a context that is only lent: reads, writes, and anything in which
the database is not called. Whoever owns the context ends its transaction. -/
inductive Confined (context : Context S (Observed σ)) : {α : Type} → StateM (Observed σ) α → Prop
  | own {α : Type} {program : StateM (Observed σ) α}
      (h : ∀ w, (program w).2.calls = w.calls) : Confined context program
  | load (id : Uuid) : Confined context (context.load id)
  | query (filter : Filter) : Confined context (context.query filter)
  | perform (operation : WriteOperation) (s : S) : Confined context (context.perform operation s)
  | bind {α β : Type} {first : StateM (Observed σ) α} {next : α → StateM (Observed σ) β}
      (hf : Confined context first) (hn : ∀ a, Confined context (next a)) :
      Confined context (first >>= next)

/-- Whoever is lent a context makes no calls but commands. -/
theorem Confined.onlyCommands {f : Formatter} {program : StateM (Observed σ) α}
    (h : Confined (S := S) (ofFormatter t.observed f) program) : OnlyCommands program := by
  have hc := Appends.compositional (σ := Observed σ) (·.calls) DriverCall.isCommand
  have hf (c : Command) : OnlyCommands (t.observed.fetch c) :=
    Appends.single (fun _ => rfl) fun _ => rfl
  have he (c : Command) : OnlyCommands (t.observed.execute c) :=
    Appends.single (fun _ => rfl) fun _ => rfl
  induction h with
  | own h => exact Appends.silent h
  | load id => exact hc.load hf f id
  | query filter => exact hc.query hf f filter
  | perform operation s => exact hc.perform he f operation s
  | bind _ _ hf hn => exact Appends.bind hf hn

end Context

end Sagas
