import Sagas.Postgres.Connector
import Sagas.Proofs.Programs
import Sagas.Proofs.Write

/-! A PostgreSQL server whose requests are written down, and what the calls of a connector send. -/
namespace Sagas.Postgres

/-- A request to a server with the answer that it got. -/
inductive ServerCall where
  | control (c : Control) (done : Bool)
  | statement (sql : String) (arguments : List Argument) (answer : Option Answer)
  /-- The connection is taken back with its transaction still open. -/
  | reclaim

namespace ServerCall

def isStatement : ServerCall → Bool
  | .statement .. => true
  | _ => false

/-- A transaction was begun. -/
def begins : ServerCall → Bool
  | .control .begin done => done
  | _ => false

/-- A transaction was asked to be committed or rolled back. -/
def ends : ServerCall → Bool
  | .control .commit _ | .control .rollback _ => true
  | _ => false

end ServerCall

/-- A server and what was sent to it so far. -/
structure Watched (σ : Type) where
  server : σ
  sent : List ServerCall

variable {S σ α β : Type}

/-- Makes a request and writes it down. -/
def Watched.call (action : StateM σ α) (entry : α → ServerCall) : StateM (Watched σ) α := fun w =>
  let (answer, server) := action w.server
  (answer, { server, sent := w.sent ++ [entry answer] })

def Session.watched (s : Session σ) : Session (Watched σ) where
  control c := Watched.call (s.control c) (.control c)
  run sql arguments := Watched.call (s.run sql arguments) (.statement sql arguments)
  reclaim := Watched.call s.reclaim fun _ => .reclaim

/-! ## Programs of statements -/

/-- A program that sends nothing but statements, wherever it starts. -/
def OnlyStatements (program : StateM (Watched σ) α) : Prop :=
  Appends Watched.sent ServerCall.isStatement program

theorem compositional_onlyStatements :
    Compositional fun α (program : StateM (Watched σ) α) => OnlyStatements program :=
  Appends.compositional _ _

namespace Session

variable {s : Session σ}

theorem onlyStatements_run (sql : String) (arguments : List Argument) :
    OnlyStatements (s.watched.run sql arguments) :=
  Appends.single (fun _ => rfl) fun _ => rfl

theorem onlyStatements_runCommand (c : Command) : OnlyStatements (s.watched.runCommand c) := by
  rw [runCommand]
  cases bindArguments c.parameters with
  | error e => exact compositional_onlyStatements.pure _
  | ok arguments =>
    refine Appends.bind (onlyStatements_run c.sql arguments) ?_
    intro answer
    cases answer with
    | none => exact compositional_onlyStatements.pure _
    | some answer => exact compositional_onlyStatements.pure _

theorem onlyStatements_fetch (c : Command) : OnlyStatements (s.watched.transaction.fetch c) := by
  refine Appends.bind (onlyStatements_runCommand c) ?_
  intro answer
  cases answer with
  | error e => exact compositional_onlyStatements.pure _
  | ok answer => exact compositional_onlyStatements.pure _

theorem onlyStatements_execute (c : Command) :
    OnlyStatements (s.watched.transaction.execute c) :=
  Appends.bind (onlyStatements_runCommand c) fun _ => compositional_onlyStatements.pure _

end Session

/-! ## Lent contexts -/

/-- What can be programmed with a context that is only lent: reads, writes, and anything in which
nothing is sent in its transaction. -/
inductive Lent (context : Context S (Watched σ)) : {α : Type} → StateM (Watched σ) α → Prop
  | own {α : Type} {program : StateM (Watched σ) α}
      (h : ∀ w, (program w).2.sent = w.sent) : Lent context program
  | load (id : Uuid) : Lent context (context.load id)
  | query (filter : Filter) : Lent context (context.query filter)
  | perform (operation : WriteOperation) (x : S) : Lent context (context.perform operation x)
  | bind {α β : Type} {first : StateM (Watched σ) α} {next : α → StateM (Watched σ) β}
      (hf : Lent context first) (hn : ∀ a, Lent context (next a)) : Lent context (first >>= next)

/-- Whoever is lent a context sends nothing but statements. -/
theorem Lent.onlyStatements [Saga S] {s : Session σ} {f : Formatter}
    {program : StateM (Watched σ) α}
    (h : Lent (S := S) (.ofFormatter s.watched.transaction f) program) :
    OnlyStatements program := by
  induction h with
  | own h => exact Appends.silent h
  | load id => exact compositional_onlyStatements.load Session.onlyStatements_fetch f id
  | query filter => exact compositional_onlyStatements.query Session.onlyStatements_fetch f filter
  | perform operation x =>
    exact compositional_onlyStatements.perform Session.onlyStatements_execute f operation x
  | bind _ _ hf hn => exact Appends.bind hf hn

/-! ## Beginnings and endings -/

/-- How a transaction on a server is rolled back: with which requests, and how that leaves the
server. -/
inductive Session.RolledBack (s : Session σ) (server : σ) : List ServerCall → σ → Prop
  | done {last : σ} (h : s.control .rollback server = (true, last)) :
      RolledBack s server [.control .rollback true] last
  | refused {next : σ} (h : s.control .rollback server = (false, next)) :
      RolledBack s server [.control .rollback false, .reclaim] (s.reclaim next).2

/-- The requests that open a transaction at a level. -/
def openingCalls (isolation : IsolationLevel) (answer : Answer) : List ServerCall :=
  [.control .begin true, .statement (isolationStatement isolation) [] (some answer)]

namespace Session

variable {s : Session σ} {isolation : IsolationLevel} {w : Watched σ} {begun next last : σ}
variable {c : Control}

theorem perform_of_done (h : s.control c w.server = (true, next)) :
    s.watched.perform c w = (.ok (), ⟨next, w.sent ++ [.control c true]⟩) := by
  rw [perform, bind_apply]
  simp only [watched, Watched.call, h]
  rfl

theorem perform_of_refused (h : s.control c w.server = (false, next)) :
    s.watched.perform c w =
      (.error (.driver (.statement c.sql)), ⟨next, w.sent ++ [.control c false]⟩) := by
  rw [perform, bind_apply]
  simp only [watched, Watched.call, h]
  rfl

theorem conclude_of_done (h : s.control c w.server = (true, last)) :
    s.watched.conclude c w = (.ok (), ⟨last, w.sent ++ [.control c true]⟩) := by
  rw [conclude, bind_apply, perform_of_done h]
  rfl

theorem conclude_of_refused (h : s.control c w.server = (false, next)) :
    s.watched.conclude c w = (.error (.driver (.statement c.sql)),
      ⟨(s.reclaim next).2, w.sent ++ [.control c false, .reclaim]⟩) := by
  rw [conclude, bind_apply, perform_of_refused h]
  dsimp only
  rw [bind_apply]
  simp only [watched, Watched.call, List.append_assoc, List.cons_append, List.nil_append]
  rfl

/-- Whatever the server answers, a rollback goes one of the two ways. -/
theorem exists_rolledBack (s : Session σ) (w : Watched σ) :
    ∃ calls last, s.RolledBack w.server calls last ∧
      (s.watched.conclude .rollback w).2 = ⟨last, w.sent ++ calls⟩ := by
  cases h : s.control .rollback w.server with
  | mk done next =>
    cases done with
    | true => exact ⟨_, _, .done h, by rw [conclude_of_done h]⟩
    | false => exact ⟨_, _, .refused h, by rw [conclude_of_refused h]⟩

theorem run_watched {sql : String} {arguments : List Argument} {answer : Option Answer}
    (h : s.run sql arguments w.server = (answer, next)) :
    s.watched.run sql arguments w =
      (answer, ⟨next, w.sent ++ [.statement sql arguments answer]⟩) := by
  simp only [watched, Watched.call, h]

theorem start_of_refused (h : s.control .begin w.server = (false, last)) :
    s.watched.start isolation w =
      (.error (.driver (.statement "BEGIN")), ⟨last, w.sent ++ [.control .begin false]⟩) := by
  rw [start, bind_apply, perform_of_refused h]
  rfl

/-- The error is that of setting the level, whatever comes of rolling back. -/
theorem start_of_level_refused (hb : s.control .begin w.server = (true, begun))
    (hs : s.run (isolationStatement isolation) [] begun = (none, next)) :
    ∃ calls last, s.RolledBack next calls last ∧
      s.watched.start isolation w =
        (.error (.driver (.statement (isolationStatement isolation))),
          ⟨last, w.sent ++ ([.control .begin true,
            .statement (isolationStatement isolation) [] none] ++ calls)⟩) := by
  obtain ⟨calls, last, hr, hrun⟩ := s.exists_rolledBack ⟨next, w.sent ++
    [.control .begin true, .statement (isolationStatement isolation) [] none]⟩
  refine ⟨calls, last, hr, ?_⟩
  rw [start, bind_apply, perform_of_done hb]
  dsimp only
  rw [bind_apply, run_watched hs]
  simp only [List.append_assoc, List.cons_append, List.nil_append] at hrun ⊢
  rw [← hrun]
  rfl

theorem start_of_level_set {answer : Answer} (hb : s.control .begin w.server = (true, begun))
    (hs : s.run (isolationStatement isolation) [] begun = (some answer, next)) :
    s.watched.start isolation w =
      (.ok (), ⟨next, w.sent ++ openingCalls isolation answer⟩) := by
  rw [start, bind_apply, perform_of_done hb]
  dsimp only
  rw [bind_apply, run_watched hs]
  simp only [List.append_assoc, List.cons_append, List.nil_append]
  rfl

end Session

end Sagas.Postgres
