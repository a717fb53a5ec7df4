import Mathlib.Data.List.Forall2
import Sagas.Proofs.ServerLog
import Sagas.Proofs.UnitOfWork
import Sagas.Rehearsal.Server

/-! How units of work open and close transactions on a PostgreSQL server, whatever it answers. -/
namespace Sagas

open Postgres

variable {S σ E R : Type}

/-! ## Courses -/

/-- The context of a unit on a server that is watched. -/
def Postgres.Session.context [Saga S] (s : Session σ) (formatter : Formatter) :
    Context S (Watched σ) :=
  .ofFormatter s.watched.transaction formatter

/-- A unit whose work is lent the context and does not end its transaction. -/
def UnitOfWork.Lent (context : Context S (Watched σ)) : UnitOfWork S (Watched σ) E R → Prop
  | plain work => Postgres.Lent context (work context)
  | onQuery _ work => ∀ found, Postgres.Lent context (work context found)

/-- How a transaction is ended after what its work came to: with which requests, to which result,
and how that leaves the server. -/
inductive ServerEnding (s : Session σ) (lift : StorageError → E) :
    Except E R → σ → List ServerCall → Except E R → σ → Prop
  | committed {value : R} {server last : σ} (h : s.control .commit server = (true, last)) :
      ServerEnding s lift (.ok value) server [.control .commit true] (.ok value) last
  | lost {value : R} {server next : σ} (h : s.control .commit server = (false, next)) :
      ServerEnding s lift (.ok value) server [.control .commit false, .reclaim]
        (.error (lift (.driver (.statement "COMMIT")))) (s.reclaim next).2
  | undone {e : E} {server last : σ} {calls : List ServerCall}
      (h : s.RolledBack server calls last) :
      ServerEnding s lift (.error e) server calls (.error e) last

/-- How a unit goes from a state of a server: with which requests, to which result, and how that
leaves the server. -/
inductive ServerCourse (s : Session σ) (isolation : IsolationLevel) (lift : StorageError → E)
    (body : StateM (Watched σ) (Except E R)) (w : Watched σ) :
    List ServerCall → Except E R → σ → Prop
  | notBegun {last : σ} (hb : s.control .begin w.server = (false, last)) :
      ServerCourse s isolation lift body w [.control .begin false]
        (.error (lift (.driver (.statement "BEGIN")))) last
  | levelNotSet {begun next last : σ} {calls : List ServerCall}
      (hb : s.control .begin w.server = (true, begun))
      (hs : s.run (isolationStatement isolation) [] begun = (none, next))
      (hr : s.RolledBack next calls last) :
      ServerCourse s isolation lift body w
        ([.control .begin true, .statement (isolationStatement isolation) [] none] ++ calls)
        (.error (lift (.driver (.statement (isolationStatement isolation))))) last
  | worked {begun opened server last : σ} {answer : Answer} {came result : Except E R}
      {statements ending : List ServerCall}
      (hb : s.control .begin w.server = (true, begun))
      (hs : s.run (isolationStatement isolation) [] begun = (some answer, opened))
      (hw : body ⟨opened, w.sent ++ openingCalls isolation answer⟩ =
        (came, ⟨server, w.sent ++ openingCalls isolation answer ++ statements⟩))
      (hstatements : ∀ call ∈ statements, call.isStatement = true)
      (he : ServerEnding s lift came server ending result last) :
      ServerCourse s isolation lift body w
        (openingCalls isolation answer ++ statements ++ ending) result last

theorem UnitOfWork.Lent.body {context : Context S (Watched σ)} {u : UnitOfWork S (Watched σ) E R}
    (hu : u.Lent context) (lift : StorageError → E) :
    Postgres.Lent context (u.body lift context) := by
  cases u with
  | plain work => exact hu
  | onQuery filter work =>
    refine .bind (.query filter) ?_
    intro answer
    cases answer with
    | error e => exact .own fun _ => rfl
    | ok found => exact hu found

section
variable [Saga S] {s : Session σ} {formatter : Formatter}

theorem exists_serverEnding (formatter : Formatter) (lift : StorageError → E) (came : Except E R)
    (w : Watched σ) :
    ∃ ending result last, ServerEnding s lift came w.server ending result last ∧
      Repository.finish lift (s.context (S := S) formatter) came w =
        (result, ⟨last, w.sent ++ ending⟩) := by
  cases came with
  | error e =>
    obtain ⟨calls, last, hr, hrun⟩ := s.exists_rolledBack w
    refine ⟨calls, _, last, .undone hr, ?_⟩
    rw [← hrun]
    rfl
  | ok value =>
    cases h : s.control .commit w.server with
    | mk done last =>
      cases done with
      | true =>
        have hcommit : (s.context (S := S) formatter).commit w = _ := Session.conclude_of_done h
        refine ⟨_, _, _, .committed h, ?_⟩
        rw [Repository.finish_of_commit lift _ value (by rw [hcommit]), hcommit]
      | false =>
        have hcommit : (s.context (S := S) formatter).commit w = _ := Session.conclude_of_refused h
        refine ⟨_, _, _, .lost h, ?_⟩
        rw [Repository.finish_of_failed_commit lift _ value (by rw [hcommit]), hcommit]
        rfl

theorem UnitOfWork.serverCourse (s : Session σ) (isolation : IsolationLevel)
    {u : UnitOfWork S (Watched σ) E R} (hu : u.Lent (s.context formatter))
    (lift : StorageError → E) (w : Watched σ) :
    ∃ history result last,
      ServerCourse s isolation lift (u.body lift (s.context formatter)) w history result last ∧
      u.run (.standard s.watched.connector formatter isolation) lift w =
        (result, ⟨last, w.sent ++ history⟩) := by
  -- One split for each request of the opening, in the order in which they are sent.
  rw [Repository.run_eq_execute]
  cases hb : s.control .begin w.server with
  | mk done begun =>
    cases done with
    | false =>
      have hstart : s.watched.connector.start isolation w = _ := Session.start_of_refused hb
      refine ⟨_, _, _, .notBegun hb, ?_⟩
      rw [Repository.execute_standard_of_failed_start (by rw [hstart]), hstart]
    | true =>
      cases hs : s.run (isolationStatement isolation) [] begun with
      | mk answer opened =>
        cases answer with
        | none =>
          obtain ⟨calls, last, hr, hrun⟩ := Session.start_of_level_refused hb hs
          have hstart : s.watched.connector.start isolation w = _ := hrun
          refine ⟨_, _, _, .levelNotSet hb hs hr, ?_⟩
          rw [Repository.execute_standard_of_failed_start (by rw [hstart]), hstart]
        | some answer =>
          have hstart : s.watched.connector.start isolation w = _ :=
            Session.start_of_level_set hb hs
          obtain ⟨statements, hsent, hstatements⟩ := (hu.body lift).onlyStatements
            ⟨opened, w.sent ++ openingCalls isolation answer⟩
          cases hw : u.body lift (s.context formatter)
              ⟨opened, w.sent ++ openingCalls isolation answer⟩ with
          | mk came after =>
            obtain ⟨ending, result, last, he, hfinish⟩ :=
              exists_serverEnding (S := S) (s := s) formatter lift came after
            rw [hw] at hsent
            refine ⟨_, result, last, .worked hb hs (hw.trans ?_) hstatements he, ?_⟩
            · rw [← hsent]
            · rw [Repository.execute_standard_of_start (by rw [hstart]), hstart]
              have hbody : u.body lift (.ofFormatter s.watched.connector.transaction formatter)
                ⟨opened, w.sent ++ openingCalls isolation answer⟩ = (came, after) := hw
              simp only [hbody]
              refine hfinish.trans ?_
              rw [hsent, List.append_assoc, List.append_assoc, List.append_assoc]

/-! ## Balance -/

/-- One request ends the transaction, whether or not the server does it. -/
theorem Postgres.Session.RolledBack.counts {server last : σ} {calls : List ServerCall}
    (h : s.RolledBack server calls last) :
    calls.countP ServerCall.begins = 0 ∧ calls.countP ServerCall.ends = 1 := by
  cases h with
  | done => exact ⟨rfl, rfl⟩
  | refused => exact ⟨rfl, rfl⟩

theorem ServerEnding.counts {lift : StorageError → E} {came result : Except E R}
    {server last : σ} {ending : List ServerCall}
    (h : ServerEnding s lift came server ending result last) :
    ending.countP ServerCall.begins = 0 ∧ ending.countP ServerCall.ends = 1 := by
  cases h with
  | committed => exact ⟨rfl, rfl⟩
  | lost => exact ⟨rfl, rfl⟩
  | undone h => exact h.counts

end

/-! ## Sequences -/

/-- A unit that was run on a server, and from where. -/
structure ServerRun (σ : Type) where
  {S E R : Type}
  [saga : Saga S]
  formatter : Formatter
  isolation : IsolationLevel
  lift : StorageError → E
  unit : UnitOfWork S (Watched σ) E R
  before : Watched σ

/-- The unit sent the given requests, and went as a unit on the server goes. -/
def ServerRun.Course (s : Session σ) (run : ServerRun σ) (history : List ServerCall) : Prop :=
  have := run.saga
  ∃ result last,
    ServerCourse s run.isolation run.lift (run.unit.body run.lift (s.context run.formatter))
      run.before history result last ∧
    run.unit.run (.standard s.watched.connector run.formatter run.isolation) run.lift run.before =
      (result, ⟨last, run.before.sent ++ history⟩)

/-- Units of any sagas at any levels, one after the other; each may depend on what came of those
before, and in between the server goes its own way. -/
inductive ServerSequence (s : Session σ) : List (ServerRun σ) → Watched σ → Prop
  | fresh (server : σ) : ServerSequence s [] ⟨server, []⟩
  | meanwhile {runs : List (ServerRun σ)} {w : Watched σ} (server : σ)
      (h : ServerSequence s runs w) : ServerSequence s runs { w with server }
  | unit {runs : List (ServerRun σ)} {w : Watched σ} {S E R : Type} [Saga S]
      (formatter : Formatter) (isolation : IsolationLevel) (lift : StorageError → E)
      {u : UnitOfWork S (Watched σ) E R} (hu : u.Lent (s.context formatter))
      (h : ServerSequence s runs w) :
      ServerSequence s (runs ++ [⟨formatter, isolation, lift, u, w⟩])
        (u.run (.standard s.watched.connector formatter isolation) lift w).2

section
variable {s : Session σ} {runs : List (ServerRun σ)} {w : Watched σ}

theorem ServerSequence.courses (h : ServerSequence s runs w) :
    ∃ histories : List (List ServerCall), w.sent = histories.flatten ∧
      List.Forall₂ (ServerRun.Course s) runs histories := by
  induction h with
  | fresh server => exact ⟨[], rfl, List.Forall₂.nil⟩
  | meanwhile server h ih => exact ih
  | @unit runs w S E R _ formatter isolation lift u hu h ih =>
    obtain ⟨histories, hsent, hcourses⟩ := ih
    obtain ⟨history, result, last, hcourse, hrun⟩ := UnitOfWork.serverCourse s isolation hu lift w
    refine ⟨histories ++ [history], ?_, ?_⟩
    · rw [hrun, hsent, List.flatten_append, List.flatten_singleton]
    · exact List.rel_append hcourses (.cons ⟨result, last, hcourse, hrun⟩ .nil)

end

namespace Samples.Note

end Samples.Note

end Sagas
