import Mathlib.Data.List.Forall2
import Sagas.Proofs.DriverLog
import Sagas.Proofs.Read
import Sagas.Rehearsal.Script
import Sagas.Repository
import Sagas.Samples.Note

/-! How units of work open and end their transactions, whatever the database and the work do. -/
namespace Sagas

variable {S σ E R : Type}

/-! ## Units -/

/-- A call of a repository: work, or a query with work on what it finds. -/
inductive UnitOfWork (S σ E R : Type) where
  | plain (work : Context S σ → StateM σ (Except E R))
  | onQuery (filter : Filter) (work : Context S σ → List S → StateM σ (Except E R))

/-- Work that begins with a query, and is over if that fails. -/
def Context.queryThen (lift : StorageError → E) (filter : Filter)
    (work : Context S σ → List S → StateM σ (Except E R)) (context : Context S σ) :
    StateM σ (Except E R) := do
  match ← context.query filter with
  | .error e => return .error (lift e)
  | .ok found => work context found

namespace UnitOfWork

def run (r : Repository S σ) (lift : StorageError → E) : UnitOfWork S σ E R → StateM σ (Except E R)
  | plain work => r.execute lift work
  | onQuery filter work => r.executeQuery lift filter work

/-- What runs in the transaction of a unit. -/
def body (lift : StorageError → E) : UnitOfWork S σ E R → Context S σ → StateM σ (Except E R)
  | plain work => work
  | onQuery filter work => Context.queryThen lift filter work

/-- A unit whose work is lent the context and does not end its transaction. -/
def Confined (context : Context S (Observed σ)) : UnitOfWork S (Observed σ) E R → Prop
  | plain work => context.Confined (work context)
  | onQuery _ work => ∀ found, context.Confined (work context found)

end UnitOfWork

namespace Repository

/-- A repository whose units are handed the usual context. -/
def standard [Saga S] (connector : Connector σ) (formatter : Formatter)
    (isolation : IsolationLevel) : Repository S σ where
  connector := connector
  formatter := formatter
  isolation := isolation
  openContext t f := pure (Context.ofFormatter t f)

theorem ofOptions_eq_standard [Saga S] {connector : Connector σ} {o : Options}
    {r : Repository S σ} (h : ofOptions connector o = .ok r) :
    r = standard connector r.formatter o.isolation := by
  simp only [ofOptions, bind, Except.bind, pure, Except.pure] at h
  split at h
  · cases h
  · split at h
    · cases h
    · split at h
      · cases h
      · cases h
        rfl

/-- A query that a repository makes for its caller is made as the caller would make it. -/
theorem executeQuery_eq_execute (r : Repository S σ) (lift : StorageError → E) (filter : Filter)
    (work : Context S σ → List S → StateM σ (Except E R)) :
    r.executeQuery lift filter work = r.execute lift (Context.queryThen lift filter work) := by
  funext w
  rw [executeQuery, execute, bind_apply, bind_apply]
  cases (r.start w).1 with
  | error e => rfl
  | ok context =>
    dsimp only
    rw [bind_apply, bind_apply, Context.queryThen, bind_apply]
    cases (context.query filter (r.start w).2).1 with
    | error e => rfl
    | ok found => rfl

theorem run_eq_execute (r : Repository S σ) (lift : StorageError → E)
    (u : UnitOfWork S σ E R) : u.run r lift = r.execute lift (u.body lift) := by
  cases u with
  | plain work => rfl
  | onQuery filter work => exact r.executeQuery_eq_execute lift filter work

section
variable [Saga S] {connector : Connector σ} {formatter : Formatter} {isolation : IsolationLevel}
variable {w : σ}

theorem execute_standard_of_failed_start {e : StorageError}
    (h : (connector.start isolation w).1 = .error e) (lift : StorageError → E)
    (work : Context S σ → StateM σ (Except E R)) :
    (standard connector formatter isolation).execute lift work w =
      (.error (lift e), (connector.start isolation w).2) := by
  rw [execute, bind_apply, start, bind_apply]
  simp only [standard, h]
  rfl

theorem execute_standard_of_start (h : (connector.start isolation w).1 = .ok ())
    (lift : StorageError → E) (work : Context S σ → StateM σ (Except E R)) :
    (standard connector formatter isolation).execute lift work w =
      let opened := (connector.start isolation w).2
      let ran := work (Context.ofFormatter connector.transaction formatter) opened
      finish lift (Context.ofFormatter (S := S) connector.transaction formatter) ran.1 ran.2 := by
  rw [execute, bind_apply, start, bind_apply]
  simp only [standard, h]
  rfl

end

theorem finish_of_commit (lift : StorageError → E) (context : Context S σ) (value : R) {w : σ}
    (h : (context.commit w).1 = .ok ()) :
    finish lift context (.ok value) w = (.ok value, (context.commit w).2) := by
  rw [finish, bind_apply, h]
  rfl

theorem finish_of_failed_commit (lift : StorageError → E) (context : Context S σ) (value : R)
    {w : σ} {e : StorageError} (h : (context.commit w).1 = .error e) :
    finish lift context (.ok value) w = (.error (lift e), (context.commit w).2) := by
  rw [finish, bind_apply, h]
  rfl

end Repository

/-! ## The course of a unit -/

section
variable [Saga S] (connector : Connector σ) (formatter : Formatter) (isolation : IsolationLevel)
variable (lift : StorageError → E) (u : UnitOfWork S (Observed σ) E R)

/-- The state in which a transaction that could be begun is open. -/
def Observed.opened (w : Observed σ) : Observed σ where
  world := (connector.start isolation w.world).2
  calls := w.calls ++ [.start isolation (connector.start isolation w.world).1]

/-- The context of a unit over a database whose calls are written down. -/
def Connector.context : Context S (Observed σ) :=
  .ofFormatter connector.transaction.observed formatter

namespace UnitOfWork

/-- The calls of the query with which a unit begins: none for a filter that has no predicates. -/
def queryCalls (world : σ) : UnitOfWork S (Observed σ) E R → List DriverCall
  | plain _ => []
  | onQuery filter _ =>
    match formatter.query filter with
    | .error _ => []
    | .ok c => [.fetch c (connector.transaction.fetch c world).1]

/-- What comes between the beginning and the end of a transaction that was opened in a state: the
query, if there is one, and then the commands of the work, which is not run if the query fails. -/
structure Works (opened : Observed σ) (commands : List DriverCall) : Prop where
  calls : (u.body lift (connector.context formatter) opened).2.calls =
    opened.calls ++ (u.queryCalls connector formatter opened.world ++ commands)
  onlyCommands : ∀ call ∈ commands, call.isCommand = true
  afterQuery : ∀ filter work, u = onQuery filter work →
    let read := (connector.context (S := S) formatter).query filter opened
    match read.1 with
    | .error e => commands = [] ∧
      u.body lift (connector.context formatter) opened = (.error (lift e), read.2)
    | .ok found => u.body lift (connector.context formatter) opened =
      work (connector.context formatter) found read.2

/-- How a transaction ends after what ran in it: with which call and which result. -/
structure Ends (ran : Except E R × Observed σ) (last : DriverCall) (result : Except E R) :
    Prop where
  commits : ∀ value, ran.1 = .ok value → last = .commit (connector.transaction.commit ran.2.world).1
  rollsBack : ∀ e, ran.1 = .error e →
    last = .rollback (connector.transaction.rollback ran.2.world).1 ∧ result = .error e
  succeeds : ∀ value, result = .ok value ↔
    ran.1 = .ok value ∧ (connector.transaction.commit ran.2.world).1 = .ok ()
  fails : ∀ value e, ran.1 = .ok value → (connector.transaction.commit ran.2.world).1 = .error e →
    result = .error (lift e)

/-- How a unit goes from a state, with the given calls. -/
structure Course (w : Observed σ) (history : List DriverCall) : Prop where
  calls : (u.run (.standard connector.observed formatter isolation) lift w).2.calls =
    w.calls ++ history
  notBegun : ∀ e, (connector.start isolation w.world).1 = .error e →
    history = [.start isolation (.error e)] ∧
      u.run (.standard connector.observed formatter isolation) lift w =
        (.error (lift e), w.opened connector isolation)
  begun : (connector.start isolation w.world).1 = .ok () → ∃ commands last,
    history = .start isolation (.ok ()) :: (u.queryCalls connector formatter
      (w.opened connector isolation).world ++ commands ++ [last]) ∧
    u.Works connector formatter lift (w.opened connector isolation) commands ∧
    Ends connector lift (u.body lift (connector.context formatter) (w.opened connector isolation))
      last (u.run (.standard connector.observed formatter isolation) lift w).1

end UnitOfWork
end

/-! ## What runs in a transaction -/

section
variable [Saga S] {connector : Connector σ} {formatter : Formatter} {isolation : IsolationLevel}
variable {lift : StorageError → E}

theorem Context.query_of_fault {filter : Filter} {fault : UnsupportedFault}
    (h : formatter.query filter = .error fault) (w : Observed σ) :
    (connector.context (S := S) formatter).query filter w = (.error (.unsupported fault), w) :=
  queryWith_of_fault h w

theorem Context.query_calls {filter : Filter} {c : Command} (h : formatter.query filter = .ok c)
    (w : Observed σ) :
    ((connector.context (S := S) formatter).query filter w).2.calls =
      w.calls ++ [.fetch c (connector.transaction.fetch c w.world).1] := by
  change (queryWith (S := S) connector.transaction.observed formatter filter w).2.calls = _
  rw [queryWith_of_command h]
  rfl

namespace UnitOfWork

variable {u : UnitOfWork S (Observed σ) E R} {opened : Observed σ}

theorem works (hu : u.Confined (connector.context formatter)) (lift : StorageError → E)
    (opened : Observed σ) : ∃ commands, u.Works connector formatter lift opened commands := by
  cases u with
  | plain work =>
    obtain ⟨commands, hcalls, hcommands⟩ := Context.Confined.onlyCommands hu opened
    exact ⟨commands, {
      calls := hcalls
      onlyCommands := hcommands
      afterQuery := nofun }⟩
  | onQuery filter work =>
    -- Whatever comes of the query, its own call is the first.
    have hquery : ((connector.context (S := S) formatter).query filter opened).2.calls =
        opened.calls ++ (onQuery filter work).queryCalls connector formatter opened.world := by
      rw [queryCalls]
      cases hc : formatter.query filter with
      | error fault => rw [Context.query_of_fault hc, List.append_nil]
      | ok c => exact Context.query_calls hc opened
    have hbody : body lift (onQuery filter work) (connector.context formatter) opened = _ :=
      bind_apply ((connector.context formatter).query filter) _ opened
    cases hread : ((connector.context (S := S) formatter).query filter opened).1 with
    | error e =>
      rw [hread] at hbody
      exact ⟨[], {
        calls := by
          rw [hbody, List.append_nil]
          exact hquery
        onlyCommands := by simp
        afterQuery := by
          intro filter work hu
          cases hu
          simp only [hread]
          exact ⟨trivial, hbody⟩ }⟩
    | ok found =>
      rw [hread] at hbody
      obtain ⟨commands, hcalls, hcommands⟩ := (hu found).onlyCommands
        ((connector.context (S := S) formatter).query filter opened).2
      exact ⟨commands, {
        calls := by
          rw [hbody, ← List.append_assoc, ← hquery]
          exact hcalls
        onlyCommands := hcommands
        afterQuery := by
          intro filter work hu
          cases hu
          simp only [hread]
          exact hbody }⟩

end UnitOfWork

/-! ## How it ends -/

theorem UnitOfWork.ends (formatter : Formatter) (lift : StorageError → E)
    (ran : Except E R × Observed σ) :
    ∃ last,
      (Repository.finish lift (connector.context (S := S) formatter) ran.1 ran.2).2.calls =
        ran.2.calls ++ [last] ∧
      Ends connector lift ran last
        (Repository.finish lift (connector.context (S := S) formatter) ran.1 ran.2).1 := by
  obtain ⟨outcome, w⟩ := ran
  cases outcome with
  | error e =>
    refine ⟨.rollback (connector.transaction.rollback w.world).1, rfl, ?_⟩
    exact {
      commits := nofun
      rollsBack := by
        intro e' he
        cases he
        exact ⟨rfl, rfl⟩
      succeeds := by
        intro value
        exact ⟨nofun, nofun⟩
      fails := nofun }
  | ok value =>
    cases hc : (connector.transaction.commit w.world).1 with
    | ok =>
      rw [Repository.finish_of_commit lift (connector.context (S := S) formatter) value hc]
      refine ⟨.commit (connector.transaction.commit w.world).1, rfl, ?_⟩
      exact {
        commits := fun _ _ => rfl
        rollsBack := nofun
        succeeds := fun _ => ⟨fun h => ⟨h, hc⟩, fun h => h.1⟩
        fails := by
          intro _ e _ he
          rw [hc] at he
          cases he }
    | error e =>
      rw [Repository.finish_of_failed_commit lift (connector.context (S := S) formatter) value hc]
      refine ⟨.commit (connector.transaction.commit w.world).1, rfl, ?_⟩
      exact {
        commits := fun _ _ => rfl
        rollsBack := nofun
        succeeds := by
          intro value'
          rw [hc]
          exact ⟨nofun, nofun⟩
        fails := by
          intro _ e' _ he
          rw [hc] at he
          cases he
          rfl }

/-! ## How it begins -/

namespace Repository

theorem execute_of_failed_start {w : Observed σ} {e : StorageError}
    (h : (connector.start isolation w.world).1 = .error e) (lift : StorageError → E)
    (work : Context S (Observed σ) → StateM (Observed σ) (Except E R)) :
    (standard (S := S) connector.observed formatter isolation).execute lift work w =
      (.error (lift e), w.opened connector isolation) :=
  execute_standard_of_failed_start (show (connector.observed.start isolation w).1 = .error e from h)
    lift work

theorem execute_of_start {w : Observed σ} (h : (connector.start isolation w.world).1 = .ok ())
    (lift : StorageError → E)
    (work : Context S (Observed σ) → StateM (Observed σ) (Except E R)) :
    (standard (S := S) connector.observed formatter isolation).execute lift work w =
      finish lift (connector.context (S := S) formatter)
        (work (connector.context formatter) (w.opened connector isolation)).1
        (work (connector.context formatter) (w.opened connector isolation)).2 :=
  execute_standard_of_start (show (connector.observed.start isolation w).1 = .ok () from h) lift
    work

end Repository

/-! ## Whole courses -/

theorem UnitOfWork.course (isolation : IsolationLevel) {u : UnitOfWork S (Observed σ) E R}
    (hu : u.Confined (connector.context formatter)) (lift : StorageError → E) (w : Observed σ) :
    ∃ history, u.Course connector formatter isolation lift w history := by
  have hrun := congrFun
    ((Repository.standard connector.observed formatter isolation).run_eq_execute lift u) w
  cases hs : (connector.start isolation w.world).1 with
  | error e =>
    rw [Repository.execute_of_failed_start hs] at hrun
    refine ⟨[.start isolation (.error e)], ?_⟩
    exact {
      calls := by rw [hrun, Observed.opened, hs]
      notBegun := by
        intro e' he
        rw [hs] at he
        cases he
        exact ⟨rfl, hrun⟩
      begun := by
        intro hb
        rw [hs] at hb
        cases hb }
  | ok =>
    rw [Repository.execute_of_start hs] at hrun
    obtain ⟨commands, hworks⟩ := works hu lift (w.opened connector isolation)
    obtain ⟨last, hcalls, hends⟩ := ends (S := S) formatter lift
      (u.body lift (connector.context formatter) (w.opened connector isolation))
    rw [← hrun] at hcalls hends
    refine ⟨.start isolation (.ok ()) :: (u.queryCalls connector formatter
      (w.opened connector isolation).world ++ commands ++ [last]), ?_⟩
    exact {
      calls := by
        rw [hcalls, hworks.calls, Observed.opened, hs]
        simp only [List.append_assoc, List.cons_append, List.nil_append]
      notBegun := by
        intro e he
        rw [hs] at he
        cases he
      begun := fun _ => ⟨commands, last, rfl, hworks, hends⟩ }

/-! ## Sequences -/

end

/-- A unit that was run, and from where. -/
structure UnitRun (S σ : Type) where
  {E R : Type}
  lift : StorageError → E
  unit : UnitOfWork S (Observed σ) E R
  before : Observed σ

def UnitRun.Course [Saga S] (connector : Connector σ) (formatter : Formatter)
    (isolation : IsolationLevel) (run : UnitRun S σ) : List DriverCall → Prop :=
  run.unit.Course connector formatter isolation run.lift run.before

/-- The units that a repository is asked for, one after the other; each may depend on what came of
those before, and in between the world goes its own way. -/
inductive UnitSequence [Saga S] (connector : Connector σ) (formatter : Formatter)
    (isolation : IsolationLevel) : List (UnitRun S σ) → Observed σ → Prop
  | fresh (world : σ) : UnitSequence connector formatter isolation [] ⟨world, []⟩
  | meanwhile {runs : List (UnitRun S σ)} {w : Observed σ} (world : σ)
      (h : UnitSequence connector formatter isolation runs w) :
      UnitSequence connector formatter isolation runs { w with world }
  | unit {runs : List (UnitRun S σ)} {w : Observed σ} {E R : Type} (lift : StorageError → E)
      {u : UnitOfWork S (Observed σ) E R} (hu : u.Confined (connector.context formatter))
      (h : UnitSequence connector formatter isolation runs w) :
      UnitSequence connector formatter isolation (runs ++ [⟨lift, u, w⟩])
        (u.run (.standard connector.observed formatter isolation) lift w).2

section
variable [Saga S] {connector : Connector σ} {formatter : Formatter} {isolation : IsolationLevel}
variable {runs : List (UnitRun S σ)} {w : Observed σ}

/-- The calls of a sequence are those of its units, each of which takes its course. -/
theorem UnitSequence.courses (h : UnitSequence connector formatter isolation runs w) :
    ∃ histories : List (List DriverCall), w.calls = histories.flatten ∧
      List.Forall₂ (UnitRun.Course connector formatter isolation) runs histories := by
  induction h with
  | fresh world => exact ⟨[], rfl, List.Forall₂.nil⟩
  | meanwhile world h ih => exact ih
  | @unit runs w E R lift u hu h ih =>
    obtain ⟨histories, hcalls, hcourses⟩ := ih
    obtain ⟨history, hcourse⟩ := UnitOfWork.course isolation hu lift w
    refine ⟨histories ++ [history], ?_, ?_⟩
    · rw [hcourse.calls, hcalls, List.flatten_append, List.flatten_singleton]
    · exact List.rel_append hcourses (List.Forall₂.cons hcourse List.Forall₂.nil)

/-- Whatever a database answers, each unit of work begins with one call and, if that succeeds, ends
with one: a commit if its query and its work succeeded and a rollback if not. To query first in the
work is the same as to be called with the result of the query. -/
theorem units_take_their_course (h : UnitSequence connector formatter isolation runs w) :
    (∃ histories : List (List DriverCall), w.calls = histories.flatten ∧
      List.Forall₂ (UnitRun.Course connector formatter isolation) runs histories) ∧
    ∀ {E R : Type} (lift : StorageError → E) (filter : Filter)
      (work : Context S (Observed σ) → List S → StateM (Observed σ) (Except E R)),
      (Repository.standard connector.observed formatter isolation).executeQuery lift filter work =
        (Repository.standard connector.observed formatter isolation).execute lift
          (Context.queryThen lift filter work) :=
  ⟨h.courses, fun lift filter work =>
    Repository.executeQuery_eq_execute _ lift filter work⟩

end

namespace Samples.Note

/-- The statements of notes on PostgreSQL. -/
def formatter : Formatter :=
  (Schema.ofDescriptor .postgres descriptor none none []).toOption.getD default |>.formatter

def first : Note :=
  ⟨.nil, "first"⟩

/-- A database that plays a script. -/
def connector : Connector Rehearsal.Script :=
  Rehearsal.Script.connector none

/-- A note is inserted; then a query fails, and so does the rollback. -/
theorem units_of_notes :
    ∃ (runs : List (UnitRun Note Rehearsal.Script)) (w : Observed Rehearsal.Script),
      UnitSequence connector formatter .serializable runs w ∧
      w.calls.map DriverCall.isCommand = [false, true, false, false, true, false] ∧
      ∃ histories : List (List DriverCall), w.calls = histories.flatten ∧
        List.Forall₂ (UnitRun.Course connector formatter .serializable) runs histories := by
  let insertion : UnitOfWork Note (Observed Rehearsal.Script) StorageError Unit :=
    .plain fun context => do
      let (result, _) ← context.insert first
      return result
  let reading : UnitOfWork Note (Observed Rehearsal.Script) StorageError (List Note) :=
    .onQuery .all fun _ found => pure (.ok found)
  have hinsertion : insertion.Confined (connector.context formatter) :=
    .bind (.perform .insert first) fun _ => .own fun _ => rfl
  have hreading : reading.Confined (connector.context formatter) :=
    fun _ => .own fun _ => rfl
  have hfresh : UnitSequence (S := Note) connector formatter .serializable [] ⟨default, []⟩ :=
    .fresh default
  have h := hfresh.unit id hinsertion
    |>.meanwhile { failure := some "cut off", rollbackFailure := some "gone" }
    |>.unit id hreading
  exact ⟨_, _, h, by decide +kernel, (units_take_their_course h).1⟩

end Samples.Note

end Sagas
