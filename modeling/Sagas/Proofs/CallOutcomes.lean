import Sagas.Proofs.DriverLog
import Sagas.Proofs.Read
import Sagas.Proofs.VersionTable
import Sagas.Rehearsal.Script

/-! What each call of a context sends to the database, and what it makes of the answer. -/
namespace Sagas

variable {S σ : Type} [Saga S]

namespace Context

/-! ## Writes -/

/-- The course of a write from a state of the world: the calls that it makes, its result and the
instance that it returns. It is refused for want of a next version, or stopped by a value that
cannot be bound, or sent. -/
inductive WriteCourse (t : Transaction σ) (f : Formatter) (operation : WriteOperation) (s : S)
    (world : σ) : List DriverCall → Except StorageError Unit → S → Prop
  | refused : Exhausted f.metadata s →
      WriteCourse t f operation s world []
        (.error (.versionOverflow f.metadata.sagaType (Saga.correlationId s) Int32.maxValue)) s
  | unbound {fault : SerializationFault} : ¬ Exhausted f.metadata s →
      writeCommand f.metadata (f.statement operation) (sentVersion f.metadata s)
        (sentInstance f.metadata s) = .error fault →
      WriteCourse t f operation s world [] (.error (.serialization fault))
        (returnedInstance f.metadata s (.error (.serialization fault)))
  | sent {c : Command} {result : Except StorageError Unit} : ¬ Exhausted f.metadata s →
      writeCommand f.metadata (f.statement operation) (sentVersion f.metadata s)
        (sentInstance f.metadata s) = .ok c →
      outcomeOf operation f.metadata.sagaType (Saga.correlationId (sentInstance f.metadata s))
        (t.execute c world).1 = result →
      WriteCourse t f operation s world [.execute c (t.execute c world).1] result
        (returnedInstance f.metadata s result)

theorem perform_course (t : Transaction σ) (f : Formatter) (operation : WriteOperation) (s : S)
    (w : Observed σ) :
    ∃ calls, ((ofFormatter t.observed f).perform operation s w).2.calls = w.calls ++ calls ∧
      WriteCourse t f operation s w.world calls
        ((ofFormatter t.observed f).perform operation s w).1.1
        ((ofFormatter t.observed f).perform operation s w).1.2 := by
  rw [perform_ofFormatter]
  by_cases he : Exhausted f.metadata s
  · rw [write_of_greatest he.1 he.2]
    exact ⟨[], (List.append_nil _).symm, .refused he⟩
  rw [write_of_not_exhausted he]
  cases hc : writeCommand f.metadata (f.statement operation) (sentVersion f.metadata s)
      (sentInstance f.metadata s) with
  | error fault =>
    rw [send_of_fault hc]
    exact ⟨[], (List.append_nil _).symm, .unbound he hc⟩
  | ok c =>
    rw [send_of_command hc]
    exact ⟨[.execute c (t.execute c w.world).1], rfl, .sent he hc rfl⟩

theorem WriteCourse.of_perform {t : Transaction σ} {f : Formatter} {operation : WriteOperation}
    {s s' : S} {w w' : Observed σ} {calls : List DriverCall} {result : Except StorageError Unit}
    (h : (ofFormatter t.observed f).perform operation s w = ((result, s'), w'))
    (hcalls : w'.calls = w.calls ++ calls) :
    WriteCourse t f operation s w.world calls result s' := by
  obtain ⟨calls', hcalls', hcourse⟩ := perform_course t f operation s w
  rw [h] at hcalls' hcourse
  obtain rfl : calls = calls' := List.append_cancel_left (hcalls.symm.trans hcalls')
  exact hcourse

/-- What is known of a write by the calls that it makes: none where it was stopped before, else one,
whose answer decides the result. -/
structure WriteReport (t : Transaction σ) (f : Formatter) (operation : WriteOperation) (s : S)
    (world : σ) (calls : List DriverCall) (result : Except StorageError Unit) : Prop where
  sends : calls = [] ∨ ∃ c, calls = [.execute c (t.execute c world).1] ∧
    writeCommand f.metadata (f.statement operation) (sentVersion f.metadata s)
      (sentInstance f.metadata s) = .ok c
  stopped : calls = [] ↔
    (∃ id version, result = .error (.versionOverflow f.metadata.sagaType id version)) ∨
      ∃ fault, result = .error (.serialization fault)
  succeeds : result = .ok () ↔ ∃ c n, calls = [.execute c (.ok n)] ∧ 0 < n
  races : result = .error (.concurrency operation f.metadata.sagaType
      (Saga.correlationId (sentInstance f.metadata s))) ↔ ∃ c, calls = [.execute c (.ok 0)]
  racesOnly : ∀ e, result = .error e → e.isConcurrency = true →
    e = .concurrency operation f.metadata.sagaType (Saga.correlationId (sentInstance f.metadata s))
  fails : ∀ fault, result = .error (.driver fault) ↔
    ∃ c, calls = [.execute c (.error (.driver fault))]

end Context

/-- A database that reports its own failures, and no others. -/
structure Transaction.OwnFailures (t : Transaction σ) : Prop where
  fetch {c : Command} {world : σ} {e : StorageError} :
    (t.fetch c world).1 = .error e → ∃ fault, e = .driver fault
  execute {c : Command} {world : σ} {e : StorageError} :
    (t.execute c world).1 = .error e → ∃ fault, e = .driver fault

namespace Context

variable {t : Transaction σ} {f : Formatter} {operation : WriteOperation} {s s' : S} {world : σ}

theorem WriteCourse.report {calls : List DriverCall} {result : Except StorageError Unit}
    (h : WriteCourse t f operation s world calls result s') (ht : t.OwnFailures) :
    WriteReport t f operation s world calls result := by
  cases h with
  | refused he => constructor <;> simp [StorageError.isConcurrency]
  | unbound he hc => constructor <;> simp [StorageError.isConcurrency]
  | @sent c _ he hc hr =>
    subst hr
    cases ha : (t.execute c world).1 with
    | error e =>
      obtain ⟨fault, rfl⟩ := ht.execute ha
      constructor <;> simp [outcomeOf, StorageError.isConcurrency, ha, hc]
    | ok n =>
      cases n with
      | zero => constructor <;> simp [outcomeOf, ha, hc]
      | succ n => constructor <;> simp [outcomeOf, ha, hc]

/-! ## Reads -/

/-- What is known of the instances that a read finds by the rows that the database answers with. -/
structure ReadReport (m : Metadata) (answer : Except StorageError (List Record))
    (found : Except StorageError (List S)) : Prop where
  succeeds : (∃ xs, found = .ok xs) ↔
    ∃ records, answer = .ok records ∧ ∀ record ∈ records, ∃ x : S, rebuild m record = .ok x
  inOrder : ∀ xs, found = .ok xs → ∃ records, answer = .ok records ∧
    List.Forall₂ (fun record x => rebuild m record = .ok x) records xs
  fails : ∀ e, answer = .error e → found = .error e
  broken : ∀ records, answer = .ok records →
    (∃ record ∈ records, ∀ x : S, rebuild m record ≠ .ok x) →
      found = .error (.serialization .document)

theorem rebuildAll_report (m : Metadata) (answer : Except StorageError (List Record)) :
    ReadReport m answer (rebuildAll (S := S) m answer) where
  succeeds := by
    constructor
    · rintro ⟨xs, hxs⟩
      obtain ⟨records, ha, hall⟩ := rebuildAll_eq_ok_iff.mp hxs
      exact ⟨records, ha, exists_mapM_eq_ok_iff.mp ⟨xs, mapM_eq_ok_iff.mpr hall⟩⟩
    · rintro ⟨records, rfl, hall⟩
      exact exists_mapM_eq_ok_iff.mpr hall
  inOrder := fun xs hxs => rebuildAll_eq_ok_iff.mp hxs
  fails := by
    rintro e rfl
    rfl
  broken := by
    rintro records rfl ⟨record, hmem, hbroken⟩
    exact rebuildAll_of_broken hmem hbroken

/-- What is known of a query: one fetch, unless its filter has no predicates. -/
structure QueryReport (t : Transaction σ) (f : Formatter) (filter : Filter) (world : σ)
    (calls : List DriverCall) (found : Except StorageError (List S)) : Prop where
  silent : calls = [] ↔ ∃ fault, f.query filter = .error fault
  refused : ∀ fault, f.query filter = .error fault → found = .error (.unsupported fault)
  fetched : ∀ c, f.query filter = .ok c →
    calls = [.fetch c (t.fetch c world).1] ∧ ReadReport f.metadata (t.fetch c world).1 found

theorem query_report (t : Transaction σ) (f : Formatter) (filter : Filter) (w : Observed σ) :
    ∃ calls, ((ofFormatter (S := S) t.observed f).query filter w).2.calls = w.calls ++ calls ∧
      QueryReport t f filter w.world calls
        ((ofFormatter (S := S) t.observed f).query filter w).1 := by
  change ∃ calls, (queryWith (S := S) t.observed f filter w).2.calls = w.calls ++ calls ∧
    QueryReport t f filter w.world calls (queryWith (S := S) t.observed f filter w).1
  cases hc : f.query filter with
  | error fault =>
    rw [queryWith_of_fault hc]
    refine ⟨[], (List.append_nil _).symm, ?_⟩
    exact {
      silent := ⟨fun _ => ⟨fault, hc⟩, fun _ => rfl⟩
      refused := by
        intro fault' h
        cases hc.symm.trans h
        rfl
      fetched := by
        intro c h
        cases hc.symm.trans h }
  | ok c =>
    rw [queryWith_of_command hc]
    refine ⟨[.fetch c (t.fetch c w.world).1], rfl, ?_⟩
    exact {
      silent := by simp [hc]
      refused := by
        intro fault h
        cases hc.symm.trans h
      fetched := by
        intro c' h
        cases hc.symm.trans h
        exact ⟨rfl, rebuildAll_report _ _⟩ }

/-- What is known of a load: one fetch, and of the instances that it finds the first. -/
def LoadReport (t : Transaction σ) (f : Formatter) (id : Uuid) (world : σ)
    (calls : List DriverCall) (result : Except StorageError (Option S)) : Prop :=
  ∃ c found, f.metadata.command f.load id none none = .ok c ∧
    calls = [.fetch c (t.fetch c world).1] ∧ ReadReport f.metadata (t.fetch c world).1 found ∧
      result = found.map List.head?

theorem load_report (t : Transaction σ) (f : Formatter) (id : Uuid) (w : Observed σ) :
    ∃ calls, ((ofFormatter (S := S) t.observed f).load id w).2.calls = w.calls ++ calls ∧
      LoadReport t f id w.world calls ((ofFormatter (S := S) t.observed f).load id w).1 := by
  obtain ⟨c, hc⟩ := f.metadata.command_of_no_document f.load id none
  change ∃ calls, (loadWith (S := S) t.observed f id w).2.calls = w.calls ++ calls ∧
    LoadReport t f id w.world calls (loadWith (S := S) t.observed f id w).1
  rw [loadWith_of_command hc]
  exact ⟨[.fetch c (t.fetch c w.world).1], rfl, c, _, hc, rfl, rebuildAll_report _ _, rfl⟩

/-! ## All calls -/

/-- Every call of a context makes at most one call of the database, and what it comes to can be read
off that call: a write without one was stopped before it was sent, one that touched a row succeeded
and one that touched none lost a race; a query without one has a filter that cannot be translated,
and reads succeed exactly if every row that was fetched can be rebuilt. -/
theorem calls_decide_results (ht : t.OwnFailures) (f : Formatter) (w : Observed σ) :
    (∀ operation (s : S), ∃ calls,
      ((ofFormatter t.observed f).perform operation s w).2.calls = w.calls ++ calls ∧
        WriteReport t f operation s w.world calls
          ((ofFormatter t.observed f).perform operation s w).1.1) ∧
    (∀ filter, ∃ calls,
      ((ofFormatter (S := S) t.observed f).query filter w).2.calls = w.calls ++ calls ∧
        QueryReport t f filter w.world calls
          ((ofFormatter (S := S) t.observed f).query filter w).1) ∧
    ∀ id, ∃ calls,
      ((ofFormatter (S := S) t.observed f).load id w).2.calls = w.calls ++ calls ∧
        LoadReport t f id w.world calls ((ofFormatter (S := S) t.observed f).load id w).1 := by
  refine ⟨fun operation s => ?_, fun filter => query_report t f filter w, fun id =>
    load_report t f id w⟩
  obtain ⟨calls, hcalls, hcourse⟩ := perform_course t f operation s w
  exact ⟨calls, hcalls, hcourse.report ht⟩

end Context

/-! ## Orders -/

namespace Rehearsal.Script

theorem outcome_eq_error {α : Type} {failure : Option String} {value : α} {e : StorageError}
    (h : outcome failure value = .error e) : ∃ fault, e = .driver fault := by
  cases failure with
  | none => cases h
  | some text => cases h; exact ⟨.reported text, rfl⟩

theorem ownFailures : transaction.OwnFailures where
  fetch h := outcome_eq_error h
  execute h := outcome_eq_error h

end Rehearsal.Script

namespace Samples.Order

/-- A row without a key. -/
def brokenRow : Record :=
  [("Version", .int 5)]

/-- A database with one whole row and a broken one, in which writes touch nothing. -/
def brokenTable : Observed Rehearsal.Script :=
  ⟨{ rows := [schema.versionRecord "Version" firstKey 5, brokenRow], affected := 0 }, []⟩

/-- With a broken row, a query for all orders fails after its fetch, and with no row to touch so
does an update. -/
theorem calls_at_broken_table :
    Rehearsal.Script.transaction.OwnFailures ∧
      let context : Context Order (Observed Rehearsal.Script) :=
        .ofFormatter Rehearsal.Script.transaction.observed schema.formatter
      (context.query .all brokenTable).1 = .error (.serialization .document) ∧
        (context.query .all brokenTable).2.calls.length = 1 ∧
        (context.perform .update ⟨firstKey, 5, none, none⟩ brokenTable).1.1 =
          .error (.concurrency .update "Order" firstKey) := by
  refine ⟨Rehearsal.Script.ownFailures, ?_⟩
  obtain ⟨hwrite, hquery, _⟩ := Context.calls_decide_results (S := Order)
    Rehearsal.Script.ownFailures schema.formatter brokenTable
  obtain ⟨calls, hcalls, hreport⟩ := hquery .all
  obtain ⟨rfl, hread⟩ := hreport.fetched _ rfl
  have hbroken : ∀ x : Order, Context.rebuild schema.metadata brokenRow ≠ .ok x := by
    intro x hx
    cases (show Context.rebuild schema.metadata brokenRow = .error (.serialization .document)
      from rfl).symm.trans hx
  refine ⟨hread.broken _ rfl ⟨brokenRow, by simp [brokenTable], hbroken⟩, ?_, ?_⟩
  · rw [hcalls]
    rfl
  · obtain ⟨calls, hcalls, hreport⟩ := hwrite .update ⟨firstKey, 5, none, none⟩
    exact hreport.races.mpr ⟨_, hcalls.symm⟩

end Samples.Order

end Sagas
