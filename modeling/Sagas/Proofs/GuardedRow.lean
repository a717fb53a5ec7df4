import Sagas.Proofs.Read
import Sagas.Proofs.Write

/-! The row of one instance in a database that obeys the generated statements, and what each call of
a context does to it. -/
namespace Sagas

/-! ## Versions -/

/-- Whether a comparison holds of two versions. -/
def Comparison.holds : Comparison → Int32 → Int32 → Bool
  | .eq, a, b => a == b
  | .ne, a, b => a != b
  | .lt, a, b => a < b
  | .lte, a, b => a ≤ b
  | .gt, a, b => b < a
  | .gte, a, b => b ≤ a

theorem toInt_next {n : Int32} (h : n ≠ Int32.maxValue) : (n + 1).toInt = n.toInt + 1 := by
  have hmax : Int32.maxValue.toInt = 2147483647 := by decide
  have hmin : Int32.minValue.toInt = -2147483648 := by decide
  have hne : n.toInt ≠ Int32.maxValue.toInt := fun he => h (Int32.toInt.inj he)
  have hle := n.toInt_le
  have hge := n.le_toInt
  rw [Int32.toInt_add, show (1 : Int32).toInt = 1 from rfl, Int.bmod_def]
  split <;> omega

/-- A version is below the next one of another exactly if it is not above that other. -/
theorem lt_next_iff {n w : Int32} (h : n ≠ Int32.maxValue) : w < n + 1 ↔ w ≤ n := by
  rw [Int32.lt_iff_toInt_lt, Int32.le_iff_toInt_le, toInt_next h]
  omega

/-! ## Texts -/

namespace Schema

variable (s : Schema) (column : String)

/-- The condition that finds a row by its key and by how its version compares with the bound one. -/
def guard (comparison : Comparison) : String :=
  s.clause s.metadata.keyColumn "=" s.keyPlaceholder ++
    (" AND " ++ s.clause column comparison.sql s.versionPlaceholder)

def guardedUpdate (comparison : Comparison) : String :=
  "UPDATE " ++ s.metadata.table ++ " SET " ++ ", ".intercalate s.assignments ++ " WHERE " ++
    s.guard column comparison

def guardedDelete (comparison : Comparison) : String :=
  "DELETE FROM " ++ s.metadata.table ++ " WHERE " ++ s.guard column comparison

/-- The texts that change one row, provided that its version compares with the bound one: an update
that assigns the bound version, or a deletion. -/
inductive GuardedText (comparison : Comparison) : WriteOperation → String → Prop
  | update : s.clause column "=" s.versionPlaceholder ∈ s.assignments →
      GuardedText comparison .update (s.guardedUpdate column comparison)
  | delete : GuardedText comparison .delete (s.guardedDelete column comparison)

variable {s column}

theorem isVersioned_of_column (hv : s.metadata.versionColumn = some column) :
    s.metadata.isVersioned = true := by
  rw [Metadata.isVersioned, hv]
  rfl

theorem keyCondition_eq_guard (hv : s.metadata.versionColumn = some column) :
    s.keyCondition = s.guard column .lt := by
  simp only [keyCondition, hv]
  rfl

/-- Updates assign the version its own parameter, after all fields. -/
theorem version_assigned (hv : s.metadata.versionColumn = some column) :
    s.clause column "=" s.versionPlaceholder ∈ s.assignments := by
  have hlength : s.fieldColumns.length = (s.placeholders.drop s.keySources.length).length := by
    simp [fieldColumns, placeholders, Schema.bind, fieldSources]
  rw [assignments, assignedColumns, assignedPlaceholders, hv, List.zipWith_append hlength]
  exact List.mem_append_right _ (List.mem_singleton_self _)

/-- In a versioned schema, updates and deletions ask for a version below the bound one. -/
theorem guardedText_statement (hv : s.metadata.versionColumn = some column)
    {operation : WriteOperation} (ho : operation ≠ .insert) :
    s.GuardedText column .lt operation (s.formatter.statement operation).sql := by
  cases operation with
  | insert => exact absurd rfl ho
  | update =>
    have hsql : s.updateStatement.sql = s.guardedUpdate column .lt := by
      rw [updateStatement_eq, guardedUpdate, keyCondition_eq_guard hv]
    exact hsql ▸ .update (version_assigned hv)
  | delete =>
    have hsql : s.deleteStatement.sql = s.guardedDelete column .lt := by
      rw [deleteStatement_eq, guardedDelete, keyCondition_eq_guard hv]
    exact hsql ▸ .delete

end Schema

/-! ## Rows -/

/-- The version that a write leaves in its row. -/
def WriteOperation.leaves : WriteOperation → Int32 → Option Int32
  | .delete, _ => none
  | .insert, version | .update, version => some version

theorem WriteOperation.leaves_eq_some {operation : WriteOperation} {v w : Int32} :
    operation.leaves v = some w ↔ v = w ∧ operation ≠ .delete := by
  cases operation <;> simp [leaves]

/-- An instance with the given key and version. -/
structure Carries {S : Type} [Saga S] (id : Uuid) (version : Int32) (x : S) : Prop where
  id : Saga.correlationId x = id
  version : Saga.version? x = some version

/-- A database that obeys the statements of a schema on the row of one instance, where `stored` is
the version in that row as long as there is one. -/
structure GuardsRow (S : Type) {σ : Type} [Saga S] (s : Schema) (column : String)
    (t : Transaction σ) (id : Uuid) (stored : σ → Option Int32) : Prop where
  /-- Reading the row changes nothing, and an instance rebuilt from it has its key and version. -/
  reads (table : σ) {c : Command} :
    c.sql = s.loadStatement.sql → c.bound? s.idKey = some (.uuid id) →
      (t.fetch c table).2 = table ∧
        ∀ records, (t.fetch c table).1 = .ok records → ∀ record ∈ records, ∀ x : S,
          Context.rebuild s.metadata record = .ok x → ∃ v, stored table = some v ∧ Carries id v x
  /-- A row whose version compares as the text asks is touched, and no other one. -/
  touches {comparison : Comparison} {operation : WriteOperation} {statement : Statement}
    {v w : Int32} {c : Command} {table : σ} :
    s.GuardedText column comparison operation statement.sql → s.Runs statement id v c →
      stored table = some w → comparison.holds w v = true →
        ∃ table', t.execute c table = (.ok 1, table') ∧ stored table' = operation.leaves v
  /-- Without such a row nothing happens. -/
  refuses {comparison : Comparison} {operation : WriteOperation} {statement : Statement}
    {v : Int32} {c : Command} {table : σ} :
    s.GuardedText column comparison operation statement.sql → s.Runs statement id v c →
      (∀ w, stored table = some w → comparison.holds w v = false) →
        t.execute c table = (.ok 0, table)

namespace GuardsRow

variable {S σ : Type} [Saga S] {s : Schema} {column : String} {t : Transaction σ} {id : Uuid}
variable {stored : σ → Option Int32} {operation : WriteOperation} {table : σ}

/-- A load leaves the row alone, and what it returns has the key and the stored version. -/
theorem load_spec (hg : GuardsRow S s column t id stored) (table : σ) :
    ∃ result, (Context.ofFormatter (S := S) t s.formatter).load id table = (result, table) ∧
      ∀ x, result = .ok (some x) → ∃ v, stored table = some v ∧ Carries id v x := by
  let c : Command := ⟨s.loadStatement.sql, [⟨s.idKey, .uuid id, some .uuid⟩]⟩
  have hc : s.formatter.metadata.command s.formatter.load id none none = .ok c := rfl
  have hbound : c.bound? s.idKey = some (.uuid id) := by simp [c, Command.bound?]
  obtain ⟨hsame, hrows⟩ := hg.reads table (c := c) rfl hbound
  have hload := Context.loadWith_of_command (S := S) (t := t) hc table
  rw [hsame] at hload
  refine ⟨_, hload, fun x hx => ?_⟩
  cases ha : (t.fetch c table).1 with
  | error e => rw [ha] at hx; cases hx
  | ok records =>
    rw [ha] at hx
    obtain ⟨record, hmem, hr⟩ := exists_of_head? hx
    exact hrows records ha record hmem x hr

/-- A sent write goes through if the version of the row is below the sent one. -/
theorem send_below (hg : GuardsRow S s column t id stored)
    (hv : s.metadata.versionColumn = some column) (ho : operation ≠ .insert) {x : S}
    {v w : Int32} {c : Command} (hid : Saga.correlationId x = id)
    (hc : Context.writeCommand s.metadata (s.formatter.statement operation) (some v) x = .ok c)
    (hw : stored table = some w) (hlt : w < v) :
    ∃ table', Context.send t s.metadata operation (s.formatter.statement operation) (some v) x
        table = (.ok (), table') ∧ stored table' = operation.leaves v := by
  have hr := Context.runs_of_writeCommand (Schema.isVersioned_of_column hv) hc
  rw [hid] at hr
  obtain ⟨table', he, hs⟩ :=
    hg.touches (Schema.guardedText_statement hv ho) hr hw (decide_eq_true hlt)
  refine ⟨table', ?_, hs⟩
  rw [Context.send_of_command hc, he]
  rfl

/-- A sent write is a lost race if there is no row with a version below the sent one. -/
theorem send_not_below (hg : GuardsRow S s column t id stored)
    (hv : s.metadata.versionColumn = some column) (ho : operation ≠ .insert) {x : S} {v : Int32}
    {c : Command} (hid : Saga.correlationId x = id)
    (hc : Context.writeCommand s.metadata (s.formatter.statement operation) (some v) x = .ok c)
    (hw : ∀ w, stored table = some w → ¬ w < v) :
    Context.send t s.metadata operation (s.formatter.statement operation) (some v) x table =
      (.error (.concurrency operation s.metadata.sagaType id), table) := by
  have hr := Context.runs_of_writeCommand (Schema.isVersioned_of_column hv) hc
  rw [hid] at hr
  have he := hg.refuses (Schema.guardedText_statement hv ho) hr fun w h => decide_eq_false (hw w h)
  rw [Context.send_of_command hc, he, hid]
  rfl

end GuardsRow

/-! ## Writes -/

section
variable {S σ : Type} [Saga S] {s : Schema} {column : String} {t : Transaction σ} {id : Uuid}
variable {operation : WriteOperation} {x : S} {n : Int32}

/-- The greatest version is refused whatever the row has. -/
theorem Carries.perform_greatest (hx : Carries id Int32.maxValue x)
    (hv : s.metadata.versionColumn = some column) (table : σ) :
    (Context.ofFormatter t s.formatter).perform operation x table =
      ((.error (.versionOverflow s.metadata.sagaType id Int32.maxValue), x), table) := by
  have hm : s.formatter.metadata.isVersioned = true := Schema.isVersioned_of_column hv
  have hc : (Saga.version? x).getD 0 = Int32.maxValue := by rw [hx.version]; rfl
  rw [Context.perform_ofFormatter, Context.write_of_greatest hm hc, hx.id]
  rfl

/-- A write below the greatest version sends the next one. -/
theorem Carries.perform_of_send (hx : Carries id n x)
    (hv : s.metadata.versionColumn = some column) (hn : n ≠ Int32.maxValue) {table table' : σ}
    {result : Except StorageError Unit}
    (hs : Context.send t s.metadata operation (s.formatter.statement operation) (some (n + 1))
      (Saga.setVersion (n + 1) x) table = (result, table')) :
    (Context.ofFormatter t s.formatter).perform operation x table =
      ((result, Context.settled n (Saga.setVersion (n + 1) x) result), table') := by
  have hm : s.formatter.metadata.isVersioned = true := Schema.isVersioned_of_column hv
  have hc : (Saga.version? x).getD 0 = n := by rw [hx.version]; rfl
  have hs' : Context.send t s.formatter.metadata operation (s.formatter.statement operation)
    (some (n + 1)) (Saga.setVersion (n + 1) x) table = (result, table') := hs
  rw [Context.perform_ofFormatter, Context.write_of_versioned hm hc hn]
  simp only [hs']

variable [LawfulSaga S]

theorem Carries.advanced (hx : Carries id n x) (v : Int32) :
    Carries id v (Saga.setVersion v x) where
  id := (LawfulSaga.correlationId_setVersion v x).trans hx.id
  version := LawfulSaga.version?_setVersion v x

theorem Carries.settled_error (hx : Carries id n x) (v : Int32) (e : StorageError) :
    Context.settled n (Saga.setVersion v x) (.error e) = x := by
  rw [Context.settled, LawfulSaga.setVersion_setVersion,
    LawfulSaga.setVersion_of_version? hx.version]

/-- Values that cannot be written stop a write before it is sent. -/
theorem Carries.perform_fault (hx : Carries id n x)
    (hv : s.metadata.versionColumn = some column) (hn : n ≠ Int32.maxValue)
    {fault : SerializationFault}
    (hc : Context.writeCommand s.metadata (s.formatter.statement operation) (some (n + 1))
      (Saga.setVersion (n + 1) x) = .error fault) (table : σ) :
    (Context.ofFormatter t s.formatter).perform operation x table =
      ((.error (.serialization fault), x), table) := by
  rw [hx.perform_of_send hv hn (Context.send_of_fault hc table), hx.settled_error]

variable {stored : σ → Option Int32} {table : σ} {c : Command}

/-- An instance at the version of its row, or above it, is written and moves on by one. -/
theorem GuardsRow.perform_current (hg : GuardsRow S s column t id stored)
    (hv : s.metadata.versionColumn = some column) (ho : operation ≠ .insert)
    (hx : Carries id n x) (hn : n ≠ Int32.maxValue)
    (hc : Context.writeCommand s.metadata (s.formatter.statement operation) (some (n + 1))
      (Saga.setVersion (n + 1) x) = .ok c) {w : Int32} (hw : stored table = some w) (hle : w ≤ n) :
    ∃ table', (Context.ofFormatter t s.formatter).perform operation x table =
        ((.ok (), Saga.setVersion (n + 1) x), table') ∧
      stored table' = operation.leaves (n + 1) := by
  obtain ⟨table', he, hs⟩ :=
    hg.send_below hv ho (hx.advanced (n + 1)).id hc hw ((lt_next_iff hn).mpr hle)
  exact ⟨table', hx.perform_of_send hv hn he, hs⟩

/-- An instance below the version of its row, or without a row, loses and stays as it is. -/
theorem GuardsRow.perform_stale (hg : GuardsRow S s column t id stored)
    (hv : s.metadata.versionColumn = some column) (ho : operation ≠ .insert)
    (hx : Carries id n x) (hn : n ≠ Int32.maxValue)
    (hc : Context.writeCommand s.metadata (s.formatter.statement operation) (some (n + 1))
      (Saga.setVersion (n + 1) x) = .ok c) (hw : ∀ w, stored table = some w → ¬ w ≤ n) :
    (Context.ofFormatter t s.formatter).perform operation x table =
      ((.error (.concurrency operation s.metadata.sagaType id), x), table) := by
  have he := hg.send_not_below hv ho (hx.advanced (n + 1)).id hc fun w h =>
    (not_congr (lt_next_iff hn)).mpr (hw w h)
  rw [hx.perform_of_send hv hn he, hx.settled_error]

/-- Everything that an update or a deletion can do: move the row and the instance on together, or
leave both alone. -/
theorem GuardsRow.perform_cases (hg : GuardsRow S s column t id stored)
    (hv : s.metadata.versionColumn = some column) (ho : operation ≠ .insert)
    (hx : Carries id n x) (table : σ) :
    (∃ table' w, (Context.ofFormatter t s.formatter).perform operation x table =
        ((.ok (), Saga.setVersion (n + 1) x), table') ∧ n ≠ Int32.maxValue ∧
          stored table = some w ∧ w ≤ n ∧ stored table' = operation.leaves (n + 1)) ∨
      ∃ e, (Context.ofFormatter t s.formatter).perform operation x table =
        ((.error e, x), table) := by
  by_cases hn : n = Int32.maxValue
  · subst hn
    exact Or.inr ⟨_, hx.perform_greatest hv table⟩
  cases hc : Context.writeCommand s.metadata (s.formatter.statement operation) (some (n + 1))
      (Saga.setVersion (n + 1) x) with
  | error fault => exact Or.inr ⟨_, hx.perform_fault hv hn hc table⟩
  | ok c =>
    by_cases hw : ∃ w, stored table = some w ∧ w ≤ n
    · obtain ⟨w, hw, hle⟩ := hw
      obtain ⟨table', hp, hs⟩ := hg.perform_current hv ho hx hn hc hw hle
      exact Or.inl ⟨table', w, hp, hn, hw, hle, hs⟩
    · exact Or.inr ⟨_, hg.perform_stale hv ho hx hn hc fun w h hle => hw ⟨w, h, hle⟩⟩

/-- An update or a deletion goes through exactly if it can be sent and its instance is not below the
version of the row. -/
theorem GuardsRow.perform_ok_iff (hg : GuardsRow S s column t id stored)
    (hv : s.metadata.versionColumn = some column) (ho : operation ≠ .insert)
    (hx : Carries id n x) (table : σ) :
    ((Context.ofFormatter t s.formatter).perform operation x table).1.1 = .ok () ↔
      n ≠ Int32.maxValue ∧
        (∃ c, Context.writeCommand s.metadata (s.formatter.statement operation) (some (n + 1))
          (Saga.setVersion (n + 1) x) = .ok c) ∧
        ∃ v, stored table = some v ∧ v ≤ n := by
  constructor
  · intro hok
    rcases hg.perform_cases hv ho hx table with ⟨_, w, _, hn, hw, hle, _⟩ | ⟨e, hp⟩
    · refine ⟨hn, ?_, w, hw, hle⟩
      cases hc : Context.writeCommand s.metadata (s.formatter.statement operation) (some (n + 1))
          (Saga.setVersion (n + 1) x) with
      | ok c => exact ⟨c, rfl⟩
      | error fault =>
        rw [hx.perform_fault hv hn hc table] at hok
        cases hok
    · rw [hp] at hok
      cases hok
  · rintro ⟨hn, ⟨c, hc⟩, v, hs, hle⟩
    obtain ⟨table', hp, _⟩ := hg.perform_current hv ho hx hn hc hs hle
    rw [hp]

end

end Sagas
