import Mathlib.Logic.Function.Basic
import Sagas.Proofs.GuardedRow
import Sagas.Samples.Order

/-! A small database that obeys the statements of a schema: a table of keys and versions. -/
namespace Sagas

/-- The version of each key that has a row. -/
abbrev VersionTable := Uuid → Option Int32

namespace Schema

variable (s : Schema) (column : String)

/-! ## The database -/

/-- The write that a text asks for and the comparison by which it picks its row. -/
def guardedBy? (sql : String) : Option (Comparison × WriteOperation) :=
  [Comparison.eq, .ne, .lt, .lte, .gt, .gte].findSome? fun comparison =>
    if sql = s.guardedUpdate column comparison then some (comparison, .update)
    else if sql = s.guardedDelete column comparison then some (comparison, .delete)
    else none

/-- The row of a key and its version. -/
def versionRecord (id : Uuid) (version : Int32) : Record :=
  [(s.metadata.keyColumn, .string id.text), (column, .int version.toInt)]

def selectVersion (c : Command) (table : VersionTable) : List Record :=
  match c.bound? s.idKey with
  | some (.uuid id) => (table id).toList.map (s.versionRecord column id)
  | _ => []

/-- Changes the row that a text picks, and counts it. -/
def changeVersion (c : Command) (table : VersionTable) : Nat × VersionTable :=
  match s.guardedBy? column c.sql, c.bound? s.idKey, c.bound? s.versionKey with
  | some (comparison, operation), some (.uuid id), some (.int version) =>
    if (table id).any fun stored => comparison.holds stored version.toInt32 then
      (1, Function.update table id (operation.leaves version.toInt32))
    else (0, table)
  | _, _, _ => (0, table)

def versionTable : Transaction VersionTable where
  fetch c := fun table => (.ok (s.selectVersion column c table), table)
  execute c := fun table =>
    (.ok (s.changeVersion column c table).1, (s.changeVersion column c table).2)
  commit := pure (.ok ())
  rollback := pure (.ok ())
  abandon := pure ()

/-! ## Its texts -/

variable {s column}

theorem guard_inj {a b : Comparison} (h : s.guard column a = s.guard column b) : a = b := by
  simp only [guard, clause, String.append_assoc, String.append_right_inj, String.append_left_inj]
    at h
  revert h
  cases a <;> cases b <;> decide

theorem guardedUpdate_inj {a b : Comparison} :
    s.guardedUpdate column a = s.guardedUpdate column b ↔ a = b := by
  refine ⟨fun h => ?_, fun h => by rw [h]⟩
  have hg : s.guard column a = s.guard column b := (String.append_right_inj _).mp h
  exact guard_inj hg

theorem guardedDelete_inj {a b : Comparison} :
    s.guardedDelete column a = s.guardedDelete column b ↔ a = b := by
  refine ⟨fun h => ?_, fun h => by rw [h]⟩
  have hg : s.guard column a = s.guard column b := (String.append_right_inj _).mp h
  exact guard_inj hg

theorem guardedDelete_ne_guardedUpdate (a b : Comparison) :
    s.guardedDelete column a ≠ s.guardedUpdate column b := by
  intro h
  have hhead := congrArg (fun text => text.toList.head?) h
  simp [guardedDelete, guardedUpdate] at hhead

theorem guardedBy?_of_guardedText {comparison : Comparison} {operation : WriteOperation}
    {sql : String} (h : s.GuardedText column comparison operation sql) :
    s.guardedBy? column sql = some (comparison, operation) := by
  cases h with
  | update ha =>
    simp only [guardedBy?, guardedUpdate_inj]
    cases comparison <;> rfl
  | delete =>
    simp only [guardedBy?, guardedDelete_inj, guardedDelete_ne_guardedUpdate, if_false]
    cases comparison <;> rfl

/-! ## Its row -/

variable {id : Uuid} {statement : Statement} {version : Int32} {c : Command}

theorem changeVersion_of_runs (table : VersionTable) {comparison : Comparison}
    {operation : WriteOperation}
    (ht : s.GuardedText column comparison operation statement.sql)
    (hr : s.Runs statement id version c) :
    s.changeVersion column c table =
      if (table id).any fun stored => comparison.holds stored version then
        (1, Function.update table id (operation.leaves version))
      else (0, table) := by
  have hsql := guardedBy?_of_guardedText ht
  rw [← hr.sql] at hsql
  simp only [changeVersion, hsql, hr.id, hr.version, Int32.toInt32_toInt64]

/-- The table obeys the statements of its schema on every row that can be read back. -/
theorem versionTable_guardsRow {S : Type} [Saga S]
    (hread : ∀ v (x : S), Context.rebuild s.metadata (s.versionRecord column id v) = .ok x →
      Carries id v x) :
    GuardsRow S s column (s.versionTable column) id fun table => table id where
  reads table c _ hid := by
    refine ⟨rfl, fun records hrecords record hmem x hx => ?_⟩
    have hselect : records = (table id).toList.map (s.versionRecord column id) := by
      have hr : s.selectVersion column c table = records := Except.ok.inj hrecords
      rw [← hr, selectVersion, hid]
    rw [hselect] at hmem
    obtain ⟨v, hv, rfl⟩ := List.mem_map.mp hmem
    exact ⟨v, Option.mem_toList.mp hv, hread v x hx⟩
  touches {comparison operation statement v w c table} ht hr hw hc := by
    have hchange := changeVersion_of_runs table ht hr
    rw [hw, Option.any_some, if_pos hc] at hchange
    refine ⟨Function.update table id (operation.leaves v), ?_, Function.update_self _ _ _⟩
    show (_, _) = _
    rw [hchange]
  refuses {comparison operation statement v c table} ht hr hw := by
    have hchange := changeVersion_of_runs table ht hr
    have hnone : (table id).any (fun stored => comparison.holds stored v) = false := by
      cases hs : table id with
      | none => rfl
      | some w => exact hw w hs
    rw [hnone, if_neg Bool.false_ne_true] at hchange
    show (_, _) = _
    rw [hchange]

end Schema

/-! ## Orders -/

theorem Json.int32?_int (v : Int32) : (Json.int v.toInt).int32? = some v := by
  rw [Json.int32?, Json.int, Json.intIn?, if_pos ⟨v.le_toInt, v.toInt_le⟩, Option.map_some,
    Int32.ofInt_toInt]

namespace Samples.Order

/-- The statements of orders on PostgreSQL. -/
def schema : Schema :=
  (Schema.ofDescriptor .postgres descriptor none none []).toOption.getD default

/-- The key of the one order of a table. -/
def firstKey : Uuid :=
  ⟨1⟩

/-- An order without a name and an address is read back from its key and version. -/
theorem rebuild_versionRecord (v : Int32) :
    Context.rebuild schema.metadata (schema.versionRecord "Version" firstKey v) =
      .ok (⟨firstKey, v, none, none⟩ : Order) := by
  have hm : schema.metadata.materialize (schema.versionRecord "Version" firstKey v) =
      [("CorrelationId", .string firstKey.text), ("Version", .int v.toInt)] := rfl
  have hid : Uuid.parse? firstKey.text = some firstKey := by decide +kernel
  have hd : Saga.decode? (.object (schema.metadata.materialize
      (schema.versionRecord "Version" firstKey v))) = some (⟨firstKey, v, none, none⟩ : Order) := by
    rw [hm]
    simp [Saga.decode?, ofJson?, Json.record?, Members.required?, Members.optional?, Members.get?,
      Json.string?, hid, Json.int32?_int]
  rw [Context.rebuild, hd]

/-- Orders with one key, in a table of versions. -/
theorem versionTable_guardsRow :
    GuardsRow Order schema "Version" (schema.versionTable "Version") firstKey
      fun table => table firstKey :=
  Schema.versionTable_guardsRow fun v x hx => by
    rw [rebuild_versionRecord] at hx
    cases hx
    exact ⟨rfl, rfl⟩

end Samples.Order

end Sagas
