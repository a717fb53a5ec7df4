import Sagas.Proofs.Plan
import Sagas.Samples.Note
import Sagas.Samples.Order

/-! Queries compare a property in the column in which the statements keep it, but for a key whose
column was asked for by name. -/
namespace Sagas

/-- The properties whose values the statements are given, each with the source of its value: the
key, the version and the fields that are written. -/
inductive Metadata.Supplies (m : Metadata) : String → BindingSource → Prop
  | key {path : String} : m.keyProperty = some path → m.Supplies path .correlationId
  | version {path : String} : m.versionProperty = some path → m.Supplies path .version
  | field {f : ResolvedField} : f ∈ m.fields → m.Supplies f.path (.field f.path)

namespace Schema

/-! ## Columns in statements -/

/-- The column in which the statements keep the value of a source. -/
def columnOf (s : Schema) (source : BindingSource) : String :=
  (s.metadata.sourceColumn? source).getD ""

/-- A clause on the column of a source, with its placeholder in a statement. -/
def sourceClause (s : Schema) (statement : Statement) (operator : String)
    (source : BindingSource) : String :=
  s.clause (s.columnOf source) operator (statement.placeholderOf source)

/-- The sources that an update assigns: the fields first and the version last. -/
def assignedSources (s : Schema) : List BindingSource :=
  (s.metadata.fields.map fun f => .field f.path) ++
    s.metadata.versionColumn.toList.map fun _ => .version

/-- The condition by which a statement finds its row. -/
def sourceCondition (s : Schema) (statement : Statement) : String :=
  s.sourceClause statement "=" .correlationId ++
    if s.metadata.isVersioned then " AND " ++ s.sourceClause statement "<" .version else ""

/-- A schema whose statements name one column for each source, wherever they store its value or
match it. -/
structure NamesColumns (s : Schema) : Prop where
  takesPart : ∀ path source, s.metadata.Supplies path source → source ∈ s.sources
  assigned : ∀ source, source ∈ s.assignedSources ↔ source ∈ s.sources ∧ source ≠ .correlationId
  insert : s.insertStatement.sql = "INSERT INTO " ++ s.metadata.table ++ " (" ++
    ", ".intercalate (s.sources.map fun source => s.dialect.quote (s.columnOf source)) ++
    ") VALUES (" ++ ", ".intercalate (s.sources.map s.insertStatement.placeholderOf) ++ ")"
  update : s.updateStatement.sql = "UPDATE " ++ s.metadata.table ++ " SET " ++
    ", ".intercalate (s.assignedSources.map (s.sourceClause s.updateStatement "=")) ++ " WHERE " ++
    s.sourceCondition s.updateStatement
  delete : s.deleteStatement.sql = "DELETE FROM " ++ s.metadata.table ++ " WHERE " ++
    s.sourceCondition s.deleteStatement
  load : s.loadStatement.sql = s.dialect.lockedSelect s.metadata.table ++ " WHERE " ++
    s.sourceClause s.loadStatement "=" .correlationId ++ s.dialect.lockEnding

variable {d : Descriptor} {mappings : List Mapping} {table idColumn : Option String} {s : Schema}

theorem columnOf_field (h : s.metadata.ResolvedFrom d mappings table idColumn)
    {f : ResolvedField} (hf : f ∈ s.metadata.fields) : s.columnOf (.field f.path) = f.column := by
  rw [columnOf, Metadata.sourceColumn?, find?_of_nodup h.paths_nodup hf]
  rfl

theorem columnOf_version {column : String} (hv : s.metadata.versionColumn = some column) :
    s.columnOf .version = column := by
  rw [columnOf, Metadata.sourceColumn?, hv]
  rfl

theorem insertedColumns_eq_columnOf (h : s.metadata.ResolvedFrom d mappings table idColumn) :
    s.insertedColumns = s.sources.map s.columnOf :=
  calc s.insertedColumns
      = (s.insertedColumns.map some).map (·.getD "") := by simp [Function.comp_def]
    _ = (s.insertStatement.bindings.map (·.source)).map s.columnOf := by
        rw [insertedColumns_eq h, List.map_map, List.map_map]
        rfl
    _ = s.sources.map s.columnOf := by rw [insertStatement_sources]

theorem assignments_eq_sourceClause (h : s.metadata.ResolvedFrom d mappings table idColumn) :
    s.assignments = s.assignedSources.map (s.sourceClause s.updateStatement "=") := by
  rw [s.assignments_eq (sources_nodup h), assignedSources, List.map_append, List.map_map,
    List.map_map]
  congr 1
  · refine List.map_congr_left fun f hf => ?_
    rw [Function.comp_apply, sourceClause, columnOf_field h hf, clause_eq]
  · refine List.map_congr_left fun column hcolumn => ?_
    rw [Function.comp_apply, sourceClause, columnOf_version (Option.mem_toList.mp hcolumn),
      clause_eq]

theorem keyCondition_eq_sourceCondition {statement : Statement}
    {rest : List (String × BindingSource)}
    (h : statement.bindings = s.bind (s.keySources ++ rest)) :
    s.keyCondition = s.sourceCondition statement := by
  rw [keyCondition, sourceCondition, sourceClause, placeholderOf_correlationId h,
    Metadata.isVersioned]
  cases hv : s.metadata.versionColumn with
  | none => rfl
  | some column =>
    rw [sourceClause, columnOf_version hv, placeholderOf_version h hv]
    rfl

theorem mem_assignedSources_iff {source : BindingSource} :
    source ∈ s.assignedSources ↔ source ∈ s.sources ∧ source ≠ .correlationId := by
  cases source <;> simp [assignedSources, sources]

theorem versionColumn_of_property (h : s.metadata.ResolvedFrom d mappings table idColumn)
    {path : String} (hv : s.metadata.versionProperty = some path) :
    s.metadata.versionColumn = some (Mapping.resolve mappings path) := by
  rw [h.versionColumn, Descriptor.versionColumn?, ← h.versionProperty, hv]
  rfl

theorem mem_sources_of_supplies (h : s.metadata.ResolvedFrom d mappings table idColumn)
    {path : String} {source : BindingSource} (hs : s.metadata.Supplies path source) :
    source ∈ s.sources := by
  cases hs with
  | key hk => simp [sources]
  | version hv =>
    simp [sources, versionColumn_of_property h hv]
  | field hf =>
    refine List.mem_append_right _ ?_
    exact List.mem_map_of_mem (f := fun f : ResolvedField => BindingSource.field f.path) hf

theorem namesColumns (h : s.metadata.ResolvedFrom d mappings table idColumn) :
    s.NamesColumns where
  takesPart _ _ hs := mem_sources_of_supplies h hs
  assigned _ := mem_assignedSources_iff
  insert := by
    have hsql : s.insertStatement.sql = "INSERT INTO " ++ s.metadata.table ++ " (" ++
        ", ".intercalate (s.insertedColumns.map s.dialect.quote) ++ ") VALUES (" ++
        ", ".intercalate s.placeholders ++ ")" := by rw [insertStatement_eq]
    rw [hsql, insertedColumns_eq_columnOf h,
      s.placeholders_eq (sources_nodup h) s.insertStatement_bindings, List.map_map]
    rfl
  update := by
    have hsql : s.updateStatement.sql = "UPDATE " ++ s.metadata.table ++ " SET " ++
        ", ".intercalate s.assignments ++ " WHERE " ++ s.keyCondition := by
      rw [updateStatement_eq]
    rw [hsql, assignments_eq_sourceClause h,
      keyCondition_eq_sourceCondition s.updateStatement_bindings]
  delete := by
    have hbindings : s.deleteStatement.bindings = s.bind (s.keySources ++ []) := by
      rw [List.append_nil, deleteStatement_bindings]
    have hsql : s.deleteStatement.sql =
        "DELETE FROM " ++ s.metadata.table ++ " WHERE " ++ s.keyCondition := by
      rw [deleteStatement_eq]
    rw [hsql, keyCondition_eq_sourceCondition hbindings]
  load := rfl

/-! ## Columns in queries -/

/-- Comparisons with a path are rendered against a column. -/
def ComparesIn (s : Schema) (path column : String) : Prop :=
  ∀ comparison value, ∃ c, s.formatter.query (.compare path comparison value) = .ok c ∧
    c.sql = s.dialect.lockedSelect s.metadata.table ++ " WHERE " ++
      s.clause column comparison.sql (s.dialect.parameters.key 1 "value0").placeholder ++
      s.dialect.lockEnding

theorem quote_inj (dialect : Dialect) {a b : String} :
    dialect.quote a = dialect.quote b ↔ a = b := by
  rw [Dialect.quote, Dialect.quote]
  cases dialect.quotes <;> simp

/-- The text of a selection by one predicate. -/
theorem selection_singleton_sql (s : Schema) (p : Predicate) :
    (s.selection [p]).sql = s.dialect.lockedSelect s.metadata.table ++ " WHERE " ++
      s.clause p.column p.comparison.sql (s.dialect.parameters.key 1 "value0").placeholder ++
      s.dialect.lockEnding := by
  have hsql : (s.selection [p]).sql = s.dialect.lockedSelect s.metadata.table ++ (" WHERE " ++
      s.clause p.column p.comparison.sql (s.dialect.parameters.key 1 "value0").placeholder) ++
      s.dialect.lockEnding := rfl
  rw [hsql]
  simp only [String.append_assoc]

theorem comparesIn_iff {path column : String} :
    s.ComparesIn path column ↔ s.metadata.columnFor path = column := by
  have hquery : ∀ comparison value, s.formatter.query (.compare path comparison value) =
      .ok (s.selection [s.metadata.predicate path comparison value]) := fun _ _ => rfl
  constructor
  · intro h
    obtain ⟨c, hc, hsql⟩ := h .eq .null
    cases (hquery _ _).symm.trans hc
    rw [selection_singleton_sql] at hsql
    simpa [clause, Metadata.predicate, quote_inj] using hsql
  · rintro rfl comparison value
    exact ⟨_, hquery comparison value, selection_singleton_sql s _⟩

/-- Queries and statements agree on a property unless it is the key and a column was asked for that
is not the one its mappings give. -/
theorem columnFor_eq_columnOf_iff (h : s.metadata.ResolvedFrom d mappings table idColumn)
    {path : String} {source : BindingSource} (hs : s.metadata.Supplies path source) :
    s.metadata.columnFor path = s.columnOf source ↔
      (source = .correlationId →
        ∀ column, idColumn = some column → column = Mapping.resolve mappings path) := by
  have hfor : s.metadata.columnFor path = Mapping.resolve mappings path := by
    rw [Metadata.columnFor, h.mappings]
  rw [hfor]
  cases hs with
  | key hk =>
    have hof : s.columnOf .correlationId = s.metadata.keyColumn := rfl
    have hcolumn := h.keyColumn
    rw [hof]
    cases idColumn with
    | some column =>
      cases hcolumn
      simp [eq_comm]
    | none =>
      rw [Descriptor.keyColumn, ← h.keyProperty, hk] at hcolumn
      simp [← Except.ok.inj hcolumn]
  | version hv =>
    simp [columnOf_version (versionColumn_of_property h hv)]
  | @field f hf =>
    have hcolumn : f.column = Mapping.resolve mappings f.path := by
      rw [h.fields] at hf
      obtain ⟨declared, -, rfl⟩ := List.mem_map.mp hf
      rfl
    simp [columnOf_field h hf, hcolumn]

end Schema

variable {dialect : Dialect} {d : Descriptor} {mappings : List Mapping}
  {table idColumn : Option String} {s : Schema}

/-- The statements of a schema name one column for each property, and a comparison with the property
is rendered against that column: always for the version and the fields, and for the key unless a
column was asked for that is not the one its mappings give. -/
theorem queries_follow_statements_iff
    (h : Schema.ofDescriptor dialect d table idColumn mappings = .ok s) :
    s.NamesColumns ∧ ∀ path source, s.metadata.Supplies path source →
      (s.ComparesIn path (s.columnOf source) ↔
        (source = .correlationId → ∀ column, idColumn = some column →
          column = Mapping.resolve (d.mappings ++ mappings) path)) := by
  have hr := Schema.resolvedFrom_of_ofDescriptor h
  refine ⟨Schema.namesColumns hr, fun path source hs => ?_⟩
  rw [Schema.comparesIn_iff]
  exact Schema.columnFor_eq_columnOf_iff hr hs

/-- Orders whose key is mapped to the column that is asked for as well. -/
theorem queries_follow_statements_of_orders :
    ∃ s, Schema.ofDescriptor .sqlServer Samples.Order.descriptor none (some "OrderId")
        [.property "CorrelationId" "OrderId"] = .ok s ∧
      s.NamesColumns ∧ s.ComparesIn "CorrelationId" "OrderId" ∧ s.ComparesIn "Version" "Version" ∧
      s.ComparesIn "Shipping.City" "ShippingCity" := by
  obtain ⟨hnames, hcompare⟩ := queries_follow_statements_iff
    (show Schema.ofDescriptor .sqlServer Samples.Order.descriptor none (some "OrderId")
      [.property "CorrelationId" "OrderId"] = .ok _ from rfl)
  refine ⟨_, rfl, hnames, (hcompare _ .correlationId (.key rfl)).mpr ?_,
    (hcompare _ .version (.version rfl)).mpr nofun,
    (hcompare _ _ (.field (List.mem_cons_of_mem _ List.mem_cons_self))).mpr nofun⟩
  rintro - _ ⟨rfl⟩
  decide +kernel

/-- Notes whose key column is asked for by name are found in it, but compared in a column that no
statement names. -/
theorem query_of_renamed_key :
    ∃ s, Schema.ofDescriptor .postgres Samples.Note.descriptor none (some "note_id") [] = .ok s ∧
      s.metadata.Supplies "CorrelationId" .correlationId ∧ s.columnOf .correlationId = "note_id" ∧
      s.loadStatement.sql = "SELECT * FROM Notes WHERE note_id = $1 FOR UPDATE" ∧
      s.ComparesIn "CorrelationId" "CorrelationId" ∧
      ¬ s.ComparesIn "CorrelationId" (s.columnOf .correlationId) := by
  refine ⟨_, rfl, .key rfl, rfl, by decide +kernel, Schema.comparesIn_iff.mpr (by decide +kernel),
    fun h => ?_⟩
  exact absurd (Schema.comparesIn_iff.mp h) (by decide +kernel)

end Sagas
