import Sagas.Proofs.Columns

/-! One plan of parameters for all statements of a schema: each has the first parameters of the same
list, and every column stands beside the placeholder of its own value. -/
namespace Sagas

/-- An element is the first with its own key if no two elements share a key. -/
theorem find?_of_nodup {α β : Type} [DecidableEq β] {key : α → β} {xs : List α} {x : α}
    (hn : (xs.map key).Nodup) (hx : x ∈ xs) : xs.find? (fun y => key y = key x) = some x := by
  cases h : xs.find? (fun y => key y = key x) with
  | none => simpa using List.find?_eq_none.mp h x hx
  | some y =>
    have hy : key y = key x := by simpa using List.find?_some h
    rw [List.inj_on_of_nodup_map hn (List.mem_of_find?_eq_some h) hx hy]

/-! ## Columns and placeholders of values -/

/-- The column in which a value is kept. -/
def Metadata.sourceColumn? (m : Metadata) : BindingSource → Option String
  | .correlationId => some m.keyColumn
  | .version => m.versionColumn
  | .field path => (m.fields.find? (·.path = path)).map (·.column)

/-- The placeholder of the parameter that carries a value. -/
def Statement.placeholderOf (statement : Statement) (source : BindingSource) : String :=
  ((statement.bindings.find? (·.source = source)).map (·.key.placeholder)).getD ""

/-- A plan that carries no value twice gives each its own placeholder. -/
theorem Statement.placeholders_eq {statement : Statement}
    (hn : (statement.bindings.map (·.source)).Nodup) :
    statement.bindings.map (·.key.placeholder) =
      (statement.bindings.map (·.source)).map statement.placeholderOf := by
  rw [List.map_map]
  refine List.map_congr_left fun b hb => ?_
  rw [Function.comp_apply, placeholderOf, find?_of_nodup hn hb]
  rfl

namespace Schema

/-- The sources of a write: the key, the version if there is one, and the fields in order. -/
def sources (s : Schema) : List BindingSource :=
  .correlationId :: (s.metadata.versionColumn.toList.map fun _ => .version) ++
    s.metadata.fields.map fun f => .field f.path

/-- The names of the parameters of a write, in the same order. -/
def parameterNames (s : Schema) : List String :=
  keyParameter :: (s.metadata.versionColumn.toList.map fun _ => versionParameter) ++
    s.metadata.fields.map (·.parameter)

/-- The condition on the row of an instance, in the placeholders of a statement. -/
def rowCondition (s : Schema) (statement : Statement) : String :=
  s.dialect.quote s.metadata.keyColumn ++ " = " ++ statement.placeholderOf .correlationId ++
    match s.metadata.versionColumn with
    | some column => " AND " ++ s.dialect.quote column ++ " < " ++ statement.placeholderOf .version
    | none => ""

/-- A schema whose statements share one plan of parameters with different keys, and whose texts put
every value where it belongs. -/
structure SharesPlan (s : Schema) : Prop where
  sources : s.insertStatement.bindings.map (·.source) = s.sources
  positions : s.dialect.parameters = .positional → s.insertStatement.bindings.map (·.key) =
    (List.range' 1 s.sources.length).map .positional
  names : s.dialect.parameters = .named → s.insertStatement.bindings.map (·.key) =
    s.parameterNames.map .named
  keys : (s.insertStatement.bindings.map (·.key)).Nodup
  update : s.updateStatement.bindings = s.insertStatement.bindings
  delete : s.deleteStatement.bindings =
    s.insertStatement.bindings.take (1 + s.metadata.versionColumn.toList.length)
  load : s.loadStatement.bindings = s.insertStatement.bindings.take 1
  insertText : ∃ columns : List String,
    columns.map some =
        s.insertStatement.bindings.map (fun b => s.metadata.sourceColumn? b.source) ∧
      s.insertStatement.sql = "INSERT INTO " ++ s.metadata.table ++ " (" ++
        ", ".intercalate (columns.map s.dialect.quote) ++ ") VALUES (" ++
        ", ".intercalate (s.insertStatement.bindings.map (·.key.placeholder)) ++ ")"
  updateText : s.updateStatement.sql = "UPDATE " ++ s.metadata.table ++ " SET " ++
    ", ".intercalate
      (s.metadata.fields.map (fun f => s.dialect.quote f.column ++ " = " ++
          s.updateStatement.placeholderOf (.field f.path)) ++
        s.metadata.versionColumn.toList.map fun column => s.dialect.quote column ++ " = " ++
          s.updateStatement.placeholderOf .version) ++
    " WHERE " ++ s.rowCondition s.updateStatement
  deleteText : s.deleteStatement.sql = "DELETE FROM " ++ s.metadata.table ++ " WHERE " ++
    s.rowCondition s.deleteStatement

variable (s : Schema)

/-! ## Keys -/

theorem bind_keys_of_positional (hp : s.dialect.parameters = .positional)
    (entries : List (String × BindingSource)) :
    (s.bind entries).map (·.key) = (List.range' 1 entries.length).map .positional :=
  calc (s.bind entries).map (·.key)
      = ((entries.zipIdx.map Prod.snd).map (1 + ·)).map .positional := by
        simp only [Schema.bind, List.map_map, hp]
        refine List.map_congr_left fun entry _ => ?_
        simp [ParameterStyle.key, Nat.add_comm]
    _ = (List.range' 1 entries.length).map .positional := by
        rw [List.zipIdx_map_snd, List.map_add_range']

theorem bind_keys_of_named (hp : s.dialect.parameters = .named)
    (entries : List (String × BindingSource)) :
    (s.bind entries).map (·.key) = (entries.map Prod.fst).map .named :=
  calc (s.bind entries).map (·.key)
      = (entries.zipIdx.map Prod.fst).map (.named ∘ Prod.fst) := by
        simp only [Schema.bind, List.map_map, hp]; rfl
    _ = (entries.map Prod.fst).map .named := by rw [List.zipIdx_map_fst, List.map_map]

theorem writeSources_sources :
    (s.keySources ++ s.fieldSources).map Prod.snd = s.sources := by
  simp [keySources_eq, fieldSources, sources, Function.comp_def]

theorem writeSources_names :
    (s.keySources ++ s.fieldSources).map Prod.fst = s.parameterNames := by
  simp [keySources_eq, fieldSources, parameterNames, Function.comp_def]

theorem sources_of_bindings {statement : Statement}
    (h : statement.bindings = s.bind (s.keySources ++ s.fieldSources)) :
    statement.bindings.map (·.source) = s.sources := by
  rw [h, bind_sources, writeSources_sources]

theorem insertStatement_sources : s.insertStatement.bindings.map (·.source) = s.sources :=
  s.sources_of_bindings s.insertStatement_bindings

/-- Fewer entries have the first keys of more. -/
theorem bind_append (first second : List (String × BindingSource)) :
    s.bind first = (s.bind (first ++ second)).take first.length := by
  rw [Schema.bind, Schema.bind, List.zipIdx_append, List.map_append, List.take_left']
  simp

/-! ## Texts -/

theorem clause_eq (column placeholder : String) :
    s.clause column "=" placeholder = s.dialect.quote column ++ " = " ++ placeholder := by
  rw [clause, show " = " = " " ++ "=" ++ " " from rfl]
  simp only [String.append_assoc]

theorem clause_lt (column placeholder : String) :
    s.clause column "<" placeholder = s.dialect.quote column ++ " < " ++ placeholder := by
  rw [clause, show " < " = " " ++ "<" ++ " " from rfl]
  simp only [String.append_assoc]

section
variable {s}
variable {statement : Statement} {rest : List (String × BindingSource)}

theorem placeholderOf_correlationId (h : statement.bindings = s.bind (s.keySources ++ rest)) :
    statement.placeholderOf .correlationId = s.keyPlaceholder := by
  rw [Statement.placeholderOf, h, keySources_eq]
  rfl

theorem placeholderOf_version (h : statement.bindings = s.bind (s.keySources ++ rest))
    {column : String} (hv : s.metadata.versionColumn = some column) :
    statement.placeholderOf .version = s.versionPlaceholder := by
  rw [Statement.placeholderOf, h, keySources_eq, hv]
  rfl

/-- Updates and deletions find their row by the parameters with which their plan begins. -/
theorem keyCondition_eq_rowCondition (h : statement.bindings = s.bind (s.keySources ++ rest)) :
    s.keyCondition = s.rowCondition statement := by
  rw [keyCondition, rowCondition, placeholderOf_correlationId h, clause_eq]
  cases hv : s.metadata.versionColumn with
  | none => rfl
  | some column => simp only [placeholderOf_version h hv, clause_lt, String.append_assoc]

end

/-- Writes have the placeholders of their sources, in the same order. -/
theorem placeholders_eq (hn : s.sources.Nodup) {statement : Statement}
    (h : statement.bindings = s.bind (s.keySources ++ s.fieldSources)) :
    s.placeholders = s.sources.map statement.placeholderOf := by
  have hsources := s.sources_of_bindings h
  have hplaceholders := Statement.placeholders_eq
    (hsources ▸ hn : (statement.bindings.map (·.source)).Nodup)
  rw [hsources, h] at hplaceholders
  exact hplaceholders

/-- An update assigns each field, and then the version, the placeholder of its own value. -/
theorem assignments_eq (hn : s.sources.Nodup) :
    s.assignments =
      s.metadata.fields.map (fun f => s.dialect.quote f.column ++ " = " ++
          s.updateStatement.placeholderOf (.field f.path)) ++
        s.metadata.versionColumn.toList.map fun column => s.dialect.quote column ++ " = " ++
          s.updateStatement.placeholderOf .version := by
  have hplaceholders : s.placeholders = s.sources.map s.updateStatement.placeholderOf :=
    s.placeholders_eq hn s.updateStatement_bindings
  have hfields : s.placeholders.drop s.keySources.length =
      s.metadata.fields.map fun f => s.updateStatement.placeholderOf (.field f.path) := by
    rw [hplaceholders, sources, List.map_append, List.drop_left' (by simp [keySources_eq])]
    simp [Function.comp_def]
  rw [assignments, assignedColumns, assignedPlaceholders, hfields, fieldColumns,
    List.zipWith_append (by simp)]
  congr 1
  · simp [List.zipWith_map, clause_eq]
  · cases hv : s.metadata.versionColumn with
    | none => rfl
    | some column =>
      have hversion : s.updateStatement.placeholderOf .version = s.versionPlaceholder :=
        placeholderOf_version s.updateStatement_bindings hv
      simp [clause_eq, hversion]

/-! ## Distinctness -/

variable {d : Descriptor} {mappings : List Mapping} {table idColumn : Option String}

section
variable {s}

/-- No value is carried twice, as no field is declared twice. -/
theorem sources_nodup (h : s.metadata.ResolvedFrom d mappings table idColumn) :
    s.sources.Nodup := by
  have hfields : (s.metadata.fields.map fun f => BindingSource.field f.path).Nodup := by
    have hpaths := h.paths_nodup.map (f := BindingSource.field) fun a b hab => by cases hab; rfl
    rwa [List.map_map] at hpaths
  cases hv : s.metadata.versionColumn <;> simp [sources, hv, hfields]

/-- No name is given twice: the fields keep clear of each other and of the names of the key and the
version. -/
theorem parameterNames_nodup (h : s.metadata.ResolvedFrom d mappings table idColumn) :
    s.parameterNames.Nodup := by
  have hne := h.distinct.parameters_ne
  have hfields := h.distinct.parameters
  have hv : s.metadata.versionColumn.toList.map (fun _ => versionParameter) =
      d.version.toList.map fun _ => versionParameter := by
    rw [h.versionColumn, Descriptor.versionColumn?]
    cases d.version <;> rfl
  rw [parameterNames, hv]
  refine List.Nodup.append ?_ hfields ?_
  · cases d.version <;> simp [keyParameter, versionParameter]
  · intro name hname hfield
    obtain ⟨f, hf, rfl⟩ := List.mem_map.mp hfield
    exact hne f hf hname

theorem keys_nodup (h : s.metadata.ResolvedFrom d mappings table idColumn) :
    (s.insertStatement.bindings.map (·.key)).Nodup := by
  cases hp : s.dialect.parameters with
  | positional =>
    rw [insertStatement_bindings, bind_keys_of_positional s hp]
    exact List.Nodup.map (fun a b hab => by cases hab; rfl) List.nodup_range'
  | named =>
    rw [insertStatement_bindings, bind_keys_of_named s hp, writeSources_names]
    exact (parameterNames_nodup h).map fun a b hab => by cases hab; rfl

/-- Every value of an insert goes into its own column. -/
theorem insertedColumns_eq (h : s.metadata.ResolvedFrom d mappings table idColumn) :
    s.insertedColumns.map some =
      s.insertStatement.bindings.map fun b => s.metadata.sourceColumn? b.source := by
  have hfields : ∀ f ∈ s.metadata.fields,
      some f.column = s.metadata.sourceColumn? (.field f.path) := fun f hf => by
    rw [Metadata.sourceColumn?, find?_of_nodup h.paths_nodup hf]
    rfl
  have hsources : (s.insertStatement.bindings.map fun b => s.metadata.sourceColumn? b.source) =
      s.sources.map s.metadata.sourceColumn? := by
    rw [← insertStatement_sources, List.map_map]
    rfl
  rw [hsources, insertedColumns, keyColumns, fieldColumns, sources]
  simp only [List.map_append, List.map_map, List.map_cons]
  congr 1
  · cases hv : s.metadata.versionColumn <;> simp [Metadata.sourceColumn?, hv]
  · exact List.map_congr_left hfields

end

end Schema

/-! ## One plan -/

variable {dialect : Dialect} {d : Descriptor} {table idColumn : Option String}
variable {mappings : List Mapping} {s : Schema}

theorem Schema.resolvedFrom_of_ofDescriptor
    (h : ofDescriptor dialect d table idColumn mappings = .ok s) :
    s.metadata.ResolvedFrom d (d.mappings ++ mappings) table idColumn := by
  rw [ofDescriptor] at h
  cases hm : Metadata.resolve d (d.mappings ++ mappings) table idColumn with
  | error fault => rw [hm] at h; cases h
  | ok m => rw [hm] at h; cases h; exact Metadata.resolve_eq_ok_iff.mp hm

/-- All statements of a schema have one plan. Its keys are different, those of an update are those
of an insert, a deletion has the first of them and a load the very first, and every text puts the
placeholder of a value beside the column in which it is kept. -/
theorem statements_share_plan (h : Schema.ofDescriptor dialect d table idColumn mappings = .ok s) :
    s.SharesPlan := by
  have hr := Schema.resolvedFrom_of_ofDescriptor h
  exact {
    sources := s.insertStatement_sources
    positions := fun hp => by
      rw [s.insertStatement_bindings, s.bind_keys_of_positional hp, ← s.writeSources_sources,
        List.length_map]
    names := fun hp => by
      rw [s.insertStatement_bindings, s.bind_keys_of_named hp, s.writeSources_names]
    keys := Schema.keys_nodup hr
    update := by rw [s.updateStatement_bindings, s.insertStatement_bindings]
    delete := by
      have hkeys : s.keySources.length = 1 + s.metadata.versionColumn.toList.length := by
        simp [Schema.keySources_eq, Nat.add_comm]
      rw [← hkeys, s.deleteStatement_bindings, s.insertStatement_bindings]
      exact s.bind_append s.keySources s.fieldSources
    load := by
      rw [s.loadStatement_bindings, s.insertStatement_bindings, s.keySources_eq]
      exact s.bind_append [(keyParameter, .correlationId)] _
    insertText := by
      refine ⟨s.insertedColumns, Schema.insertedColumns_eq hr, ?_⟩
      rw [s.insertStatement_eq, Schema.placeholders]
    updateText := by
      rw [← Schema.keyCondition_eq_rowCondition s.updateStatement_bindings,
        ← s.assignments_eq (Schema.sources_nodup hr), s.updateStatement_eq]
    deleteText := by
      have hbindings : s.deleteStatement.bindings = s.bind (s.keySources ++ []) := by
        rw [List.append_nil, s.deleteStatement_bindings]
      rw [← Schema.keyCondition_eq_rowCondition hbindings, s.deleteStatement_eq] }

/-- Orders, with named parameters: the version is the second parameter and assigned last. -/
theorem plan_of_orders :
    ∃ s, Schema.ofDescriptor .sqlServer Samples.Order.descriptor none none [] = .ok s ∧
      s.SharesPlan ∧
      s.parameterNames = ["correlationId", "version", "name", "shippingCity"] ∧
      s.updateStatement.sql =
        "UPDATE Orders SET [Name] = @name, [ShippingCity] = @shippingCity, " ++
          "[Version] = @version WHERE [CorrelationId] = @correlationId AND [Version] < @version" :=
  ⟨_, rfl, statements_share_plan (show Schema.ofDescriptor .sqlServer Samples.Order.descriptor
    none none [] = .ok _ from rfl), by decide +kernel, by decide +kernel⟩

end Sagas
