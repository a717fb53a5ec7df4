import Sagas.Proofs.Plan

/-! Which updates assign anything: those of a type with a version, or with a field outside the
column of its key. -/
namespace Sagas

theorem Statement.placeholderOf_mem {statement : Statement} {source : BindingSource}
    (h : source ∈ statement.bindings.map (·.source)) :
    statement.placeholderOf source ∈ statement.bindings.map (·.key.placeholder) := by
  obtain ⟨b, hb, rfl⟩ := List.mem_map.mp h
  cases hf : statement.bindings.find? (·.source = b.source) with
  | none => exact absurd (List.find?_eq_none.mp hf b hb) (by simp)
  | some found =>
    rw [placeholderOf, hf]
    exact List.mem_map_of_mem (List.mem_of_find?_eq_some hf)

namespace Schema

def assignment (s : Schema) (a : String × String) : String :=
  s.dialect.quote a.1 ++ " = " ++ a.2

/-- A schema whose update is a statement: it assigns placeholders of its plan to quoted columns, and
does so at least once. -/
def CanUpdate (s : Schema) : Prop :=
  ∃ assigned : List (String × String), assigned ≠ [] ∧
    (∀ a ∈ assigned, a.2 ∈ s.updateStatement.bindings.map (·.key.placeholder)) ∧
    s.updateStatement.sql = "UPDATE " ++ s.metadata.table ++ " SET " ++
      ", ".intercalate (assigned.map s.assignment) ++ " WHERE " ++ s.rowCondition s.updateStatement

/-- What an update assigns: the fields, and last the version, each with its own placeholder. -/
def assigned (s : Schema) : List (String × String) :=
  s.metadata.fields.map (fun f => (f.column, s.updateStatement.placeholderOf (.field f.path))) ++
    s.metadata.versionColumn.toList.map fun column =>
      (column, s.updateStatement.placeholderOf .version)

section
variable {d : Descriptor} {mappings : List Mapping} {table idColumn : Option String} {s : Schema}

theorem updateStatement_sql (h : s.metadata.ResolvedFrom d mappings table idColumn) :
    s.updateStatement.sql = "UPDATE " ++ s.metadata.table ++ " SET " ++
      ", ".intercalate (s.assigned.map s.assignment) ++ " WHERE " ++
        s.rowCondition s.updateStatement := by
  have hassigned : s.assigned.map s.assignment = s.assignments := by
    rw [s.assignments_eq (sources_nodup h), assigned, List.map_append, List.map_map, List.map_map]
    rfl
  have hcondition : s.keyCondition = s.rowCondition s.updateStatement :=
    keyCondition_eq_rowCondition s.updateStatement_bindings
  rw [hassigned, ← hcondition, updateStatement_eq]

theorem placeholder_of_assigned {a : String × String} (h : a ∈ s.assigned) :
    a.2 ∈ s.updateStatement.bindings.map (·.key.placeholder) := by
  have hsources := s.sources_of_bindings s.updateStatement_bindings
  rcases List.mem_append.mp h with h | h
  · obtain ⟨f, hf, rfl⟩ := List.mem_map.mp h
    refine Statement.placeholderOf_mem ?_
    rw [hsources]
    exact List.mem_append_right _ (List.mem_map_of_mem hf)
  · obtain ⟨column, hcolumn, rfl⟩ := List.mem_map.mp h
    refine Statement.placeholderOf_mem ?_
    rw [hsources, sources]
    exact List.mem_append_left _ (List.mem_cons_of_mem _ (List.mem_map_of_mem hcolumn))

/-- Nothing is assigned by a type without a version whose plain fields are all in the column of the
key. -/
theorem assigned_eq_nil_iff (h : s.metadata.ResolvedFrom d mappings table idColumn) :
    s.assigned = [] ↔ d.version = none ∧
      ∀ f ∈ d.plainFields, Mapping.resolve mappings f.path = s.metadata.keyColumn := by
  have hversion : s.metadata.versionColumn.toList = [] ↔ d.version = none := by
    rw [h.versionColumn, Descriptor.versionColumn?]
    cases d.version <;> simp
  rw [assigned, List.append_eq_nil_iff, List.map_eq_nil_iff, List.map_eq_nil_iff, hversion,
    and_comm]
  -- Fields in the column of the version are left out too, which there is none of.
  refine and_congr_right fun hnone => ?_
  rw [h.fields, hversion.mpr hnone, List.map_eq_nil_iff, List.filter_eq_nil_iff]
  simp

theorem intercalate_assignment_ne (a : String × String) (rest : List (String × String)) :
    ", ".intercalate ((a :: rest).map s.assignment) ≠ "" := by
  have hfirst : (s.assignment a).toList ≠ [] := by simp [assignment]
  intro h
  have hlist := congrArg String.toList h
  cases rest with
  | nil =>
    rw [List.map_singleton, String.intercalate_singleton] at hlist
    exact hfirst hlist
  | cons next rest =>
    rw [List.map_cons, List.map_cons, String.intercalate_cons_cons, String.toList_append,
      String.toList_append] at hlist
    exact hfirst (List.append_eq_nil_iff.mp (List.append_eq_nil_iff.mp hlist).1).1

/-- The text of an update fixes whether anything is assigned in it. -/
theorem canUpdate_iff (h : s.metadata.ResolvedFrom d mappings table idColumn) :
    s.CanUpdate ↔ s.assigned ≠ [] := by
  constructor
  · rintro ⟨assigned, hne, -, hsql⟩ hnil
    obtain ⟨a, rest, rfl⟩ := List.exists_cons_of_ne_nil hne
    rw [updateStatement_sql h, hnil] at hsql
    refine s.intercalate_assignment_ne a rest ?_
    simpa only [String.append_left_inj, String.append_right_inj, List.map_nil,
      String.intercalate_nil] using hsql.symm
  · exact fun hne => ⟨s.assigned, hne, fun _ => placeholder_of_assigned, updateStatement_sql h⟩

end

end Schema

variable {dialect : Dialect} {d : Descriptor} {mappings : List Mapping}
  {table idColumn : Option String} {s : Schema}

/-- An update of a type is a statement exactly if the type has a version or a plain field outside
the column of its key. There is nothing between the `SET` and the `WHERE` of any other. -/
theorem update_assigns_iff (h : Schema.ofDescriptor dialect d table idColumn mappings = .ok s) :
    (s.CanUpdate ↔ d.version.isSome = true ∨
      ∃ f ∈ d.plainFields,
        Mapping.resolve (d.mappings ++ mappings) f.path ≠ s.metadata.keyColumn) ∧
    (¬ s.CanUpdate → s.updateStatement.sql = "UPDATE " ++ s.metadata.table ++ " SET " ++
      " WHERE " ++ s.rowCondition s.updateStatement) := by
  have hr := Schema.resolvedFrom_of_ofDescriptor h
  rw [Schema.canUpdate_iff hr, not_not]
  constructor
  · rw [ne_eq, Schema.assigned_eq_nil_iff hr]
    cases d.version <;> simp
  · intro hnil
    rw [Schema.updateStatement_sql hr, hnil, List.map_nil, String.intercalate_nil,
      String.append_empty]

/-- Counters have no field apart from the key and the version. -/
theorem update_of_counters :
    ∃ s, Schema.ofDescriptor .sqlServer counters none none [] = .ok s ∧ s.CanUpdate ∧
      s.updateStatement.sql = "UPDATE Counters SET [Version] = @version " ++
        "WHERE [CorrelationId] = @correlationId AND [Version] < @version" :=
  ⟨_, rfl, (update_assigns_iff (show Schema.ofDescriptor .sqlServer counters none none [] = .ok _
    from rfl)).1.mpr (.inl rfl), by decide +kernel⟩

/-- A declaration of nothing but a key. -/
def tickets : Descriptor :=
  ({ typeName := "Ticket" } : Descriptor).withField "correlation_id" .uuid

/-- The update of a ticket assigns nothing. -/
theorem update_of_tickets :
    ∃ s, Schema.ofDescriptor .postgres tickets none none [] = .ok s ∧
      s.updateStatement.sql = "UPDATE Tickets SET  WHERE correlation_id = $1" ∧
      ¬ s.CanUpdate := by
  have h : Schema.ofDescriptor .postgres tickets none none [] = .ok _ := rfl
  refine ⟨_, h, by decide +kernel, fun hcan => ?_⟩
  exact (Schema.canUpdate_iff (Schema.resolvedFrom_of_ofDescriptor h)).mp hcan rfl

end Sagas
