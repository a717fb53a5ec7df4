import Sagas.Sql.Formatter

/-! The parameters of the statements of a schema. What is added to a plan one after the other has
the keys of consecutive positions; from that, plans and texts of all statements in closed form. -/
namespace Sagas

namespace BindingPlan

variable (plan : BindingPlan)

/-! ## Plans -/

/-- The bindings that parameters get when they are added next. -/
def added (entries : List (String × BindingSource)) : List Binding :=
  (entries.zipIdx plan.bindings.length).map fun ((name, source), i) =>
    { key := plan.style.key (i + 1) name, source }

/-- The plan with further parameters at its end. -/
def extend (entries : List (String × BindingSource)) : BindingPlan :=
  { plan with bindings := plan.bindings ++ plan.added entries }

@[simp]
theorem length_added (entries : List (String × BindingSource)) :
    (plan.added entries).length = entries.length := by
  simp [added]

theorem added_append (first second : List (String × BindingSource)) :
    plan.added (first ++ second) = plan.added first ++ (plan.extend first).added second := by
  simp [added, extend, List.zipIdx_append]

theorem extend_append (first second : List (String × BindingSource)) :
    plan.extend (first ++ second) = (plan.extend first).extend second := by
  simp only [extend, added_append, List.append_assoc]

/-- A text that comes out as `a` when it is begun with a plan, and adds the given parameters to
it. -/
def Adds {α : Type} (entries : List (String × BindingSource)) (text : Planned α) (a : α) : Prop :=
  text.run plan = pure (a, plan.extend entries)

section
variable {plan : BindingPlan} {α β : Type}

theorem Adds.nothing (a : α) : plan.Adds [] (pure a) a := by
  rw [Adds, extend, added, List.zipIdx_nil, List.map_nil, List.append_nil]
  rfl

theorem Adds.bind {first : Planned α} {next : α → Planned β} {a : α} {b : β}
    {entries more : List (String × BindingSource)} (hf : plan.Adds entries first a)
    (hn : (plan.extend entries).Adds more (next a) b) :
    plan.Adds (entries ++ more) (first >>= next) b := by
  rw [Adds, StateT.run_bind, hf, pure_bind, hn, extend_append]

theorem Adds.return {first : Planned α} {a : α} {entries : List (String × BindingSource)}
    (h : plan.Adds entries first a) (f : α → β) :
    plan.Adds entries (first >>= fun a => pure (f a)) (f a) := by
  have hbind : plan.Adds (entries ++ []) (first >>= fun a => pure (f a)) (f a) :=
    h.bind (.nothing (f a))
  rwa [List.append_nil] at hbind

/-- A parameter comes to stand at the end of its plan, under the key of its position. -/
theorem Adds.one (name : String) (source : BindingSource) :
    plan.Adds [(name, source)] (add name source)
      (plan.style.key (plan.bindings.length + 1) name).placeholder :=
  rfl

/-- Parameters added one after the other stand in their order, under the keys of consecutive
positions. -/
theorem Adds.each (entry : α → String × BindingSource) (xs : List α) :
    plan.Adds (xs.map entry) (xs.mapM fun x => add (entry x).1 (entry x).2)
      ((plan.added (xs.map entry)).map (·.key.placeholder)) := by
  induction xs generalizing plan with
  | nil => exact .nothing []
  | cons x xs ih =>
    rw [List.mapM_cons, List.map_cons, ← List.singleton_append, added_append]
    exact .bind (.one _ _) (.return ih _)

end

end BindingPlan

namespace Schema

/-! ## Closed forms -/

/-- What the parameters of a write carry, each with its natural name: the key, the version if there
is one, and the fields. -/
def keySources (s : Schema) : List (String × BindingSource) :=
  (keyParameter, .correlationId) ::
    (if s.metadata.isVersioned then [(versionParameter, .version)] else [])

def fieldSources (s : Schema) : List (String × BindingSource) :=
  s.metadata.fields.map fun f => (f.parameter, .field f.path)

/-- Keys for a list of parameters, numbered from one. -/
def bind (s : Schema) (sources : List (String × BindingSource)) : List Binding :=
  sources.zipIdx.map fun ((name, source), i) =>
    { key := s.dialect.parameters.key (i + 1) name, source }

/-- The placeholders of the parameters of a write, in order. -/
def placeholders (s : Schema) : List String :=
  (s.bind (s.keySources ++ s.fieldSources)).map (·.key.placeholder)

/-- The parameter of the key, the first that every statement adds. -/
def idKey (s : Schema) : ParameterKey :=
  s.dialect.parameters.key 1 keyParameter

/-- The parameter of the version, the second of writes that have one. -/
def versionKey (s : Schema) : ParameterKey :=
  s.dialect.parameters.key 2 versionParameter

def keyPlaceholder (s : Schema) : String :=
  s.idKey.placeholder

def versionPlaceholder (s : Schema) : String :=
  s.versionKey.placeholder

/-- The condition that finds the row of an instance: its key, and a version below the new one. -/
def keyCondition (s : Schema) : String :=
  s.clause s.metadata.keyColumn "=" s.keyPlaceholder ++
    match s.metadata.versionColumn with
    | some column => " AND " ++ s.clause column "<" s.versionPlaceholder
    | none => ""

/-- The placeholders that the assigned columns get: those of the fields, and that of the version,
which was added before them. -/
def assignedPlaceholders (s : Schema) : List String :=
  s.placeholders.drop s.keySources.length ++
    s.metadata.versionColumn.toList.map fun _ => s.versionPlaceholder

def assignments (s : Schema) : List String :=
  List.zipWith (fun column placeholder => s.clause column "=" placeholder)
    s.assignedColumns s.assignedPlaceholders

variable (s : Schema)

theorem keySources_eq : s.keySources = (keyParameter, .correlationId) ::
    s.metadata.versionColumn.toList.map fun _ => (versionParameter, .version) := by
  rw [keySources, Metadata.isVersioned]
  cases s.metadata.versionColumn <;> rfl

/-! ## Statements -/

open BindingPlan

/-- The plan with which a statement is begun. -/
def emptyPlan : BindingPlan where
  style := s.dialect.parameters

theorem statement_of_adds {text : Planned String} {sql : String}
    {entries : List (String × BindingSource)} (h : s.emptyPlan.Adds entries text sql) :
    statement s.dialect.parameters text = { sql, bindings := s.bind entries } := by
  have hrun : text.run { style := s.dialect.parameters } = _ := h
  rw [statement, hrun]
  rfl

theorem adds_keyPredicate : s.emptyPlan.Adds s.keySources s.keyPredicate
    (s.keyCondition, s.metadata.versionColumn.map fun _ => s.versionPlaceholder) := by
  rw [keyPredicate, keyCondition, keySources_eq]
  cases s.metadata.versionColumn with
  | none =>
    rw [String.append_empty]
    exact .return (.one _ _) _
  | some column => exact .bind (.one _ _) (.return (.one _ _) _)

theorem adds_fields (plan : BindingPlan) : plan.Adds s.fieldSources
    (s.metadata.fields.mapM addField) ((plan.added s.fieldSources).map (·.key.placeholder)) :=
  .each (fun f : ResolvedField => (f.parameter, .field f.path)) s.metadata.fields

theorem placeholders_eq_append : s.placeholders =
    (s.emptyPlan.added s.keySources).map (·.key.placeholder) ++
      ((s.emptyPlan.extend s.keySources).added s.fieldSources).map (·.key.placeholder) := by
  rw [← List.map_append, ← added_append]
  rfl

theorem loadStatement_eq : s.loadStatement =
    { sql := s.dialect.lockedSelect s.metadata.table ++ " WHERE " ++
        s.clause s.metadata.keyColumn "=" s.keyPlaceholder ++ s.dialect.lockEnding
      bindings := s.bind [(keyParameter, .correlationId)] } :=
  s.statement_of_adds (.return (.one _ _) _)

theorem loadStatement_bindings :
    s.loadStatement.bindings = s.bind [(keyParameter, .correlationId)] := by
  rw [loadStatement_eq]

theorem insertStatement_eq : s.insertStatement =
    { sql := "INSERT INTO " ++ s.metadata.table ++ " (" ++
        ", ".intercalate (s.insertedColumns.map s.dialect.quote) ++ ") VALUES (" ++
        ", ".intercalate s.placeholders ++ ")"
      bindings := s.bind (s.keySources ++ s.fieldSources) } := by
  refine s.statement_of_adds ?_
  rw [placeholders_eq_append, keySources_eq, ← List.singleton_append, List.append_assoc,
    added_append, extend_append, List.map_append]
  exact .bind (.one _ _) (.bind (.each (fun _ : String => (versionParameter, .version)) _)
    (.return (s.adds_fields _) _))

theorem insertStatement_bindings :
    s.insertStatement.bindings = s.bind (s.keySources ++ s.fieldSources) := by
  rw [insertStatement_eq]

theorem updateStatement_eq : s.updateStatement =
    { sql := "UPDATE " ++ s.metadata.table ++ " SET " ++ ", ".intercalate s.assignments ++
        " WHERE " ++ s.keyCondition
      bindings := s.bind (s.keySources ++ s.fieldSources) } := by
  refine s.statement_of_adds ?_
  have hfields : s.placeholders.drop s.keySources.length =
      ((s.emptyPlan.extend s.keySources).added s.fieldSources).map (·.key.placeholder) := by
    rw [placeholders_eq_append, List.drop_left' (by simp)]
  have hversion : (s.metadata.versionColumn.toList.map fun _ => s.versionPlaceholder) =
      (s.metadata.versionColumn.map fun _ => s.versionPlaceholder).toList := by
    cases s.metadata.versionColumn <;> rfl
  rw [assignments, assignedPlaceholders, hfields, hversion]
  exact .bind s.adds_keyPredicate (.return (s.adds_fields _) _)

theorem updateStatement_bindings :
    s.updateStatement.bindings = s.bind (s.keySources ++ s.fieldSources) := by
  rw [updateStatement_eq]

theorem deleteStatement_eq : s.deleteStatement =
    { sql := "DELETE FROM " ++ s.metadata.table ++ " WHERE " ++ s.keyCondition
      bindings := s.bind s.keySources } :=
  s.statement_of_adds (.return s.adds_keyPredicate _)

theorem deleteStatement_bindings : s.deleteStatement.bindings = s.bind s.keySources := by
  rw [deleteStatement_eq]

end Schema

end Sagas
