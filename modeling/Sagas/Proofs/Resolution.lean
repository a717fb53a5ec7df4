import Mathlib.Data.List.Nodup
import Sagas.Sql.Formatter

/-! What metadata is resolved from, and when resolution succeeds. -/
namespace Sagas

/-- The column of a field in lower case, as collisions compare it. -/
def ResolvedField.foldedColumn (f : ResolvedField) : String :=
  Text.lower f.column

/-! ## Collisions -/

namespace NamesInUse

theorem owner?_eq_none_iff {names : List (String × String)} {name : String} :
    owner? names name = none ↔ name ∉ names.map Prod.fst := by
  simp only [owner?, Option.map_eq_none_iff, List.find?_eq_none, List.mem_map, decide_eq_true_eq,
    not_exists, not_and]

/-- The names in use once a field has its own. -/
def push (used : NamesInUse) (f : ResolvedField) : NamesInUse :=
  ⟨used.columns ++ [(f.foldedColumn, f.path)], used.parameters ++ [(f.parameter, f.path)]⟩

theorem add_eq_ok_iff {sagaType : String} {used used' : NamesInUse} {f : ResolvedField} :
    add sagaType used f = .ok used' ↔
      f.foldedColumn ∉ used.columns.map Prod.fst ∧ f.parameter ∉ used.parameters.map Prod.fst ∧
        used' = used.push f := by
  rw [← owner?_eq_none_iff, ← owner?_eq_none_iff]
  simp only [add, ResolvedField.foldedColumn]
  cases hc : owner? used.columns (Text.lower f.column) with
  | some owner => simp
  | none =>
    cases hp : owner? used.parameters f.parameter with
    | some owner => simp
    | none => simp [push, ResolvedField.foldedColumn, eq_comm]

/-- Fields can be added one after the other exactly if no name of theirs is in use and no two of
them share one. -/
theorem foldlM_add_eq_ok_iff {sagaType : String} {fields : List ResolvedField}
    {used : NamesInUse} :
    (∃ used', fields.foldlM (add sagaType) used = .ok used') ↔
      ((fields.map ResolvedField.foldedColumn).Nodup ∧
        ∀ f ∈ fields, f.foldedColumn ∉ used.columns.map Prod.fst) ∧
      ((fields.map ResolvedField.parameter).Nodup ∧
        ∀ f ∈ fields, f.parameter ∉ used.parameters.map Prod.fst) := by
  induction fields generalizing used with
  | nil => simp [pure, Except.pure]
  | cons f rest ih =>
    have hstep : (∃ used', (f :: rest).foldlM (add sagaType) used = .ok used') ↔
        (f.foldedColumn ∉ used.columns.map Prod.fst ∧
          f.parameter ∉ used.parameters.map Prod.fst) ∧
        ∃ used', rest.foldlM (add sagaType) (used.push f) = .ok used' := by
      rw [List.foldlM_cons]
      constructor
      · rintro ⟨used', h⟩
        cases ha : add sagaType used f with
        | error fault => rw [ha] at h; cases h
        | ok next =>
          obtain ⟨hc, hp, rfl⟩ := add_eq_ok_iff.mp ha
          rw [ha] at h
          exact ⟨⟨hc, hp⟩, used', h⟩
      · rintro ⟨⟨hc, hp⟩, used', h⟩
        rw [add_eq_ok_iff.mpr ⟨hc, hp, rfl⟩]
        exact ⟨used', h⟩
    rw [hstep, ih]
    simp only [push, List.map_append, List.map_cons, List.map_nil, List.mem_append,
      List.mem_singleton, List.nodup_cons, List.forall_mem_cons, List.mem_map, not_or]
    grind

end NamesInUse

namespace Descriptor

variable {d : Descriptor} {mappings : List Mapping}

theorem namesOfKeys_columns (keyColumn : String) :
    (d.namesOfKeys keyColumn (d.versionColumn? mappings)).columns.map Prod.fst =
      Text.lower keyColumn :: (d.versionColumn? mappings).toList.map Text.lower := by
  cases h : d.version with
  | none => simp [namesOfKeys, versionColumn?, h]
  | some path => simp [namesOfKeys, versionColumn?, h]

theorem namesOfKeys_parameters (keyColumn : String) :
    (d.namesOfKeys keyColumn (d.versionColumn? mappings)).parameters.map Prod.fst =
      keyParameter :: d.version.toList.map fun _ => versionParameter := by
  cases h : d.version with
  | none => simp [namesOfKeys, versionColumn?, h]
  | some path => simp [namesOfKeys, versionColumn?, h]

/-- The names of the fields are distinct from each other and from those of the key and the
version. Nothing is said of the key and the version themselves. -/
structure NamesDistinct (d : Descriptor) (keyColumn : String) (versionColumn : Option String)
    (fields : List ResolvedField) : Prop where
  columns : (fields.map ResolvedField.foldedColumn).Nodup
  columns_ne : ∀ f ∈ fields,
    f.foldedColumn ∉ Text.lower keyColumn :: versionColumn.toList.map Text.lower
  parameters : (fields.map ResolvedField.parameter).Nodup
  parameters_ne : ∀ f ∈ fields,
    f.parameter ∉ keyParameter :: d.version.toList.map fun _ => versionParameter

theorem ensureDistinct_eq_ok_iff {keyColumn : String} {fields : List ResolvedField} :
    d.ensureDistinct keyColumn (d.versionColumn? mappings) fields = .ok () ↔
      d.NamesDistinct keyColumn (d.versionColumn? mappings) fields := by
  have hrun : d.ensureDistinct keyColumn (d.versionColumn? mappings) fields = .ok () ↔
      ∃ used, fields.foldlM (NamesInUse.add d.typeName)
        (d.namesOfKeys keyColumn (d.versionColumn? mappings)) = .ok used := by
    rw [ensureDistinct]
    cases fields.foldlM (NamesInUse.add d.typeName)
      (d.namesOfKeys keyColumn (d.versionColumn? mappings)) with
    | error fault => simp [Except.map]
    | ok used => simp [Except.map]
  rw [hrun, NamesInUse.foldlM_add_eq_ok_iff, namesOfKeys_columns, namesOfKeys_parameters]
  exact ⟨fun h => ⟨h.1.1, h.1.2, h.2.1, h.2.2⟩, fun h => ⟨⟨h.1, h.2⟩, h.3, h.4⟩⟩

/-! ## Fields -/

@[simp] theorem resolveField_path (f : Field) : (resolveField mappings f).path = f.path :=
  rfl

@[simp] theorem resolveField_column (f : Field) :
    (resolveField mappings f).column = Mapping.resolve mappings f.path :=
  rfl

/-- The declared fields that are neither the key nor the version. -/
def plainFields (d : Descriptor) : List Field :=
  d.fields.filter fun f => some f.path ≠ d.keyProperty? ∧ some f.path ≠ d.version

/-- The fields that are written are the plain ones outside the columns of the key and the
version. -/
theorem storedFields_eq (keyColumns : List String) :
    d.storedFields mappings keyColumns (d.keyProperty?.toList ++ d.version.toList) =
      (d.plainFields.filter fun f => Mapping.resolve mappings f.path ∉ keyColumns).map
        (resolveField mappings) := by
  rw [storedFields, plainFields, List.filter_map, List.filter_filter, List.filter_filter]
  congr 1
  apply List.filter_congr
  intro f _
  simp only [Function.comp_apply, resolveField_column]
  cases d.keyProperty? <;> cases d.version <;> simp

end Descriptor

/-! ## Metadata -/

namespace Metadata

variable {d : Descriptor} {mappings : List Mapping} {table idColumn : Option String} {m : Metadata}

/-- What metadata holds when it is resolved from a declaration. -/
structure ResolvedFrom (d : Descriptor) (mappings : List Mapping) (table idColumn : Option String)
    (m : Metadata) : Prop where
  sagaType : m.sagaType = d.typeName
  table : m.table = d.tableName table
  keyColumn : d.keyColumn mappings idColumn = .ok m.keyColumn
  keyProperty : m.keyProperty = d.keyProperty?
  versionColumn : m.versionColumn = d.versionColumn? mappings
  versionProperty : m.versionProperty = d.version
  fields : m.fields =
    (d.plainFields.filter fun f =>
      Mapping.resolve mappings f.path ∉ m.keyColumn :: m.versionColumn.toList).map
        (Descriptor.resolveField mappings)
  columns : m.columns = d.fields.map (Descriptor.resolveField mappings)
  mappings : m.mappings = mappings
  distinct : d.NamesDistinct m.keyColumn m.versionColumn m.fields

theorem resolve_eq_ok_iff :
    resolve d mappings table idColumn = .ok m ↔ ResolvedFrom d mappings table idColumn m := by
  constructor
  · intro h
    simp only [resolve, bind, Except.bind, pure, Except.pure] at h
    cases hk : d.keyColumn mappings idColumn with
    | error fault => simp [hk] at h
    | ok keyColumn =>
      simp only [hk] at h
      split at h
      · cases h
      · rename_i hd
        cases h
        exact {
          sagaType := rfl, table := rfl, keyColumn := hk, keyProperty := rfl
          versionColumn := rfl, versionProperty := rfl, mappings := rfl
          fields := Descriptor.storedFields_eq _
          columns := by simp [Descriptor.storedFields]
          distinct := Descriptor.ensureDistinct_eq_ok_iff.mp hd }
  · intro h
    have hd := h.distinct
    rw [h.fields, ← Descriptor.storedFields_eq, h.versionColumn] at hd
    rw [resolve, h.keyColumn]
    simp only [bind, Except.bind, Descriptor.ensureDistinct_eq_ok_iff.mpr hd, pure, Except.pure]
    have hf : d.storedFields mappings (m.keyColumn :: (d.versionColumn? mappings).toList)
        (d.keyProperty?.toList ++ d.version.toList) = m.fields := by
      rw [Descriptor.storedFields_eq, ← h.versionColumn, h.fields]
    have hc : d.storedFields mappings [] [] = m.columns := by
      simp [Descriptor.storedFields, h.columns]
    rw [hf, hc, ← h.sagaType, ← h.table, ← h.keyProperty, ← h.versionColumn, ← h.versionProperty]
    simp only [← h.mappings]

end Metadata

end Sagas
