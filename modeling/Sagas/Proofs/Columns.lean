import Sagas.Proofs.Binding
import Sagas.Proofs.Resolution
import Sagas.Samples.Order

/-! Which fields and columns survive resolution: no field is lost unless it is stored in the very
column of the key or the version, and no two columns coincide unless those two do. -/
namespace Sagas

variable {d : Descriptor} {mappings : List Mapping} {table idColumn : Option String} {m : Metadata}

/-! ## Fields -/

/-- Metadata that keeps the plain fields of a declaration: once each, in order and with their types,
and given to every insert and update. -/
structure KeepsFields (d : Descriptor) (m : Metadata) : Prop where
  typed : m.fields.map (fun f => (f.path, f.type)) = d.plainFields.map fun f => (f.path, f.type)
  once : ∀ f ∈ d.plainFields, (m.fields.map (·.path)).count f.path = 1
  inserted (dialect : Dialect) :
    (Schema.mk dialect m).insertStatement.boundPaths = d.plainFields.map (·.path)
  updated (dialect : Dialect) :
    (Schema.mk dialect m).updateStatement.boundPaths = d.plainFields.map (·.path)

/-- The fields that are written have different paths, as equal paths have equal columns. -/
theorem Metadata.ResolvedFrom.paths_nodup (h : m.ResolvedFrom d mappings table idColumn) :
    (m.fields.map (·.path)).Nodup := by
  have hc : m.fields.map ResolvedField.foldedColumn =
      (m.fields.map (·.path)).map fun path => Text.lower (Mapping.resolve mappings path) := by
    rw [h.fields, List.map_map, List.map_map, List.map_map]
    rfl
  have hd := h.distinct.columns
  rw [hc] at hd
  exact hd.of_map _

/-- A plain field in a column of the key or the version is not written, but still read from it. -/
theorem Metadata.ResolvedFrom.lost (h : m.ResolvedFrom d mappings table idColumn) {f : Field}
    (hf : f ∈ d.plainFields)
    (hc : Mapping.resolve mappings f.path ∈ m.keyColumn :: m.versionColumn.toList) :
    f.path ∉ m.fields.map (·.path) ∧ Descriptor.resolveField mappings f ∈ m.columns := by
  constructor
  · rw [h.fields, List.map_map]
    intro hmem
    obtain ⟨g, hg, hpath⟩ := List.mem_map.mp hmem
    have hout := (List.mem_filter.mp hg).2
    rw [Function.comp_apply, Descriptor.resolveField_path] at hpath
    rw [hpath] at hout
    exact of_decide_eq_true hout hc
  · rw [h.columns]
    exact List.mem_map_of_mem (List.mem_of_mem_filter hf)

/-- Resolution keeps the plain fields exactly if none of them is stored in the very column of the
key or the version. One that is gets lost without a word: no write is given it, while reads take it
from that column. -/
theorem fields_kept_iff (h : Metadata.resolve d mappings table idColumn = .ok m) :
    (KeepsFields d m ↔ ∀ f ∈ d.plainFields,
        Mapping.resolve mappings f.path ∉ m.keyColumn :: m.versionColumn.toList) ∧
      ∀ f ∈ d.plainFields,
        Mapping.resolve mappings f.path ∈ m.keyColumn :: m.versionColumn.toList →
          f.path ∉ m.fields.map (·.path) ∧ Descriptor.resolveField mappings f ∈ m.columns := by
  have hr := Metadata.resolve_eq_ok_iff.mp h
  have hf := hr.fields
  refine ⟨⟨fun hk => ?_, fun hk => ?_⟩, fun f hmem => hr.lost hmem⟩
  · have hl : (d.plainFields.filter fun f =>
        Mapping.resolve mappings f.path ∉ m.keyColumn :: m.versionColumn.toList).length =
          d.plainFields.length := by
      have ht := congrArg List.length hk.typed
      rw [hf] at ht
      simpa using ht
    simpa using List.length_filter_eq_length_iff.mp hl
  · have hfields : m.fields = d.plainFields.map (Descriptor.resolveField mappings) := by
      rw [hf, List.filter_eq_self.mpr (by simpa using hk)]
    have hpaths : m.fields.map (·.path) = d.plainFields.map (·.path) := by
      rw [hfields, List.map_map]
      rfl
    refine ⟨?_, fun f hmem => ?_, fun dialect => ?_, fun dialect => ?_⟩
    · rw [hfields, List.map_map]
      rfl
    · refine List.count_eq_one_of_mem hr.paths_nodup ?_
      rw [hpaths]
      exact List.mem_map_of_mem hmem
    · rw [Schema.insertStatement_boundPaths, hpaths]
    · rw [Schema.updateStatement_boundPaths, hpaths]

/-- Orders, with a prefixed field, keep their fields. -/
theorem fields_kept_of_orders :
    ∃ m, Metadata.resolve Samples.Order.descriptor Samples.Order.descriptor.mappings none none =
        .ok m ∧ KeepsFields Samples.Order.descriptor m :=
  ⟨_, rfl, (fields_kept_iff (show Metadata.resolve Samples.Order.descriptor
    Samples.Order.descriptor.mappings none none = .ok _ from rfl)).1.mpr (by decide +kernel)⟩

/-- A declaration whose second field is stored in the column of the key. -/
def lockers : Descriptor :=
  ({ typeName := "Locker" } : Descriptor).withField "CorrelationId" .uuid
    |>.withColumn "Code" .text "CorrelationId"
    |>.withField "Name" .text

/-- The code of a locker is declared, and read from the key, but never written. -/
theorem field_lost_in_key_column :
    ∃ m, Metadata.resolve lockers lockers.mappings none none = .ok m ∧
      lockers.keyProperty? = some "CorrelationId" ∧
      m.fields.map (·.path) = ["Name"] ∧
      m.columns.map (fun f => (f.path, f.column)) =
        [("CorrelationId", "CorrelationId"), ("Code", "CorrelationId"), ("Name", "Name")] ∧
      ¬ KeepsFields lockers m := by
  refine ⟨_, rfl, rfl, rfl, rfl, fun h => ?_⟩
  have ht := congrArg List.length h.typed
  revert ht
  decide

/-! ## Columns -/

/-- A schema whose statements name each column once, up to case, and leave the key alone. -/
structure DistinctColumns (s : Schema) : Prop where
  inserted : (s.insertedColumns.map Text.lower).Nodup
  assigned : (s.assignedColumns.map Text.lower).Nodup
  key_not_assigned : Text.lower s.metadata.keyColumn ∉ s.assignedColumns.map Text.lower

theorem Schema.insertedColumns_lower (s : Schema) :
    s.insertedColumns.map Text.lower = Text.lower s.metadata.keyColumn ::
      (s.metadata.versionColumn.toList.map Text.lower ++
        s.metadata.fields.map ResolvedField.foldedColumn) := by
  simp only [insertedColumns, keyColumns, fieldColumns, List.map_append, List.map_cons,
    List.map_map, List.cons_append]
  rfl

theorem Schema.assignedColumns_lower (s : Schema) :
    s.assignedColumns.map Text.lower = s.metadata.fields.map ResolvedField.foldedColumn ++
      s.metadata.versionColumn.toList.map Text.lower := by
  simp only [assignedColumns, fieldColumns, List.map_append, List.map_map]
  rfl

/-- The columns that resolution yields are distinct up to case exactly if those of the key and the
version are: these two are the only ones that it never compares. -/
theorem columns_distinct_iff (h : Metadata.resolve d mappings table idColumn = .ok m)
    (dialect : Dialect) :
    DistinctColumns ⟨dialect, m⟩ ↔
      ∀ column, m.versionColumn = some column → Text.lower column ≠ Text.lower m.keyColumn := by
  have hd := (Metadata.resolve_eq_ok_iff.mp h).distinct
  have hi := Schema.insertedColumns_lower ⟨dialect, m⟩
  have ha := Schema.assignedColumns_lower ⟨dialect, m⟩
  -- No field shares a column with the key or the version: this much is always checked.
  have hkeys : ∀ name ∈ Text.lower m.keyColumn :: m.versionColumn.toList.map Text.lower,
      name ∉ m.fields.map ResolvedField.foldedColumn := by
    intro name hname hmem
    obtain ⟨f, hf, rfl⟩ := List.mem_map.mp hmem
    exact hd.columns_ne f hf hname
  have hkey := hkeys _ List.mem_cons_self
  cases hv : m.versionColumn with
  | none =>
    simp only [hv, Option.toList_none, List.map_nil, List.nil_append, List.append_nil] at hi ha
    refine ⟨fun _ => nofun, fun _ => ⟨?_, ?_, ?_⟩⟩
    · rw [hi]
      exact List.nodup_cons.mpr ⟨hkey, hd.columns⟩
    · rw [ha]
      exact hd.columns
    · rw [ha]
      exact hkey
  | some column =>
    have hversion := hkeys (Text.lower column) (by simp [hv])
    simp only [hv, Option.toList_some, List.map_cons, List.map_nil, List.cons_append,
      List.nil_append] at hi ha
    constructor
    · rintro hs _ ⟨rfl⟩ heq
      refine hs.key_not_assigned ?_
      rw [ha]
      simp [heq]
    · intro hne
      have hkv : Text.lower column ≠ Text.lower m.keyColumn := hne column rfl
      refine ⟨?_, ?_, ?_⟩
      · rw [hi]
        refine List.nodup_cons.mpr ⟨?_, List.nodup_cons.mpr ⟨hversion, hd.columns⟩⟩
        simpa [hkv.symm] using hkey
      · rw [ha]
        refine hd.columns.append (List.nodup_singleton _) ?_
        simpa using hversion
      · rw [ha]
        simpa [hkv.symm] using hkey

/-- The columns of orders are distinct. -/
theorem columns_distinct_of_orders :
    ∃ m, Metadata.resolve Samples.Order.descriptor Samples.Order.descriptor.mappings none none =
        .ok m ∧ DistinctColumns ⟨.postgres, m⟩ := by
  refine ⟨_, rfl, (columns_distinct_iff (show Metadata.resolve Samples.Order.descriptor
    Samples.Order.descriptor.mappings none none = .ok _ from rfl) _).mpr ?_⟩
  rintro _ ⟨rfl⟩
  decide +kernel

/-- A declaration with a version. -/
def counters : Descriptor :=
  ({ typeName := "Counter" } : Descriptor).withField "CorrelationId" .uuid
    |>.withVersion "Version"

/-- Counters can be given the column of their version for a key; it is then inserted twice, and
updates assign the key. -/
theorem key_in_version_column :
    ∃ m, Metadata.resolve counters counters.mappings none (some "Version") = .ok m ∧
      Schema.insertedColumns ⟨.postgres, m⟩ = ["Version", "Version"] ∧
      Schema.assignedColumns ⟨.postgres, m⟩ = ["Version"] ∧
      ¬ DistinctColumns ⟨.postgres, m⟩ := by
  refine ⟨_, rfl, rfl, rfl, fun h => h.key_not_assigned ?_⟩
  exact List.mem_singleton_self _

end Sagas
