import Sagas.Proofs.Resolution
import Sagas.Samples.Order

/-! Why resolution fails: only for two properties that share a name, and it reports such a pair. -/
namespace Sagas

/-- A property with the names that tell it apart: its column and its parameter. -/
structure NamedProperty where
  path : String
  column : String
  parameter : String
deriving DecidableEq

def ResolvedField.named (f : ResolvedField) : NamedProperty :=
  ⟨f.path, f.column, f.parameter⟩

/-- Two properties that share the name for which a fault blames them. -/
inductive Clash (sagaType : String) (first second : NamedProperty) : ConfigurationFault → Prop
  | column : Text.lower first.column = Text.lower second.column →
      Clash sagaType first second (.sharedColumn first.path second.path sagaType second.column)
  | parameter : first.parameter = second.parameter →
      Clash sagaType first second
        (.sharedParameter first.path second.path sagaType second.parameter)

/-- Properties of which no two share a column, up to case, or a parameter. -/
structure NamesApart (properties : List NamedProperty) : Prop where
  columns : (properties.map fun p => Text.lower p.column).Nodup
  parameters : (properties.map (·.parameter)).Nodup

theorem NamesApart.not_clash {properties : List NamedProperty} (h : NamesApart properties)
    {sagaType : String} {first second : NamedProperty} {fault : ConfigurationFault}
    (hsub : [first, second].Sublist properties) : ¬ Clash sagaType first second fault := by
  intro hclash
  cases hclash with
  | column hshared =>
    have hnames := hsub.map fun p => Text.lower p.column
    have hnodup := h.columns.sublist hnames
    simp [hshared] at hnodup
  | parameter hshared =>
    have hnames := hsub.map (·.parameter)
    have hnodup := h.parameters.sublist hnames
    simp [hshared] at hnodup

/-! ## Names in use -/

namespace NamesInUse

variable {sagaType : String} {properties : List NamedProperty} {f : ResolvedField}
variable {fault : ConfigurationFault}

/-- The names of some properties. Each is paired with the property that has it. -/
def ofProperties (properties : List NamedProperty) : NamesInUse :=
  ⟨properties.map fun p => (Text.lower p.column, p.path),
    properties.map fun p => (p.parameter, p.path)⟩

theorem push_ofProperties :
    (ofProperties properties).push f = ofProperties (properties ++ [f.named]) := by
  simp only [push, ofProperties, List.map_append]
  rfl

theorem owner?_eq_some {names : NamedProperty → String} {name owner : String}
    (h : owner? (properties.map fun p => (names p, p.path)) name = some owner) :
    ∃ p ∈ properties, names p = name ∧ p.path = owner := by
  obtain ⟨used, hfound, rfl⟩ := Option.map_eq_some_iff.mp h
  obtain ⟨p, hp, rfl⟩ := List.mem_map.mp (List.mem_of_find?_eq_some hfound)
  exact ⟨p, hp, by simpa using List.find?_some hfound, rfl⟩

theorem clash_of_add (h : add sagaType (ofProperties properties) f = .error fault) :
    ∃ first ∈ properties, Clash sagaType first f.named fault := by
  simp only [add] at h
  split at h
  · rename_i owner hcolumn
    obtain ⟨first, hmem, hshared, rfl⟩ := owner?_eq_some hcolumn
    cases h
    exact ⟨first, hmem, .column hshared⟩
  · split at h
    · rename_i owner hparameter
      obtain ⟨first, hmem, hshared, rfl⟩ := owner?_eq_some hparameter
      cases h
      exact ⟨first, hmem, .parameter hshared⟩
    · cases h

/-- Fields are added one after the other until one of them clashes with a property before it. -/
theorem clash_of_foldlM_add {fields : List ResolvedField}
    (h : fields.foldlM (add sagaType) (ofProperties properties) = .error fault) :
    ∃ first second, [first, second].Sublist (properties ++ fields.map (·.named)) ∧
      Clash sagaType first second fault := by
  -- The names in use are always those of a list of properties, each with its own.
  induction fields generalizing properties with
  | nil => cases h
  | cons f rest ih =>
    rw [List.foldlM_cons] at h
    cases ha : add sagaType (ofProperties properties) f with
    | error e =>
      rw [ha] at h
      cases h
      obtain ⟨first, hmem, hclash⟩ := clash_of_add ha
      refine ⟨first, f.named, ?_, hclash⟩
      exact (List.singleton_sublist.mpr hmem).append
        (List.singleton_sublist.mpr (List.mem_map_of_mem List.mem_cons_self))
    | ok used =>
      obtain ⟨-, -, rfl⟩ := add_eq_ok_iff.mp ha
      rw [ha] at h
      change rest.foldlM _ (push _ f) = _ at h
      rw [push_ofProperties] at h
      obtain ⟨first, second, hsub, hclash⟩ := ih h
      refine ⟨first, second, ?_, hclash⟩
      rwa [List.append_assoc] at hsub

end NamesInUse

/-! ## Resolution -/

namespace Descriptor

variable {d : Descriptor} {mappings : List Mapping} {key : String}
variable {idColumn table : Option String} {fault : ConfigurationFault}

/-- The key and, of a versioned type, the version. Their parameters have fixed names. -/
def keyProperties (d : Descriptor) (mappings : List Mapping) (key keyColumn : String) :
    List NamedProperty :=
  ⟨key, keyColumn, keyParameter⟩ ::
    (d.version.map fun path => ⟨path, Mapping.resolve mappings path, versionParameter⟩).toList

/-- The properties of a type: the key, in the column asked for or else its own, the version, and
then all other declared fields. -/
def properties (d : Descriptor) (mappings : List Mapping) (idColumn : Option String)
    (key : String) : List NamedProperty :=
  d.keyProperties mappings key (idColumn.getD (Mapping.resolve mappings key)) ++
    d.plainFields.map fun f => (resolveField mappings f).named

theorem namesOfKeys_eq (hk : d.keyProperty? = some key) (keyColumn : String) :
    d.namesOfKeys keyColumn (d.versionColumn? mappings) =
      .ofProperties (d.keyProperties mappings key keyColumn) := by
  cases hv : d.version with
  | none => simp [namesOfKeys, versionColumn?, keyProperties, NamesInUse.ofProperties, hk, hv]
  | some path => simp [namesOfKeys, versionColumn?, keyProperties, NamesInUse.ofProperties, hk, hv]

theorem keyColumn_eq (hk : d.keyProperty? = some key) :
    d.keyColumn mappings idColumn = .ok (idColumn.getD (Mapping.resolve mappings key)) := by
  cases idColumn with
  | none => rw [keyColumn, hk]; rfl
  | some column => rfl

/-- The fields whose names are compared are some of the properties, in the same order. -/
theorem storedFields_sublist (keyColumns : List String) :
    ((d.storedFields mappings keyColumns (d.keyProperty?.toList ++ d.version.toList)).map
      (·.named)).Sublist (d.plainFields.map fun f => (resolveField mappings f).named) := by
  rw [storedFields_eq, List.map_map]
  exact List.filter_sublist.map _

theorem clash_of_ensureDistinct (hk : d.keyProperty? = some key) {keyColumn : String}
    {fields : List ResolvedField}
    (h : d.ensureDistinct keyColumn (d.versionColumn? mappings) fields = .error fault) :
    ∃ first second, [first, second].Sublist
        (d.keyProperties mappings key keyColumn ++ fields.map (·.named)) ∧
      Clash d.typeName first second fault := by
  rw [ensureDistinct, namesOfKeys_eq hk] at h
  cases hrun : fields.foldlM (NamesInUse.add d.typeName)
      (.ofProperties (d.keyProperties mappings key keyColumn)) with
  | error e =>
    rw [hrun] at h
    cases h
    exact NamesInUse.clash_of_foldlM_add hrun
  | ok used => rw [hrun] at h; cases h

theorem clash_of_resolve (hk : d.keyProperty? = some key)
    (h : Metadata.resolve d mappings table idColumn = .error fault) :
    ∃ first second, [first, second].Sublist (d.properties mappings idColumn key) ∧
      Clash d.typeName first second fault := by
  simp only [Metadata.resolve, keyColumn_eq hk, bind, Except.bind] at h
  split at h
  · rename_i e hdistinct
    cases h
    obtain ⟨first, second, hsub, hclash⟩ := clash_of_ensureDistinct hk hdistinct
    exact ⟨first, second, hsub.trans ((storedFields_sublist _).append_left _), hclash⟩
  · cases h

end Descriptor

/-- Resolution raises no false alarm: it succeeds if the names of all properties are apart. Where it
fails it is for two of them that clash, and it reports these. -/
theorem resolution_fails_for_clashes (d : Descriptor) (mappings : List Mapping)
    (table idColumn : Option String) {key : String} (hk : d.keyProperty? = some key) :
    (NamesApart (d.properties mappings idColumn key) →
        ∃ m, Metadata.resolve d mappings table idColumn = .ok m) ∧
      ∀ fault, Metadata.resolve d mappings table idColumn = .error fault →
        ∃ first second, [first, second].Sublist (d.properties mappings idColumn key) ∧
          Clash d.typeName first second fault := by
  refine ⟨fun hapart => ?_, fun fault h => d.clash_of_resolve hk h⟩
  cases h : Metadata.resolve d mappings table idColumn with
  | error fault =>
    obtain ⟨first, second, hsub, hclash⟩ := d.clash_of_resolve hk h
    exact absurd hclash (hapart.not_clash hsub)
  | ok m => exact ⟨m, rfl⟩

/-- A declaration that stores two cities in columns of the same name. -/
def parcels : Descriptor :=
  ({ typeName := "Parcel" } : Descriptor).withField "CorrelationId" .uuid
    |>.withColumn "Origin" .text "City"
    |>.withColumn "Target" .text "city"

/-- Orders are resolved under another key column as well. The cities of parcels clash. -/
theorem clash_of_parcels :
    (∃ m, Metadata.resolve Samples.Order.descriptor Samples.Order.descriptor.mappings none
        (some "order_id") = .ok m) ∧
      Metadata.resolve parcels parcels.mappings none none =
        .error (.sharedColumn "Origin" "Target" "Parcel" "city") ∧
      ∃ first second,
        [first, second].Sublist (parcels.properties parcels.mappings none "CorrelationId") ∧
          Clash "Parcel" first second (.sharedColumn "Origin" "Target" "Parcel" "city") := by
  have hparcels : Metadata.resolve parcels parcels.mappings none none =
      .error (.sharedColumn "Origin" "Target" "Parcel" "city") := by decide +kernel
  refine ⟨?_, hparcels, ?_⟩
  · exact (resolution_fails_for_clashes Samples.Order.descriptor _ none (some "order_id") rfl).1
      ⟨by decide +kernel, by decide +kernel⟩
  · exact (resolution_fails_for_clashes parcels parcels.mappings none none rfl).2 _ hparcels

end Sagas
