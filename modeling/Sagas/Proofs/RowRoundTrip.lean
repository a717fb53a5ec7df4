import Sagas.Row
import Sagas.Proofs.Paths
import Sagas.Proofs.Plan

/-! Rows written from a document and read back: every declared property has the value it had. -/
namespace Sagas

/-! ## Taking over values -/

namespace Members

/-- An object that holds nothing but values of a document, in the places where that has them. -/
def Within (members : Members) (document : Json) : Prop :=
  ∀ path value, Json.walk path (.object members) = some value →
    ∃ original, Json.walk path document = some original ∧
      (value = original ∨
        ∃ part whole, value = .object part ∧ original = .object whole)

variable {document value : Json} {members : Members} {path : List String}

theorem nil_within (whole : Members) : Within [] (.object whole) := by
  intro path value h
  cases path with
  | nil => cases h; exact ⟨_, rfl, Or.inr ⟨[], whole, rfl, rfl⟩⟩
  | cons name rest => cases h

theorem Within.open (h : members.Within document) (hv : Json.walk path document = some value) :
    Open path members := by
  intro parent rest hp hr above ha
  subst hp
  obtain ⟨whole, hwhole⟩ := Json.object_of_walk_append hr hv
  obtain ⟨original, ho, heq | ⟨part, _, hpart, _⟩⟩ := h parent above ha
  · rw [hwhole] at ho
    cases ho
    exact ⟨whole, heq⟩
  · exact ⟨part, hpart⟩

theorem Within.insertAt (h : members.Within document) (hp : path ≠ [])
    (hv : Json.walk path document = some value) :
    (insertAt path value members).Within document := by
  intro other found hf
  have hself := walk_insertAt_self hp (h.open hv) value
  -- At the path and below it stands the document's value, above it an object that may have grown,
  -- and elsewhere what stood there before.
  by_cases hbelow : path <+: other
  · obtain ⟨rest, rfl⟩ := hbelow
    rw [Json.walk_append, hself] at hf
    exact ⟨found, by rw [Json.walk_append, hv]; exact hf, Or.inl rfl⟩
  · by_cases habove : other <+: path
    · obtain ⟨rest, rfl⟩ := habove
      have hr : rest ≠ [] := fun hnil => hbelow (by simp [hnil])
      obtain ⟨part, hpart⟩ := Json.object_of_walk_append hr hself
      obtain ⟨whole, hwhole⟩ := Json.object_of_walk_append hr hv
      rw [hpart] at hf
      cases hf
      exact ⟨_, hwhole, Or.inr ⟨part, whole, rfl, rfl⟩⟩
    · rw [walk_insertAt_of_apart hbelow habove] at hf
      exact h other found hf

/-- Where an object has the document's value, it keeps it when other values of the document are put
into it: above, below or beside. -/
theorem Within.walk_insertAt (h : members.Within document) (hp : path ≠ [])
    (hv : Json.walk path document = some value) {other : List String} {found : Json}
    (hm : Json.walk other (.object members) = some found)
    (hd : Json.walk other document = some found) :
    Json.walk other (.object (Members.insertAt path value members)) = some found := by
  have hself := walk_insertAt_self hp (h.open hv) value
  by_cases hbelow : path <+: other
  · obtain ⟨rest, rfl⟩ := hbelow
    rw [Json.walk_append, hv] at hd
    rw [Json.walk_append, hself]
    exact hd
  · by_cases habove : other <+: path
    · -- Above the path the document's value stands already, so that nothing is changed there.
      obtain ⟨rest, rfl⟩ := habove
      have hthere : Json.walk (other ++ rest) (.object members) = some value := by
        rw [Json.walk_append, hd] at hv
        rw [Json.walk_append, hm]
        exact hv
      rw [insertAt_of_walk hthere]
      exact hm
    · rw [walk_insertAt_of_apart hbelow habove]
      exact hm

/-- Takes over the value that a document has at a path, unless that is null. -/
def copy (document : Json) (members : Members) (path : String) : Members :=
  match document.lookup path with
  | none | some .null => members
  | some value => members.insertPath path value

theorem copy_of_null {path : String} (hv : (document.lookup path).getD .null = .null) :
    copy document members path = members := by
  rw [copy]
  split
  · rfl
  · rfl
  · rename_i hn hl
    rw [hl] at hv
    exact absurd hv hn

theorem copy_of_lookup {path : String} (hv : document.lookup path = some value)
    (hn : value ≠ .null) : copy document members path = members.insertPath path value := by
  rw [copy, hv]
  cases value with
  | null => exact absurd rfl hn
  | _ => rfl

theorem copy_cases (document : Json) (members : Members) (path : String) :
    copy document members path = members ∨
      ∃ value, Json.walk (segments path) document = some value ∧
        copy document members path = insertAt (segments path) value members := by
  by_cases hv : (document.lookup path).getD .null = .null
  · exact Or.inl (copy_of_null hv)
  · cases hl : document.lookup path with
    | none => exact absurd (by rw [hl]; rfl) hv
    | some value =>
      have hn : value ≠ .null := fun h => hv (by rw [hl, h]; rfl)
      exact Or.inr ⟨value, hl, copy_of_lookup hl hn⟩

theorem Within.copy (h : members.Within document) (path : String) :
    (copy document members path).Within document := by
  rcases copy_cases document members path with hc | ⟨value, hv, hc⟩
  · rw [hc]
    exact h
  · rw [hc]
    exact h.insertAt (segments_ne_nil path) hv

theorem Within.walk_copy (h : members.Within document) (path : String) {other : List String}
    {found : Json} (hm : Json.walk other (.object members) = some found)
    (hd : Json.walk other document = some found) :
    Json.walk other (.object (Members.copy document members path)) = some found := by
  rcases copy_cases document members path with hc | ⟨value, hv, hc⟩
  · rw [hc]
    exact hm
  · rw [hc]
    exact h.walk_insertAt (segments_ne_nil path) hv hm hd

theorem Within.foldl_copy (h : members.Within document) (paths : List String) :
    (paths.foldl (Members.copy document) members).Within document := by
  induction paths generalizing members with
  | nil => exact h
  | cons first rest ih => exact ih (h.copy first)

theorem Within.walk_foldl_copy (h : members.Within document) (paths : List String)
    {other : List String} {found : Json}
    (hm : Json.walk other (.object members) = some found)
    (hd : Json.walk other document = some found) :
    Json.walk other (.object (paths.foldl (Members.copy document) members)) = some found := by
  induction paths generalizing members with
  | nil => exact hm
  | cons first rest ih => exact ih (h.copy first) (h.walk_copy first hm hd)

/-- Values that are taken over one after the other are all found at their paths, whatever paths are
above others and whatever their order. -/
theorem Within.lookup_foldl_copy (h : members.Within document) {paths : List String} {path : String}
    (hp : path ∈ paths) (hv : document.lookup path = some value) (hn : value ≠ .null) :
    (Json.object (paths.foldl (Members.copy document) members)).lookup path = some value := by
  induction paths generalizing members with
  | nil => cases hp
  | cons first rest ih =>
    rcases List.mem_cons.mp hp with rfl | hp
    · refine (h.copy path).walk_foldl_copy rest ?_ hv
      rw [copy_of_lookup hv hn]
      exact walk_insertAt_self (segments_ne_nil path) (h.open hv) value
    · exact ih (h.copy first) hp

/-- Where the document has nothing but null, so has an object of its values. -/
theorem Within.lookup_of_null (h : members.Within document) {path : String}
    (hv : (document.lookup path).getD .null = .null) :
    ((Json.object members).lookup path).getD .null = .null := by
  cases hl : (Json.object members).lookup path with
  | none => rfl
  | some found =>
    obtain ⟨original, ho, hcase⟩ := h _ found hl
    have hnull : original = .null := by
      rw [Json.lookup, ho] at hv
      exact hv
    subst hnull
    rcases hcase with rfl | ⟨_, _, _, hobject⟩
    · rfl
    · cases hobject

end Members

/-! ## Rows -/

namespace Metadata

/-- The property whose value a source has. -/
def sourcePath? (m : Metadata) : BindingSource → Option String
  | .correlationId => m.keyProperty
  | .version => m.versionProperty
  | .field path => some path

/-- The value that a document has for a source, null where it has none. -/
def sourceValue (m : Metadata) (document : Json) (source : BindingSource) : Json :=
  ((m.sourcePath? source).bind document.lookup).getD .null

end Metadata

/-- A row with the values of a document in the columns of an insert, in any order and with the case
of ASCII letters changed at will. Other columns may stand among them. -/
def Schema.IsRowOf (s : Schema) (document : Json) (record : Record) : Prop :=
  ∃ (names : List String) (others : Record),
    List.Forall₂ (fun name column => Text.sameIgnoringAsciiCase name column = true) names
      s.insertedColumns ∧
    (∀ other ∈ others, ∀ column ∈ s.insertedColumns,
      Text.sameIgnoringAsciiCase other.1 column = false) ∧
    record.Perm
      (names.zip (s.insertStatement.bindings.map fun b => s.metadata.sourceValue document b.source)
        ++ others)

/-! ## Columns of a row -/

theorem Members.mem_of_get? {name : String} {value : Json} {members : Members}
    (h : Members.get? name members = some value) : (name, value) ∈ members := by
  induction members with
  | nil => cases h
  | cons head rest ih =>
    obtain ⟨key, old⟩ := head
    by_cases hk : key = name
    · rw [Members.get?, if_pos hk] at h
      cases h
      exact hk ▸ List.mem_cons_self
    · rw [Members.get?, if_neg hk] at h
      exact List.mem_cons_of_mem _ (ih h)

/-- A column is found if it is there and all columns that could be taken for it agree. -/
theorem Record.column?_eq_some {record : Record} {name : String} {value : Json}
    (hthere : ∃ entry ∈ record, Text.sameIgnoringAsciiCase entry.1 name = true)
    (hagree : ∀ entry ∈ record, Text.sameIgnoringAsciiCase entry.1 name = true →
      entry.2 = value) : Record.column? record name = some value := by
  rw [Record.column?]
  cases hg : Members.get? name record with
  | some found =>
    have hsame : Text.sameIgnoringAsciiCase name name = true := by
      simp [Text.sameIgnoringAsciiCase]
    exact congrArg some (hagree _ (Members.mem_of_get? hg) hsame)
  | none =>
    cases hf : record.find? fun entry => Text.sameIgnoringAsciiCase entry.1 name with
    | none =>
      obtain ⟨entry, hmem, hsame⟩ := hthere
      exact absurd hsame (List.find?_eq_none.mp hf entry hmem)
    | some entry =>
      have hsame := List.find?_some hf
      exact congrArg some (hagree entry (List.mem_of_find?_eq_some hf) hsame)

section
variable {α β γ : Type} {R : α → β → Prop} {as : List α} {bs : List β} {cs : List γ}

theorem exists_mem_zip_left (h : List.Forall₂ R as bs) {b : β} {c : γ} (hm : (b, c) ∈ bs.zip cs) :
    ∃ a, R a b ∧ (a, c) ∈ as.zip cs := by
  induction h generalizing cs with
  | nil => cases hm
  | @cons a b' _ _ hr _ ih =>
    cases cs with
    | nil => cases hm
    | cons c' rest =>
      rcases List.mem_cons.mp hm with heq | hm
      · cases heq
        exact ⟨a, hr, List.mem_cons_self⟩
      · obtain ⟨a', hr', hm'⟩ := ih hm
        exact ⟨a', hr', List.mem_cons_of_mem _ hm'⟩

theorem exists_mem_zip_right (h : List.Forall₂ R as bs) {a : α} {c : γ} (hm : (a, c) ∈ as.zip cs) :
    ∃ b, R a b ∧ (b, c) ∈ bs.zip cs :=
  exists_mem_zip_left h.flip hm

end

theorem Schema.insertedColumns_zip (s : Schema) {α : Type} (f : BindingSource → α) :
    s.insertedColumns.zip (s.insertStatement.bindings.map fun b => f b.source) =
      (s.metadata.keyColumn, f .correlationId) ::
        (s.metadata.versionColumn.toList.map fun column => (column, f .version)) ++
          s.metadata.fields.map fun field => (field.column, f (.field field.path)) := by
  have hsources : (s.insertStatement.bindings.map fun b => f b.source) = s.sources.map f := by
    rw [← s.insertStatement_sources, List.map_map]
    rfl
  rw [hsources, insertedColumns, keyColumns, fieldColumns, sources, List.map_append,
    List.zip_append (by simp)]
  congr 1
  · cases s.metadata.versionColumn <;> rfl
  · simp [List.zip_map']

variable {s : Schema} {document : Json} {record : Record}

/-- In a row of a document every inserted column is found, with the value inserted there. -/
theorem Schema.IsRowOf.column? (h : s.IsRowOf document record)
    (hd : (s.insertedColumns.map Text.foldAscii).Nodup) {column : String} {value : Json}
    (hm : (column, value) ∈ s.insertedColumns.zip
      (s.insertStatement.bindings.map fun b => s.metadata.sourceValue document b.source)) :
    Record.column? record column = some value := by
  obtain ⟨names, others, hnames, hothers, hrow⟩ := h
  obtain ⟨name, hsame, hname⟩ := exists_mem_zip_left hnames hm
  refine Record.column?_eq_some ⟨_, hrow.mem_iff.mpr (List.mem_append_left _ hname), hsame⟩ ?_
  intro entry hentry hcolumn
  rcases List.mem_append.mp (hrow.mem_iff.mp hentry) with hzip | hother
  · obtain ⟨column', hsame', hm'⟩ := exists_mem_zip_right hnames hzip
    have hfold : Text.foldAscii column' = Text.foldAscii column :=
      (eq_of_beq hsame').symm.trans (eq_of_beq hcolumn)
    have hpairs : ((s.insertedColumns.zip (s.insertStatement.bindings.map fun b =>
        s.metadata.sourceValue document b.source)).map (Text.foldAscii ∘ Prod.fst)).Nodup := by
      have hlength : s.insertedColumns.length = s.sources.length := by
        simp [insertedColumns, keyColumns, fieldColumns, sources]
      rw [← s.insertStatement_sources, List.length_map] at hlength
      rw [← List.map_map, List.map_fst_zip (by simp [hlength])]
      exact hd
    exact (Prod.mk.inj (List.inj_on_of_nodup_map hpairs hm' hm hfold)).2
  · have hfalse := hothers entry hother column (List.of_mem_zip hm).1
    rw [hcolumn] at hfalse
    cases hfalse

/-! ## Documents of rows -/

namespace Metadata

variable {d : Descriptor} {mappings : List Mapping} {table idColumn : Option String}
variable {m : Metadata} {dialect : Dialect} {key : String}

theorem insertField_eq_copy {f : ResolvedField} (hf : some f.path ≠ m.keyProperty)
    (hcolumn : Record.column? record f.column = some ((document.lookup f.path).getD .null))
    (hdatetime : f.type = .datetime → ∀ text, document.lookup f.path = some (.string text) →
      (Moment.parseRfc3339? text).isSome = true) (members : Members) :
    m.insertField record members f = members.copy document f.path := by
  rw [insertField, if_neg hf, hcolumn]
  cases hv : document.lookup f.path with
  | none => exact (Members.copy_of_null (by rw [hv]; rfl)).symm
  | some value =>
    by_cases hn : value = .null
    · subst hn
      exact (Members.copy_of_null (by rw [hv]; rfl)).symm
    · have hsame : columnJson f.type value = value :=
        columnJson_eq_self fun ht text htext => hdatetime ht text (by rw [hv, htext])
      rw [Members.copy_of_lookup hv hn, Option.getD_some]
      cases value with
      | null => exact absurd rfl hn
      | _ => simp only [hsame]

/-- A declared field that is the version, or is kept, stands in its column with its own value. -/
theorem ResolvedFrom.mem_insertedColumns_zip (h : m.ResolvedFrom d mappings table idColumn)
    {path : String} (hkept : some path = m.versionProperty ∨ path ∈ m.fields.map (·.path)) :
    (Mapping.resolve mappings path, (document.lookup path).getD .null) ∈
      (Schema.mk dialect m).insertedColumns.zip ((Schema.mk dialect m).insertStatement.bindings.map
        fun b => m.sourceValue document b.source) := by
  rw [Schema.insertedColumns_zip]
  rcases hkept with hversion | hfield
  · have hcolumn : m.versionColumn = some (Mapping.resolve mappings path) := by
      rw [h.versionColumn, Descriptor.versionColumn?, ← h.versionProperty, ← hversion]
      rfl
    simp [hcolumn, sourceValue, sourcePath?, ← hversion]
  · obtain ⟨f, hf, rfl⟩ := List.mem_map.mp hfield
    have hcolumn : f.column = Mapping.resolve mappings f.path := by
      rw [h.fields] at hf
      obtain ⟨declared, _, rfl⟩ := List.mem_map.mp hf
      rfl
    rw [← hcolumn]
    exact List.mem_append_right _ (List.mem_map_of_mem hf)

/-- A row read back takes over the key and then every other declared field. -/
theorem materialize_eq_copies (h : m.ResolvedFrom d mappings table idColumn)
    (hkey : m.keyProperty = some key)
    (hkept : ∀ f ∈ d.fields, f.path = key ∨ some f.path = m.versionProperty ∨
      f.path ∈ m.fields.map (·.path))
    (hdistinct : ((Schema.mk dialect m).insertedColumns.map Text.foldAscii).Nodup)
    (hid : ∃ id : Uuid, document.lookup key = some (.string id.text))
    (hdatetime : ∀ f ∈ d.fields, f.type = .datetime → ∀ text,
      document.lookup f.path = some (.string text) → (Moment.parseRfc3339? text).isSome = true)
    (hrow : (Schema.mk dialect m).IsRowOf document record) :
    m.materialize record =
      ((d.fields.map (·.path)).filter (· ≠ key)).foldl (Members.copy document)
        (Members.copy document [] key) := by
  have hstart : m.insertKey record [] = Members.copy document [] key := by
    obtain ⟨id, hid⟩ := hid
    have hvalue : m.sourceValue document .correlationId = .string id.text := by
      simp [sourceValue, sourcePath?, hkey, hid]
    have hc : Record.column? record m.keyColumn = some (.string id.text) := by
      refine hrow.column? hdistinct ?_
      rw [Schema.insertedColumns_zip, ← hvalue]
      exact List.mem_append_left _ List.mem_cons_self
    rw [insertKey, hkey, hc, Members.copy_of_lookup hid nofun]
  -- The key is skipped as a field, as the start of the fold has it already.
  have hstep : ∀ members, ∀ f ∈ d.fields,
      m.insertField record members (Descriptor.resolveField mappings f) =
        if f.path ≠ key then Members.copy document members f.path else members := by
    intro members f hf
    by_cases hp : f.path = key
    · rw [if_neg (not_not_intro hp), insertField, if_pos (by simp [hkey, hp])]
    · have hc := hrow.column? hdistinct
        (h.mem_insertedColumns_zip ((hkept f hf).resolve_left hp))
      rw [if_pos hp]
      exact insertField_eq_copy (by simp [hkey, hp]) hc (hdatetime f hf) members
  rw [materialize, hstart, h.columns, List.foldl_map, List.foldl_filter, List.foldl_map]
  refine List.foldl_ext _ _ _ fun members f hf => ?_
  rw [hstep members f hf]
  by_cases hp : f.path = key <;> simp [hp]

end Metadata

/-! ## The round trip -/

/-- What is written to a row comes back from it. Whatever paths are declared, in whatever order and
however they overlap, each has the value that it had in the document, except that a null may be
missing and a missing value may be null. -/
theorem row_round_trip {d : Descriptor} {mappings : List Mapping} {table idColumn : Option String}
    {m : Metadata} {dialect : Dialect} {key : String} {members : Members} {record : Record}
    (h : Metadata.resolve d mappings table idColumn = .ok m) (hkey : m.keyProperty = some key)
    (hkept : ∀ f ∈ d.fields, f.path = key ∨ some f.path = m.versionProperty ∨
      f.path ∈ m.fields.map (·.path))
    (hdistinct : ((Schema.mk dialect m).insertedColumns.map Text.foldAscii).Nodup)
    (hid : ∃ id : Uuid, (Json.object members).lookup key = some (.string id.text))
    (hdatetime : ∀ f ∈ d.fields, f.type = .datetime → ∀ text,
      (Json.object members).lookup f.path = some (.string text) →
        (Moment.parseRfc3339? text).isSome = true)
    (hrow : (Schema.mk dialect m).IsRowOf (.object members) record) {path : String}
    (hpath : path = key ∨ path ∈ d.fields.map (·.path)) :
    (∀ value, value ≠ .null → (Json.object members).lookup path = some value →
        (Json.object (m.materialize record)).lookup path = some value) ∧
      (((Json.object members).lookup path).getD .null = .null →
        ((Json.object (m.materialize record)).lookup path).getD .null = .null) := by
  have hr := Metadata.resolve_eq_ok_iff.mp h
  have hcopies : m.materialize record =
      (key :: (d.fields.map (·.path)).filter (· ≠ key)).foldl
        (Members.copy (.object members)) [] :=
    Metadata.materialize_eq_copies hr hkey hkept hdistinct hid hdatetime hrow
  have hmem : path ∈ key :: (d.fields.map (·.path)).filter (· ≠ key) := by
    by_cases hp : path = key
    · exact hp ▸ List.mem_cons_self
    · exact List.mem_cons_of_mem _
        (List.mem_filter.mpr ⟨hpath.resolve_left hp, by simpa using hp⟩)
  have hwithin := Members.nil_within members
  rw [hcopies]
  exact ⟨fun value hn hv => hwithin.lookup_foldl_copy hmem hv hn,
    fun hv => (hwithin.foldl_copy _).lookup_of_null hv⟩

namespace Samples.Parcel

/-- A parcel, whose route is stored as a whole and in parts, the innermost part first. -/
def descriptor : Descriptor :=
  ({ typeName := "Parcel" } : Descriptor).withField "CorrelationId" .uuid
    |>.withKey "CorrelationId"
    |>.withVersion "Version"
    |>.withField "Route.Stop.City" .text
    |>.withField "Route" .json
    |>.withField "Route.Stop" .json
    |>.withField "Route.Left" .datetime
    |>.withField "Note.By" .text

def metadata : Metadata :=
  match Metadata.resolve descriptor [] none none with
  | .ok m => m
  | .error _ => default

def stop : Json :=
  .object [("City", .string "Lund"), ("Gate", .int 4)]

def route : Json :=
  .object [("Stop", stop), ("Left", .string "2024-05-01T08:00:00Z")]

def members : Members :=
  [("CorrelationId", .string Uuid.nil.text), ("Version", .int 3), ("Route", route), ("Note", .null)]

/-- The parcel as a row, in reverse order and beside a column that is not its own. -/
def row : Record :=
  [("Weight", .int 2), ("BY", .null), ("left", .string "2024-05-01T08:00:00Z"), ("STOP", stop),
    ("Route", route), ("city", .string "Lund"), ("version", .int 3),
    ("correlationid", .string Uuid.nil.text)]

/-- The route of a parcel comes back with what no column of its own has. -/
theorem route_comes_back :
    Metadata.resolve descriptor [] none none = .ok metadata ∧
      (Schema.mk .postgres metadata).IsRowOf (.object members) row ∧
      (Json.object (metadata.materialize row)).lookup "Route" = some route := by
  have hresolved : Metadata.resolve descriptor [] none none = .ok metadata := rfl
  have hrow : (Schema.mk .postgres metadata).IsRowOf (.object members) row := by
    refine ⟨["correlationid", "version", "city", "Route", "STOP", "left", "BY"],
      [("Weight", .int 2)], by decide +kernel, by decide +kernel, ?_⟩
    exact (List.reverse_perm row).symm
  have hdatetime : ∀ f ∈ descriptor.fields, f.type = .datetime → ∀ text,
      (Json.object members).lookup f.path = some (.string text) →
        (Moment.parseRfc3339? text).isSome = true := by
    intro f hf ht text hl
    have hpath : ∀ f ∈ descriptor.fields, f.type = .datetime → f.path = "Route.Left" := by
      decide +kernel
    rw [hpath f hf ht] at hl
    cases hl
    decide +kernel
  have hback := row_round_trip hresolved rfl (by decide +kernel) (by decide +kernel) ⟨.nil, rfl⟩
    hdatetime hrow (.inr (by decide +kernel : "Route" ∈ descriptor.fields.map (·.path)))
  exact ⟨hresolved, hrow, hback.1 route nofun rfl⟩

end Samples.Parcel

end Sagas
