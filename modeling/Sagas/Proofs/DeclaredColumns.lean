import Sagas.Proofs.RowRoundTrip

/-! The document of a row depends on what stands in the declared columns and on nothing else. -/
namespace Sagas

/-! ## Columns of a row -/

namespace Record

/-- A row has a value in a column, with ASCII letters of any case in the column's name. -/
def Has (record : Record) (column : String) (value : Json) : Prop :=
  ∃ entry ∈ record, Text.sameIgnoringAsciiCase entry.1 column = true ∧ entry.2 = value

/-- No two columns of a row have names that differ at most in the case of ASCII letters. -/
def Unambiguous (record : Record) : Prop :=
  (record.map fun entry => Text.foldAscii entry.1).Nodup

instance (record : Record) : Decidable record.Unambiguous :=
  inferInstanceAs (Decidable (List.Nodup _))

variable {record left right : Record} {column : String} {value : Json}

theorem Unambiguous.eq_of_same (h : record.Unambiguous) {entry other : String × Json}
    (he : entry ∈ record) (ho : other ∈ record)
    (hes : Text.sameIgnoringAsciiCase entry.1 column = true)
    (hos : Text.sameIgnoringAsciiCase other.1 column = true) : entry = other :=
  List.inj_on_of_nodup_map h he ho ((eq_of_beq hes).trans (eq_of_beq hos).symm)

theorem has_of_column? (h : Record.column? record column = some value) :
    record.Has column value := by
  rw [Record.column?] at h
  cases hg : Members.get? column record with
  | some found =>
    rw [hg] at h
    cases h
    exact ⟨_, Members.mem_of_get? hg, beq_self_eq_true _, rfl⟩
  | none =>
    rw [hg] at h
    obtain ⟨entry, hfind, rfl⟩ := Option.map_eq_some_iff.mp h
    have hsame : Text.sameIgnoringAsciiCase entry.1 column = true := by
      simpa using List.find?_some hfind
    exact ⟨entry, List.mem_of_find?_eq_some hfind, hsame, rfl⟩

/-- In an unambiguous row the very name of a column and the first name that fits lead to the same
value, wherever the column stands. -/
theorem Unambiguous.column?_eq_some_iff (h : record.Unambiguous) :
    Record.column? record column = some value ↔ record.Has column value := by
  refine ⟨has_of_column?, ?_⟩
  rintro ⟨entry, hmem, hsame, rfl⟩
  refine Record.column?_eq_some ⟨entry, hmem, hsame⟩ fun other ho hos => ?_
  rw [h.eq_of_same ho hmem hos hsame]

theorem column?_congr (hl : left.Unambiguous) (hr : right.Unambiguous)
    (h : ∀ value, left.Has column value ↔ right.Has column value) :
    Record.column? left column = Record.column? right column :=
  Option.ext fun value => by rw [hl.column?_eq_some_iff, hr.column?_eq_some_iff, h value]

/-- A null that only one of two rows has makes no difference to what they hold. -/
theorem getD_column?_congr (hl : left.Unambiguous) (hr : right.Unambiguous)
    (h : ∀ value, value ≠ .null → (left.Has column value ↔ right.Has column value)) :
    (Record.column? left column).getD .null = (Record.column? right column).getD .null := by
  have hsome : ∀ value, value ≠ .null →
      (Record.column? left column = some value ↔ Record.column? right column = some value) := by
    intro value hv
    rw [hl.column?_eq_some_iff, hr.column?_eq_some_iff, h value hv]
  by_cases hnull : (Record.column? left column).getD .null = .null
  · rw [hnull]
    cases hc : Record.column? right column with
    | none => rfl
    | some value =>
      by_contra hne
      rw [(hsome value fun h => hne h.symm).mpr hc] at hnull
      exact hne hnull.symm
  · cases hc : Record.column? left column with
    | none => exact absurd (by rw [hc]; rfl) hnull
    | some value =>
      rw [hc] at hnull
      rw [(hsome value hnull).mp hc]

end Record

namespace Metadata

variable {m : Metadata} {left right record other : Record}

/-! ## Documents -/

theorem insertField_congr {f : ResolvedField} (members : Members)
    (h : (Record.column? left f.column).getD .null = (Record.column? right f.column).getD .null) :
    m.insertField left members f = m.insertField right members f := by
  rw [insertField, insertField]
  generalize Record.column? left f.column = found at h
  generalize Record.column? right f.column = found' at h
  cases found with
  | none =>
    cases found' with
    | none => rfl
    | some value =>
      cases h
      rfl
  | some value =>
    cases found' with
    | none =>
      cases h
      rfl
    | some value' =>
      cases h
      rfl

/-- Rows that give the columns looked at the same values make the same document. -/
theorem materialize_congr
    (hkey : Record.column? left m.keyColumn = Record.column? right m.keyColumn)
    (hfields : ∀ f ∈ m.columns, (Record.column? left f.column).getD .null =
      (Record.column? right f.column).getD .null) :
    m.materialize left = m.materialize right := by
  have hstart : m.insertKey left [] = m.insertKey right [] := by
    rw [insertKey, insertKey, hkey]
  rw [materialize, materialize, hstart]
  exact List.foldl_ext _ _ _ fun members f hf => insertField_congr members (hfields f hf)

/-- Two rows hold the same in every declared column. A declared column that is missing counts as
null, but that of the key is missing in both or in none. -/
structure SameDeclared (m : Metadata) (left right : Record) : Prop where
  key (value : Json) : left.Has m.keyColumn value ↔ right.Has m.keyColumn value
  field {f : ResolvedField} (hf : f ∈ m.columns) (value : Json) (hv : value ≠ .null) :
    left.Has f.column value ↔ right.Has f.column value

theorem sameDeclared_of_column? (hl : left.Unambiguous) (hr : right.Unambiguous)
    (hkey : Record.column? left m.keyColumn = Record.column? right m.keyColumn)
    (hfields : ∀ f ∈ m.columns, ∀ value, value ≠ .null →
      (Record.column? left f.column = some value ↔ Record.column? right f.column = some value)) :
    m.SameDeclared left right where
  key value := by rw [← hl.column?_eq_some_iff, ← hr.column?_eq_some_iff, hkey]
  field hf value hv := by
    rw [← hl.column?_eq_some_iff, ← hr.column?_eq_some_iff]
    exact hfields _ hf value hv

theorem SameDeclared.materialize_eq (h : m.SameDeclared left right) (hl : left.Unambiguous)
    (hr : right.Unambiguous) : m.materialize left = m.materialize right :=
  materialize_congr (Record.column?_congr hl hr h.key)
    fun _ hf => Record.getD_column?_congr hl hr (h.field hf)

/-! ## Other spellings of a row -/

/-- A row made from another one: each column named with ASCII letters of other cases, the columns
put into another order, and columns added that are not declared. -/
def Respells (m : Metadata) (record other : Record) : Prop :=
  ∃ (names : List String) (added : Record),
    List.Forall₂ (fun name column => Text.sameIgnoringAsciiCase name column = true) names
      (record.map (·.1)) ∧
    (∀ entry ∈ added, ∀ column ∈ m.keyColumn :: m.columns.map (·.column),
      Text.sameIgnoringAsciiCase entry.1 column = false) ∧
    other.Perm (names.zip (record.map (·.2)) ++ added)

theorem zip_columns (record : Record) : (record.map (·.1)).zip (record.map (·.2)) = record := by
  rw [List.zip_map', List.map_id']

theorem Respells.has_iff (h : m.Respells record other) {column : String}
    (hc : column ∈ m.keyColumn :: m.columns.map (·.column)) (value : Json) :
    other.Has column value ↔ record.Has column value := by
  obtain ⟨names, added, hnames, hadded, hother⟩ := h
  constructor
  · rintro ⟨⟨name, _⟩, hmem, hsame, rfl⟩
    rcases List.mem_append.mp (hother.mem_iff.mp hmem) with hzip | hnew
    · obtain ⟨spelled, heq, hm⟩ := exists_mem_zip_right hnames hzip
      rw [zip_columns] at hm
      refine ⟨_, hm, ?_, rfl⟩
      exact beq_iff_eq.mpr ((eq_of_beq heq).symm.trans (eq_of_beq hsame))
    · rw [hadded _ hnew column hc] at hsame
      cases hsame
  · rintro ⟨⟨spelled, _⟩, hmem, hsame, rfl⟩
    rw [← zip_columns record] at hmem
    obtain ⟨name, heq, hm⟩ := exists_mem_zip_left hnames hmem
    refine ⟨_, hother.mem_iff.mpr (List.mem_append_left _ hm), ?_, rfl⟩
    exact beq_iff_eq.mpr ((eq_of_beq heq).trans (eq_of_beq hsame))

theorem Respells.sameDeclared (h : m.Respells record other) : m.SameDeclared other record where
  key := h.has_iff List.mem_cons_self
  field hf value _ := h.has_iff (List.mem_cons_of_mem _ (List.mem_map_of_mem hf)) value

/-- The document of a row, with the order of its members, depends on the declared columns alone. Two
rows without ambiguous columns that hold the same there make the same document; so neither the order
of the columns nor the case of their names nor any other column has a part in it. -/
theorem document_of_declared_columns (m : Metadata) :
    (∀ left right : Record, left.Unambiguous → right.Unambiguous → m.SameDeclared left right →
      m.materialize left = m.materialize right) ∧
      ∀ record other : Record, record.Unambiguous → other.Unambiguous → m.Respells record other →
        m.materialize other = m.materialize record :=
  ⟨fun _ _ hl hr h => h.materialize_eq hl hr,
    fun _ _ hr ho h => h.sameDeclared.materialize_eq ho hr⟩

end Metadata

namespace Samples.Order

def metadata : Metadata :=
  (Metadata.resolve descriptor descriptor.mappings none none).toOption.getD default

/-- An order without a name that is shipped to Porto. -/
def shippedRow : Record :=
  [("CorrelationId", .string Uuid.nil.text), ("Version", .int 1), ("Name", .null),
    ("ShippingCity", .string "Porto")]

/-- The same order where nulls are left out, in small letters and beside a column of its own. -/
def foldedRow : Record :=
  [("total", .int 5), ("shippingcity", .string "Porto"), ("version", .int 1),
    ("correlationid", .string Uuid.nil.text)]

/-- The same order in capitals and in reverse. -/
def capitalRow : Record :=
  [("TOTAL", .int 5), ("SHIPPINGCITY", .string "Porto"), ("NAME", .null), ("VERSION", .int 1),
    ("CORRELATIONID", .string Uuid.nil.text)]

/-- All rows of the order make the same document. -/
theorem document_of_shipped_order :
    Metadata.resolve descriptor descriptor.mappings none none = .ok metadata ∧
      (shippedRow.Unambiguous ∧ foldedRow.Unambiguous ∧ capitalRow.Unambiguous) ∧
      metadata.SameDeclared shippedRow foldedRow ∧ metadata.Respells shippedRow capitalRow ∧
      metadata.materialize foldedRow = [("CorrelationId", .string Uuid.nil.text),
        ("Version", .int 1), ("Shipping", .object [("City", .string "Porto")])] ∧
      metadata.materialize capitalRow = metadata.materialize foldedRow := by
  have hshipped : shippedRow.Unambiguous := by decide +kernel
  have hfolded : foldedRow.Unambiguous := by decide +kernel
  have hcapital : capitalRow.Unambiguous := by decide +kernel
  have hsame : metadata.SameDeclared shippedRow foldedRow := by
    refine Metadata.sameDeclared_of_column? hshipped hfolded rfl fun f hf value hv => ?_
    have hcolumn : f.column ∈ ["CorrelationId", "Version", "Name", "ShippingCity"] :=
      List.mem_map_of_mem hf
    generalize f.column = column at hcolumn
    simp only [List.mem_cons, List.not_mem_nil, or_false] at hcolumn
    rcases hcolumn with rfl | rfl | rfl | rfl
    · rfl
    · rfl
    · exact ⟨fun h => absurd (Option.some.inj h).symm hv, nofun⟩
    · rfl
  have hrespells : metadata.Respells shippedRow capitalRow := by
    refine ⟨["CORRELATIONID", "VERSION", "NAME", "SHIPPINGCITY"], [("TOTAL", .int 5)],
      by decide +kernel, by decide +kernel, ?_⟩
    exact (List.reverse_perm capitalRow).symm
  obtain ⟨hdeclared, hspelling⟩ := Metadata.document_of_declared_columns metadata
  have hdocument := hdeclared _ _ hshipped hfolded hsame
  refine ⟨rfl, ⟨hshipped, hfolded, hcapital⟩, hsame, hrespells, hdocument.symm.trans rfl, ?_⟩
  exact (hspelling _ _ hshipped hcapital hrespells).trans hdocument

end Samples.Order

end Sagas
