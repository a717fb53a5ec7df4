import Sagas.Postgres.Binding
import Sagas.Postgres.Row
import Sagas.Proofs.JsonText
import Sagas.Proofs.WireRoundTrip

/-! Values that go to a PostgreSQL server and come back from a column of their type. -/
namespace Sagas

/-! ## Values -/

/-- A value of the very kind that a type has. Times are of whole microseconds in the years from 0 to
9999, and JSON is not null. -/
inductive Value.IsOwn : FieldType → Value → Prop
  | bool (b : Bool) : IsOwn .bool (.bool b)
  | int {n : Int64} : Postgres.fitsInt4 n = true → IsOwn .int (.int n)
  | bigint (n : Int64) : IsOwn .bigint (.int n)
  | float {x : Binary64} : x.isFinite = true → IsOwn .float (.float x)
  | text (s : String) : IsOwn .text (.string s)
  | uuid (id : Uuid) : IsOwn .uuid (.uuid id)
  | datetime {m : Moment} : m.IsMicro → IsOwn .datetime (.datetime m)
  | timestamp {m : Moment} : m.IsMicro → IsOwn .timestamp (.timestamp m)
  | json {j : Json} : j ≠ .null → j.IsProper → IsOwn .json (.json j)

/-- Whether nothing of a value is lost in a text: of JSON what nests too deep and what is read as
another number are. -/
def Value.IsKept : Value → Prop
  | .json j => j.nesting ≤ 127 ∧ ∀ x ∈ j.floats, Json.IsReadBack x
  | _ => True

theorem Value.ofJson_json {j : Json} (h : j ≠ .null) : ofJson .json j = .ok (.json j) := by
  cases j with
  | null => exact absurd rfl h
  | bool | number | string | array | object => rfl

theorem Value.ofNumber_int (n : Int64) : ofNumber (.int n.toInt) = .int n := by
  have hrange : Int64.minValue.toInt ≤ n.toInt ∧ n.toInt ≤ Int64.maxValue.toInt :=
    ⟨n.minValue_le_toInt, n.toInt_le⟩
  rw [ofNumber, JsonNumber.toInt64?, if_pos hrange, Int64.ofInt_toInt]

namespace Postgres

/-! ## Cells -/

theorem int4_of_fits {n : Int64} (h : fitsInt4 n = true) :
    Wire.int? 4 (Wire.ofInt 4 n.toInt) = some n.toInt := by
  simp only [fitsInt4, Bool.and_eq_true, decide_eq_true_eq] at h
  exact Wire.int?_ofInt (by decide) h.1 (Int.lt_of_le_of_lt h.2 (by decide))

theorem int8_of_toInt (n : Int64) : Wire.int? 8 (Wire.ofInt 8 n.toInt) = some n.toInt :=
  Wire.int?_ofInt (by decide) n.minValue_le_toInt (Int.lt_of_le_of_lt n.toInt_le (by decide))

theorem json?_ofJson (j : Json) : Wire.json? (Wire.ofJson j) = Json.parse j.text := by
  rw [Wire.ofJson, Wire.json?, if_pos rfl, Wire.plainJson?, Wire.text?_ofText, Option.bind_some]

/-! ## There and back -/

/-- What a value comes back as from a column of the type of its field: it is bound, its argument is
answered as it was sent, and the answer is read as rows are. -/
def comesBackAs (column : String) (type : FieldType) (v : Value) : Except StorageError Value := do
  let sent ← (argument v (some type)).mapError .driver
  let json ← (cellJson ⟨column, nullType (some type)⟩ sent.bytes).mapError .driver
  (Value.ofJson type (columnJson type json)).mapError .serialization

/-- A value that is sent as an argument of its column's type. -/
def IsSent (type : FieldType) (v : Value) (bytes : Bytes) : Prop :=
  argument v (some type) = .ok ⟨nullType (some type), some bytes⟩

section
variable {column : String} {type : FieldType} {v : Value} {bytes : Bytes} {json : Json}

theorem comesBackAs_of_cell (hs : IsSent type v bytes)
    (hc : cellJson? (nullType (some type)) bytes = some json) :
    comesBackAs column type v =
      (Value.ofJson type (columnJson type json)).mapError .serialization := by
  rw [IsSent] at hs
  simp only [comesBackAs, hs, cellJson, hc, Except.mapError, bind, Except.bind]

theorem comesBackAs_of_undecodable (hs : IsSent type v bytes)
    (hc : cellJson? (nullType (some type)) bytes = none) :
    comesBackAs column type v = .error (.driver (.undecodable (nullType (some type)).sql)) := by
  rw [IsSent] at hs
  simp only [comesBackAs, hs, cellJson, hc, Except.mapError, bind, Except.bind]

/-- A value comes back if its cell is read as JSON that stands for it. -/
theorem comesBackAs_self (hs : IsSent type v bytes)
    (hc : cellJson? (nullType (some type)) bytes = some json)
    (hv : Value.ofJson type (columnJson type json) = .ok v) :
    comesBackAs column type v = .ok v := by
  rw [comesBackAs_of_cell hs hc, hv]
  rfl

end

theorem isSent_of_isOwn {type : FieldType} {v : Value} (h : v.IsOwn type) :
    ∃ bytes, IsSent type v bytes := by
  cases h with
  | int h => exact ⟨_, if_pos h⟩
  | bool | bigint | float | text | uuid | datetime | timestamp | json => exact ⟨_, rfl⟩

/-! ## Kinds of values -/

section
variable (column : String)

theorem bool_comes_back (b : Bool) : comesBackAs column .bool (.bool b) = .ok (.bool b) := by
  have hsent : IsSent .bool (.bool b) (Wire.ofBool b) := rfl
  have hcell : cellJson? .bool (Wire.ofBool b) = some (.bool b) :=
    congrArg (Option.map Json.bool) (Wire.bool?_ofBool b)
  exact comesBackAs_self hsent hcell rfl

theorem int_comes_back {n : Int64} (h : fitsInt4 n = true) :
    comesBackAs column .int (.int n) = .ok (.int n) := by
  have hsent : IsSent .int (.int n) (Wire.ofInt 4 n.toInt) := if_pos h
  have hcell : cellJson? .int4 (Wire.ofInt 4 n.toInt) = some (.int n.toInt) :=
    congrArg (Option.map Json.int) (int4_of_fits h)
  exact comesBackAs_self hsent hcell (congrArg Except.ok (Value.ofNumber_int n))

theorem bigint_comes_back (n : Int64) : comesBackAs column .bigint (.int n) = .ok (.int n) := by
  have hsent : IsSent .bigint (.int n) (Wire.ofInt 8 n.toInt) := rfl
  have hcell : cellJson? .int8 (Wire.ofInt 8 n.toInt) = some (.int n.toInt) :=
    congrArg (Option.map Json.int) (int8_of_toInt n)
  exact comesBackAs_self hsent hcell (congrArg Except.ok (Value.ofNumber_int n))

theorem float_comes_back {x : Binary64} (h : x.isFinite = true) :
    comesBackAs column .float (.float x) = .ok (.float x) := by
  have hsent : IsSent .float (.float x) (Wire.ofFloat x) := rfl
  have hcell : cellJson? .float8 (Wire.ofFloat x) = some (floatJson x) :=
    congrArg (Option.map floatJson) (Wire.float?_ofFloat x)
  have hjson : floatJson x = .number (.float x) := if_pos h
  exact comesBackAs_self hsent (hjson ▸ hcell) rfl

theorem text_comes_back (s : String) : comesBackAs column .text (.string s) = .ok (.string s) := by
  have hsent : IsSent .text (.string s) (Wire.ofText s) := rfl
  have hcell : cellJson? .text (Wire.ofText s) = some (.string s) :=
    congrArg (Option.map Json.string) (Wire.text?_ofText s)
  exact comesBackAs_self hsent hcell rfl

theorem uuid_comes_back (id : Uuid) : comesBackAs column .uuid (.uuid id) = .ok (.uuid id) := by
  have hsent : IsSent .uuid (.uuid id) (Wire.ofUuid id) := rfl
  have hcell : cellJson? .uuid (Wire.ofUuid id) = some (.string id.text) :=
    congrArg (Option.map fun i : Uuid => Json.string i.text) (Wire.uuid?_ofUuid id)
  have hread : Value.ofJson .uuid (.string id.text) = .ok (.uuid id) := by
    rw [Value.ofJson, Uuid.parse?_text]
    rfl
  exact comesBackAs_self hsent hcell hread

/-- A moment is shown with its offset, so nothing is added when it is read. -/
theorem columnJson_microsecondText {m : Moment} (h : m.IsMicro) :
    columnJson .datetime (.string m.microsecondText) = .string m.microsecondText := by
  simp only [columnJson, h.parseRfc3339?_microsecondText]

theorem datetime_comes_back {m : Moment} (h : m.IsMicro) :
    comesBackAs column .datetime (.datetime m) = .ok (.datetime m) := by
  have hsent : IsSent .datetime (.datetime m) (Wire.ofMoment m) := rfl
  have hcell : cellJson? .timestamptz (Wire.ofMoment m) = some (.string m.microsecondText) :=
    congrArg (Option.map fun i : Moment => Json.string i.microsecondText) (Wire.moment?_ofMoment h)
  have hread : Value.ofJson .datetime (columnJson .datetime (.string m.microsecondText)) =
      .ok (.datetime m) := by
    rw [columnJson_microsecondText h, Value.ofJson, h.parseRfc3339?_microsecondText]
    rfl
  exact comesBackAs_self hsent hcell hread

theorem timestamp_comes_back {m : Moment} (h : m.IsMicro) :
    comesBackAs column .timestamp (.timestamp m) = .ok (.timestamp m) := by
  have hsent : IsSent .timestamp (.timestamp m) (Wire.ofMoment m) := rfl
  have hcell : cellJson? .timestamp (Wire.ofMoment m) = some (.string m.localText) :=
    congrArg (Option.map fun i : Moment => Json.string i.localText) (Wire.moment?_ofMoment h)
  have hread : Value.ofJson .timestamp (.string m.localText) = .ok (.timestamp m) := by
    rw [Value.ofJson, h.isShown.parseLocal?_localText]
    rfl
  exact comesBackAs_self hsent hcell hread

/-- JSON goes as its text, so it comes back as what that text is read as. -/
theorem json_comes_back_iff {j : Json} (hne : j ≠ .null) (hj : j.IsProper) :
    comesBackAs column .json (.json j) = .ok (.json j) ↔
      j.nesting ≤ 127 ∧ ∀ x ∈ j.floats, Json.IsReadBack x := by
  have hsent : IsSent .json (.json j) (Wire.ofJson j) := rfl
  rw [← Json.parse_text_eq_self_iff hj]
  constructor
  · intro h
    cases hp : Json.parse j.text with
    | none =>
      rw [comesBackAs_of_undecodable hsent ((json?_ofJson j).trans hp)] at h
      cases h
    | some k =>
      rw [comesBackAs_of_cell hsent ((json?_ofJson j).trans hp)] at h
      by_cases hk : k = .null
      · subst hk
        cases h
      · have hread : Value.ofJson .json (columnJson .json k) = .ok (.json k) := Value.ofJson_json hk
        rw [hread] at h
        cases h
        rfl
  · intro h
    exact comesBackAs_self hsent ((json?_ofJson j).trans h) (Value.ofJson_json hne)

end

theorem own_value_comes_back (column : String) {type : FieldType} {v : Value} (h : v.IsOwn type)
    (hk : v.IsKept) : comesBackAs column type v = .ok v := by
  cases h with
  | bool b => exact bool_comes_back column b
  | int h => exact int_comes_back column h
  | bigint n => exact bigint_comes_back column n
  | float h => exact float_comes_back column h
  | text s => exact text_comes_back column s
  | uuid id => exact uuid_comes_back column id
  | datetime h => exact datetime_comes_back column h
  | timestamp h => exact timestamp_comes_back column h
  | json hne hj => exact (json_comes_back_iff column hne hj).mpr hk

theorem comesBackAs_iff (column : String) {type : FieldType} {v : Value} (h : v.IsOwn type) :
    comesBackAs column type v = .ok v ↔ v.IsKept := by
  refine ⟨fun hback => ?_, own_value_comes_back column h⟩
  cases h with
  | json hne hj => exact (json_comes_back_iff column hne hj).mp hback
  | bool | int | bigint | float | text | uuid | datetime | timestamp => trivial

/-- Every value of the very kind of its field's type is sent as an argument of the matching type,
and comes back as it was, unless it is JSON that nests more than 127 deep or has a float that its
own text is not read as. Nulls of every type come back as JSON null. -/
theorem own_values_come_back_iff (column : String) (type : FieldType) :
    (∀ v, v.IsOwn type → (∃ bytes, IsSent type v bytes) ∧
      (comesBackAs column type v = .ok v ↔ v.IsKept)) ∧
    argument .null (some type) = .ok ⟨nullType (some type), none⟩ ∧
      cellJson ⟨column, nullType (some type)⟩ none = .ok .null ∧
        comesBackAs column type .null = .ok .null := by
  refine ⟨fun v hv => ⟨isSent_of_isOwn hv, comesBackAs_iff column hv⟩, rfl, rfl, ?_⟩
  cases type <;> rfl

/-- An object whose one float is read from its own text. -/
def ratio : Json :=
  .object [("low", .int 1), ("high", .array [.number (.float ⟨0x3fe0000000000000⟩)])]

theorem isOwn_ratio : (Value.json ratio).IsOwn .json :=
  .json (j := ratio) nofun ⟨by decide, ⟨by decide, by decide⟩, ⟨trivial, trivial⟩, trivial⟩

theorem isKept_ratio : (Value.json ratio).IsKept := by
  have hread : ∀ x ∈ ratio.floats, Json.IsReadBack x := by
    intro x hx
    obtain rfl : x = ⟨0x3fe0000000000000⟩ := List.mem_singleton.mp hx
    rw [Json.isReadBack_iff]
    decide +kernel
  exact ⟨by decide +kernel, hread⟩

theorem ratio_and_total_come_back :
    comesBackAs "Ratio" .json (.json ratio) = .ok (.json ratio) ∧
      comesBackAs "Total" .int (.int 7) = .ok (.int 7) ∧
        comesBackAs "Ratio" .json .null = .ok .null := by
  obtain ⟨hratio, -, -, hnull⟩ := own_values_come_back_iff "Ratio" .json
  obtain ⟨htotal, -⟩ := own_values_come_back_iff "Total" .int
  exact ⟨(hratio _ isOwn_ratio).2.mpr isKept_ratio, (htotal _ (.int (by decide))).2.mpr trivial,
    hnull⟩

/-- The float that is written 9.657553254993687e-8, and read from there as the one after it. -/
def driftingRate : Binary64 :=
  ⟨0x3e79ec9ebc67ae45⟩

/-- Arrays on top of an empty one, each with the next as its only item. -/
def tower (height : Nat) : Json :=
  Nat.repeat (fun j => .array [j]) height (.array [])

theorem isProper_tower (height : Nat) : (tower height).IsProper := by
  induction height with
  | zero => trivial
  | succ height ih => exact ⟨ih, trivial⟩

theorem nesting_tower (height : Nat) : (tower height).nesting = height + 1 := by
  induction height with
  | zero => rfl
  | succ height ih =>
    have hstep : (tower (height + 1)).nesting = 1 + max (tower height).nesting 0 := rfl
    omega

/-- A JSON number that comes back as the next one, and a JSON value that does not come back. -/
theorem json_comes_back_changed :
    Value.ofJson .json (.number (.float driftingRate)) =
        .ok (.json (.number (.float driftingRate))) ∧
      comesBackAs "Rate" .json (.json (.number (.float driftingRate))) =
        .ok (.json (.number (.float ⟨driftingRate.bits + 1⟩))) ∧
      Value.ofJson .json (tower 127) = .ok (.json (tower 127)) ∧
        comesBackAs "Rate" .json (.json (tower 127)) ≠ .ok (.json (tower 127)) := by
  have hsent : IsSent .json (.json (.number (.float driftingRate)))
    (Wire.ofJson (.number (.float driftingRate))) := rfl
  have hread : (JsonNumber.float driftingRate).reread = some (.float ⟨driftingRate.bits + 1⟩) := by
    decide +kernel
  have hrate : Json.parse (Json.number (.float driftingRate)).text =
      some (.number (.float ⟨driftingRate.bits + 1⟩)) := by
    rw [Json.parse_text (j := .number (.float driftingRate)) trivial, Json.reread, hread,
      Option.map_some]
  have hdeep : ¬ (tower 127).nesting ≤ 127 := by
    rw [nesting_tower]
    decide
  have htower := json_comes_back_iff "Rate" (j := tower 127) nofun (isProper_tower 127)
  exact ⟨rfl, comesBackAs_of_cell hsent ((json?_ofJson _).trans hrate), Value.ofJson_json nofun,
    fun h => hdeep (htower.mp h).1⟩

end Postgres

end Sagas
