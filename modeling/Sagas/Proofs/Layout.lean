import Mathlib.Data.List.Nodup
import Sagas.Proofs.PathSegments

/-! Records with records in them: the documents that they are written as, and how the dotted paths
to their values find them there. -/
namespace Sagas

/-! ## Names without dots -/

theorem segments_of_dotless {key : String} (h : '.' ∉ key.toList) : segments key = [key] := by
  rw [segments, List.splitOn_eq_singleton h]
  simp

/-- Splitting undoes the dots between names without dots. -/
theorem segments_intercalate {names : List String} (hne : names ≠ [])
    (h : ∀ name ∈ names, '.' ∉ name.toList) : segments (".".intercalate names) = names := by
  have hchars : ∀ cs ∈ names.map String.toList, '.' ∉ cs := by simpa using h
  have hsplit := List.splitOn_intercalate '.' hchars (by simpa using hne)
  rw [segments, String.toList_intercalate, show ".".toList = ['.'] from rfl, hsplit, List.map_map]
  simp [Function.comp_def]

/-- Only without a dot can a name be the first of its own segments. -/
theorem dotless_of_segments {key : String} {rest : List String} (h : segments key = key :: rest) :
    '.' ∉ key.toList := by
  have hjoin := congrArg String.toList (join_segments key)
  rw [h, String.toList_join, List.flatMap_cons, String.toList_ofList] at hjoin
  have hlength := congrArg List.length hjoin
  rw [List.length_append] at hlength
  have hle := List.length_filter_le (· ≠ '.') key.toList
  -- The segments together are the name without its dots, and the first of them is all of it.
  have hall := List.length_filter_eq_length_iff.mp (Nat.le_antisymm hle (by omega))
  intro hdot
  simpa using hall '.' hdot

/-! ## Objects -/

namespace Members

/-- The object of members that are written one after the other: a later one takes the place of an
earlier one with its name. -/
def collect (entries : Members) : Members :=
  entries.foldl (fun members entry => put entry.1 entry.2 members) []

theorem get?_foldl_put (name : String) (entries members : Members) :
    get? name (entries.foldl (fun members entry => put entry.1 entry.2 members) members) =
      (get? name (collect entries)).or (get? name members) := by
  induction entries generalizing members with
  | nil => rfl
  | cons entry rest ih =>
    rw [collect, List.foldl_cons, List.foldl_cons, ih, ih (put _ _ _), Option.or_assoc]
    by_cases h : name = entry.1
    · subst h
      rw [get?_put_self, get?_put_self]
      rfl
    · rw [get?_put_of_ne h, get?_put_of_ne h]
      rfl

theorem get?_collect_cons (name key : String) (value : Json) (entries : Members) :
    get? name (collect ((key, value) :: entries)) =
      (get? name (collect entries)).or (if key = name then some value else none) := by
  rw [collect, List.foldl_cons, get?_foldl_put]
  rfl

theorem get?_collect_eq_none_iff {name : String} {entries : Members} :
    get? name (collect entries) = none ↔ name ∉ names entries := by
  induction entries with
  | nil => simp [collect, get?, names]
  | cons entry rest ih =>
    obtain ⟨key, value⟩ := entry
    rw [get?_collect_cons, Option.or_eq_none_iff, ih]
    simp [names, eq_comm, and_comm]

theorem mem_of_get?_collect {name : String} {value : Json} {entries : Members}
    (h : get? name (collect entries) = some value) : (name, value) ∈ entries := by
  induction entries with
  | nil => cases h
  | cons entry rest ih =>
    obtain ⟨key, first⟩ := entry
    rw [get?_collect_cons, Option.or_eq_some_iff] at h
    rcases h with h | ⟨-, h⟩
    · exact List.mem_cons_of_mem _ (ih h)
    · split at h
      next hkey =>
        cases h
        rw [hkey]
        exact List.mem_cons_self
      next => cases h

end Members

/-! ## Layouts -/

/-- The properties of a record type, from one on. -/
inductive Layout where
  | nil
  | leaf (key : String) (rest : Layout)
  /-- A property that is a record again, which is null in some documents if it is optional. -/
  | record (key : String) (optional : Bool) (inner rest : Layout)
  /-- A property that is written in documents, and not stored. -/
  | unstored (key : String) (rest : Layout)

namespace Layout

/-- The names that lead to each of the stored values, depth first. -/
def ways : Layout → List (List String)
  | nil => []
  | leaf key rest => [key] :: rest.ways
  | record key _ inner rest => inner.ways.map (key :: ·) ++ rest.ways
  | unstored _ rest => rest.ways

/-- The dotted paths of the stored values, depth first. -/
def paths (l : Layout) : List String :=
  l.ways.map (".".intercalate ·)

/-- The names of the properties. -/
def keys : Layout → List String
  | nil => []
  | leaf key rest | record key _ _ rest | unstored key rest => key :: rest.keys

/-- Every property with stored values has a name without dots, and no property of its record that
comes later has the same. -/
def Clear : Layout → Prop
  | nil => True
  | leaf key rest => ('.' ∉ key.toList ∧ key ∉ rest.keys) ∧ rest.Clear
  | record key _ inner rest =>
    (inner.ways ≠ [] → '.' ∉ key.toList ∧ key ∉ rest.keys) ∧ inner.Clear ∧ rest.Clear
  | unstored _ rest => rest.Clear

/-- The members that an instance is written with, one for each property, and its stored values in
the order of their ways: nothing for those of a record that is null. -/
inductive Written : Layout → Members → List (Option Json) → Prop
  | nil : Written nil [] []
  | leaf {key : String} {rest : Layout} {entries : Members} {values : List (Option Json)}
      (value : Json) (h : Written rest entries values) :
      Written (leaf key rest) ((key, value) :: entries) (some value :: values)
  | record {key : String} {optional : Bool} {inner rest : Layout} {below entries : Members}
      {under values : List (Option Json)} (hb : Written inner below under)
      (h : Written rest entries values) :
      Written (record key optional inner rest)
        ((key, .object (Members.collect below)) :: entries) (under ++ values)
  | null {key : String} {inner rest : Layout} {entries : Members} {values : List (Option Json)}
      (h : Written rest entries values) :
      Written (record key true inner rest) ((key, .null) :: entries)
        (inner.ways.map (fun _ => none) ++ values)
  | unstored {key : String} {rest : Layout} {entries : Members} {values : List (Option Json)}
      (value : Json) (h : Written rest entries values) :
      Written (unstored key rest) ((key, value) :: entries) values

/-- The stored values of a type are found, and put back, at the given paths. -/
structure FoundAt (l : Layout) (paths : List String) : Prop where
  listed : paths = l.paths
  /-- In every document the paths have the values of the instance. -/
  found : ∀ entries values, l.Written entries values →
    paths.map (Json.lookup (.object (Members.collect entries))) = values
  /-- A value that is put at a path is where the way of the path leads, and at no other's. -/
  placed : ∀ way ∈ l.ways, ∀ members, Members.Open way members → ∀ value, ∀ other ∈ l.ways,
    Json.walk other (.object (Members.insertPath members (".".intercalate way) value)) =
      if other = way then some value else Json.walk other (.object members)
  /-- A document stays as it is when a value of it is put back. -/
  restored : ∀ entries values, l.Written entries values → ∀ path ∈ paths, ∀ value,
    Json.lookup (.object (Members.collect entries)) path = some value →
      Members.insertPath (Members.collect entries) path value = Members.collect entries

/-! ## Ways -/

section
variable {l : Layout} {way : List String}

theorem exists_key_of_mem_ways (h : way ∈ l.ways) :
    ∃ key tail, way = key :: tail ∧ key ∈ l.keys := by
  induction l generalizing way with
  | nil => cases h
  | leaf key rest ih =>
    rcases List.mem_cons.mp h with rfl | h
    · exact ⟨key, [], rfl, List.mem_cons_self⟩
    · obtain ⟨name, tail, rfl, hname⟩ := ih h
      exact ⟨name, tail, rfl, List.mem_cons_of_mem _ hname⟩
  | record key optional inner rest _ ih =>
    rcases List.mem_append.mp h with h | h
    · obtain ⟨tail, -, rfl⟩ := List.mem_map.mp h
      exact ⟨key, tail, rfl, List.mem_cons_self⟩
    · obtain ⟨name, tail, rfl, hname⟩ := ih h
      exact ⟨name, tail, rfl, List.mem_cons_of_mem _ hname⟩
  | unstored key rest ih =>
    obtain ⟨name, tail, rfl, hname⟩ := ih h
    exact ⟨name, tail, rfl, List.mem_cons_of_mem _ hname⟩

theorem ne_nil_of_mem_ways (h : way ∈ l.ways) : way ≠ [] := by
  obtain ⟨key, tail, rfl, -⟩ := exists_key_of_mem_ways h
  exact List.cons_ne_nil key tail

theorem Clear.dotless (hl : l.Clear) (h : way ∈ l.ways) : ∀ name ∈ way, '.' ∉ name.toList := by
  induction l generalizing way with
  | nil => cases h
  | leaf key rest ih =>
    rcases List.mem_cons.mp h with rfl | h
    · simpa using hl.1.1
    · exact ih hl.2 h
  | record key optional inner rest ihi ih =>
    rcases List.mem_append.mp h with h | h
    · obtain ⟨tail, htail, rfl⟩ := List.mem_map.mp h
      exact List.forall_mem_cons.mpr ⟨(hl.1 (List.ne_nil_of_mem htail)).1, ihi hl.2.1 htail⟩
    · exact ih hl.2.2 h
  | unstored key rest ih => exact ih hl h

theorem Clear.segments (hl : l.Clear) (h : way ∈ l.ways) :
    segments (".".intercalate way) = way :=
  segments_intercalate (ne_nil_of_mem_ways h) (hl.dotless h)

/-- No way leads on where another one ends. -/
theorem Clear.eq_of_prefix (hl : l.Clear) {other : List String} (h : way ∈ l.ways)
    (ho : other ∈ l.ways) (hp : way <+: other) : way = other := by
  -- Ways that start in different properties start with different names, and none is in front of
  -- the other.
  induction l generalizing way other with
  | nil => cases h
  | leaf key rest ih =>
    rcases List.mem_cons.mp h with rfl | h <;> rcases List.mem_cons.mp ho with rfl | ho
    · rfl
    · obtain ⟨name, tail, rfl, hname⟩ := exists_key_of_mem_ways ho
      obtain ⟨rfl, -⟩ := List.cons_prefix_cons.mp hp
      exact absurd hname hl.1.2
    · obtain ⟨name, tail, rfl, hname⟩ := exists_key_of_mem_ways h
      obtain ⟨rfl, -⟩ := List.cons_prefix_cons.mp hp
      exact absurd hname hl.1.2
    · exact ih hl.2 h ho hp
  | record key optional inner rest ihi ih =>
    rcases List.mem_append.mp h with h | h <;> rcases List.mem_append.mp ho with ho | ho
    · obtain ⟨first, hfirst, rfl⟩ := List.mem_map.mp h
      obtain ⟨second, hsecond, rfl⟩ := List.mem_map.mp ho
      rw [ihi hl.2.1 hfirst hsecond (List.cons_prefix_cons.mp hp).2]
    · obtain ⟨first, hfirst, rfl⟩ := List.mem_map.mp h
      obtain ⟨name, tail, rfl, hname⟩ := exists_key_of_mem_ways ho
      obtain ⟨rfl, -⟩ := List.cons_prefix_cons.mp hp
      exact absurd hname (hl.1 (List.ne_nil_of_mem hfirst)).2
    · obtain ⟨second, hsecond, rfl⟩ := List.mem_map.mp ho
      obtain ⟨name, tail, rfl, hname⟩ := exists_key_of_mem_ways h
      obtain ⟨rfl, -⟩ := List.cons_prefix_cons.mp hp
      exact absurd hname (hl.1 (List.ne_nil_of_mem hsecond)).2
    · exact ih hl.2.2 h ho hp
  | unstored key rest ih => exact ih hl h ho hp

theorem Clear.ways_nodup (hl : l.Clear) : l.ways.Nodup := by
  induction l with
  | nil => exact List.nodup_nil
  | leaf key rest ih =>
    refine List.nodup_cons.mpr ⟨fun hmem => ?_, ih hl.2⟩
    obtain ⟨name, tail, heq, hname⟩ := exists_key_of_mem_ways hmem
    cases heq
    exact hl.1.2 hname
  | record key optional inner rest ihi ih =>
    refine List.Nodup.append ((ihi hl.2.1).map fun _ _ h => (List.cons.inj h).2) (ih hl.2.2) ?_
    intro way hway hrest
    obtain ⟨first, hfirst, rfl⟩ := List.mem_map.mp hway
    obtain ⟨name, tail, heq, hname⟩ := exists_key_of_mem_ways hrest
    cases heq
    exact (hl.1 (List.ne_nil_of_mem hfirst)).2 hname
  | unstored key rest ih => exact ih hl

theorem Clear.paths_nodup (hl : l.Clear) : l.paths.Nodup := by
  refine hl.ways_nodup.map_on fun first hfirst second hsecond heq => ?_
  rw [← hl.segments hfirst, heq, hl.segments hsecond]

end

/-! ## Finding -/

section
variable {l : Layout} {entries : Members} {values : List (Option Json)}

theorem Written.names (h : l.Written entries values) : Members.names entries = l.keys := by
  induction h with
  | nil => rfl
  | leaf value _ ih => exact congrArg _ ih
  | record _ _ _ ih => exact congrArg _ ih
  | null _ ih => exact congrArg _ ih
  | unstored value _ ih => exact congrArg _ ih

theorem walk_collect_first {key : String} (hk : key ∉ Members.names entries) (value : Json)
    (tail : List String) :
    Json.walk (key :: tail) (.object (Members.collect ((key, value) :: entries))) =
      Json.walk tail value := by
  rw [Json.walk_cons_object, Members.get?_collect_cons, Members.get?_collect_eq_none_iff.mpr hk,
    if_pos rfl]
  rfl

/-- A property in front plays no part for the ways of those after it. -/
theorem Written.walk_rest (h : l.Written entries values) (key : String) (value : Json)
    {way : List String} (hway : way ∈ l.ways) :
    Json.walk way (.object (Members.collect ((key, value) :: entries))) =
      Json.walk way (.object (Members.collect entries)) := by
  obtain ⟨name, tail, rfl, hname⟩ := exists_key_of_mem_ways hway
  rw [← h.names] at hname
  rw [Json.walk_cons_object, Json.walk_cons_object, Members.get?_collect_cons]
  cases hget : Members.get? name (Members.collect entries) with
  | none => exact absurd hname (Members.get?_collect_eq_none_iff.mp hget)
  | some found => rfl

/-- In every document the ways lead to the values of the instance. -/
theorem Clear.walk_ways (hl : l.Clear) (h : l.Written entries values) :
    l.ways.map (Json.walk · (.object (Members.collect entries))) = values := by
  induction h with
  | nil => rfl
  | @leaf key rest entries values value h ih =>
    have hk : key ∉ Members.names entries := h.names ▸ hl.1.2
    rw [ways, List.map_cons, walk_collect_first hk,
      List.map_congr_left fun _ hway => h.walk_rest key value hway, ih hl.2]
    rfl
  | @record key optional inner rest below entries under values hb h ihb ih =>
    rw [ways, List.map_append, List.map_map,
      List.map_congr_left fun _ hway => h.walk_rest key _ hway, ih hl.2.2]
    congr 1
    rw [← ihb hl.2.1]
    refine List.map_congr_left fun way hway => ?_
    have hk : key ∉ Members.names entries := h.names ▸ (hl.1 (List.ne_nil_of_mem hway)).2
    exact walk_collect_first hk _ way
  | @null key inner rest entries values h ih =>
    rw [ways, List.map_append, List.map_map,
      List.map_congr_left fun _ hway => h.walk_rest key _ hway, ih hl.2.2]
    congr 1
    refine List.map_congr_left fun way hway => ?_
    have hk : key ∉ Members.names entries := h.names ▸ (hl.1 (List.ne_nil_of_mem hway)).2
    obtain ⟨name, tail, rfl, -⟩ := exists_key_of_mem_ways hway
    exact walk_collect_first hk _ _
  | @unstored key rest entries values value h ih =>
    rw [ways, List.map_congr_left fun _ hway => h.walk_rest key _ hway]
    exact ih hl

theorem Clear.foundAt (hl : l.Clear) : l.FoundAt l.paths where
  listed := rfl
  found entries values h := by
    rw [← hl.walk_ways h, paths, List.map_map]
    refine List.map_congr_left fun way hway => ?_
    rw [Function.comp_apply, Json.lookup, hl.segments hway]
  placed way hway members hopen value other hother := by
    rw [Members.insertPath, hl.segments hway]
    split
    next heq =>
      rw [heq]
      exact Members.walk_insertAt_self (ne_nil_of_mem_ways hway) hopen value
    next hne =>
      refine Members.walk_insertAt_of_apart (fun hp => ?_) (fun hp => ?_) value
      · exact hne (hl.eq_of_prefix hway hother hp).symm
      · exact hne (hl.eq_of_prefix hother hway hp)
  restored entries values h path hpath value hlookup := Members.insertAt_of_walk hlookup

end

end Layout

end Sagas
