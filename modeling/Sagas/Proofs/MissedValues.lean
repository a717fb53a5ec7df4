import Sagas.Proofs.Layout

/-! Documents in which a dotted path leads to another place than the value that it belongs to, and
when there are none. -/
namespace Sagas.Layout

/-! ## Documents with one true value -/

def filled (value : Json) : Layout → Members
  | nil => []
  | leaf key rest => (key, value) :: rest.filled value
  | record key _ inner rest =>
    (key, .object (Members.collect (inner.filled value))) :: rest.filled value
  | unstored key rest => (key, .null) :: rest.filled value

theorem written_filled (value : Json) (l : Layout) :
    l.Written (l.filled value) (l.ways.map fun _ => some value) := by
  induction l with
  | nil => exact .nil
  | leaf key rest ih => exact .leaf value ih
  | record key optional inner rest ihi ih =>
    rw [ways, List.map_append, List.map_map]
    exact .record ihi ih
  | unstored key rest ih => exact .unstored .null ih

/-- A value in which no way leads to the truth. -/
def Blank (value : Json) : Prop :=
  ∀ way, Json.walk way value ≠ some (.bool true)

section
variable {l : Layout} {key : String} {value : Json} {entries : Members} {way : List String}

theorem blank_null : Blank .null := by
  intro way h
  cases way with
  | nil => cases h
  | cons name tail => cases h

/-- The truth is found in the first member, if the others are blank and none replaces it. -/
theorem walk_collect_eq_true (hb : ∀ entry ∈ entries, Blank entry.2)
    (h : Json.walk way (.object (Members.collect ((key, value) :: entries))) = some (.bool true)) :
    key ∉ Members.names entries ∧
      ∃ tail, way = key :: tail ∧ Json.walk tail value = some (.bool true) := by
  cases way with
  | nil => cases h
  | cons name tail =>
    rw [Json.walk_cons_object, Members.get?_collect_cons] at h
    cases hget : Members.get? name (Members.collect entries) with
    | some found =>
      rw [hget] at h
      exact absurd h (hb _ (Members.mem_of_get?_collect hget) tail)
    | none =>
      rw [hget, Option.none_or] at h
      split at h
      next hkey =>
        subst hkey
        exact ⟨Members.get?_collect_eq_none_iff.mp hget, tail, rfl, h⟩
      next => cases h

theorem walk_collect_eq_true_of_blank (hb : Blank value)
    (h : Json.walk way (.object (Members.collect ((key, value) :: entries))) = some (.bool true)) :
    Json.walk way (.object (Members.collect entries)) = some (.bool true) := by
  cases way with
  | nil => cases h
  | cons name tail =>
    rw [Json.walk_cons_object, Members.get?_collect_cons] at h
    rw [Json.walk_cons_object]
    cases hget : Members.get? name (Members.collect entries) with
    | some found =>
      rw [hget] at h
      exact h
    | none =>
      rw [hget, Option.none_or] at h
      split at h
      next => exact absurd h (hb tail)
      next => cases h

theorem blank_collect (hb : ∀ entry ∈ entries, Blank entry.2) :
    Blank (.object (Members.collect entries)) := by
  induction entries with
  | nil =>
    intro way h
    cases way with
    | nil => cases h
    | cons name tail => cases h
  | cons entry rest ih =>
    obtain ⟨hentry, hrest⟩ := List.forall_mem_cons.mp hb
    exact fun way h => ih hrest way (walk_collect_eq_true_of_blank hentry h)

theorem blank_filled (l : Layout) : ∀ entry ∈ l.filled .null, Blank entry.2 := by
  induction l with
  | nil => exact nofun
  | leaf key rest ih => exact List.forall_mem_cons.mpr ⟨blank_null, ih⟩
  | record key optional inner rest ihi ih =>
    exact List.forall_mem_cons.mpr ⟨blank_collect ihi, ih⟩
  | unstored key rest ih => exact List.forall_mem_cons.mpr ⟨blank_null, ih⟩

theorem dotless_of_append {rest tail : List String} (h : segments key ++ rest = key :: tail) :
    '.' ∉ key.toList ∧ tail = rest := by
  obtain ⟨first, more, hsegments⟩ := List.exists_cons_of_ne_nil (segments_ne_nil key)
  rw [hsegments, List.cons_append] at h
  obtain ⟨rfl, rfl⟩ := List.cons.inj h
  have hdot := dotless_of_segments hsegments
  rw [segments_of_dotless hdot] at hsegments
  obtain ⟨-, rfl⟩ := List.cons.inj hsegments
  exact ⟨hdot, rfl⟩

theorem paths_leaf (key : String) (rest : Layout) : (leaf key rest).paths = key :: rest.paths := by
  rw [paths, ways, List.map_cons, String.intercalate_singleton, paths]

theorem paths_record (key : String) (optional : Bool) (inner rest : Layout) :
    (record key optional inner rest).paths =
      inner.paths.map (fun path => key ++ "." ++ path) ++ rest.paths := by
  rw [paths, ways, List.map_append, List.map_map, paths, paths, List.map_map]
  congr 1
  refine List.map_congr_left fun way hway => ?_
  obtain ⟨name, tail, rfl, -⟩ := exists_key_of_mem_ways hway
  exact String.intercalate_cons_cons

end

/-- A type has a document in which one value is true, and its path leads somewhere else. -/
def Misses (l : Layout) : Prop :=
  ∃ entries values path, l.Written entries values ∧ (path, some (.bool true)) ∈ l.paths.zip values ∧
    Json.lookup (.object (Members.collect entries)) path ≠ some (.bool true)

section
variable {l inner rest : Layout} {key path : String} {value : Json} {entries below : Members}
variable {values under : List (Option Json)}

theorem Written.length (h : l.Written entries values) : l.paths.length = values.length := by
  rw [paths, List.length_map]
  induction h with
  | nil => rfl
  | leaf value _ ih => rw [ways, List.length_cons, List.length_cons, ih]
  | record _ _ ihb ih => rw [ways, List.length_append, List.length_append, List.length_map, ihb, ih]
  | null _ ih =>
    rw [ways, List.length_append, List.length_append, List.length_map, List.length_map, ih]
  | unstored value _ ih => exact ih

/-- A value that is missed is also missed behind a property without a true value. -/
theorem Misses.behind (ahead : List String) (before : List (Option Json)) (h : rest.Misses)
    (hb : Blank value)
    (hw : ∀ entries values, rest.Written entries values →
      l.Written ((key, value) :: entries) (before ++ values))
    (hp : l.paths = ahead ++ rest.paths) (hlength : ahead.length = before.length) : l.Misses := by
  obtain ⟨entries, values, path, hwritten, hmem, hne⟩ := h
  refine ⟨_, _, path, hw entries values hwritten, ?_, ?_⟩
  · rw [hp, List.zip_append hlength]
    exact List.mem_append_right _ hmem
  · exact fun heq => hne (walk_collect_eq_true_of_blank hb heq)

/-- A value of a record is missed if it is missed in the record alone, if the name of the record has
dots, and if a later property has the name. -/
theorem misses_record (optional : Bool) (hb : inner.Written below under)
    (hmem : (path, some (.bool true)) ∈ inner.paths.zip under)
    (hmissed : '.' ∉ key.toList ∧ key ∉ rest.keys →
      Json.lookup (.object (Members.collect below)) path ≠ some (.bool true)) :
    (record key optional inner rest).Misses := by
  have hrest := written_filled .null rest
  refine ⟨_, _, key ++ "." ++ path, .record hb hrest, ?_, ?_⟩
  · rw [paths_record, List.zip_append (by rw [List.length_map, hb.length]), List.zip_map_left]
    exact List.mem_append_left _ (List.mem_map.mpr ⟨_, hmem, rfl⟩)
  · intro heq
    rw [Json.lookup, segments_append] at heq
    obtain ⟨hk, tail, hsegments, htail⟩ := walk_collect_eq_true (blank_filled rest) heq
    obtain ⟨hdot, rfl⟩ := dotless_of_append hsegments
    exact hmissed ⟨hdot, hrest.names ▸ hk⟩ htail

/-- Where a name has dots, or a later property has it too, there is a value that is missed. -/
theorem misses_of_not_clear (h : ¬ l.Clear) : l.Misses := by
  -- The first property is not clear itself, and a value of its own is made true, or one of the
  -- layouts in it and behind it is not, and its document is put in one that is null elsewhere.
  induction l with
  | nil => exact absurd trivial h
  | leaf key rest ih =>
    by_cases hkey : '.' ∉ key.toList ∧ key ∉ rest.keys
    · exact (ih fun hrest => h ⟨hkey, hrest⟩).behind [key] [some .null] blank_null
        (fun _ _ hw => hw.leaf .null) (paths_leaf key rest) rfl
    · have hrest := written_filled .null rest
      refine ⟨_, _, key, hrest.leaf (.bool true), ?_, ?_⟩
      · rw [paths_leaf]
        exact List.mem_cons_self
      · intro heq
        obtain ⟨hk, tail, hsegments, -⟩ := walk_collect_eq_true (blank_filled rest) heq
        exact hkey ⟨dotless_of_segments hsegments, hrest.names ▸ hk⟩
  | record key optional inner rest ihi ih =>
    by_cases hinner : inner.Clear
    · by_cases hrest : rest.Clear
      · -- Only the name of the record is left to be wrong.
        have hkey : inner.ways ≠ [] ∧ ¬ ('.' ∉ key.toList ∧ key ∉ rest.keys) := by
          rw [← Classical.not_imp]
          exact fun hkey => h ⟨hkey, hinner, hrest⟩
        obtain ⟨way, others, hways⟩ := List.exists_cons_of_ne_nil hkey.1
        have hmem : (".".intercalate way, some (Json.bool true)) ∈
            inner.paths.zip (inner.ways.map fun _ => some (Json.bool true)) := by
          rw [paths, hways]
          exact List.mem_cons_self
        exact misses_record optional (written_filled (.bool true) inner) hmem
          fun hclear => absurd hclear hkey.2
      · refine (ih hrest).behind _ (inner.ways.map fun _ => some .null)
          (blank_collect (blank_filled inner))
          (fun _ _ hw => .record (written_filled .null inner) hw)
          (paths_record key optional inner rest) ?_
        rw [List.length_map, (written_filled .null inner).length]
    · obtain ⟨below, under, path, hb, hmem, hne⟩ := ihi hinner
      exact misses_record optional hb hmem fun _ => hne
  | unstored key rest ih =>
    exact (ih h).behind [] [] blank_null (fun _ _ hw => .unstored .null hw)
      (List.nil_append _).symm rfl

/-- The paths of a type find its values exactly if its names are clear. Where they are not, two
paths may be the same and one of them left out. -/
theorem foundAt_iff {given : List String} (hgiven : given = l.paths ∨ ¬ l.paths.Nodup) :
    l.FoundAt given ↔ l.Clear := by
  constructor
  · intro h
    by_contra hl
    obtain ⟨entries, values, path, hw, hmem, hne⟩ := misses_of_not_clear hl
    have hzip : l.paths.zip values =
        l.paths.map fun p => (p, Json.lookup (.object (Members.collect entries)) p) := by
      rw [← h.found entries values hw, h.listed]
      simpa using List.zip_map' (f := id) (l := l.paths)
    rw [hzip] at hmem
    obtain ⟨p, -, heq⟩ := List.mem_map.mp hmem
    obtain ⟨rfl, hlookup⟩ := Prod.mk.inj heq
    exact hne hlookup
  · intro hl
    rw [hgiven.resolve_right fun hno => hno hl.paths_nodup]
    exact hl.foundAt

end

end Sagas.Layout
