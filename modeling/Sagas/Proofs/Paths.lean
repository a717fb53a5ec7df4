import Sagas.Json.Path

/-! Reading an object after a value was put into it at a path: what is found at that path, above it,
below it and beside it. -/
namespace Sagas

theorem segments_ne_nil (path : String) : segments path ≠ [] := by
  rw [segments]
  simp [List.splitOn, List.splitOnP_ne_nil]

/-! ## Walking -/

namespace Json

theorem walk_append (first second : List String) (value : Json) :
    walk (first ++ second) value = (walk first value).bind (walk second) := by
  induction first generalizing value with
  | nil => rfl
  | cons name rest ih =>
    simp only [List.cons_append, walk, Option.bind_assoc]
    congr 1
    funext child
    exact ih child

theorem walk_cons_object (name : String) (rest : List String) (members : Members) :
    walk (name :: rest) (.object members) = (Members.get? name members).bind (walk rest) :=
  rfl

/-- Only objects have something below them. -/
theorem object_of_walk {name : String} {rest : List String} {value below : Json}
    (h : walk (name :: rest) value = some below) : ∃ members, value = .object members := by
  cases value with
  | object members => exact ⟨members, rfl⟩
  | null => cases h
  | bool b => cases h
  | number n => cases h
  | string s => cases h
  | array items => cases h

/-- What stands on the way to a value is an object. -/
theorem object_of_walk_append {parent rest : List String} (hr : rest ≠ []) {value below : Json}
    (h : walk (parent ++ rest) value = some below) :
    ∃ members, walk parent value = some (.object members) := by
  rw [walk_append] at h
  obtain ⟨child, hc, hbelow⟩ := Option.bind_eq_some_iff.mp h
  obtain ⟨name, tail, rfl⟩ := List.exists_cons_of_ne_nil hr
  obtain ⟨members, rfl⟩ := object_of_walk hbelow
  exact ⟨members, hc⟩

end Json

/-! ## Putting -/

namespace Members

/-- Putting the value that a name has already changes nothing. -/
theorem put_of_get? {name : String} {value : Json} {members : Members}
    (h : get? name members = some value) : put name value members = members := by
  induction members with
  | nil => cases h
  | cons head rest ih =>
    obtain ⟨key, old⟩ := head
    by_cases hk : key = name
    · rw [get?, if_pos hk] at h
      cases h
      rw [put, if_pos hk]
    · rw [get?, if_neg hk] at h
      rw [put, if_neg hk, ih h]

/-- Everything on the way to a path, as far as it is there, is an object. -/
def Open (path : List String) (members : Members) : Prop :=
  ∀ parent rest, parent ++ rest = path → rest ≠ [] →
    ∀ value, Json.walk parent (.object members) = some value → ∃ child, value = .object child

variable {name : String} {path : List String} {value : Json} {members child : Members}

theorem Open.tail (h : Open (name :: path) members)
    (hc : get? name members = some (.object child)) :
    Open path child := by
  intro parent rest hp hr v hv
  refine h (name :: parent) rest (by rw [List.cons_append, hp]) hr v ?_
  rw [Json.walk_cons_object, hc]
  exact hv

theorem open_nil (path : List String) : Open path [] := by
  intro parent rest _ _ v hv
  cases parent with
  | nil => cases hv; exact ⟨[], rfl⟩
  | cons name parent => cases hv

/-- The members that stand below a name on an open way, none if it is absent. -/
def below (name : String) (members : Members) : Members :=
  match get? name members with
  | some (.object child) => child
  | _ => []

theorem Open.below (h : Open (name :: path) members) : Open path (below name members) := by
  rw [Members.below]
  split
  · rename_i child hc
    exact h.tail hc
  · exact open_nil path

/-- On an open way a value is put into what stands below the first name. -/
theorem insertAt_of_open {next : String} {rest : List String}
    (h : Open (name :: next :: rest) members) (value : Json) :
    insertAt (name :: next :: rest) value members =
      put name (.object (insertAt (next :: rest) value (below name members))) members := by
  rw [insertAt, below]
  cases hc : get? name members with
  | none => rfl
  | some x =>
    obtain ⟨child, rfl⟩ := h [name] (next :: rest) rfl (List.cons_ne_nil _ _) x (by
      rw [Json.walk_cons_object, hc]
      rfl)
    rfl

/-- What was put at a path is found there, if the way is open. -/
theorem walk_insertAt_self (hp : path ≠ []) (h : Open path members) (value : Json) :
    Json.walk path (.object (insertAt path value members)) = some value := by
  induction path generalizing members with
  | nil => exact absurd rfl hp
  | cons name path ih =>
    cases path with
    | nil => rw [insertAt, Json.walk_cons_object, get?_put_self]; rfl
    | cons next rest =>
      rw [insertAt_of_open h, Json.walk_cons_object, get?_put_self]
      exact ih (List.cons_ne_nil _ _) h.below

/-- Putting the value that a path has already changes nothing. -/
theorem insertAt_of_walk (h : Json.walk path (.object members) = some value) :
    insertAt path value members = members := by
  induction path generalizing members with
  | nil => rfl
  | cons name path ih =>
    rw [Json.walk_cons_object] at h
    obtain ⟨x, hx, hwalk⟩ := Option.bind_eq_some_iff.mp h
    cases path with
    | nil =>
      cases hwalk
      rw [insertAt, put_of_get? hx]
    | cons next rest =>
      obtain ⟨child, rfl⟩ := Json.object_of_walk hwalk
      rw [insertAt, hx]
      simp only [ih hwalk, put_of_get? hx]

/-- What stands neither on the way to a path nor below it stays as it is. -/
theorem walk_insertAt_of_apart {other : List String} (ho : ¬ path <+: other)
    (hp : ¬ other <+: path) (value : Json) :
    Json.walk other (.object (insertAt path value members)) =
      Json.walk other (.object members) := by
  induction path generalizing other members with
  | nil => exact absurd List.nil_prefix ho
  | cons name path ih =>
    obtain ⟨first, tail, rfl⟩ : ∃ first tail, other = first :: tail := by
      cases other with
      | nil => exact absurd List.nil_prefix hp
      | cons first tail => exact ⟨first, tail, rfl⟩
    rw [Json.walk_cons_object, Json.walk_cons_object]
    by_cases hf : first = name
    · subst hf
      have ho' : ¬ path <+: tail := fun h => ho (List.cons_prefix_cons.mpr ⟨rfl, h⟩)
      have hp' : ¬ tail <+: path := fun h => hp (List.cons_prefix_cons.mpr ⟨rfl, h⟩)
      cases path with
      | nil => exact absurd List.nil_prefix ho'
      | cons next rest =>
        rw [insertAt]
        cases hc : get? first members with
        | none =>
          -- Below a new object there is only the way to the path.
          simp only [get?_put_self, Option.bind_some, Option.bind_none, ih ho' hp']
          cases tail with
          | nil => exact absurd List.nil_prefix hp'
          | cons second tail => rfl
        | some x =>
          cases x with
          | object child => simp only [get?_put_self, Option.bind_some, ih ho' hp']
          | _ => simp only [hc]
    · cases path with
      | nil => rw [insertAt, get?_put_of_ne hf]
      | cons next rest =>
        rw [insertAt]
        cases hc : get? name members with
        | none => simp only [get?_put_of_ne hf]
        | some x =>
          cases x with
          | object child => simp only [get?_put_of_ne hf]
          | _ => rfl

end Members

end Sagas
