import Sagas.Proofs.Paths

/-! Putting values at dotted paths: what is found afterwards, what stays as it was, and that the
order of two insertions at paths apart shows in the order of members only. -/
namespace Sagas

/-! ## The order of members -/

namespace Json

/-- Values that differ at most in the order of members: their own, or those of objects in them. -/
inductive Reordered : Json → Json → Prop
  | refl (value : Json) : Reordered value value
  | swap {a b : String × Json} (before after : Members) (h : a.1 ≠ b.1) :
      Reordered (.object (before ++ a :: b :: after)) (.object (before ++ b :: a :: after))
  | member {a b : Json} (name : String) (before after : Members) (h : Reordered a b) :
      Reordered (.object (before ++ (name, a) :: after)) (.object (before ++ (name, b) :: after))
  | trans {a b c : Json} (h : Reordered a b) (h' : Reordered b c) : Reordered a c

end Json

namespace Members

theorem get?_append (name : String) (before after : Members) :
    get? name (before ++ after) = (get? name before).or (get? name after) := by
  induction before with
  | nil => rfl
  | cons head rest ih =>
    obtain ⟨key, value⟩ := head
    by_cases h : key = name <;> simp [get?, h, ih]

theorem get?_swap {a b : String × Json} (h : a.1 ≠ b.1) (name : String) (rest : Members) :
    get? name (a :: b :: rest) = get? name (b :: a :: rest) := by
  rw [get?, get?, get?, get?]
  split
  next ha => rw [if_neg (ha ▸ h.symm)]
  next => rfl

end Members

namespace Json

theorem Reordered.rel_trans {a b c : Option Json} (h : Option.Rel Reordered a b)
    (h' : Option.Rel Reordered b c) : Option.Rel Reordered a c := by
  cases h with
  | none => exact h'
  | some h =>
    cases h' with
    | some h' => exact .some (h.trans h')

theorem Reordered.rel_refl (value : Option Json) : Option.Rel Reordered value value := by
  cases value with
  | none => exact .none
  | some value => exact .some (.refl value)

/-- In values that differ in the order of members the same is found at every path, up to this
order. -/
theorem Reordered.walk {a b : Json} (h : Reordered a b) (path : List String) :
    Option.Rel Reordered (Json.walk path a) (Json.walk path b) := by
  induction h generalizing path with
  | refl value => exact rel_refl _
  | swap before after hne =>
    cases path with
    | nil => exact .some (.swap before after hne)
    | cons name path =>
      rw [walk_cons_object, walk_cons_object, Members.get?_append, Members.get?_append,
        Members.get?_swap hne]
      exact rel_refl _
  | member key before after h ih =>
    cases path with
    | nil => exact .some (.member key before after h)
    | cons name path =>
      rw [walk_cons_object, walk_cons_object, Members.get?_append, Members.get?_append]
      cases Members.get? name before with
      | some found => exact rel_refl _
      | none =>
        rw [Option.none_or, Option.none_or, Members.get?, Members.get?]
        split
        next => exact ih path
        next => exact rel_refl _
  | trans _ _ ih ih' => exact rel_trans (ih path) (ih' path)

end Json

namespace Members

variable {name : String} {path other : List String} {value second : Json} {members : Members}

/-! ## Putting twice -/

theorem put_put_self (name : String) (first second : Json) (members : Members) :
    put name second (put name first members) = put name second members := by
  induction members with
  | nil => simp [put]
  | cons head rest ih =>
    obtain ⟨key, old⟩ := head
    by_cases h : key = name <;> simp [put, h, ih]

/-- The place of a name does not depend on the value that is put there. -/
theorem exists_put_eq (name : String) (members : Members) :
    ∃ before after, ∀ value, put name value members = before ++ (name, value) :: after := by
  induction members with
  | nil => exact ⟨[], [], fun _ => rfl⟩
  | cons head rest ih =>
    obtain ⟨key, old⟩ := head
    by_cases h : key = name
    · exact ⟨[], rest, fun value => by simp [put, h]⟩
    · obtain ⟨before, after, hput⟩ := ih
      exact ⟨(key, old) :: before, after, fun value => by simp [put, h, hput]⟩

/-- Values are put under two names in either order, unless both are new: then the one that comes
second stands last. -/
theorem put_comm_or {first : String} (h : first ≠ name) (x y : Json) (members : Members) :
    put first y (put name x members) = put name x (put first y members) ∨
      put first y (put name x members) = members ++ [(name, x), (first, y)] ∧
        put name x (put first y members) = members ++ [(first, y), (name, x)] := by
  induction members with
  | nil => exact .inr (by simp [put, h, h.symm])
  | cons head rest ih =>
    obtain ⟨key, old⟩ := head
    by_cases hn : key = name
    · subst hn
      exact .inl (by simp [put, h.symm])
    · by_cases hf : key = first
      · subst hf
        exact .inl (by simp [put, h])
      · rcases ih with ih | ⟨ih, ih'⟩
        · exact .inl (by simp [put, hn, hf, ih])
        · exact .inr (by simp [put, hn, hf, ih, ih'])

theorem put_comm {first : String} (h : first ≠ name) (x y : Json) (members : Members) :
    Json.Reordered (.object (put first y (put name x members)))
      (.object (put name x (put first y members))) := by
  rcases put_comm_or h x y members with heq | ⟨heq, heq'⟩
  · rw [heq]
    exact .refl _
  · rw [heq, heq']
    exact .swap members [] h.symm

/-! ## One step -/

/-- The value that a member has once something was put below it, if anything can be. -/
def entryAfter : List String → Json → Option Json → Option Json
  | [], value, _ => some value
  | next :: rest, value, none => some (.object (insertAt (next :: rest) value []))
  | next :: rest, value, some (.object child) =>
    some (.object (insertAt (next :: rest) value child))
  | _ :: _, _, some _ => none

/-- An insertion looks at one member only, and changes no other. -/
theorem insertAt_cons (name : String) (path : List String) (value : Json) (members : Members) :
    insertAt (name :: path) value members =
      ((entryAfter path value (get? name members)).map (put name · members)).getD members := by
  cases path with
  | nil => rfl
  | cons next rest =>
    rw [insertAt]
    cases get? name members with
    | none => rfl
    | some old => cases old <;> rfl

theorem get?_insertAt_of_ne {first : String} (h : first ≠ name) (path : List String)
    (value : Json) (members : Members) :
    get? first (insertAt (name :: path) value members) = get? first members := by
  rw [insertAt_cons]
  cases entryAfter path value (get? name members) with
  | none => rfl
  | some entry => exact get?_put_of_ne h entry members

/-- Every way on below a name is closed, or all lead into one object. -/
theorem entryAfter_cases (old : Option Json) :
    (∀ path value, path ≠ [] → entryAfter path value old = none) ∨
      ∃ child, ∀ path value, path ≠ [] →
        entryAfter path value old = some (.object (insertAt path value child)) := by
  have hobject : ∀ child path value, path ≠ [] →
      entryAfter path value (some (.object child)) =
        some (.object (insertAt path value child)) := by
    intro child path value hp
    obtain ⟨next, rest, rfl⟩ := List.exists_cons_of_ne_nil hp
    rfl
  cases old with
  | none =>
    refine .inr ⟨[], fun path value hp => ?_⟩
    obtain ⟨next, rest, rfl⟩ := List.exists_cons_of_ne_nil hp
    rfl
  | some old =>
    cases old with
    | object child => exact .inr ⟨child, hobject child⟩
    | _ =>
      refine .inl fun path value hp => ?_
      obtain ⟨next, rest, rfl⟩ := List.exists_cons_of_ne_nil hp
      rfl

/-! ## Closed ways -/

theorem open_cons (h : ∀ old, get? name members = some old →
    ∃ child, old = .object child ∧ Open path child) : Open (name :: path) members := by
  intro parent rest hp hr v hv
  cases parent with
  | nil =>
    cases hv
    exact ⟨members, rfl⟩
  | cons first parent =>
    obtain ⟨rfl, htail⟩ := List.cons.inj hp
    rw [Json.walk_cons_object] at hv
    obtain ⟨old, hold, hv⟩ := Option.bind_eq_some_iff.mp hv
    obtain ⟨child, rfl, hchild⟩ := h old hold
    exact hchild parent rest htail hr v hv

theorem open_singleton (name : String) (members : Members) : Open [name] members := by
  intro parent rest hp hr v hv
  cases parent with
  | nil =>
    cases hv
    exact ⟨members, rfl⟩
  | cons first parent =>
    obtain ⟨-, hp⟩ := List.cons.inj hp
    exact absurd (List.append_eq_nil_iff.mp hp).2 hr

theorem insertAt_of_not_open (h : ¬ Open path members) (value : Json) :
    insertAt path value members = members := by
  induction path generalizing members with
  | nil => rfl
  | cons name path ih =>
    cases path with
    | nil => exact absurd (open_singleton name members) h
    | cons next rest =>
      rw [insertAt]
      cases hold : get? name members with
      | none => exact absurd (open_cons fun old h => by rw [hold] at h; cases h) h
      | some old =>
        cases old with
        | object child =>
          have hchild : ¬ Open (next :: rest) child := fun ho =>
            h (open_cons fun old h => ⟨child, by rw [hold] at h; cases h; rfl, ho⟩)
          simp only [ih hchild, put_of_get? hold]
        | _ => rfl

/-! ## Places -/

theorem getElem?_put {i : Nat} {key : String} {old : Json} (h : members[i]? = some (key, old))
    (name : String) (value : Json) :
    ∃ new, (put name value members)[i]? = some (key, new) ∧ (key ≠ name → new = old) := by
  induction members generalizing i with
  | nil => cases h
  | cons head rest ih =>
    obtain ⟨first, found⟩ := head
    rw [put]
    cases i with
    | zero =>
      cases h
      split
      next heq => exact ⟨value, rfl, fun hne => absurd heq hne⟩
      next => exact ⟨old, rfl, fun _ => rfl⟩
    | succ i =>
      split
      next => exact ⟨old, h, fun _ => rfl⟩
      next => exact ih h

theorem getElem?_insertAt {i : Nat} {key : String} {old : Json}
    (h : members[i]? = some (key, old)) (path : List String) (value : Json) :
    ∃ new, (insertAt path value members)[i]? = some (key, new) ∧
      (path.head? ≠ some key → new = old) := by
  cases path with
  | nil => exact ⟨old, h, fun _ => rfl⟩
  | cons name path =>
    rw [insertAt_cons]
    cases entryAfter path value (get? name members) with
    | none => exact ⟨old, h, fun _ => rfl⟩
    | some entry =>
      obtain ⟨new, hnew, hkeep⟩ := getElem?_put h name entry
      exact ⟨new, hnew, fun hne => hkeep fun heq => hne (congrArg some heq.symm)⟩

/-! ## Two insertions -/

/-- Values are put at two paths apart in either order. -/
theorem insertAt_comm (ho : ¬ path <+: other) (hp : ¬ other <+: path) (value second : Json)
    (members : Members) :
    Json.Reordered (.object (insertAt other second (insertAt path value members)))
      (.object (insertAt path value (insertAt other second members))) := by
  -- Along a common name both go into the same object; where the names part, each changes a member
  -- that the other does not look at.
  induction path generalizing other members with
  | nil => exact absurd List.nil_prefix ho
  | cons name path ih =>
    obtain ⟨first, tail, rfl⟩ : ∃ first tail, other = first :: tail :=
      List.exists_cons_of_ne_nil fun h => hp (h ▸ List.nil_prefix)
    by_cases hf : first = name
    · subst hf
      have ho' : ¬ path <+: tail := fun h => ho (List.cons_prefix_cons.mpr ⟨rfl, h⟩)
      have hp' : ¬ tail <+: path := fun h => hp (List.cons_prefix_cons.mpr ⟨rfl, h⟩)
      have hpath : path ≠ [] := fun h => ho' (h ▸ List.nil_prefix)
      have htail : tail ≠ [] := fun h => hp' (h ▸ List.nil_prefix)
      rcases entryAfter_cases (get? first members) with hclosed | ⟨child, hchild⟩
      · have hkeep : ∀ {way} (v : Json), way ≠ [] →
            insertAt (first :: way) v members = members := by
          intro way v hway
          rw [insertAt_cons, hclosed way v hway]
          rfl
        rw [hkeep value hpath, hkeep second htail, hkeep value hpath]
        exact .refl _
      · have hfirst : ∀ {way} (v : Json), way ≠ [] → insertAt (first :: way) v members =
            put first (.object (insertAt way v child)) members := by
          intro way v hway
          rw [insertAt_cons, hchild way v hway]
          rfl
        have hthen : ∀ {way} (v : Json) (inner : Members), way ≠ [] →
            insertAt (first :: way) v (put first (.object inner) members) =
              put first (.object (insertAt way v inner)) members := by
          intro way v inner hway
          obtain ⟨next, rest, rfl⟩ := List.exists_cons_of_ne_nil hway
          rw [insertAt, get?_put_self]
          exact put_put_self ..
        rw [hfirst value hpath, hfirst second htail, hthen _ _ hpath, hthen _ _ htail]
        obtain ⟨before, after, hput⟩ := exists_put_eq first members
        rw [hput, hput]
        exact .member first before after (ih ho' hp' child)
    · rw [insertAt_cons first, get?_insertAt_of_ne hf,
        insertAt_cons name path value (insertAt _ _ _), get?_insertAt_of_ne (Ne.symm hf),
        insertAt_cons, insertAt_cons]
      cases entryAfter path value (get? name members) with
      | none => exact .refl _
      | some x =>
        cases entryAfter tail second (get? first members) with
        | none => exact .refl _
        | some y => exact put_comm hf x y members

/-! ## Paths -/

/-- Neither of two paths leads on from the other. -/
def Apart (path other : String) : Prop :=
  ¬ segments path <+: segments other ∧ ¬ segments other <+: segments path

instance (path other : String) : Decidable (Apart path other) :=
  inferInstanceAs (Decidable (_ ∧ _))

/-- What becomes of an object when a value is put at a path. -/
structure PutLaws (members : Members) (path : String) (value : Json) : Prop where
  /-- On an open way the value is found where it was put. -/
  found : Open (segments path) members →
    Json.lookup (.object (insertPath members path value)) path = some value
  /-- On any other way nothing is put. -/
  closed : ¬ Open (segments path) members → insertPath members path value = members
  /-- All that is neither on the way nor below the path stays. -/
  apart : ∀ other, Apart path other →
    Json.lookup (.object (insertPath members path value)) other =
      Json.lookup (.object members) other
  /-- All members stay in their places, those that the way does not begin with as they are. -/
  places : ∀ (i : Nat) (name : String) (old : Json), members[i]? = some (name, old) →
    ∃ new, (insertPath members path value)[i]? = some (name, new) ∧
      ((segments path).head? ≠ some name → new = old)
  /-- A value that is there already is put there again. -/
  again : Json.lookup (.object members) path = some value →
    insertPath members path value = members
  /-- In either order with an insertion apart from it, the same is found up to the order of
  members. -/
  comm : ∀ other, Apart path other → ∀ second third,
    Option.Rel Json.Reordered
      (Json.lookup (.object (insertPath (insertPath members path value) other second)) third)
      (Json.lookup (.object (insertPath (insertPath members other second) path value)) third)

/-- Putting values at dotted paths obeys the laws of reading them there. -/
theorem insertPath_obeys (members : Members) (path : String) (value : Json) :
    PutLaws members path value where
  found h := walk_insertAt_self (segments_ne_nil path) h value
  closed h := insertAt_of_not_open h value
  apart _ h := walk_insertAt_of_apart h.1 h.2 value
  places _ _ _ h := getElem?_insertAt h _ value
  again h := insertAt_of_walk h
  comm _ h second third := (insertAt_comm h.1 h.2 value second members).walk (segments third)

def note : Members :=
  [("text", .string "draft"), ("at", .object [])]

/-- Two values below an empty object are both found, in whichever order they are put there, and
nothing is put below a text. -/
theorem insertions_into_note :
    Json.lookup (.object (insertPath note "at..to" .null)) "at..to" = some .null ∧
      insertPath note "text.size" .null = note ∧
      Option.Rel Json.Reordered
        (Json.lookup
          (.object (insertPath (insertPath note "at..to" .null) "at.by" (.bool true))) "at")
        (Json.lookup
          (.object (insertPath (insertPath note "at.by" (.bool true)) "at..to" .null)) "at") := by
  have hopen : Open ["at", "", "to"] note :=
    open_cons fun old hold => ⟨[], by cases hold; rfl, open_nil _⟩
  have hclosed : ¬ Open ["text", "size"] note := fun h => by
    obtain ⟨child, hchild⟩ := h ["text"] ["size"] rfl (List.cons_ne_nil _ _) (.string "draft") rfl
    cases hchild
  exact ⟨(insertPath_obeys note "at..to" .null).found hopen,
    (insertPath_obeys note "text.size" .null).closed hclosed,
    (insertPath_obeys note "at..to" .null).comm "at.by" (by decide) (.bool true) "at"⟩

end Members

end Sagas
