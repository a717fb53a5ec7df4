import Mathlib.Data.List.Infix
import Sagas.Declaration.Derivation
import Sagas.Declaration.TypeExpr.Reader

/-! Lists and maps as the types of fields, and which of them are stored as JSON. -/
namespace Sagas

/-! ## Words in texts -/

section
variable {α : Type} {word before after : List α} {c : α}

theorem prefix_append_cons_iff (h : c ∉ word) :
    word <+: before ++ c :: after ↔ word <+: before := by
  induction before generalizing word with
  | nil =>
    cases word with
    | nil => simp
    | cons d word => simp [List.cons_prefix_cons, (List.ne_of_not_mem_cons h).symm]
  | cons b before ih =>
    cases word with
    | nil => simp
    | cons d word =>
      rw [List.cons_append, List.cons_prefix_cons, List.cons_prefix_cons,
        ih (List.not_mem_of_not_mem_cons h)]

/-- A word stands on one side of a character that it does not have. -/
theorem infix_append_cons_iff (h : c ∉ word) :
    word <:+: before ++ c :: after ↔ word <:+: before ∨ word <:+: after := by
  induction before with
  | nil =>
    rw [List.nil_append, List.infix_cons_iff, ← List.nil_append (c :: after),
      prefix_append_cons_iff h, List.infix_nil, List.prefix_nil]
  | cons b before ih =>
    rw [List.cons_append, List.infix_cons_iff, ← List.cons_append, prefix_append_cons_iff h, ih,
      List.infix_cons_iff, or_assoc]

/-- Up to the first of some character two texts are the same. -/
theorem append_singleton_prefix_iff (hw : c ∉ word) (hb : c ∉ before) :
    word ++ [c] <+: before ++ c :: after ↔ before = word := by
  induction before generalizing word with
  | nil =>
    cases word with
    | nil => simp
    | cons d word => simp [List.cons_prefix_cons, (List.ne_of_not_mem_cons hw).symm]
  | cons b before ih =>
    cases word with
    | nil => simp [List.cons_prefix_cons, List.ne_of_not_mem_cons hb]
    | cons d word =>
      rw [List.cons_append, List.cons_append, List.cons_prefix_cons, List.cons.injEq,
        ih (List.not_mem_of_not_mem_cons hw) (List.not_mem_of_not_mem_cons hb), eq_comm (a := b)]

theorem infix_append_singleton_iff (h : c ∉ word) (hne : word ≠ []) :
    word <:+: before ++ [c] ↔ word <:+: before := by
  rw [infix_append_cons_iff h, List.infix_nil, or_iff_left hne]

theorem infix_intercalate_iff (h : c ∉ word) (hne : word ≠ []) {texts : List (List α)} :
    word <:+: [c].intercalate texts ↔ ∃ text ∈ texts, word <:+: text := by
  induction texts with
  | nil => simpa using hne
  | cons text texts ih =>
    cases texts with
    | nil => simp
    | cons next rest =>
      rw [List.intercalate_cons_cons, List.append_assoc, List.singleton_append,
        infix_append_cons_iff h, ih]
      simp only [List.exists_mem_cons_iff]

end

/-! ## Types with arguments -/

namespace TypeExpr

theorem contains_iff {word cs : List Char} : contains word cs = true ↔ word <:+: cs := by
  induction cs with
  | nil => simp [contains]
  | cons c cs ih =>
    rw [contains, Bool.or_eq_true, List.isPrefixOf_iff_prefix, ih, List.infix_cons_iff]

section
variable {cs word : List Char} {last : Char}

theorem isSuffixOf_of_last (hcs : cs.getLast? = some last) {c : Char}
    (hword : word.getLast? = some c) (hne : c ≠ last) : word.isSuffixOf cs = false := by
  rw [Bool.eq_false_iff, Ne, List.isSuffixOf_iff_suffix]
  rintro ⟨before, rfl⟩
  rw [List.getLast?_append, hword] at hcs
  exact hne (Option.some.inj hcs)

theorem isOneOf_of_last (hcs : cs.getLast? = some last) (words : List String)
    (hwords : ∀ word ∈ words, word.toList.getLast? ≠ some last) :
    Token.isOneOf words cs = false := by
  rw [Bool.eq_false_iff, Ne, Token.isOneOf, List.any_eq_true]
  rintro ⟨word, hmem, heq⟩
  exact hwords word hmem (of_decide_eq_true heq ▸ hcs)

end

/-- How a type is stored that has arguments in angle brackets: by its head, unless a word for a time
stands somewhere in it. -/
theorem storageOf_bracketed {head : List Char} (h : '<' ∉ head) (inside : List Char) :
    storageOf (head ++ '<' :: (inside ++ ['>'])) =
      if contains "NaiveDateTime".toList (head ++ '<' :: (inside ++ ['>'])) then .timestamp
      else if contains "DateTime".toList (head ++ '<' :: (inside ++ ['>'])) then .datetime
      else if Token.isOneOf ["Vec", "HashMap", "BTreeMap"] head then .json
      else .text := by
  have hlast : (head ++ '<' :: (inside ++ ['>'])).getLast? = some '>' := by
    rw [← List.cons_append, ← List.append_assoc, List.getLast?_concat]
  have hheads : ("Vec<".toList.isPrefixOf (head ++ '<' :: (inside ++ ['>'])) ||
      "HashMap<".toList.isPrefixOf (head ++ '<' :: (inside ++ ['>'])) ||
      "BTreeMap<".toList.isPrefixOf (head ++ '<' :: (inside ++ ['>']))) =
        Token.isOneOf ["Vec", "HashMap", "BTreeMap"] head := by
    have hstarts : ∀ word : String, '<' ∉ word.toList →
        (word.toList ++ ['<']).isPrefixOf (head ++ '<' :: (inside ++ ['>'])) =
          decide (word.toList = head) := fun word hword => by
      rw [Bool.eq_iff_iff, List.isPrefixOf_iff_prefix, append_singleton_prefix_iff hword h,
        decide_eq_true_iff, eq_comm]
    rw [show "Vec<".toList = "Vec".toList ++ ['<'] by decide,
      show "HashMap<".toList = "HashMap".toList ++ ['<'] by decide,
      show "BTreeMap<".toList = "BTreeMap".toList ++ ['<'] by decide,
      hstarts _ (by decide), hstarts _ (by decide), hstarts _ (by decide)]
    simp [Token.isOneOf, Bool.or_assoc]
  rw [storageOf]
  simp only [hheads, Bool.or_false, Bool.false_eq_true, if_false,
    isSuffixOf_of_last hlast (show "::Uuid".toList.getLast? = some 'd' by decide) (by decide),
    isSuffixOf_of_last hlast (show "Value".toList.getLast? = some 'e' by decide) (by decide),
    isOneOf_of_last hlast ["Uuid"] (by decide),
    isOneOf_of_last hlast ["i8", "i16", "i32", "u8", "u16"] (by decide),
    isOneOf_of_last hlast ["i64", "u32", "u64", "isize", "usize"] (by decide),
    isOneOf_of_last hlast ["f32", "f64"] (by decide),
    isOneOf_of_last hlast ["bool"] (by decide)]

end TypeExpr

/-! ## Containers -/

/-- The modules in front of the name of a type, and whether two colons are before the first. -/
structure ModulePath where
  absolute : Bool := false
  names : List (List Char) := []
  /-- Names are no types with arguments. -/
  plain : ∀ name ∈ names, '<' ∉ name := by decide

namespace ModulePath

def parts (path : ModulePath) : List TypePart :=
  (if path.absolute then TypePart.marks "::" else []) ++
    path.names.flatMap fun name => .token (.word name) :: TypePart.marks "::"

/-- Whether the name of a type stands alone. -/
def isEmpty (path : ModulePath) : Bool :=
  !path.absolute && path.names.isEmpty

end ModulePath

/-- A list or a map of values, with their types. -/
inductive Container where
  | vec (item : TypeExpr)
  | hashMap (key value : TypeExpr)
  | bTreeMap (key value : TypeExpr)

namespace Container

def name : Container → String
  | vec _ => "Vec"
  | hashMap _ _ => "HashMap"
  | bTreeMap _ _ => "BTreeMap"

/-- The types of what a container holds. -/
def contents : Container → List TypeExpr
  | vec item => [item]
  | hashMap key value | bTreeMap key value => [key, value]

/-- The type of a container as it is declared, perhaps with a comma after its last argument. -/
def type (c : Container) (path : ModulePath) (comma : Bool) : TypeExpr :=
  .path path.parts c.name.toList [.arguments (c.contents.map .type) comma]

/-- The types that declare a container: its own, or an `Option` of it. -/
inductive Declares (c : Container) (path : ModulePath) : TypeExpr → Prop
  | required (comma : Bool) : Declares c path (c.type path comma)
  | optional (outer : ModulePath) (comma inner : Bool) :
      Declares c path
        (.path outer.parts "Option".toList [.arguments [.type (c.type path inner)] comma])

end Container

/-! ## Texts of containers -/

theorem TypePart.listChars_append (first second : List TypePart) :
    TypePart.listChars (first ++ second) =
      TypePart.listChars first ++ TypePart.listChars second := by
  induction first with
  | nil => rfl
  | cons part rest ih => rw [List.cons_append, listChars, listChars, ih, List.append_assoc]

theorem TypeArgument.joinChars_types (types : List TypeExpr) (comma : Bool) :
    TypeArgument.joinChars (TypeArgument.listChars (types.map .type)) comma =
      [','].intercalate (types.map TypeExpr.chars) ++ if comma then [','] else [] := by
  have hchars : TypeArgument.listChars (types.map .type) = types.map fun t => (false, t.chars) := by
    induction types with
    | nil => rfl
    | cons t rest ih => rw [List.map_cons, listChars, ih, List.map_cons, chars]
  have hlast : ((types.getLast?.map fun t => (false, t.chars)).any Prod.fst) = false := by
    cases types.getLast? <;> rfl
  rw [hchars, joinChars]
  simp [hlast, List.partition_eq_filter_filter, List.filter_map, Function.comp_def]

theorem ModulePath.listChars_parts (path : ModulePath) :
    TypePart.listChars path.parts =
      (if path.absolute then "::".toList else []) ++ path.names.flatMap (· ++ "::".toList) := by
  have hnames : ∀ names : List (List Char), TypePart.listChars
      (names.flatMap fun name => .token (.word name) :: TypePart.marks "::") =
        names.flatMap (· ++ "::".toList) := by
    intro names
    induction names with
    | nil => rfl
    | cons name rest ih =>
      rw [List.flatMap_cons, TypePart.listChars_append, ih, List.flatMap_cons]
      rfl
  rw [parts, TypePart.listChars_append, hnames]
  split <;> rfl

theorem ModulePath.angle_not_mem (path : ModulePath) : '<' ∉ TypePart.listChars path.parts := by
  rw [listChars_parts, List.mem_append, List.mem_flatMap]
  rintro (h | ⟨name, hname, h⟩)
  · split at h
    · exact absurd h (by decide)
    · cases h
  · rcases List.mem_append.mp h with h | h
    · exact path.plain name hname h
    · exact absurd h (by decide)

/-- Modules leave colons in front of a name. -/
theorem ModulePath.isEmpty_or_colon_mem (path : ModulePath) :
    path.isEmpty = true ∧ TypePart.listChars path.parts = [] ∨
      path.isEmpty = false ∧ ':' ∈ TypePart.listChars path.parts := by
  rw [listChars_parts, isEmpty]
  cases path.absolute with
  | true => exact .inr ⟨rfl, List.mem_append_left _ (by decide)⟩
  | false =>
    cases path.names with
    | nil => exact .inl ⟨rfl, rfl⟩
    | cons name rest => exact .inr ⟨rfl, by simp⟩

theorem ModulePath.listChars_of_isEmpty (path : ModulePath) (h : path.isEmpty = true) :
    TypePart.listChars path.parts = [] := by
  rcases path.isEmpty_or_colon_mem with ⟨-, hchars⟩ | ⟨hempty, -⟩
  · exact hchars
  · exact absurd h (ne_true_of_eq_false hempty)

namespace Container

variable {c : Container} {path : ModulePath} {t : TypeExpr}

theorem chars_type (comma : Bool) : (c.type path comma).chars =
    TypePart.listChars path.parts ++ c.name.toList ++
      '<' :: ([','].intercalate (c.contents.map TypeExpr.chars) ++
        (if comma then [','] else []) ++ ['>']) := by
  rw [type, TypeExpr.chars, TypePart.listChars, TypePart.listChars, TypePart.chars,
    TypeArgument.joinChars_types]
  simp

theorem name_mem (c : Container) : c.name ∈ ["Vec", "HashMap", "BTreeMap"] := by
  cases c <;> simp [name]

theorem Declares.exists_required (h : c.Declares path t) :
    ∃ comma, t.required = c.type path comma := by
  cases h with
  | required comma =>
    have hoption : ∀ word ∈ ["Vec", "HashMap", "BTreeMap"], word.toList ≠ "Option".toList := by
      decide
    have hne := hoption c.name c.name_mem
    refine ⟨comma, ?_⟩
    rw [TypeExpr.required, type, TypeExpr.inside?]
    cases c <;> simp only [contents, List.map_cons, List.getLast?_singleton, if_neg hne] <;> rfl
  | optional outer comma inner => exact ⟨inner, rfl⟩

/-- A word without brackets and commas stands in the type of a container exactly if it stands in
front of the arguments or in the type of something that the container holds. -/
theorem infix_chars_type_iff {word : List Char} (ho : '<' ∉ word) (hc : '>' ∉ word)
    (hs : ',' ∉ word) (hne : word ≠ []) (comma : Bool) :
    word <:+: (c.type path comma).chars ↔
      word <:+: TypePart.listChars path.parts ++ c.name.toList ∨
        ∃ t ∈ c.contents, word <:+: t.chars := by
  have hcomma : word <:+: [','].intercalate (c.contents.map TypeExpr.chars) ++
      (if comma then [','] else []) ↔
        word <:+: [','].intercalate (c.contents.map TypeExpr.chars) := by
    cases comma with
    | true => exact infix_append_singleton_iff hs hne
    | false => rw [if_neg Bool.false_ne_true, List.append_nil]
  rw [chars_type, infix_append_cons_iff ho, infix_append_singleton_iff hc hne, hcomma,
    infix_intercalate_iff hs hne]
  simp only [List.mem_map, exists_exists_and_eq_and]

theorem angle_not_mem_head : '<' ∉ TypePart.listChars path.parts ++ c.name.toList := by
  have hname : ∀ word ∈ ["Vec", "HashMap", "BTreeMap"], '<' ∉ word.toList := by decide
  rw [List.mem_append]
  exact not_or.mpr ⟨path.angle_not_mem, hname c.name c.name_mem⟩

/-- The name of a container is all that stands in front of its arguments if no module does. -/
theorem isOneOf_head : Token.isOneOf ["Vec", "HashMap", "BTreeMap"]
    (TypePart.listChars path.parts ++ c.name.toList) = path.isEmpty := by
  rcases path.isEmpty_or_colon_mem with ⟨hempty, hchars⟩ | ⟨hempty, hcolon⟩
  · rw [hempty, hchars, List.nil_append]
    exact List.any_eq_true.mpr ⟨c.name, c.name_mem, decide_eq_true rfl⟩
  · rw [hempty, Bool.eq_false_iff, Ne, Token.isOneOf, List.any_eq_true]
    rintro ⟨word, hword, heq⟩
    have hmem : ':' ∈ word.toList := of_decide_eq_true heq ▸ List.mem_append_left _ hcolon
    have hname : ∀ word ∈ ["Vec", "HashMap", "BTreeMap"], ':' ∉ word.toList := by decide
    exact hname word hword hmem

/-- The text of a type has the word for a time exactly if that stands in a module or in the type of
something that the container holds. -/
theorem contains_dateTime_iff (comma : Bool) :
    TypeExpr.contains "DateTime".toList (c.type path comma).chars = true ↔
      "DateTime".toList <:+: TypePart.listChars path.parts ++ c.name.toList ∨
        ∃ t ∈ c.contents, TypeExpr.contains "DateTime".toList t.chars = true := by
  simp only [TypeExpr.contains_iff]
  exact infix_chars_type_iff (by decide) (by decide) (by decide) (by decide) comma

theorem not_infix_name : ¬ "DateTime".toList <:+: c.name.toList := by
  have hname : ∀ word ∈ ["Vec", "HashMap", "BTreeMap"],
      ¬ TypeExpr.contains "DateTime".toList word.toList = true := by decide
  exact mt TypeExpr.contains_iff.mpr (hname c.name c.name_mem)

/-- The type of a container is stored by what stands in front of its arguments, unless the word for
a time stands somewhere in its text. -/
theorem storageOf_type (comma : Bool) :
    TypeExpr.storageOf (c.type path comma).chars =
      if TypeExpr.contains "NaiveDateTime".toList (c.type path comma).chars then .timestamp
      else if TypeExpr.contains "DateTime".toList (c.type path comma).chars then .datetime
      else if path.isEmpty then .json
      else .text := by
  rw [chars_type, TypeExpr.storageOf_bracketed angle_not_mem_head, isOneOf_head]

end Container

/-- A list or a map, or an `Option` of one, is stored as JSON exactly if its name stands without a
module and no type of what it holds has the word for a time in its text. -/
theorem container_stored_as_json_iff {c : Container} {path : ModulePath} {f : FieldDeclaration}
    {s : FieldSettings} (hf : c.Declares path f.type) (hs : s.json = false) :
    Declaration.storage f s = .json ↔
      path.isEmpty = true ∧
        ∀ t ∈ c.contents, TypeExpr.contains "DateTime".toList t.chars = false := by
  obtain ⟨comma, ht⟩ := hf.exists_required
  rw [Declaration.storage, if_neg (ne_true_of_eq_false hs), TypeExpr.storage, ht,
    Container.storageOf_type]
  cases hdate : TypeExpr.contains "DateTime".toList (c.type path comma).chars with
  | true =>
    have hjson : ¬ (path.isEmpty = true ∧
        ∀ t ∈ c.contents, TypeExpr.contains "DateTime".toList t.chars = false) := by
      rintro ⟨hempty, hcontents⟩
      rcases (Container.contains_dateTime_iff comma).mp hdate with hhead | ⟨t, hmem, ht⟩
      · rw [path.listChars_of_isEmpty hempty, List.nil_append] at hhead
        exact Container.not_infix_name hhead
      · exact ne_true_of_eq_false (hcontents t hmem) ht
    simp only [hjson, if_true]
    split <;> simp
  | false =>
    -- The word for a time without a zone ends in the word for one with a zone.
    have hnaive : TypeExpr.contains "NaiveDateTime".toList (c.type path comma).chars = false := by
      have hend : "DateTime".toList <:+: "NaiveDateTime".toList :=
        TypeExpr.contains_iff.mp (by decide)
      rw [Bool.eq_false_iff, Ne, TypeExpr.contains_iff] at hdate ⊢
      exact fun h => hdate (hend.trans h)
    have hcontents : ∀ t ∈ c.contents, TypeExpr.contains "DateTime".toList t.chars = false :=
      fun t hmem => Bool.eq_false_iff.mpr fun ht => ne_true_of_eq_false hdate <|
        (Container.contains_dateTime_iff comma).mpr (.inr ⟨t, hmem, ht⟩)
    rw [hnaive, and_iff_left hcontents]
    cases path.isEmpty <;> simp

/-- The type with a name and no arguments. -/
def TypeExpr.named (name : String) : TypeExpr :=
  .path [] name.toList []

/-- Lists of counts by the ids of shelves. -/
def counts : Container :=
  .hashMap (.named "Uuid") ((Container.vec (.named "i32")).type {} false)

def countsField : FieldDeclaration where
  name := "counts"
  type := .path [] "Option".toList [.arguments [.type (counts.type {} false)] false]
  settings := []

example : countsField.type.text = "Option<HashMap<Uuid,Vec<i32>>>" := by decide

theorem counts_stored_as_json :
    counts.Declares {} countsField.type ∧
      Declaration.storage countsField { key := "counts" } = .json := by
  have hdeclared : counts.Declares {} countsField.type := .optional {} false false
  exact ⟨hdeclared, (container_stored_as_json_iff hdeclared rfl).mpr ⟨rfl, by decide⟩⟩

/-- A timetable has a list of times, and a list of bytes whose type is named with its module. -/
def timetable : Declaration where
  name := "Timetable"
  shape := .record [
    ⟨"correlation_id", .named "Uuid", []⟩,
    ⟨"times", (Container.vec
      (.path [] "DateTime".toList [.arguments [.type (.named "Utc")] false])).type {} false, []⟩,
    ⟨"bytes", (Container.vec (.named "u8")).type
      { names := ["std".toList, "vec".toList] } false, []⟩]
  settings := []

/-- Neither list of a timetable is stored as JSON. -/
theorem timetable_lists_not_stored_as_json :
    ∃ derived, Declaration.derive [] timetable = .ok derived ∧
      derived.descriptor.fields.map (fun f => (f.path, f.type)) =
        [("correlation_id", .uuid), ("times", .datetime), ("bytes", .text)] :=
  ⟨_, rfl, by decide⟩

end Sagas
