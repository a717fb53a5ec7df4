import Sagas.Declaration.Naming

/-! Which fields a declaration names as documents do, where documents change ASCII letters alone. -/
namespace Sagas

/-! ## Letter case -/

section

variable {α : Type} {xs rest cs : List α} {c : α}

/-- Where as many elements follow as are expected, a piece that is not empty is the first expected
element exactly if it is that element alone. -/
theorem append_eq_cons_iff_of_length_le (hne : xs ≠ []) (hlen : cs.length ≤ rest.length) :
    xs ++ rest = c :: cs ↔ xs = [c] ∧ rest = cs := by
  constructor
  · intro h
    have hlength : xs.length + rest.length = cs.length + 1 := by
      rw [← List.length_append, h, List.length_cons]
    have hpos : 0 < xs.length := List.length_pos_iff.mpr hne
    obtain ⟨x, rfl⟩ := List.length_eq_one_iff.mp (show xs.length = 1 by omega)
    obtain ⟨rfl, rfl⟩ := List.cons.inj h
    exact ⟨rfl, rfl⟩
  · rintro ⟨rfl, rfl⟩
    rfl

end

namespace Text

open CaseTable

theorem small_iff {c : Char} :
    'a'.val ≤ c.val ∧ c.val ≤ 'z'.val ↔ 97 ≤ c.toNat ∧ c.toNat ≤ 122 := by
  simp [UInt32.le_iff_toNat_le]

theorem capital_iff {c : Char} :
    c.val ≥ 'A'.val ∧ c.val ≤ 'Z'.val ↔ 65 ≤ c.toNat ∧ c.toNat ≤ 90 := by
  simp [UInt32.le_iff_toNat_le]

theorem isUpper_iff {c : Char} : c.isUpper ↔ 65 ≤ c.toNat ∧ c.toNat ≤ 90 :=
  decide_eq_true_iff.trans capital_iff

theorem toNat_toUpper (c : Char) :
    c.toUpper.toNat = if 97 ≤ c.toNat ∧ c.toNat ≤ 122 then c.toNat - 32 else c.toNat := by
  split
  next h =>
    have hupper : c.toUpper = ⟨c.val + ('A'.val - 'a'.val), _⟩ := dif_pos (small_iff.mpr h)
    have hcode : c.toUpper.toNat = (c.val + ('A'.val - 'a'.val)).toNat := by
      rw [hupper]
      rfl
    rw [hcode, UInt32.toNat_add]
    simp only [Char.toNat_val, ↓Char.isValue, Char.reduceVal, UInt32.reduceSub,
      UInt32.reduceToNat, Nat.reducePow]
    omega
  next h => exact congrArg Char.toNat (dif_neg (mt small_iff.mp h))

theorem toNat_toLower (c : Char) :
    c.toLower.toNat = if 65 ≤ c.toNat ∧ c.toNat ≤ 90 then c.toNat + 32 else c.toNat := by
  split
  next h =>
    have hlower : c.toLower = ⟨c.val + ('a'.val - 'A'.val), _⟩ := dif_pos (capital_iff.mpr h)
    have hcode : c.toLower.toNat = (c.val + ('a'.val - 'A'.val)).toNat := by
      rw [hlower]
      rfl
    rw [hcode, UInt32.toNat_add]
    simp only [Char.toNat_val, ↓Char.isValue, Char.reduceVal, UInt32.reduceSub,
      UInt32.reduceToNat, Nat.reducePow]
    omega
  next h => exact congrArg Char.toNat (dif_neg (mt capital_iff.mp h))

theorem toLower_toUpper_eq_self_iff {c : Char} : c.toUpper.toLower = c ↔ ¬ c.isUpper := by
  rw [← Char.toNat_inj, toNat_toLower, toNat_toUpper, isUpper_iff]
  grind

theorem toLower_eq_self {c : Char} (h : ¬ c.isUpper) : c.toLower = c := by
  rw [isUpper_iff] at h
  rw [← Char.toNat_inj, toNat_toLower, if_neg h]

theorem mapFull_ne_nil {special : List (Nat × List Nat)} (h : ∀ entry ∈ special, entry.2 ≠ [])
    (runs : List Run) (c : Char) : mapFull special runs c ≠ [] := by
  rw [mapFull]
  cases hlookup : special.lookup c.toNat with
  | none => simp
  | some codes =>
    obtain ⟨before, after, hspecial, -⟩ := List.lookup_eq_some_iff.mp hlookup
    have hmem : (c.toNat, codes) ∈ special := by simp [hspecial]
    simpa using h _ hmem

theorem upperChar_ne_nil (c : Char) : upperChar c ≠ [] := by
  rw [upperChar]
  split
  · exact List.cons_ne_nil _ _
  · exact mapFull_ne_nil (by decide) _ _

theorem lowerChar_ne_nil (c : Char) : lowerChar c ≠ [] := by
  rw [lowerChar]
  split
  · exact List.cons_ne_nil _ _
  · exact mapFull_ne_nil (by decide) _ _

theorem length_le_flatMap_upperChar (cs : List Char) :
    cs.length ≤ (cs.flatMap upperChar).length := by
  induction cs with
  | nil => exact Nat.le_refl _
  | cons c cs ih =>
    have hpos := List.length_pos_iff.mpr (upperChar_ne_nil c)
    rw [List.flatMap_cons, List.length_append, List.length_cons]
    omega

/-- A text in upper case has its ASCII letters in upper case and all else as it was exactly if no
character has another upper case. -/
theorem flatMap_upperChar_eq_iff {cs : List Char} :
    cs.flatMap upperChar = cs.map Char.toUpper ↔ ∀ c ∈ cs, upperChar c = [c.toUpper] := by
  induction cs with
  | nil => simp
  | cons c cs ih =>
    have hlen : (cs.map Char.toUpper).length ≤ (cs.flatMap upperChar).length := by
      rw [List.length_map]
      exact length_le_flatMap_upperChar cs
    rw [List.flatMap_cons, List.map_cons,
      append_eq_cons_iff_of_length_le (upperChar_ne_nil c) hlen, ih, List.forall_mem_cons]

theorem length_le_lowerAfter (before cs : List Char) :
    cs.length ≤ (lowerAfter before cs).length := by
  induction cs generalizing before with
  | nil => exact Nat.le_refl _
  | cons c cs ih =>
    have hpos := List.length_pos_iff.mpr (lowerChar_ne_nil c)
    have hrest := ih (c :: before)
    rw [lowerAfter, List.length_append, List.length_cons]
    split
    · split <;> simp only [List.length_singleton] <;> omega
    · omega

/-- A text is its own lower case exactly if each of its characters is. -/
theorem lowerAfter_eq_self_iff {before cs : List Char} :
    lowerAfter before cs = cs ↔ ∀ c ∈ cs, lowerChar c = [c] := by
  induction cs generalizing before with
  | nil => simp [lowerAfter]
  | cons c cs ih =>
    have hlen := length_le_lowerAfter (c :: before) cs
    rw [lowerAfter, List.forall_mem_cons]
    split
    next hc =>
      -- Neither form of a small sigma is the capital.
      subst hc
      have hsigma : lowerChar 'Σ' ≠ ['Σ'] := by decide +kernel
      simp only [hsigma, false_and, iff_false]
      split <;> simp
    next =>
      rw [append_eq_cons_iff_of_length_le (lowerChar_ne_nil c) hlen, ih]

theorem upperChar_of_ascii {c : Char} (h : c.toNat < 128) : upperChar c = [c.toUpper] :=
  if_pos h

theorem lowerChar_of_ascii {c : Char} (h : c.toNat < 128) (hc : ¬ c.isUpper) :
    lowerChar c = [c] := by
  rw [lowerChar, if_pos h, toLower_eq_self hc]

end Text

/-! ## Names in documents -/

/-- A rule by which documents name the fields of a type. -/
inductive KeyRule where
  | lower
  | upper
  | pascal
  | camel
  | snake
  | screamingSnake
  | kebab
  | screamingKebab
deriving DecidableEq

namespace KeyRule

/-- The name by which a declaration asks for the rule. -/
def name : KeyRule → String
  | lower => "lowercase"
  | upper => "UPPERCASE"
  | pascal => "PascalCase"
  | camel => "camelCase"
  | snake => "snake_case"
  | screamingSnake => "SCREAMING_SNAKE_CASE"
  | kebab => "kebab-case"
  | screamingKebab => "SCREAMING-KEBAB-CASE"

/-- The text without underscores, where the ASCII letter after one becomes a capital, and the first
as well if a capital is pending. -/
def capitalized (capital : Bool) : List Char → List Char
  | [] => []
  | c :: cs =>
    if c = '_' then capitalized true cs
    else (if capital then c.toUpper else c) :: capitalized false cs

/-- The text with its first character in lower case, if that is an ASCII letter. -/
def uncapitalized : List Char → List Char
  | [] => []
  | c :: cs => c.toLower :: cs

def dashed (cs : List Char) : List Char :=
  cs.map fun c => if c = '_' then '-' else c

/-- The key of a field in documents. Fields are declared in snake case, so the rules for it and for
lower case change nothing. -/
def key (rule : KeyRule) (field : List Char) : List Char :=
  match rule with
  | lower | snake => field
  | upper | screamingSnake => field.map Char.toUpper
  | pascal => capitalized true field
  | camel => uncapitalized (capitalized true field)
  | kebab => dashed field
  | screamingKebab => (dashed field).map Char.toUpper

/-- The characters that start a word: those after an underscore, and the first if a word is
pending. -/
def initials (pending : Bool) : List Char → List Char
  | [] => []
  | c :: cs =>
    if c = '_' then initials true cs
    else if pending then c :: initials false cs else initials false cs

/-- What a field must be like to have one name in its declaration and in documents. Declarations
change letters of every script where documents change ASCII letters alone, and only documents lower
the first letter of a name in camel case. -/
def Agrees (rule : KeyRule) (field : List Char) : Prop :=
  match rule with
  | lower => ∀ c ∈ field, Text.lowerChar c = [c]
  | upper | screamingSnake | screamingKebab => ∀ c ∈ field, Text.upperChar c = [c.toUpper]
  | pascal => ∀ c ∈ initials true field, Text.upperChar c = [c.toUpper]
  | camel => ∀ c, field.find? (· ≠ '_') = some c → ¬ c.isUpper
  | snake | kebab => True

/-! ## Agreement -/

/-- The words of a text with their initials in full upper case. -/
def words (pending : Bool) : List Char → List Char
  | [] => []
  | c :: cs =>
    if c = '_' then words true cs
    else (if pending then Text.upperChar c else [c]) ++ words false cs

theorem words_eq_flatMap (cs : List Char) : ∃ word rest, cs.splitOn '_' = word :: rest ∧
    words true cs = (word :: rest).flatMap Text.upperFirst ∧
    words false cs = word ++ rest.flatMap Text.upperFirst := by
  induction cs with
  | nil => exact ⟨[], [], rfl, rfl, rfl⟩
  | cons c cs ih =>
    obtain ⟨word, rest, hsplit, hpending, hinside⟩ := ih
    rw [List.splitOn_cons_eq_if_modifyHead, hsplit]
    by_cases hc : c = '_'
    · refine ⟨[], word :: rest, by simp [hc], ?_, ?_⟩ <;>
        simp [words, hc, hpending, Text.upperFirst]
    · refine ⟨c :: word, rest, by simp [hc], ?_, ?_⟩ <;>
        simp [words, hc, hinside, Text.upperFirst]

theorem pascalCase_eq_words (cs : List Char) : NamingRule.pascalCase cs = words true cs := by
  obtain ⟨word, rest, hsplit, hpending, -⟩ := words_eq_flatMap cs
  rw [NamingRule.pascalCase, hsplit, hpending]

theorem length_capitalized_le_words (pending : Bool) (cs : List Char) :
    (capitalized pending cs).length ≤ (words pending cs).length := by
  induction cs generalizing pending with
  | nil => exact Nat.le_refl _
  | cons c cs ih =>
    by_cases hc : c = '_'
    · simpa [capitalized, words, hc] using ih true
    · have hpos := List.length_pos_iff.mpr (Text.upperChar_ne_nil c)
      have hrest := ih false
      cases pending <;> simp [capitalized, words, hc] <;> omega

theorem words_eq_capitalized_iff {pending : Bool} {cs : List Char} :
    words pending cs = capitalized pending cs ↔
      ∀ c ∈ initials pending cs, Text.upperChar c = [c.toUpper] := by
  induction cs generalizing pending with
  | nil => simp [words, capitalized, initials]
  | cons c cs ih =>
    rw [words, capitalized, initials]
    by_cases hc : c = '_'
    · rw [if_pos hc, if_pos hc, if_pos hc, ih]
    · rw [if_neg hc, if_neg hc, if_neg hc]
      cases pending with
      | false => simp [ih]
      | true =>
        have hlen := length_capitalized_le_words false cs
        simp only [if_true, List.forall_mem_cons]
        rw [append_eq_cons_iff_of_length_le (Text.upperChar_ne_nil c) hlen, ih]

/-- Once something is written, both algorithms go on alike. -/
theorem camelCase_started (pending : Bool) (cs : List Char) :
    NamingRule.camelCase true pending cs = capitalized pending cs := by
  induction cs generalizing pending with
  | nil => rfl
  | cons c cs ih => simp only [NamingRule.camelCase, capitalized, ih]

theorem camelCase_eq_iff {cs : List Char} :
    NamingRule.camelCase false false cs = uncapitalized (capitalized true cs) ↔
      ∀ c, cs.find? (· ≠ '_') = some c → ¬ c.isUpper := by
  induction cs with
  | nil => exact ⟨fun _ => nofun, fun _ => rfl⟩
  | cons c cs ih =>
    by_cases hc : c = '_'
    · rw [NamingRule.camelCase, capitalized, if_pos hc, if_pos hc, ih,
        List.find?_cons_of_neg (by simp [hc])]
    · have hcamel : NamingRule.camelCase false false (c :: cs) = c :: capitalized false cs := by
        rw [NamingRule.camelCase, if_neg hc, camelCase_started]
        rfl
      have hkey : uncapitalized (capitalized true (c :: cs)) =
          c.toUpper.toLower :: capitalized false cs := by
        rw [capitalized, if_neg hc]
        rfl
      have hfirst : (c :: cs).find? (· ≠ '_') = some c :=
        List.find?_cons_of_pos (decide_eq_true hc)
      rw [hcamel, hkey, hfirst, List.cons.injEq, eq_comm, Text.toLower_toUpper_eq_self_iff]
      simp only [and_true, Option.some.injEq, forall_eq']

theorem forall_mem_dashed_iff {cs : List Char} :
    (∀ c ∈ dashed cs, Text.upperChar c = [c.toUpper]) ↔
      ∀ c ∈ cs, Text.upperChar c = [c.toUpper] := by
  rw [dashed, List.forall_mem_map]
  refine forall₂_congr fun c _ => ?_
  split
  next hc => subst hc; decide
  next => rfl

/-- What a declaration makes of the characters of a field under the rule. -/
def declared (rule : KeyRule) (field : List Char) : List Char :=
  match rule with
  | lower => Text.lowerAfter [] field
  | snake => field
  | upper | screamingSnake => field.flatMap Text.upperChar
  | pascal => NamingRule.pascalCase field
  | camel => NamingRule.camelCase false false field
  | kebab => dashed field
  | screamingKebab => (dashed field).flatMap Text.upperChar

theorem applyNamed_name (rule : KeyRule) (field : String) :
    NamingRule.applyNamed (some rule.name) field = String.ofList (rule.declared field.toList) := by
  cases rule with
  | snake => exact (String.ofList_toList).symm
  | screamingKebab =>
    have happly : NamingRule.applyNamed (some screamingKebab.name) field =
        Text.upper (NamingRule.dashed field) := rfl
    rw [happly, Text.upper, NamingRule.dashed, String.toList_ofList]
    rfl
  | _ => rfl

theorem declared_eq_key_iff (rule : KeyRule) (field : List Char) :
    rule.declared field = rule.key field ↔ rule.Agrees field := by
  cases rule with
  | lower => exact Text.lowerAfter_eq_self_iff
  | upper | screamingSnake => exact Text.flatMap_upperChar_eq_iff
  | pascal =>
    simp only [declared, key, Agrees]
    rw [pascalCase_eq_words, words_eq_capitalized_iff]
  | camel => exact camelCase_eq_iff
  | snake | kebab => exact ⟨fun _ => trivial, fun _ => rfl⟩
  | screamingKebab => exact Text.flatMap_upperChar_eq_iff.trans forall_mem_dashed_iff

theorem mem_of_mem_initials {pending : Bool} {c : Char} {cs : List Char}
    (h : c ∈ initials pending cs) : c ∈ cs := by
  induction cs generalizing pending with
  | nil => exact h
  | cons c' cs ih =>
    rw [initials] at h
    split at h
    · exact List.mem_cons_of_mem _ (ih h)
    · split at h
      · obtain rfl | h := List.mem_cons.mp h
        · exact List.mem_cons_self
        · exact List.mem_cons_of_mem _ (ih h)
      · exact List.mem_cons_of_mem _ (ih h)

theorem agrees_of_ascii {field : List Char} (h : ∀ c ∈ field, c.toNat < 128 ∧ ¬ c.isUpper)
    (rule : KeyRule) : rule.Agrees field := by
  have hupper : ∀ c ∈ field, Text.upperChar c = [c.toUpper] := fun c hc =>
    Text.upperChar_of_ascii (h c hc).1
  cases rule with
  | lower => exact fun c hc => Text.lowerChar_of_ascii (h c hc).1 (h c hc).2
  | upper | screamingSnake | screamingKebab => exact hupper
  | pascal => exact fun c hc => hupper c (mem_of_mem_initials hc)
  | camel => exact fun c hc => (h c (List.mem_of_find?_eq_some hc)).2
  | snake | kebab => trivial

end KeyRule

/-- A declaration names a field by its key in documents exactly if the field is what its rule asks
for; one in ASCII without capitals is so under every rule. -/
theorem field_named_by_key_iff (rule : KeyRule) (field : String) :
    (NamingRule.applyNamed (some rule.name) field = String.ofList (rule.key field.toList) ↔
        rule.Agrees field.toList) ∧
      ((∀ c ∈ field.toList, c.toNat < 128 ∧ ¬ c.isUpper) → rule.Agrees field.toList) := by
  refine ⟨?_, fun h => KeyRule.agrees_of_ascii h rule⟩
  rw [KeyRule.applyNamed_name, String.ofList_inj, KeyRule.declared_eq_key_iff]

/-- A field with a doubled underscore and a digit, in two of the rules. -/
theorem field_named_by_key_in_snake_case :
    NamingRule.applyNamed (some "camelCase") "_zip__code2" =
        String.ofList (KeyRule.camel.key "_zip__code2".toList) ∧
      NamingRule.applyNamed (some "SCREAMING-KEBAB-CASE") "_zip__code2" = "-ZIP--CODE2" := by
  have hascii : ∀ c ∈ "_zip__code2".toList, c.toNat < 128 ∧ ¬ c.isUpper := by
    have hall : "_zip__code2".toList.all fun c => c.toNat < 128 && !c.isUpper := by decide +kernel
    exact fun c hc => by simpa using List.all_eq_true.mp hall c hc
  obtain ⟨hcamel, hagrees⟩ := field_named_by_key_iff .camel "_zip__code2"
  obtain ⟨hkebab, hagrees'⟩ := field_named_by_key_iff .screamingKebab "_zip__code2"
  exact ⟨hcamel.mpr (hagrees hascii), hkebab.mpr (hagrees' hascii)⟩

/-- Lower case takes the capitals of a field, camel case leaves its first one, and upper case makes
capitals outside ASCII; documents do none of this. -/
theorem fields_named_apart :
    (NamingRule.applyNamed (some KeyRule.lower.name) "customerId" = "customerid" ∧
        String.ofList (KeyRule.lower.key "customerId".toList) = "customerId") ∧
      (NamingRule.applyNamed (some KeyRule.camel.name) "URLPath" = "URLPath" ∧
        String.ofList (KeyRule.camel.key "URLPath".toList) = "uRLPath") ∧
      (NamingRule.applyNamed (some KeyRule.upper.name) "straße" = "STRASSE" ∧
        String.ofList (KeyRule.upper.key "straße".toList) = "STRAßE") ∧
      NamingRule.applyNamed (some KeyRule.pascal.name) "été" = "Été" ∧
        String.ofList (KeyRule.pascal.key "été".toList) = "été" := by
  decide +kernel

end Sagas
