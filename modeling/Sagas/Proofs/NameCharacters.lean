import Sagas.Metadata
import Sagas.Proofs.FieldNames

/-! The characters of the names that fields have in documents, and of the names of parameters. -/
namespace Sagas

/-! ## Case -/

/-- A property of characters that small and capital letters share. -/
structure CaseBlind (p : Char → Prop) : Prop where
  upper : ∀ c, p c.toUpper ↔ p c
  lower : ∀ c, p c.toLower ↔ p c

def IsAscii (cs : List Char) : Prop :=
  ∀ c ∈ cs, c.toNat < 128

section
variable {p q : Char → Prop}

theorem CaseBlind.imp (hp : CaseBlind p) (hq : CaseBlind q) : CaseBlind fun c => p c → q c where
  upper c := imp_congr (hp.upper c) (hq.upper c)
  lower c := imp_congr (hp.lower c) (hq.lower c)

theorem CaseBlind.or (hp : CaseBlind p) (hq : CaseBlind q) : CaseBlind fun c => p c ∨ q c where
  upper c := or_congr (hp.upper c) (hq.upper c)
  lower c := or_congr (hp.lower c) (hq.lower c)

theorem caseBlind_const (holds : Prop) : CaseBlind fun _ => holds where
  upper _ := Iff.rfl
  lower _ := Iff.rfl

theorem isLower_iff {c : Char} : c.isLower ↔ 97 ≤ c.toNat ∧ c.toNat ≤ 122 :=
  (Bool.and_eq_true ..).to_iff.trans
    ((and_congr decide_eq_true_iff decide_eq_true_iff).trans Text.small_iff)

theorem isAlpha_iff {c : Char} :
    c.isAlpha ↔ 65 ≤ c.toNat ∧ c.toNat ≤ 90 ∨ 97 ≤ c.toNat ∧ c.toNat ≤ 122 :=
  (Bool.or_eq_true ..).to_iff.trans (or_congr Text.isUpper_iff isLower_iff)

/-- Whether a character is a certain one that is no letter. -/
theorem caseBlind_eq {mark : Char} (h : ¬ mark.isAlpha) : CaseBlind (· = mark) := by
  rw [isAlpha_iff] at h
  constructor <;> intro c
  · rw [← Char.toNat_inj, ← Char.toNat_inj, Text.toNat_toUpper]
    grind
  · rw [← Char.toNat_inj, ← Char.toNat_inj, Text.toNat_toLower]
    grind

theorem caseBlind_mem {marks : List Char} (h : marks.any Char.isAlpha = false) :
    CaseBlind (· ∈ marks) := by
  have hblind : ∀ mark ∈ marks, CaseBlind (· = mark) := fun mark hm =>
    caseBlind_eq (List.any_eq_false.mp h mark hm)
  have hmem : ∀ c, c ∈ marks ↔ ∃ mark ∈ marks, c = mark := by simp
  constructor <;> intro c <;> rw [hmem, hmem]
  · exact exists_congr fun mark => and_congr_right fun hm => (hblind mark hm).upper c
  · exact exists_congr fun mark => and_congr_right fun hm => (hblind mark hm).lower c

theorem caseBlind_ascii : CaseBlind (·.toNat < 128) := by
  constructor <;> intro c
  · rw [Text.toNat_toUpper]
    grind
  · rw [Text.toNat_toLower]
    grind

theorem isAlphanum_iff {c : Char} : c.isAlphanum ↔
    (65 ≤ c.toNat ∧ c.toNat ≤ 90 ∨ 97 ≤ c.toNat ∧ c.toNat ≤ 122) ∨
      48 ≤ c.toNat ∧ c.toNat ≤ 57 := by
  rw [Char.isAlphanum, Bool.or_eq_true, isAlpha_iff]
  refine or_congr_right ?_
  simp [Char.isDigit, UInt32.le_iff_toNat_le]

theorem caseBlind_isAlphanum : CaseBlind (·.isAlphanum) := by
  constructor <;> intro c
  · rw [isAlphanum_iff, isAlphanum_iff, Text.toNat_toUpper]
    grind
  · rw [isAlphanum_iff, isAlphanum_iff, Text.toNat_toLower]
    grind

end

section
variable {p : Char → Prop} (hp : CaseBlind p) {cs : List Char}
include hp

theorem CaseBlind.forall_mem_upperChar_iff {c : Char} (hc : c.toNat < 128) :
    (∀ d ∈ Text.upperChar c, p d) ↔ p c := by
  rw [Text.upperChar_of_ascii hc, List.forall_mem_singleton, hp.upper]

theorem CaseBlind.forall_mem_lowerChar_iff {c : Char} (hc : c.toNat < 128) :
    (∀ d ∈ Text.lowerChar c, p d) ↔ p c := by
  rw [Text.lowerChar, if_pos hc, List.forall_mem_singleton, hp.lower]

theorem CaseBlind.forall_mem_upperFirst_iff (hcs : IsAscii cs) :
    (∀ d ∈ Text.upperFirst cs, p d) ↔ ∀ c ∈ cs, p c := by
  cases cs with
  | nil => rfl
  | cons c cs =>
    rw [Text.upperFirst, List.forall_mem_append, List.forall_mem_cons,
      hp.forall_mem_upperChar_iff (hcs c List.mem_cons_self)]

theorem CaseBlind.forall_mem_lowerFirst_iff (hcs : IsAscii cs) :
    (∀ d ∈ Text.lowerFirst cs, p d) ↔ ∀ c ∈ cs, p c := by
  cases cs with
  | nil => rfl
  | cons c cs =>
    rw [Text.lowerFirst, List.forall_mem_append, List.forall_mem_cons,
      hp.forall_mem_lowerChar_iff (hcs c List.mem_cons_self)]

theorem CaseBlind.forall_mem_upper_iff (hcs : IsAscii cs) :
    (∀ d ∈ cs.flatMap Text.upperChar, p d) ↔ ∀ c ∈ cs, p c := by
  rw [List.forall_mem_flatMap]
  exact forall₂_congr fun c hc => hp.forall_mem_upperChar_iff (hcs c hc)

theorem CaseBlind.forall_mem_lowerAfter_iff (hcs : IsAscii cs) (before : List Char) :
    (∀ d ∈ Text.lowerAfter before cs, p d) ↔ ∀ c ∈ cs, p c := by
  induction cs generalizing before with
  | nil => rfl
  | cons c cs ih =>
    obtain ⟨hc, hrest⟩ := List.forall_mem_cons.mp hcs
    have hsigma : c ≠ 'Σ' := by
      rintro rfl
      exact absurd hc (by decide)
    rw [Text.lowerAfter, if_neg hsigma, List.forall_mem_append, List.forall_mem_cons,
      hp.forall_mem_lowerChar_iff hc, ih hrest]

end

/-! ## Names of fields -/

namespace NamingRule

/-- What a rule, or its absence, makes of the underscores of a name, if anything. -/
def underscoreAs : Option NamingRule → Option Char
  | none | some .lower | some .upper => some '_'
  | some .pascal | some .camel => none
  | some .kebab | some .screamingKebab => some '-'

/-- A text with a mark for each underscore has that mark, if the text has underscores, and the
other characters of the text. -/
theorem forall_mem_marked_iff {p : Char → Prop} {cs : List Char} {mark : Char} :
    (∀ c ∈ cs, p (if c = '_' then mark else c)) ↔
      (∀ c ∈ cs, c ≠ '_' → p c) ∧ ('_' ∈ cs → p mark) := by
  constructor
  · intro h
    exact ⟨fun c hc hne => by simpa [hne] using h c hc, fun hc => by simpa using h '_' hc⟩
  · rintro ⟨hother, hmark⟩ c hc
    split
    next heq => exact hmark (heq ▸ hc)
    next hne => exact hother c hc hne

section
variable {p : Char → Prop} (hp : CaseBlind p) {cs : List Char}
include hp

theorem forall_mem_words_iff (hcs : IsAscii cs) (pending : Bool) :
    (∀ d ∈ KeyRule.words pending cs, p d) ↔ ∀ c ∈ cs, c ≠ '_' → p c := by
  induction cs generalizing pending with
  | nil => simp [KeyRule.words]
  | cons c cs ih =>
    obtain ⟨hc, hrest⟩ := List.forall_mem_cons.mp hcs
    rw [KeyRule.words, List.forall_mem_cons]
    split
    next hmark => simp [ih hrest, hmark]
    next hmark =>
      rw [List.forall_mem_append, ih hrest]
      cases pending with
      | true => simp [hp.forall_mem_upperChar_iff hc, hmark]
      | false => simp [hmark]

theorem forall_mem_camelCase_iff (started capital : Bool) :
    (∀ d ∈ camelCase started capital cs, p d) ↔ ∀ c ∈ cs, c ≠ '_' → p c := by
  induction cs generalizing started capital with
  | nil => simp [camelCase]
  | cons c cs ih =>
    rw [camelCase, List.forall_mem_cons]
    split
    next hmark => simp [ih, hmark]
    next hmark =>
      rw [List.forall_mem_cons, ih]
      cases capital with
      | true => simp [hp.upper, hmark]
      | false => simp [hmark]

/-- The name of a field in documents has the characters of the field, up to their case, and what
its rule makes of underscores. -/
theorem forall_mem_applyNamed_iff (naming : Option String) {name : String}
    (hname : IsAscii name.toList) :
    (∀ d ∈ (applyNamed naming name).toList, p d) ↔ (∀ c ∈ name.toList, c ≠ '_' → p c) ∧
      ('_' ∈ name.toList → ∀ mark ∈ underscoreAs (naming.bind ofName?), p mark) := by
  have hkept : (∀ c ∈ name.toList, p c) ↔
      (∀ c ∈ name.toList, c ≠ '_' → p c) ∧ ('_' ∈ name.toList → p '_') := by
    rw [← forall_mem_marked_iff]
    simp only [ite_eq_right_iff.mpr Eq.symm]
  have hdashed : ∀ q : Char → Prop, (∀ d ∈ (dashed name).toList, q d) ↔
      (∀ c ∈ name.toList, c ≠ '_' → q c) ∧ ('_' ∈ name.toList → q '-') := fun q => by
    rw [dashed, String.toList_ofList, List.forall_mem_map]
    exact forall_mem_marked_iff
  have hascii : IsAscii (dashed name).toList :=
    (hdashed _).mpr ⟨fun c hc _ => hname c hc, fun _ => by decide⟩
  rw [applyNamed]
  cases naming.bind ofName? with
  | none => simpa [underscoreAs] using hkept
  | some rule =>
    cases rule with
    | pascal =>
      simpa [underscoreAs, apply, KeyRule.pascalCase_eq_words] using
        forall_mem_words_iff hp hname true
    | camel => simpa [underscoreAs, apply] using forall_mem_camelCase_iff hp false false
    | lower =>
      simpa [underscoreAs, apply, Text.lower] using
        (hp.forall_mem_lowerAfter_iff hname []).trans hkept
    | upper =>
      simpa [underscoreAs, apply, Text.upper] using (hp.forall_mem_upper_iff hname).trans hkept
    | kebab => simpa [underscoreAs, apply] using hdashed p
    | screamingKebab =>
      simpa [underscoreAs, apply, Text.upper] using
        (hp.forall_mem_upper_iff hascii).trans (hdashed p)

end

end NamingRule

/-! ## Names of parameters -/

theorem forall_mem_splitOnP_iff {α : Type} {p : α → Prop} {ends : α → Bool} {xs : List α} :
    (∀ word ∈ xs.splitOnP ends, ∀ x ∈ word, p x) ↔ ∀ x ∈ xs, ends x = false → p x := by
  induction xs with
  | nil => simp
  | cons x xs ih =>
    obtain ⟨word, words, hsplit⟩ := List.exists_cons_of_ne_nil (List.splitOnP_ne_nil (p := ends) xs)
    rw [List.forall_mem_cons, ← ih, List.splitOnP_cons_eq_if_modifyHead, hsplit]
    cases ends x <;> simp [and_assoc]

theorem forall_mem_pathWords_iff {p : Char → Prop} {path : String} :
    (∀ word ∈ pathWords path, ∀ c ∈ word, p c) ↔
      ∀ c ∈ path.toList, c ∉ [' ', '_', '.'] → p c := by
  have hfilter : (∀ word ∈ pathWords path, ∀ c ∈ word, p c) ↔
      ∀ word ∈ path.toList.splitOnP fun c => c = ' ' || c = '_' || c = '.', ∀ c ∈ word, p c := by
    rw [pathWords]
    constructor
    · intro h word hword c hc
      exact h word (List.mem_filter.mpr ⟨hword, by simpa using List.ne_nil_of_mem hc⟩) c hc
    · exact fun h word hword => h word (List.mem_filter.mp hword).1
  rw [hfilter, forall_mem_splitOnP_iff]
  simp [and_assoc]

/-- The names of parameters have what characters paths have between spaces, underscores and dots. -/
theorem forall_mem_parameterName_iff {p : Char → Prop} (hp : CaseBlind p) {path : String}
    (hpath : IsAscii path.toList) :
    (∀ d ∈ (parameterName path).toList, p d) ↔
      ∀ c ∈ path.toList, c ∉ [' ', '_', '.'] → p c := by
  have hascii : ∀ word ∈ pathWords path, IsAscii word :=
    forall_mem_pathWords_iff.mpr fun c hc _ => hpath c hc
  rw [← forall_mem_pathWords_iff, parameterName]
  cases hpath : pathWords path with
  | nil => simp
  | cons first rest =>
    rw [hpath] at hascii
    obtain ⟨hfirst, hrest⟩ := List.forall_mem_cons.mp hascii
    rw [String.toList_ofList, List.forall_mem_append, List.forall_mem_cons,
      hp.forall_mem_lowerFirst_iff hfirst, List.forall_mem_flatMap]
    exact and_congr_right' (forall₂_congr fun word hword =>
      hp.forall_mem_upperFirst_iff (hrest word hword))

end Sagas
