import Sagas.Json.Parser
import Sagas.Json.Printer
import Sagas.Proofs.Digits

/-! Strings are read back from their JSON texts. -/
namespace Sagas.Json

open Text

/-- What becomes of a character that is written in a JSON string: an escape of one character, an
escape by its number, or itself. -/
theorem escapeChar_cases (c : Char) :
    (∃ d, escapeChar c = ['\\', d] ∧ d ≠ 'u' ∧ shortEscape? d = some c) ∨
    (c.toNat < 32 ∧ escapeChar c =
      ['\\', 'u', '0', '0', hexDigit (c.toNat / 16), hexDigit (c.toNat % 16)]) ∨
    (escapeChar c = [c] ∧ c ≠ '"' ∧ c ≠ '\\' ∧ ¬ c.toNat < 32) := by
  rw [escapeChar]
  by_cases h₁ : c = '"'
  · exact .inl ⟨'"', by simp [h₁], by decide, by simp [h₁, shortEscape?]⟩
  by_cases h₂ : c = '\\'
  · exact .inl ⟨'\\', by simp [h₂], by decide, by simp [h₂, shortEscape?]⟩
  by_cases h₃ : c = '\n'
  · exact .inl ⟨'n', by simp [h₃], by decide, by simp [h₃, shortEscape?]⟩
  by_cases h₄ : c = '\r'
  · exact .inl ⟨'r', by simp [h₄], by decide, by simp [h₄, shortEscape?]⟩
  by_cases h₅ : c = '\t'
  · exact .inl ⟨'t', by simp [h₅], by decide, by simp [h₅, shortEscape?]⟩
  by_cases h₆ : c = '\x08'
  · exact .inl ⟨'b', by simp [h₆], by decide, by simp [h₆, shortEscape?]⟩
  by_cases h₇ : c = '\x0c'
  · exact .inl ⟨'f', by simp [h₇], by decide, by simp [h₇, shortEscape?]⟩
  simp only [h₁, h₂, h₃, h₄, h₅, h₆, h₇, if_false]
  by_cases h₈ : c.toNat < 32
  · exact .inr (.inl ⟨h₈, if_pos h₈⟩)
  · exact .inr (.inr ⟨if_neg h₈, h₁, h₂, h₈⟩)

/-! ## Up to the closing quote -/

theorem splitString_plain {c : Char} (hq : c ≠ '"') (hb : c ≠ '\\') (cs : List Char) :
    splitString (c :: cs) = (splitString cs).map fun (raw, rest) => (c :: raw, rest) := by
  rw [splitString]
  · cases splitString cs <;> rfl
  · exact fun h => hq h
  · exact fun _ _ h => absurd h hb

theorem splitString_escaped (d : Char) (cs : List Char) : splitString ('\\' :: d :: cs) =
    (splitString cs).map fun (raw, rest) => ('\\' :: d :: raw, rest) := by
  rw [splitString]
  cases splitString cs <;> rfl

theorem hexDigit_ne {n : Nat} (h : n < 16) : hexDigit n ≠ '"' ∧ hexDigit n ≠ '\\' := by
  have hall : ∀ n < 16, hexDigit n ≠ '"' ∧ hexDigit n ≠ '\\' := by decide
  exact hall n h

theorem splitString_escapeChar (c : Char) (cs : List Char) : splitString (escapeChar c ++ cs) =
    (splitString cs).map fun (raw, rest) => (escapeChar c ++ raw, rest) := by
  rcases escapeChar_cases c with ⟨d, hd, -, -⟩ | ⟨hlt, hu⟩ | ⟨hc, hq, hb, -⟩
  · rw [hd]
    exact splitString_escaped d cs
  · obtain ⟨hq, hb⟩ := hexDigit_ne (show c.toNat / 16 < 16 by omega)
    obtain ⟨hq', hb'⟩ := hexDigit_ne (show c.toNat % 16 < 16 by omega)
    simp only [hu, List.cons_append, List.nil_append]
    rw [splitString_escaped, splitString_plain (by decide) (by decide),
      splitString_plain (by decide) (by decide), splitString_plain hq hb,
      splitString_plain hq' hb']
    cases splitString cs <;> rfl
  · rw [hc]
    exact splitString_plain hq hb cs

theorem splitString_escapes (cs rest : List Char) :
    splitString (cs.flatMap escapeChar ++ '"' :: rest) = some (cs.flatMap escapeChar, rest) := by
  induction cs with
  | nil => rfl
  | cons c cs ih =>
    rw [List.flatMap_cons, List.append_assoc, splitString_escapeChar, ih, Option.map_some]

/-! ## Code units -/

theorem codeUnits_escapeChar (c : Char) (cs : List Char) :
    codeUnits (escapeChar c ++ cs) = (codeUnits cs).map (c.toNat :: ·) := by
  rcases escapeChar_cases c with ⟨d, hd, hne, hs⟩ | ⟨hlt, hu⟩ | ⟨hc, -, hb, hge⟩
  · rw [hd]
    simp only [List.cons_append, List.nil_append]
    rw [codeUnits]
    · rw [hs]
      cases codeUnits cs <;> rfl
    · exact fun _ _ _ _ _ h => absurd h hne
  · have hhigh := hexValue?_hexDigit (show c.toNat / 16 < 16 by omega)
    have hlow := hexValue?_hexDigit (show c.toNat % 16 < 16 by omega)
    have hunit : hexNumber? ['0', '0', hexDigit (c.toNat / 16), hexDigit (c.toNat % 16)] =
        some c.toNat := by
      have hzero : hexValue? '0' = some 0 := rfl
      simp only [hexNumber?, List.foldlM_cons, List.foldlM_nil, hzero, hhigh, hlow,
        Option.map_some, Option.bind_eq_bind, Option.bind_some, Option.pure_def]
      congr 1
      omega
    simp only [hu, List.cons_append, List.nil_append]
    rw [codeUnits, hunit]
    cases codeUnits cs <;> rfl
  · rw [hc, List.singleton_append, codeUnits, if_neg (by simp [hb, hge])]
    · cases codeUnits cs <;> rfl
    all_goals
      intros
      exact absurd ‹c = '\\'› hb

theorem codeUnits_escapes (cs : List Char) :
    codeUnits (cs.flatMap escapeChar) = some (cs.map Char.toNat) := by
  induction cs with
  | nil => rfl
  | cons c cs ih => rw [List.flatMap_cons, codeUnits_escapeChar, ih, Option.map_some, List.map_cons]

/-- The code points of characters are no surrogates. -/
theorem joinUnits_toNat (cs : List Char) : joinUnits (cs.map Char.toNat) = some cs := by
  induction cs with
  | nil => rfl
  | cons c cs ih =>
    have hvalid : c.toNat < 0xD800 ∨ 0xDFFF < c.toNat ∧ c.toNat < 0x110000 := c.valid
    have hlow : isLowSurrogate c.toNat = false := by
      simp only [isLowSurrogate, Bool.and_eq_false_iff, decide_eq_false_iff_not]
      omega
    have hhigh : isHighSurrogate c.toNat = false := by
      simp only [isHighSurrogate, Bool.and_eq_false_iff, decide_eq_false_iff_not]
      omega
    rw [List.map_cons, joinUnits.eq_def]
    simp only [hlow, hhigh, ih, Char.ofNat_toNat]
    rfl

theorem readString_escapes (s : String) (rest : List Char) :
    readString (s.toList.flatMap escapeChar ++ '"' :: rest) = some (s, rest) := by
  simp only [readString, splitString_escapes, codeUnits_escapes, joinUnits_toNat,
    Option.bind_eq_bind, Option.bind_some, Option.pure_def, String.ofList_toList]

end Sagas.Json
