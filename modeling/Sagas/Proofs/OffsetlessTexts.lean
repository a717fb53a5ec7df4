import Sagas.Context
import Sagas.Proofs.MomentTexts

/-! Texts without an offset in columns of times in UTC: they are taken to be in UTC, and what they
become is read as the same moment from then on. -/
namespace Sagas

namespace Moment

open Text

/-! ## Colons

A time of day is read up to its end, so that a text without an offset has two colons and no more. -/

section
variable {cs rest digits : List Char} {n : Nat}

theorem count_colon_of_digits (h : ∀ c ∈ digits, isDigit c = true) : digits.count ':' = 0 :=
  List.count_eq_zero.mpr fun hm => absurd (h ':' hm) (by decide)

theorem count_colon_padded (width n : Nat) : (padded width n).count ':' = 0 :=
  count_colon_of_digits fun _ => isDigit_of_mem_padded

theorem count_colon_dropWhile {p : Char → Bool} (h : p ':' = false) (cs : List Char) :
    (cs.dropWhile p).count ':' = cs.count ':' := by
  have hsplit : cs.takeWhile p ++ cs.dropWhile p = cs := List.takeWhile_append_dropWhile
  have hfront : (cs.takeWhile p).count ':' = 0 :=
    List.count_eq_zero.mpr fun hm => by simp [List.mem_takeWhile_imp hm] at h
  have hcount := congrArg (List.count ':') hsplit
  rwa [List.count_append, hfront, Nat.zero_add] at hcount

theorem count_colon_trimStart (cs : List Char) : (trimStart cs).count ':' = cs.count ':' :=
  count_colon_dropWhile (by decide) cs

theorem readChar_eq_some {c : Char} (h : readChar c cs = some rest) : cs = c :: rest := by
  cases cs with
  | nil => cases h
  | cons d tail =>
    rw [readChar] at h
    split at h
    case isTrue hd =>
      cases h
      rw [hd]
    case isFalse => cases h

theorem count_colon_readUpTo {limit : Nat} (h : readUpTo limit cs = some (n, rest)) :
    cs.count ':' = rest.count ':' := by
  rw [readUpTo] at h
  split at h
  case isTrue => cases h
  case isFalse =>
    cases h
    have hfront : (cs.take limit).takeWhile isDigit <+: cs :=
      (List.takeWhile_prefix _).trans (List.take_prefix _ _)
    have hdigits : ((cs.take limit).takeWhile isDigit).count ':' = 0 :=
      count_colon_of_digits fun _ => List.mem_takeWhile_imp
    have hsplit := congrArg (List.count ':') (List.prefix_iff_eq_append.mp hfront)
    rw [List.count_append, hdigits, Nat.zero_add] at hsplit
    exact hsplit.symm

theorem count_colon_readYear {year : Int} (h : readYear cs = some (year, rest)) :
    cs.count ':' = rest.count ':' := by
  rw [← count_colon_trimStart cs]
  rw [readYear] at h
  split at h
  case h_1 tail htrim =>
    obtain ⟨⟨_, _⟩, hread, heq⟩ := Option.map_eq_some_iff.mp h
    cases heq
    rw [htrim, List.count_cons_of_ne (by decide), count_colon_readUpTo hread]
  case h_2 tail htrim =>
    obtain ⟨⟨_, _⟩, hread, heq⟩ := Option.map_eq_some_iff.mp h
    cases heq
    rw [htrim, List.count_cons_of_ne (by decide), count_colon_readUpTo hread]
  case h_3 =>
    obtain ⟨⟨_, _⟩, hread, heq⟩ := Option.map_eq_some_iff.mp h
    cases heq
    exact count_colon_readUpTo hread

/-- Of a fraction no more than nine digits count. -/
theorem fraction_lt (h : ∀ c ∈ digits, isDigit c = true) :
    decimalNumber (digits.take 9) * Nat.pow 10 (9 - (digits.take 9).length) < 1000000000 := by
  have hlt : decimalNumber (digits.take 9) < 10 ^ (digits.take 9).length :=
    decimalNumber_lt fun c hc => h c (List.mem_of_mem_take hc)
  have hle : (digits.take 9).length ≤ 9 := by
    rw [List.length_take]
    omega
  calc decimalNumber (digits.take 9) * Nat.pow 10 (9 - (digits.take 9).length)
      < 10 ^ (digits.take 9).length * 10 ^ (9 - (digits.take 9).length) :=
        Nat.mul_lt_mul_of_pos_right hlt (Nat.pow_pos (by decide))
    _ = 10 ^ 9 := by rw [← Nat.pow_add, Nat.add_sub_cancel' hle]

theorem readFraction_eq_some (h : readFraction cs = some (n, rest)) :
    n < 1000000000 ∧ cs.count ':' = rest.count ':' := by
  rw [readFraction.eq_def] at h
  split at h
  case h_1 tail =>
    have hdigits : ∀ c ∈ tail.takeWhile isDigit, isDigit c = true := fun _ =>
      List.mem_takeWhile_imp
    dsimp only at h
    split at h
    case isTrue => cases h
    case isFalse =>
      cases h
      refine ⟨fraction_lt hdigits, ?_⟩
      rw [List.count_cons_of_ne (by decide), count_colon_dropWhile (by decide)]
  case h_2 =>
    cases h
    exact ⟨by decide, rfl⟩

end

/-! ## Times of day -/

/-- Only the sixtieth second is a leap second, and the seconds then stay at the minute's end. -/
theorem leap_of_ofParts? {date : Calendar.Date} {hour minute second nanos : Nat} {m : Moment}
    (hn : nanos < 1000000000) (h : ofParts? date hour minute second nanos = some m) :
    m.nanos < 2000000000 ∧ (1000000000 ≤ m.nanos → m.secondOfDay % 60 = 59) := by
  rw [ofParts?] at h
  split at h
  case isFalse => cases h
  case isTrue hexist =>
    cases h
    simp only [Bool.and_eq_true, decide_eq_true_eq] at hexist
    simp only [secondOfDay, Int.fdiv_eq_ediv_of_nonneg _ (show (0 : Int) ≤ 86400 by decide)]
    by_cases hleap : second = 60
    · rw [if_pos hleap]
      omega
    · rw [if_neg hleap]
      omega

theorem readLooseDate_eq_some {cs rest : List Char} {date : Calendar.Date}
    (h : readLooseDate cs = some (date, rest)) : cs.count ':' = rest.count ':' := by
  obtain ⟨⟨year, cs₁⟩, hyear, h⟩ := Option.bind_eq_some_iff.mp h
  obtain ⟨cs₂, hdash, h⟩ := Option.bind_eq_some_iff.mp h
  obtain ⟨⟨month, cs₃⟩, hmonth, h⟩ := Option.bind_eq_some_iff.mp h
  obtain ⟨cs₄, hdash', h⟩ := Option.bind_eq_some_iff.mp h
  obtain ⟨⟨day, cs₅⟩, hday, h⟩ := Option.bind_eq_some_iff.mp h
  cases h
  calc cs.count ':' = cs₁.count ':' := count_colon_readYear hyear
    _ = cs₂.count ':' := by
      rw [← count_colon_trimStart, readChar_eq_some hdash, List.count_cons_of_ne (by decide)]
    _ = cs₃.count ':' := by rw [← count_colon_trimStart, count_colon_readUpTo hmonth]
    _ = cs₄.count ':' := by
      rw [← count_colon_trimStart, readChar_eq_some hdash', List.count_cons_of_ne (by decide)]
    _ = rest.count ':' := by rw [← count_colon_trimStart, count_colon_readUpTo hday]

theorem readLooseTime_eq_some {cs rest : List Char} {date : Calendar.Date} {m : Moment}
    (h : readLooseTime date cs = some (m, rest)) :
    (m.nanos < 2000000000 ∧ (1000000000 ≤ m.nanos → m.secondOfDay % 60 = 59)) ∧
      cs.count ':' = rest.count ':' + 2 := by
  obtain ⟨⟨hour, cs₁⟩, hhour, h⟩ := Option.bind_eq_some_iff.mp h
  obtain ⟨cs₂, hcolon, h⟩ := Option.bind_eq_some_iff.mp h
  obtain ⟨⟨minute, cs₃⟩, hminute, h⟩ := Option.bind_eq_some_iff.mp h
  obtain ⟨cs₄, hcolon', h⟩ := Option.bind_eq_some_iff.mp h
  obtain ⟨⟨second, cs₅⟩, hsecond, h⟩ := Option.bind_eq_some_iff.mp h
  obtain ⟨⟨nanos, cs₆⟩, hfraction, h⟩ := Option.bind_eq_some_iff.mp h
  obtain ⟨m', hparts, h⟩ := Option.bind_eq_some_iff.mp h
  cases h
  obtain ⟨hnanos, hcount⟩ := readFraction_eq_some hfraction
  refine ⟨leap_of_ofParts? hnanos hparts, ?_⟩
  calc cs.count ':' = cs₁.count ':' := by
        rw [← count_colon_trimStart, count_colon_readUpTo hhour]
    _ = cs₂.count ':' + 1 := by
      rw [← count_colon_trimStart, readChar_eq_some hcolon, List.count_cons_self]
    _ = cs₃.count ':' + 1 := by rw [← count_colon_trimStart, count_colon_readUpTo hminute]
    _ = cs₄.count ':' + 2 := by
      rw [← count_colon_trimStart, readChar_eq_some hcolon', List.count_cons_self]
    _ = cs₅.count ':' + 2 := by rw [← count_colon_trimStart, count_colon_readUpTo hsecond]
    _ = (trimStart cs₆).count ':' + 2 := by rw [hcount, count_colon_trimStart]

/-! ## Texts without an offset -/

variable {s : String} {m : Moment}

theorem parseLocal?_eq_some (h : parseLocal? s = some m) :
    (m.nanos < 2000000000 ∧ (1000000000 ≤ m.nanos → m.secondOfDay % 60 = 59)) ∧
      s.toList.count ':' = 2 := by
  obtain ⟨⟨date, cs₁⟩, hdate, h⟩ := Option.bind_eq_some_iff.mp h
  obtain ⟨cs₂, hmark, h⟩ := Option.bind_eq_some_iff.mp h
  obtain ⟨⟨m', cs₃⟩, htime, h⟩ := Option.bind_eq_some_iff.mp h
  obtain ⟨hmoment, hcount⟩ := readLooseTime_eq_some htime
  dsimp only at h
  split at h
  case isFalse => cases h
  case isTrue hend =>
    cases h
    rw [List.isEmpty_iff.mp hend, List.count_nil, Nat.zero_add] at hcount
    refine ⟨hmoment, ?_⟩
    rw [readLooseDate_eq_some hdate, ← count_colon_trimStart, readChar_eq_some hmark,
      List.count_cons_of_ne (by decide), hcount]

theorem isShown_of_parseLocal? (h : parseLocal? s = some m) (hl : 0 ≤ m.date.year)
    (hu : m.date.year ≤ 9999) : m.IsShown :=
  have hmoment := (parseLocal?_eq_some h).1
  ⟨hmoment.1, hmoment.2, hl, hu⟩

theorem count_colon_dateText (d : Calendar.Date) : (dateText d).count ':' = 0 := by
  have hyear : (yearText d.year).count ':' = 0 := by
    rw [yearText]
    split
    · exact count_colon_padded _ _
    · rw [List.count_cons_of_ne (by split <;> decide), count_colon_padded]
  rw [dateText]
  simp [List.count_append, hyear, count_colon_padded]

theorem count_colon_fractionText (m : Moment) : m.fractionText.count ':' = 0 := by
  rw [fractionText]
  repeat' split
  all_goals simp [count_colon_padded]

/-- The offset has a colon of its own. -/
theorem count_colon_utcText (m : Moment) : (m.utcText "+00:00").toList.count ':' = 3 := by
  rw [utcText, localText, String.toList_append, String.toList_ofList, clockText_eq]
  simp [List.count_append, count_colon_dateText, count_colon_fractionText, count_colon_padded]

theorem parseLocal?_utcText (m : Moment) : parseLocal? (m.utcText "+00:00") = none := by
  cases h : parseLocal? (m.utcText "+00:00") with
  | none => rfl
  | some m' =>
    have hcount := (parseLocal?_eq_some h).2
    rw [count_colon_utcText] at hcount
    cases hcount

end Moment

/-! ## Columns -/

variable {s : String} {m : Moment} {type : FieldType}

theorem columnJson_of_rfc3339 (h : Moment.parseRfc3339? s = some m) :
    columnJson .datetime (.string s) = .string s := by
  refine columnJson_eq_self fun _ text ht => ?_
  cases ht
  rw [h]
  rfl

theorem columnJson_of_local (h : Moment.parseRfc3339? s = none)
    (hl : Moment.parseLocal? s = some m) :
    columnJson .datetime (.string s) = .string (m.utcText "+00:00") := by
  simp only [columnJson, h, hl]

theorem columnJson_of_other (h : Moment.parseRfc3339? s = none)
    (hl : Moment.parseLocal? s = none) : columnJson .datetime (.string s) = .string s := by
  simp only [columnJson, h, hl]

theorem columnJson_of_ne (h : type ≠ .datetime) (value : Json) : columnJson type value = value :=
  columnJson_eq_self fun ht => absurd ht h

/-- A text with an offset that was added to it is left alone, even where its year has a sign and it
is no text with an offset to a strict reader. -/
theorem columnJson_utcText (m : Moment) :
    columnJson .datetime (.string (m.utcText "+00:00")) = .string (m.utcText "+00:00") := by
  cases h : Moment.parseRfc3339? (m.utcText "+00:00") with
  | some m' => exact columnJson_of_rfc3339 h
  | none => exact columnJson_of_other h m.parseLocal?_utcText

theorem columnJson_columnJson (type : FieldType) (value : Json) :
    columnJson type (columnJson type value) = columnJson type value := by
  by_cases ht : type = .datetime
  · subst ht
    cases value with
    | string s =>
      cases h : Moment.parseRfc3339? s with
      | some m => rw [columnJson_of_rfc3339 h, columnJson_of_rfc3339 h]
      | none =>
        cases hl : Moment.parseLocal? s with
        | some m => rw [columnJson_of_local h hl, columnJson_utcText]
        | none => rw [columnJson_of_other h hl, columnJson_of_other h hl]
    | null | bool | number | array | object => rfl
  · rw [columnJson_of_ne ht, columnJson_of_ne ht]

theorem ofJson_utcText (h : m.IsShown) :
    Value.ofJson .datetime (.string (m.utcText "+00:00")) = .ok (.datetime m) := by
  rw [Value.ofJson, h.parseRfc3339?_utcText]
  rfl

theorem Metadata.fieldValue_of_lookup {metadata : Metadata} {document json : Json} {path : String}
    (ht : metadata.fieldType? path = some type) (hd : document.lookup path = some json) :
    metadata.fieldValue (some document) path = Value.ofJson type json := by
  simp only [fieldValue, Option.bind_some, hd, ht]

/-- What a text without an offset is read as in a column of times in UTC: as a text that is the
value of the same moment in UTC, also where it is written again as a property of a document. -/
structure IsTakenAsUtc (s : String) (m : Moment) : Prop where
  text : columnJson .datetime (.string s) = .string (m.utcText "+00:00")
  value : Value.ofJson .datetime (columnJson .datetime (.string s)) = .ok (.datetime m)
  written {metadata : Metadata} {document : Json} {path : String}
    (ht : metadata.fieldType? path = some .datetime)
    (hd : document.lookup path = some (columnJson .datetime (.string s))) :
    metadata.fieldValue (some document) path = .ok (.datetime m)

theorem isTakenAsUtc (h : Moment.parseRfc3339? s = none) (hl : Moment.parseLocal? s = some m)
    (hm : m.IsShown) : IsTakenAsUtc s m := by
  have hvalue : Value.ofJson .datetime (columnJson .datetime (.string s)) = .ok (.datetime m) := by
    rw [columnJson_of_local h hl, ofJson_utcText hm]
  exact ⟨columnJson_of_local h hl, hvalue,
    fun ht hd => (Metadata.fieldValue_of_lookup ht hd).trans hvalue⟩

/-- A text without an offset in a column of times in UTC is the moment in UTC that it shows, with
its fraction and its leap second, as long as its year has four digits; it can be read and written
again without a change. Texts with an offset and all that stands in other columns are left alone,
and what was read once is left alone when it is read again. -/
theorem offsetless_texts_are_utc :
    (∀ (s : String) (m : Moment), Moment.parseRfc3339? s = none → Moment.parseLocal? s = some m →
      0 ≤ m.date.year → m.date.year ≤ 9999 → IsTakenAsUtc s m) ∧
    (∀ (s : String) (m : Moment), Moment.parseRfc3339? s = some m →
      columnJson .datetime (.string s) = .string s) ∧
    (∀ (type : FieldType) (value : Json), type ≠ .datetime → columnJson type value = value) ∧
    ∀ (type : FieldType) (value : Json),
      columnJson type (columnJson type value) = columnJson type value :=
  ⟨fun _ _ h hl hy hy' => isTakenAsUtc h hl (Moment.isShown_of_parseLocal? hl hy hy'),
    fun _ _ h => columnJson_of_rfc3339 h, fun _ value h => columnJson_of_ne h value,
    columnJson_columnJson⟩

/-- A leap second with short numbers and spaces before them. -/
theorem leap_second_is_utc :
    Moment.parseLocal? "2016-12- 31T23:59:60.5 " = some ⟨1483228799, 1500000000⟩ ∧
      columnJson .datetime (.string "2016-12- 31T23:59:60.5 ") =
        .string "2016-12-31T23:59:60.500+00:00" ∧
      Value.ofJson .datetime (.string "2016-12-31T23:59:60.500+00:00") =
        .ok (.datetime ⟨1483228799, 1500000000⟩) ∧
      columnJson .datetime (.string "2016-12-31T23:59:60.500+00:00") =
        .string "2016-12-31T23:59:60.500+00:00" := by
  have hlocal : Moment.parseLocal? "2016-12- 31T23:59:60.5 " =
      some ⟨1483228799, 1500000000⟩ := by decide +kernel
  obtain ⟨htaken, -, -, hagain⟩ := offsetless_texts_are_utc
  have hutc := htaken "2016-12- 31T23:59:60.5 " _ (by decide +kernel) hlocal (by decide +kernel)
    (by decide +kernel)
  have htext : Moment.utcText "+00:00" ⟨1483228799, 1500000000⟩ =
      "2016-12-31T23:59:60.500+00:00" := by decide +kernel
  have hcolumn := htext ▸ hutc.text
  refine ⟨hlocal, hcolumn, ?_, ?_⟩
  · rw [← hcolumn]
    exact hutc.value
  · rw [← hcolumn]
    exact hagain _ _

end Sagas
