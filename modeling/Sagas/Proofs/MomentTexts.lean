import Mathlib.Data.List.TakeWhile
import Sagas.Proofs.CalendarDays
import Sagas.Proofs.Digits
import Sagas.Time.Reader

/-! Times are read back from the texts that are written for them. -/
namespace Sagas.Moment

open Text

/-! ## Parts -/

theorem isBlankChar_of_isDigit {c : Char} (h : isDigit c = true) : isBlankChar c = false := by
  obtain ⟨hl, hu⟩ := isDigit_iff.mp h
  simp only [isBlankChar, Bool.or_eq_false_iff, Bool.and_eq_false_iff, decide_eq_false_iff_not,
    beq_eq_false_iff_ne]
  omega

section
variable {width n : Nat} {rest : List Char}

theorem readChar_cons (c : Char) (rest : List Char) : readChar c (c :: rest) = some rest :=
  if_pos rfl

theorem readSeparator_T (rest : List Char) : readSeparator ('T' :: rest) = some rest := rfl

theorem readExact_padded (hw : 0 < width) (h : n < 10 ^ width) :
    readExact width (padded width n ++ rest) = some (n, rest) := by
  have hl := length_padded hw h
  have hdigits : (padded width n).all isDigit = true :=
    List.all_eq_true.mpr fun _ => isDigit_of_mem_padded
  rw [readExact, List.take_left' hl, List.drop_left' hl, if_pos ⟨hl, hdigits⟩,
    decimalNumber_padded]

theorem readUpTo_padded (hw : 0 < width) (h : n < 10 ^ width) :
    readUpTo width (padded width n ++ rest) = some (n, rest) := by
  have hl := length_padded hw h
  have hdigits : (padded width n).takeWhile isDigit = padded width n :=
    List.takeWhile_eq_self_iff.mpr fun _ => isDigit_of_mem_padded
  have hne : (padded width n).isEmpty = false := by
    rw [List.isEmpty_eq_false_iff, ← List.length_pos_iff]
    omega
  rw [readUpTo, List.take_left' hl, hdigits, hne, List.drop_left, decimalNumber_padded]
  rfl

theorem trimStart_cons {c : Char} (h : isBlankChar c = false) (cs : List Char) :
    trimStart (c :: cs) = c :: cs :=
  List.dropWhile_cons_of_neg (by simp [h])

theorem trimStart_padded (width n : Nat) (rest : List Char) :
    trimStart (padded width n ++ rest) = padded width n ++ rest := by
  obtain ⟨c, cs, hp, hc⟩ := padded_eq_cons width n
  rw [hp, List.cons_append, trimStart_cons (isBlankChar_of_isDigit hc)]

theorem readUpTo_trimStart_padded (hw : 0 < width) (h : n < 10 ^ width) :
    readUpTo width (trimStart (padded width n ++ rest)) = some (n, rest) := by
  rw [trimStart_padded, readUpTo_padded hw h]

theorem readYear_padded (h : n < 10 ^ 4) :
    readYear (padded 4 n ++ rest) = some ((n : Int), rest) := by
  have hread : readUpTo 4 (padded 4 n ++ rest) = some (n, rest) := readUpTo_padded (by decide) h
  obtain ⟨c, cs, hp, hc⟩ := padded_eq_cons 4 n
  rw [readYear, trimStart_padded]
  rw [hp, List.cons_append] at hread ⊢
  -- A digit is no sign.
  split
  case h_1 heq =>
    cases heq
    cases hc
  case h_2 heq =>
    cases heq
    cases hc
  case h_3 => rw [hread, Option.map_some]

theorem readFraction_padded (hw : 0 < width) (hw' : width ≤ 9) (h : n < 10 ^ width)
    (hrest : ∀ c ∈ rest.head?, isDigit c = false) :
    readFraction ('.' :: (padded width n ++ rest)) = some (n * Nat.pow 10 (9 - width), rest) := by
  have hl := length_padded hw h
  have hmem : ∀ c ∈ padded width n, isDigit c = true := fun _ => isDigit_of_mem_padded
  have hstop : rest.takeWhile isDigit = [] ∧ rest.dropWhile isDigit = rest := by
    cases rest with
    | nil => exact ⟨rfl, rfl⟩
    | cons c cs =>
      have hc := hrest c rfl
      exact ⟨List.takeWhile_cons_of_neg (by simp [hc]), List.dropWhile_cons_of_neg (by simp [hc])⟩
  have htake : (padded width n ++ rest).takeWhile isDigit = padded width n := by
    rw [List.takeWhile_append_of_pos hmem, hstop.1, List.append_nil]
  have hne : (padded width n).isEmpty = false := by
    rw [List.isEmpty_eq_false_iff, ← List.length_pos_iff]
    omega
  simp only [readFraction, htake, hne, Bool.false_eq_true, if_false,
    List.take_of_length_le (Nat.le_trans (Nat.le_of_eq hl) hw'), hl, decimalNumber_padded,
    List.dropWhile_append_of_pos hmem, hstop.2]

end

/-- A fraction is read before anything that does not go on with it. -/
theorem readFraction_fractionText (m : Moment) {rest : List Char}
    (hrest : ∀ c ∈ rest.head?, isDigit c = false ∧ c ≠ '.') :
    readFraction (m.fractionText ++ rest) = some (m.nanos % 1000000000, rest) := by
  have hdigit : ∀ c ∈ rest.head?, isDigit c = false := fun c hc => (hrest c hc).1
  rw [fractionText]
  generalize hn : m.nanos % 1000000000 = n
  have hlt : n < 1000000000 := by omega
  split
  case isTrue hzero =>
    subst hzero
    rw [List.nil_append, readFraction]
    rintro tail rfl
    exact (hrest '.' rfl).2 rfl
  case isFalse =>
    split
    case isTrue hwhole =>
      have hread : readFraction ('.' :: (padded 3 (n / 1000000) ++ rest)) =
          some (n / 1000000 * 1000000, rest) :=
        readFraction_padded (by decide) (by decide) (by omega) hdigit
      rwa [Nat.div_mul_cancel (Nat.dvd_of_mod_eq_zero hwhole)] at hread
    case isFalse =>
      split
      case isTrue hwhole =>
        have hread : readFraction ('.' :: (padded 6 (n / 1000) ++ rest)) =
            some (n / 1000 * 1000, rest) :=
          readFraction_padded (by decide) (by decide) (by omega) hdigit
        rwa [Nat.div_mul_cancel (Nat.dvd_of_mod_eq_zero hwhole)] at hread
      case isFalse =>
        have hread : readFraction ('.' :: (padded 9 n ++ rest)) = some (n * 1, rest) :=
          readFraction_padded (by decide) (by decide) hlt hdigit
        rwa [Nat.mul_one] at hread

/-! ## Moments -/

/-- A moment that its text shows in full: one in the years from 0 to 9999, in a leap second only at
the end of a minute. -/
structure IsShown (m : Moment) : Prop where
  nanos_lt : m.nanos < 2000000000
  leap : 1000000000 ≤ m.nanos → m.secondOfDay % 60 = 59
  year_nonneg : 0 ≤ m.date.year
  year_le : m.date.year ≤ 9999

/-- A moment of whole microseconds in the years from 0 to 9999, outside of leap seconds. -/
structure IsMicro (m : Moment) : Prop where
  nanos_lt : m.nanos < 1000000000
  whole : m.nanos % 1000 = 0
  year_nonneg : 0 ≤ m.date.year
  year_le : m.date.year ≤ 9999

/-- The second that the text shows, 60 in a leap second. -/
def shownSecond (m : Moment) : Nat :=
  m.secondOfDay % 60 + if m.nanos < 1000000000 then 0 else 1

variable {m : Moment}

theorem secondOfDay_lt (m : Moment) : m.secondOfDay < 86400 := by
  rw [secondOfDay, Int.fdiv_eq_ediv_of_nonneg _ (by decide)]
  omega

theorem clockText_eq (m : Moment) : m.clockText = padded 2 (m.secondOfDay / 3600) ++
    ':' :: padded 2 (m.secondOfDay / 60 % 60) ++ ':' :: padded 2 m.shownSecond :=
  rfl

namespace IsShown

theorem yearInRange (h : m.IsShown) : yearInRange m.date.year = true := by
  have hl := h.year_nonneg
  have hu := h.year_le
  simp only [Moment.yearInRange, Bool.and_eq_true, decide_eq_true_eq]
  omega

theorem yearText (h : m.IsShown) : yearText m.date.year = padded 4 m.date.year.toNat :=
  if_pos ⟨h.year_nonneg, h.year_le⟩

theorem date_eq (h : m.IsShown) :
    (⟨(m.date.year.toNat : Int), m.date.month, m.date.day⟩ : Calendar.Date) = m.date := by
  rw [Int.toNat_of_nonneg h.year_nonneg]

/-- The shown second and the fraction tell a leap second from the second before it. -/
theorem second_and_nanos (h : m.IsShown) : m.shownSecond ≤ 60 ∧
    min m.shownSecond 59 = m.secondOfDay % 60 ∧
    m.nanos % 1000000000 + (if m.shownSecond = 60 then 1000000000 else 0) = m.nanos := by
  have hlt := h.nanos_lt
  rw [shownSecond]
  by_cases hleap : m.nanos < 1000000000
  · rw [if_pos hleap, if_neg (by omega)]
    omega
  · have hlast := h.leap (by omega)
    rw [if_neg hleap, hlast, if_pos rfl]
    omega

/-- The parts that the texts show make up the moment. -/
theorem ofParts? (h : m.IsShown) : Moment.ofParts? m.date (m.secondOfDay / 3600)
    (m.secondOfDay / 60 % 60) m.shownSecond (m.nanos % 1000000000) = some m := by
  have hlt := secondOfDay_lt m
  obtain ⟨hle, hmin, hnanos⟩ := h.second_and_nanos
  have hdays : m.date.toDays = Int.fdiv m.seconds 86400 := Calendar.toDays_ofDays _
  have hsecond : (m.secondOfDay : Int) = m.seconds - Int.fdiv m.seconds 86400 * 86400 := by
    rw [secondOfDay, Int.fdiv_eq_ediv_of_nonneg _ (by decide)]
    omega
  have hvalid : m.date.isValid = true := Calendar.isValid_ofDays _
  have hexist : (Moment.yearInRange m.date.year && m.date.isValid && m.secondOfDay / 3600 < 24 &&
      m.secondOfDay / 60 % 60 < 60 && m.shownSecond ≤ 60) = true := by
    simp only [h.yearInRange, hvalid, Bool.true_and, Bool.and_eq_true, decide_eq_true_eq]
    omega
  have hseconds : m.date.toDays * 86400 + (m.secondOfDay / 3600 : Nat) * 3600 +
      (m.secondOfDay / 60 % 60 : Nat) * 60 + (min m.shownSecond 59 : Nat) = m.seconds := by
    rw [hdays, hmin]
    omega
  rw [Moment.ofParts?, if_pos hexist, hseconds, hnanos]

/-- Every number of the texts has the width that is written and read. -/
theorem widths (h : m.IsShown) : m.date.year.toNat < 10 ^ 4 ∧ m.date.month < 10 ^ 2 ∧
    m.date.day < 10 ^ 2 ∧ m.secondOfDay / 3600 < 10 ^ 2 ∧ m.secondOfDay / 60 % 60 < 10 ^ 2 ∧
      m.shownSecond < 10 ^ 2 := by
  have hyear := h.year_le
  have hlt := secondOfDay_lt m
  have hle := h.second_and_nanos.1
  have hvalid : m.date.isValid = true := Calendar.isValid_ofDays _
  obtain ⟨hmonth, hday⟩ := Calendar.Date.bounds_of_isValid hvalid
  omega

/-- The date and the time of day in a row, as both kinds of text have them. -/
theorem dateText_clockText (h : m.IsShown) (rest : List Char) :
    dateText m.date ++ 'T' :: m.clockText ++ rest =
      padded 4 m.date.year.toNat ++ '-' :: (padded 2 m.date.month ++ '-' :: (padded 2 m.date.day ++
        'T' :: (padded 2 (m.secondOfDay / 3600) ++ ':' :: (padded 2 (m.secondOfDay / 60 % 60) ++
          ':' :: (padded 2 m.shownSecond ++ rest))))) := by
  rw [dateText, h.yearText, clockText_eq]
  simp only [List.append_assoc, List.cons_append]

/-- With any fraction that is read as its own, and any offset that is none, a moment is read back
from its text. -/
theorem parseRfc3339?_of_rest (h : m.IsShown) {rest zone : List Char} {s : String}
    (hs : s.toList = dateText m.date ++ 'T' :: m.clockText ++ rest)
    (hrest : readFraction rest = some (m.nanos % 1000000000, zone))
    (hzone : readOffset (readChar ':') zone = some (0, [])) : parseRfc3339? s = some m := by
  obtain ⟨hyear, hmonth, hday, hhour, hminute, hsecond⟩ := h.widths
  have htwo : 0 < 2 := by decide
  have hoffset : m.atOffset? 0 = some m := by
    have hsame : (⟨m.seconds - 0, m.nanos⟩ : Moment) = m := by rw [Int.sub_zero]
    simp only [atOffset?, hsame, h.yearInRange]
    rfl
  rw [parseRfc3339?, hs, h.dateText_clockText]
  refine Option.bind_eq_some_iff.mpr ⟨_, readExact_padded (by decide) hyear, ?_⟩
  refine Option.bind_eq_some_iff.mpr ⟨_, readChar_cons '-' _, ?_⟩
  refine Option.bind_eq_some_iff.mpr ⟨_, readExact_padded htwo hmonth, ?_⟩
  refine Option.bind_eq_some_iff.mpr ⟨_, readChar_cons '-' _, ?_⟩
  refine Option.bind_eq_some_iff.mpr ⟨_, readExact_padded htwo hday, ?_⟩
  refine Option.bind_eq_some_iff.mpr ⟨_, readSeparator_T _, ?_⟩
  refine Option.bind_eq_some_iff.mpr ⟨_, readExact_padded htwo hhour, ?_⟩
  refine Option.bind_eq_some_iff.mpr ⟨_, readChar_cons ':' _, ?_⟩
  refine Option.bind_eq_some_iff.mpr ⟨_, readExact_padded htwo hminute, ?_⟩
  refine Option.bind_eq_some_iff.mpr ⟨_, readChar_cons ':' _, ?_⟩
  refine Option.bind_eq_some_iff.mpr ⟨_, readExact_padded htwo hsecond, ?_⟩
  refine Option.bind_eq_some_iff.mpr ⟨_, hrest, ?_⟩
  refine Option.bind_eq_some_iff.mpr ⟨_, hzone, ?_⟩
  refine Option.bind_eq_some_iff.mpr ⟨_, ?_, hoffset⟩
  rw [h.date_eq]
  exact h.ofParts?

theorem parseRfc3339?_utcText (h : m.IsShown) : parseRfc3339? (m.utcText "+00:00") = some m := by
  have hs : (m.utcText "+00:00").toList =
      dateText m.date ++ 'T' :: m.clockText ++ (m.fractionText ++ "+00:00".toList) := by
    rw [utcText, localText, String.toList_append, String.toList_ofList, List.append_assoc]
  exact h.parseRfc3339?_of_rest hs (m.readFraction_fractionText (by simp; decide)) rfl

theorem readLooseDate_padded (h : m.IsShown) (rest : List Char) :
    readLooseDate (padded 4 m.date.year.toNat ++ '-' :: (padded 2 m.date.month ++
      '-' :: (padded 2 m.date.day ++ rest))) = some (m.date, rest) := by
  obtain ⟨hyear, hmonth, hday, -⟩ := h.widths
  have htwo : 0 < 2 := by decide
  refine Option.bind_eq_some_iff.mpr ⟨_, readYear_padded hyear, ?_⟩
  refine Option.bind_eq_some_iff.mpr ⟨_, readChar_cons '-' _, ?_⟩
  refine Option.bind_eq_some_iff.mpr ⟨_, readUpTo_trimStart_padded htwo hmonth, ?_⟩
  refine Option.bind_eq_some_iff.mpr ⟨_, readChar_cons '-' _, ?_⟩
  refine Option.bind_eq_some_iff.mpr ⟨_, readUpTo_trimStart_padded htwo hday, ?_⟩
  exact congrArg (fun date => some (date, rest)) h.date_eq

theorem readLooseTime_padded (h : m.IsShown) :
    readLooseTime m.date (padded 2 (m.secondOfDay / 3600) ++
      ':' :: (padded 2 (m.secondOfDay / 60 % 60) ++
        ':' :: (padded 2 m.shownSecond ++ m.fractionText))) = some (m, []) := by
  obtain ⟨-, -, -, hhour, hminute, hsecond⟩ := h.widths
  have htwo : 0 < 2 := by decide
  have hfraction : readFraction m.fractionText = some (m.nanos % 1000000000, []) := by
    have hread : readFraction (m.fractionText ++ []) = some (m.nanos % 1000000000, []) :=
      m.readFraction_fractionText (by simp)
    rwa [List.append_nil] at hread
  refine Option.bind_eq_some_iff.mpr ⟨_, readUpTo_trimStart_padded htwo hhour, ?_⟩
  refine Option.bind_eq_some_iff.mpr ⟨_, readChar_cons ':' _, ?_⟩
  refine Option.bind_eq_some_iff.mpr ⟨_, readUpTo_trimStart_padded htwo hminute, ?_⟩
  refine Option.bind_eq_some_iff.mpr ⟨_, readChar_cons ':' _, ?_⟩
  refine Option.bind_eq_some_iff.mpr ⟨_, readUpTo_trimStart_padded htwo hsecond, ?_⟩
  refine Option.bind_eq_some_iff.mpr ⟨_, hfraction, ?_⟩
  exact Option.bind_eq_some_iff.mpr ⟨_, h.ofParts?, rfl⟩

theorem parseLocal?_localText (h : m.IsShown) : parseLocal? m.localText = some m := by
  rw [parseLocal?, localText, String.toList_ofList, h.dateText_clockText]
  refine Option.bind_eq_some_iff.mpr ⟨_, h.readLooseDate_padded _, ?_⟩
  refine Option.bind_eq_some_iff.mpr ⟨_, readChar_cons 'T' _, ?_⟩
  exact Option.bind_eq_some_iff.mpr ⟨_, h.readLooseTime_padded, rfl⟩

end IsShown

namespace IsMicro

theorem isShown (h : m.IsMicro) : m.IsShown where
  nanos_lt := Nat.lt_trans h.nanos_lt (by decide)
  leap hleap := absurd h.nanos_lt (Nat.not_lt.mpr hleap)
  year_nonneg := h.year_nonneg
  year_le := h.year_le

theorem seconds_bounds (h : m.IsMicro) : -100000000000 ≤ m.seconds ∧ m.seconds ≤ 400000000000 := by
  have hyear := h.year_nonneg
  have hyear' := h.year_le
  have hvalid : m.date.isValid = true := Calendar.isValid_ofDays _
  obtain ⟨hmonth, hday⟩ := Calendar.Date.bounds_of_isValid hvalid
  have hdays : m.date.toDays = Int.fdiv m.seconds 86400 := Calendar.toDays_ofDays _
  rw [Int.fdiv_eq_ediv_of_nonneg _ (by decide), Calendar.Date.toDays,
    Int.fdiv_eq_ediv_of_nonneg _ (by decide)] at hdays
  generalize m.date = date at hyear hyear' hmonth hday hdays
  split at hdays <;> omega

/-- Six digits of fraction are the nanoseconds. -/
theorem nanos_eq (h : m.IsMicro) :
    m.nanos % 1000000000 / 1000 * Nat.pow 10 (9 - 6) = m.nanos % 1000000000 := by
  have hwhole := h.whole
  rw [show Nat.pow 10 (9 - 6) = 1000 from rfl]
  omega

theorem parseRfc3339?_microsecondText (h : m.IsMicro) :
    parseRfc3339? m.microsecondText = some m := by
  have hnanos : m.nanos % 1000000000 / 1000 < 10 ^ 6 := by omega
  have hfraction : readFraction ('.' :: (padded 6 (m.nanos % 1000000000 / 1000) ++ ['Z'])) =
      some (m.nanos % 1000000000 / 1000 * Nat.pow 10 (9 - 6), ['Z']) :=
    readFraction_padded (by decide) (by decide) hnanos (by simp; decide)
  rw [h.nanos_eq] at hfraction
  refine h.isShown.parseRfc3339?_of_rest ?_ hfraction rfl
  rw [microsecondText, String.toList_ofList]
  simp only [List.append_assoc, List.cons_append]

end IsMicro

end Sagas.Moment
