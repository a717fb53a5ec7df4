import Mathlib.Data.List.TakeWhile
import Sagas.Json.Parser
import Sagas.Json.Printer
import Sagas.Proofs.Digits

/-! Numbers in JSON texts are read as if each stood alone, up to what ends them. -/
namespace Sagas

namespace Json

open Text

/-- What can follow a number in a compact text: nothing, a comma or a closing bracket. -/
def Ends (rest : List Char) : Prop :=
  ∀ c ∈ rest.head?, c = ',' ∨ c = ']' ∨ c = '\x7d'

theorem ends_nil : Ends [] := nofun

theorem ends_cons {c : Char} (h : c = ',' ∨ c = ']' ∨ c = '\x7d') (rest : List Char) :
    Ends (c :: rest) := by
  intro d hd
  cases hd
  exact h

/-- Nothing that ends a number goes on with one. -/
theorem Ends.cases {rest : List Char} (h : Ends rest) : rest = [] ∨ ∃ c cs, rest = c :: cs ∧
    isDigit c = false ∧ c ≠ '.' ∧ c ≠ 'e' ∧ c ≠ 'E' ∧ c ≠ '+' ∧ c ≠ '-' := by
  cases rest with
  | nil => exact .inl rfl
  | cons c cs => rcases h c rfl with rfl | rfl | rfl <;> exact .inr ⟨_, cs, rfl, by decide⟩

/-! ## Digits -/

section
variable {rest : List Char}

theorem takeWhile_append_ends (hr : Ends rest) (cs : List Char) :
    (cs ++ rest).takeWhile isDigit = cs.takeWhile isDigit := by
  induction cs with
  | nil =>
    rcases hr.cases with rfl | ⟨c, cs, rfl, hc, -⟩
    · rfl
    · exact List.takeWhile_cons_of_neg (by simp [hc])
  | cons c cs ih => rw [List.cons_append, List.takeWhile_cons, List.takeWhile_cons, ih]

theorem dropWhile_append_ends (hr : Ends rest) (cs : List Char) :
    (cs ++ rest).dropWhile isDigit = cs.dropWhile isDigit ++ rest := by
  induction cs with
  | nil =>
    rcases hr.cases with rfl | ⟨c, cs, rfl, hc, -⟩
    · rfl
    · exact List.dropWhile_cons_of_neg (by simp [hc])
  | cons c cs ih =>
    rw [List.cons_append, List.dropWhile_cons, List.dropWhile_cons, ih]
    split <;> rfl

theorem takeDigits_append (hr : Ends rest) (significand taken : Nat) (cs : List Char) :
    takeDigits significand taken (cs ++ rest) =
      ((takeDigits significand taken cs).1, (takeDigits significand taken cs).2.1,
        (takeDigits significand taken cs).2.2 ++ rest) := by
  induction cs generalizing significand taken with
  | nil =>
    rcases hr.cases with rfl | ⟨c, cs, rfl, hc, -⟩
    · rfl
    · simp [takeDigits, hc]
  | cons c cs ih =>
    rw [List.cons_append, takeDigits, takeDigits, ih]
    split <;> rfl

/-! ## Numbers -/

theorem readExponent_append (hr : Ends rest) (cs : List Char) : readExponent (cs ++ rest) =
    (readExponent cs).map fun (exponent, after) => (exponent, after ++ rest) := by
  cases cs with
  | nil =>
    rcases hr.cases with rfl | ⟨c, cs, rfl, -, -, he, hE, -, -⟩
    · rfl
    · simp [readExponent, he, hE]
  | cons mark after =>
    by_cases hmark : mark = 'e' ∨ mark = 'E'
    · cases after with
      | nil =>
        rcases hr.cases with rfl | ⟨c, cs, rfl, hc, -, -, -, hplus, hminus⟩
        · simp [readExponent, hmark]
        · simp [readExponent, hmark, hplus, hminus, hc]
      | cons sign digits =>
        simp only [List.cons_append, readExponent, hmark, if_true]
        by_cases hminus : sign = '-'
        · subst hminus
          simp only [takeWhile_append_ends hr, dropWhile_append_ends hr]
          split <;> rfl
        by_cases hplus : sign = '+'
        · subst hplus
          simp only [takeWhile_append_ends hr, dropWhile_append_ends hr]
          split <;> rfl
        have htake := takeWhile_append_ends hr (sign :: digits)
        have hdrop := dropWhile_append_ends hr (sign :: digits)
        rw [List.cons_append] at htake hdrop
        by_cases hempty : (sign :: digits).takeWhile isDigit = [] <;>
          simp [hminus, hplus, htake, hdrop, hempty]
    · simp [readExponent, hmark]

theorem readFloat_append (hr : Ends rest) (negative : Bool) (significand : Nat) (cs : List Char) :
    readFloat negative significand (cs ++ rest) =
      (readFloat negative significand cs).map fun (n, after) => (n, after ++ rest) := by
  simp only [readFloat, takeWhile_append_ends hr, dropWhile_append_ends hr]
  -- What is left to do when the fraction is read, or there is none.
  have hscaled : ∀ (significand : Nat) (scale : Int) (cs : List Char),
      ((readExponent (cs ++ rest)).bind fun (exponent, after) =>
        (Binary64.ofScaled negative significand (scale + exponent)).bind fun x =>
          some (JsonNumber.float x, after)) =
      ((readExponent cs).bind fun (exponent, after) =>
        (Binary64.ofScaled negative significand (scale + exponent)).bind fun x =>
          some (JsonNumber.float x, after)).map fun (n, after) => (n, after ++ rest) := by
    intro significand scale cs
    rw [readExponent_append hr]
    cases readExponent cs with
    | none => rfl
    | some e =>
      obtain ⟨exponent, after⟩ := e
      cases h : Binary64.ofScaled negative significand (scale + exponent) <;> simp [h]
  cases hcs : cs.dropWhile isDigit with
  | nil =>
    have hnil := hscaled significand (cs.takeWhile isDigit).length []
    rcases hr.cases with rfl | ⟨c, cs, rfl, -, hpoint, -⟩
    · simp
    · simpa [hpoint] using hnil
  | cons c after =>
    by_cases hpoint : c = '.'
    · subst hpoint
      simp only [List.cons_append, takeWhile_append_ends hr]
      split
      · rfl
      · simp only [takeDigits_append hr, dropWhile_append_ends hr]
        exact hscaled _ _ _
    · have hcons := hscaled significand (cs.takeWhile isDigit).length (c :: after)
      simpa [hpoint] using hcons

/-- How a number goes on after the digits that were taken from its front; after a leading zero there
must be no more of them. -/
def afterDigits (negative zero : Bool) (significand : Nat) (left : List Char) :
    Option (JsonNumber × List Char) :=
  match left with
  | [] => some (readNumber.integer negative significand, [])
  | c :: _ =>
    if zero && isDigit c then none
    else if isDigit c || c = '.' || c = 'e' || c = 'E' then readFloat negative significand left
    else some (readNumber.integer negative significand, left)

theorem readNumber_zero (negative : Bool) (cs : List Char) :
    readNumber negative ('0' :: cs) = afterDigits negative true 0 cs := rfl

theorem readNumber_digit {first : Char} (hd : isDigit first = true) (hz : first ≠ '0')
    (negative : Bool) (cs : List Char) :
    readNumber negative (first :: cs) = afterDigits negative false
      (takeDigits 0 0 (first :: cs)).1 (takeDigits 0 0 (first :: cs)).2.2 := by
  simp only [readNumber, hd, hz, if_false, decide_false, Bool.not_true, Bool.false_eq_true]
  rfl

theorem readNumber_of_not_isDigit {first : Char} (hd : isDigit first = false) (negative : Bool)
    (cs : List Char) : readNumber negative (first :: cs) = none := by
  simp [readNumber, hd]

theorem afterDigits_append (hr : Ends rest) (negative zero : Bool) (significand : Nat)
    (left : List Char) : afterDigits negative zero significand (left ++ rest) =
      (afterDigits negative zero significand left).map fun (n, after) => (n, after ++ rest) := by
  cases left with
  | nil =>
    rcases hr.cases with rfl | ⟨c, cs, rfl, hc, hpoint, he, hE, -⟩
    · rfl
    · simp [afterDigits, hc, hpoint, he, hE]
  | cons c left =>
    have hfloat := readFloat_append hr negative significand (c :: left)
    rw [List.cons_append] at hfloat
    simp only [List.cons_append, afterDigits, hfloat]
    split
    · rfl
    · split <;> rfl

/-- A number is read as if its text stood alone. -/
theorem readNumber_append (hr : Ends rest) (negative : Bool) (cs : List Char) :
    readNumber negative (cs ++ rest) =
      (readNumber negative cs).map fun (n, after) => (n, after ++ rest) := by
  cases cs with
  | nil =>
    rcases hr.cases with rfl | ⟨c, cs, rfl, hc, -⟩
    · rfl
    · exact readNumber_of_not_isDigit hc negative cs
  | cons first after =>
    cases hd : isDigit first with
    | false =>
      rw [List.cons_append, readNumber_of_not_isDigit hd, readNumber_of_not_isDigit hd]
      rfl
    | true =>
      by_cases hz : first = '0'
      · rw [hz, List.cons_append, readNumber_zero, readNumber_zero, afterDigits_append hr]
      · rw [List.cons_append, readNumber_digit hd hz, readNumber_digit hd hz, ← List.cons_append,
          takeDigits_append hr, afterDigits_append hr]

end

/-! ## Integers -/

theorem takeDigits_of_digits {cs : List Char} (hd : ∀ c ∈ cs, isDigit c = true) {start : Nat}
    (h : Nat.ofDigitChars 10 cs start < UInt64.size) (taken : Nat) :
    takeDigits start taken cs = (Nat.ofDigitChars 10 cs start, taken + cs.length, []) := by
  induction cs generalizing start taken with
  | nil => rfl
  | cons c cs ih =>
    have hnext : start * 10 + digitValue c = 10 * start + (c.toNat - '0'.toNat) := by
      rw [digitValue, Nat.mul_comm]
    rw [Nat.ofDigitChars_cons, ← hnext] at h ⊢
    have hfits : start * 10 + digitValue c < UInt64.size := by
      rw [Nat.ofDigitChars_eq_ofDigitChars_zero] at h
      have hpow : 0 < 10 ^ cs.length := Nat.pow_pos (by decide)
      have hle := Nat.le_mul_of_pos_left (start * 10 + digitValue c) hpow
      omega
    rw [takeDigits, hd c List.mem_cons_self, Bool.true_and, if_pos (decide_eq_true hfits),
      ih (fun d hmem => hd d (List.mem_cons_of_mem _ hmem)) h, List.length_cons]
    congr 2
    omega

theorem readNumber_toDigits {n : Nat} (h : n < UInt64.size) (negative : Bool) :
    readNumber negative (Nat.toDigits 10 n) = some (readNumber.integer negative n, []) := by
  by_cases hz : n = 0
  · subst hz
    rfl
  · obtain ⟨first, cs, hcs, hd, hne⟩ := toDigits_eq_cons hz
    have htake : takeDigits 0 0 (first :: cs) = (n, 0 + (first :: cs).length, []) := by
      have hvalue : Nat.ofDigitChars 10 (Nat.toDigits 10 n) 0 = n := Nat.ofDigitChars_ten_toDigits
      have hread : takeDigits 0 0 (Nat.toDigits 10 n) =
          (Nat.ofDigitChars 10 (Nat.toDigits 10 n) 0, 0 + (Nat.toDigits 10 n).length, []) :=
        takeDigits_of_digits (fun _ => isDigit_of_mem_toDigits) (by rwa [hvalue]) 0
      rwa [hvalue, hcs] at hread
    rw [hcs, readNumber_digit hd hne, htake]
    rfl

/-! ## Decimals -/

/-- Nothing, or an exponent with its sign. -/
inductive ExponentPart : List Char → Prop
  | none : ExponentPart []
  | some {sign : Char} {digits : List Char} : sign = '+' ∨ sign = '-' → digits ≠ [] →
      (∀ c ∈ digits, isDigit c = true) → ExponentPart ('e' :: sign :: digits)

/-- What makes a decimal of the digits before it: a fraction, an exponent or both. -/
inductive DecimalTail : List Char → Prop
  | fraction {digits exponent : List Char} : digits ≠ [] → (∀ c ∈ digits, isDigit c = true) →
      ExponentPart exponent → DecimalTail ('.' :: (digits ++ exponent))
  | exponent {sign : Char} {digits : List Char} : sign = '+' ∨ sign = '-' → digits ≠ [] →
      (∀ c ∈ digits, isDigit c = true) → DecimalTail ('e' :: sign :: digits)

theorem readExponent_of_part {cs : List Char} (h : ExponentPart cs) :
    ∃ exponent, readExponent cs = some (exponent, []) := by
  cases h with
  | none => exact ⟨0, rfl⟩
  | @some sign digits hsign hne hdigits =>
    have htake := List.takeWhile_eq_self_iff.mpr hdigits
    have hdrop := List.dropWhile_eq_nil_iff.mpr hdigits
    have hempty : digits.isEmpty = false := List.isEmpty_eq_false_iff.mpr hne
    rcases hsign with rfl | rfl
    · exact ⟨exponentValue digits, by simp [readExponent, htake, hdrop, hempty]⟩
    · exact ⟨-exponentValue digits, by simp [readExponent, htake, hdrop, hempty]⟩

theorem ExponentPart.dropWhile_digits {digits exponent : List Char} (h : ExponentPart exponent)
    (hd : ∀ c ∈ digits, isDigit c = true) :
    (digits ++ exponent).dropWhile isDigit = exponent := by
  rw [List.dropWhile_append_of_pos hd]
  cases h with
  | none => rfl
  | some => rfl

/-- Taking digits leaves what is behind all of them. -/
theorem dropWhile_takeDigits (significand taken : Nat) (cs : List Char) :
    (takeDigits significand taken cs).2.2.dropWhile isDigit = cs.dropWhile isDigit := by
  induction cs generalizing significand taken with
  | nil => rfl
  | cons c cs ih =>
    rw [takeDigits]
    split
    case isTrue h =>
      rw [ih, List.dropWhile_cons_of_pos (Bool.and_eq_true _ _ ▸ h).1]
    case isFalse => rfl

theorem readFloat_of_tail {cs : List Char} (h : DecimalTail (cs.dropWhile isDigit))
    (negative : Bool) (significand : Nat) :
    readFloat negative significand cs = none ∨
      ∃ x, readFloat negative significand cs = some (.float x, []) := by
  generalize hcs : cs.dropWhile isDigit = tail at h
  cases h with
  | @fraction digits exponent hne hd he =>
    obtain ⟨k, hk⟩ := readExponent_of_part he
    have hempty : ((digits ++ exponent).takeWhile isDigit).isEmpty = false := by
      rw [List.takeWhile_append_of_pos hd, List.isEmpty_eq_false_iff]
      simp [hne]
    simp only [readFloat, hcs, hempty, Bool.false_eq_true, if_false, Option.bind_eq_bind,
      Option.bind_some, dropWhile_takeDigits, he.dropWhile_digits hd, hk]
    cases Binary64.ofScaled negative (takeDigits significand 0 (digits ++ exponent)).1
      ((cs.takeWhile isDigit).length - (takeDigits significand 0 (digits ++ exponent)).2.1 + k) with
    | none => exact .inl rfl
    | some x => exact .inr ⟨x, rfl⟩
  | @exponent sign digits hsign hne hd =>
    obtain ⟨k, hk⟩ := readExponent_of_part (.some hsign hne hd)
    simp only [readFloat, hcs, Option.bind_eq_bind, Option.bind_some, hk]
    cases Binary64.ofScaled negative significand ((cs.takeWhile isDigit).length + k) with
    | none => exact .inl rfl
    | some x => exact .inr ⟨x, rfl⟩

theorem DecimalTail.eq_cons {tail : List Char} (h : DecimalTail tail) :
    ∃ c cs, tail = c :: cs ∧ (c = '.' ∨ c = 'e') := by
  cases h with
  | fraction => exact ⟨_, _, rfl, .inl rfl⟩
  | exponent => exact ⟨_, _, rfl, .inr rfl⟩

theorem DecimalTail.dropWhile_digits {digits tail : List Char} (h : DecimalTail tail)
    (hd : ∀ c ∈ digits, isDigit c = true) : (digits ++ tail).dropWhile isDigit = tail := by
  rw [List.dropWhile_append_of_pos hd]
  cases h with
  | fraction => rfl
  | exponent => rfl

/-- What follows the digits that were taken is the rest of a decimal. -/
theorem afterDigits_of_tail {left : List Char} (h : DecimalTail (left.dropWhile isDigit))
    (negative zero : Bool) (significand : Nat) :
    afterDigits negative zero significand left = none ∨
      ∃ x, afterDigits negative zero significand left = some (.float x, []) := by
  cases left with
  | nil => cases h
  | cons c left =>
    have hgoes : (isDigit c || c = '.' || c = 'e' || c = 'E') = true := by
      cases hc : isDigit c with
      | true => rfl
      | false =>
        rw [List.dropWhile_cons_of_neg (by simp [hc])] at h
        obtain ⟨d, cs, heq, hd⟩ := h.eq_cons
        cases heq
        rcases hd with rfl | rfl <;> rfl
    simp only [afterDigits, hgoes, if_true]
    split
    · exact .inl rfl
    · exact readFloat_of_tail h negative significand

/-- A decimal is read to its end, if it can be read at all. -/
theorem readNumber_of_decimal {whole tail : List Char} (hne : whole ≠ [])
    (hwhole : ∀ c ∈ whole, isDigit c = true) (ht : DecimalTail tail) (negative : Bool) :
    readNumber negative (whole ++ tail) = none ∨
      ∃ x, readNumber negative (whole ++ tail) = some (.float x, []) := by
  cases whole with
  | nil => exact absurd rfl hne
  | cons first whole =>
    have hrest : ∀ c ∈ whole, isDigit c = true := fun c hc => hwhole c (List.mem_cons_of_mem _ hc)
    by_cases hz : first = '0'
    · subst hz
      rw [List.cons_append, readNumber_zero]
      refine afterDigits_of_tail ?_ negative true 0
      rw [ht.dropWhile_digits hrest]
      exact ht
    · rw [List.cons_append, readNumber_digit (hwhole first List.mem_cons_self) hz]
      refine afterDigits_of_tail ?_ negative false _
      rw [dropWhile_takeDigits, ← List.cons_append, ht.dropWhile_digits hwhole]
      exact ht

end Json

/-! ## Texts of numbers -/

namespace Binary64

open Text

/-- A text of digits that goes on as a decimal does. -/
def IsDecimal (cs : List Char) : Prop :=
  ∃ whole tail, cs = whole ++ tail ∧ whole ≠ [] ∧ (∀ c ∈ whole, isDigit c = true) ∧
    Json.DecimalTail tail

theorem isDigit_of_mem_zeros {k : Nat} {c : Char} (h : c ∈ List.replicate k '0') :
    isDigit c = true := by
  rw [List.eq_of_mem_replicate h]
  rfl

section
variable {digits : List Char}

theorem isDecimal_plainText (hne : digits ≠ []) (hd : ∀ c ∈ digits, isDigit c = true)
    (exponent : Int) : IsDecimal (plainText digits exponent) := by
  simp only [plainText]
  split
  case isTrue =>
    have hzero : Json.DecimalTail ('.' :: (['0'] ++ [])) :=
      .fraction (by decide) (List.forall_mem_singleton.mpr rfl) .none
    refine ⟨digits ++ List.replicate exponent.toNat '0', ['.', '0'], rfl,
      List.append_ne_nil_of_left_ne_nil hne _, ?_, hzero⟩
    intro c hc
    exact (List.mem_append.mp hc).elim (hd c) isDigit_of_mem_zeros
  case isFalse hneg =>
    have hpos : 0 < digits.length := List.length_pos_iff.mpr hne
    split
    case isTrue hwhole =>
      have htake : digits.take (digits.length + exponent).toNat ≠ [] := by
        rw [← List.length_pos_iff, List.length_take]
        omega
      have hdrop : digits.drop (digits.length + exponent).toNat ≠ [] := by
        rw [← List.length_pos_iff, List.length_drop]
        omega
      have hfraction := Json.DecimalTail.fraction hdrop
        (fun c hc => hd c (List.mem_of_mem_drop hc)) .none
      rw [List.append_nil] at hfraction
      exact ⟨_, _, rfl, htake, fun c hc => hd c (List.mem_of_mem_take hc), hfraction⟩
    case isFalse =>
      have hpadded : List.replicate (-(digits.length + exponent)).toNat '0' ++ digits ≠ [] :=
        List.append_ne_nil_of_right_ne_nil _ hne
      have hfraction := Json.DecimalTail.fraction hpadded
        (fun c hc => (List.mem_append.mp hc).elim isDigit_of_mem_zeros (hd c)) .none
      rw [List.append_nil] at hfraction
      exact ⟨['0'], _, rfl, by decide, List.forall_mem_singleton.mpr rfl, hfraction⟩

theorem isDecimal_exponentText (hne : digits ≠ []) (hd : ∀ c ∈ digits, isDigit c = true)
    (exponent : Int) : IsDecimal (exponentText digits exponent) := by
  have hsign : (if exponent < 0 then '-' else '+') = '+' ∨
      (if exponent < 0 then '-' else '+') = '-' := by
    split
    · exact .inr rfl
    · exact .inl rfl
  have hexponent : ∀ c ∈ Nat.toDigits 10 exponent.natAbs, isDigit c = true :=
    fun _ => isDigit_of_mem_toDigits
  match digits, hne, hd with
  | [first], _, hd =>
    exact ⟨[first], _, rfl, by simp, hd, .exponent hsign Nat.toDigits_ne_nil hexponent⟩
  | first :: second :: rest, _, hd =>
    refine ⟨[first], _, rfl, by simp, fun c hc => hd c ?_,
      .fraction (List.cons_ne_nil second rest) (fun c hc => hd c (List.mem_cons_of_mem _ hc))
        (.some hsign Nat.toDigits_ne_nil hexponent)⟩
    rw [List.mem_singleton.mp hc]
    exact List.mem_cons_self

end

theorem toList_text (x : Binary64) : ∃ body, IsDecimal body ∧
    x.text.toList = if x.isNegative then '-' :: body else body := by
  have hd : ∀ c ∈ Nat.toDigits 10 x.shortest.digits, isDigit c = true :=
    fun _ => isDigit_of_mem_toDigits
  rw [text]
  simp only [String.toList_ofList]
  refine ⟨_, ?_, rfl⟩
  split
  · exact isDecimal_plainText Nat.toDigits_ne_nil hd _
  · exact isDecimal_exponentText Nat.toDigits_ne_nil hd _

end Binary64

namespace Json

open Text

/-- A number with its sign, as values are read from their first character on. -/
def readSigned : List Char → Option (JsonNumber × List Char)
  | '-' :: cs => readNumber true cs
  | cs => readNumber false cs

theorem readSigned_digit {first : Char} (hd : isDigit first = true) (cs : List Char) :
    readSigned (first :: cs) = readNumber false (first :: cs) := by
  rw [readSigned]
  intro rest h
  cases h
  cases hd

theorem readSigned_append {rest : List Char} (hr : Ends rest) (cs : List Char) :
    readSigned (cs ++ rest) = (readSigned cs).map fun (n, after) => (n, after ++ rest) := by
  by_cases hminus : ∃ after, cs = '-' :: after
  · obtain ⟨after, rfl⟩ := hminus
    exact readNumber_append hr true after
  · have hplain : readSigned cs = readNumber false cs := by
      rw [readSigned]
      exact fun after h => hminus ⟨after, h⟩
    have hplain' : readSigned (cs ++ rest) = readNumber false (cs ++ rest) := by
      rw [readSigned]
      intro after h
      cases cs with
      | nil =>
        rcases hr.cases with rfl | ⟨c, cs, rfl, -, -, -, -, -, hne⟩
        · cases h
        · exact hne (List.cons.inj h).1
      | cons c cs => exact hminus ⟨cs, by rw [(List.cons.inj h).1]⟩
    rw [hplain, hplain', readNumber_append hr]

end Json

namespace JsonNumber

open Text Json

/-- An integer of 64 bits, signed or not, or a float. -/
def IsProper : JsonNumber → Prop
  | .int n => Int64.minValue.toInt ≤ n ∧ n < UInt64.size
  | .float _ => True

/-- The number that the text of a number is read as. -/
def reread (n : JsonNumber) : Option JsonNumber :=
  (readSigned n.text.toList).map Prod.fst

theorem toList_toString_int (n : Int) : (toString n).toList =
    if n < 0 then '-' :: Nat.toDigits 10 n.natAbs else Nat.toDigits 10 n.natAbs := by
  cases n with
  | ofNat m =>
    have htext : toString (Int.ofNat m) = Nat.repr m := rfl
    rw [htext, Nat.toList_repr, if_neg (by simp)]
    rfl
  | negSucc m =>
    have htext : toString (Int.negSucc m) = "-" ++ Nat.repr (m + 1) := rfl
    rw [htext, String.toList_append, Nat.toList_repr, if_pos (Int.negSucc_lt_zero m)]
    rfl

theorem readSigned_int {n : Int} (h : (JsonNumber.int n).IsProper) :
    readSigned (JsonNumber.int n).text.toList = some (.int n, []) := by
  obtain ⟨hl, hu⟩ := h
  have hmin : Int64.minValue.toInt = -9223372036854775808 := by decide
  have hsize : UInt64.size = 18446744073709551616 := rfl
  have hnat : n.natAbs < UInt64.size := by omega
  rw [text, toList_toString_int]
  by_cases hneg : n < 0
  · rw [if_pos hneg, readSigned, readNumber_toDigits hnat true, readNumber.integer]
    rw [if_neg (by decide), if_neg (by omega), show -(n.natAbs : Int) = n by omega]
  · rw [if_neg hneg]
    have hfirst : readSigned (Nat.toDigits 10 n.natAbs) =
        readNumber false (Nat.toDigits 10 n.natAbs) := by
      cases hcs : Nat.toDigits 10 n.natAbs with
      | nil => rfl
      | cons c cs =>
        have hmem : c ∈ Nat.toDigits 10 n.natAbs := hcs ▸ List.mem_cons_self
        exact readSigned_digit (isDigit_of_mem_toDigits hmem) cs
    rw [hfirst, readNumber_toDigits hnat false, readNumber.integer, if_pos (by decide),
      show (n.natAbs : Int) = n by omega]

theorem readSigned_float (x : Binary64) : readSigned (JsonNumber.float x).text.toList = none ∨
    ∃ y, readSigned (JsonNumber.float x).text.toList = some (.float y, []) := by
  obtain ⟨body, ⟨whole, tail, rfl, hne, hd, ht⟩, htext⟩ := x.toList_text
  rw [text, htext]
  cases x.isNegative with
  | true => exact readNumber_of_decimal hne hd ht true
  | false =>
    have hfirst : readSigned (whole ++ tail) = readNumber false (whole ++ tail) := by
      cases whole with
      | nil => exact absurd rfl hne
      | cons c cs => exact readSigned_digit (hd c List.mem_cons_self) _
    simp only [Bool.false_eq_true, if_false, hfirst]
    exact readNumber_of_decimal hne hd ht false

/-- The text of a number is read to its end, whatever ends it. -/
theorem readSigned_text {n : JsonNumber} (h : n.IsProper) {rest : List Char} (hr : Ends rest) :
    readSigned (n.text.toList ++ rest) = n.reread.map fun m => (m, rest) := by
  have halone : readSigned n.text.toList = n.reread.map fun m => (m, []) := by
    rw [reread]
    cases n with
    | int n => rw [readSigned_int h]; rfl
    | float x => rcases readSigned_float x with hx | ⟨y, hx⟩ <;> rw [hx] <;> rfl
  rw [readSigned_append hr, halone]
  cases n.reread <;> rfl

theorem reread_int {n : Int} (h : (JsonNumber.int n).IsProper) :
    (JsonNumber.int n).reread = some (.int n) := by
  rw [reread, readSigned_int h, Option.map_some]

/-- The text of a number starts with a minus or a digit. -/
theorem text_eq_cons (n : JsonNumber) :
    ∃ c cs, n.text.toList = c :: cs ∧ (c = '-' ∨ isDigit c = true) := by
  have hdigits : ∀ digits : List Char, digits ≠ [] → (∀ c ∈ digits, isDigit c = true) →
      ∀ (negative : Prop) [Decidable negative] (tail : List Char), ∃ c cs,
        (if negative then '-' :: (digits ++ tail) else digits ++ tail) = c :: cs ∧
          (c = '-' ∨ isDigit c = true) := by
    intro digits hne hd negative _ tail
    cases digits with
    | nil => exact absurd rfl hne
    | cons c cs =>
      by_cases hn : negative
      · exact ⟨'-', _, if_pos hn, .inl rfl⟩
      · exact ⟨c, _, if_neg hn, .inr (hd c List.mem_cons_self)⟩
  cases n with
  | int n =>
    have h := hdigits (Nat.toDigits 10 n.natAbs) Nat.toDigits_ne_nil
      (fun _ => isDigit_of_mem_toDigits) (n < 0) []
    rwa [List.append_nil, ← toList_toString_int] at h
  | float x =>
    obtain ⟨body, ⟨whole, tail, rfl, hne, hd, -⟩, htext⟩ := x.toList_text
    rw [text, htext]
    exact hdigits whole hne hd (x.isNegative = true) tail

end JsonNumber

end Sagas
