import Mathlib.Tactic.Ring
import Sagas.Uuid

/-! Numbers written in digits are read back, and so are identifiers. -/
namespace Sagas

namespace Text

/-! ## Decimal digits -/

theorem isDigit_iff {c : Char} : isDigit c = true ↔ 48 ≤ c.toNat ∧ c.toNat ≤ 57 := by
  simp only [isDigit, Bool.and_eq_true, decide_eq_true_eq]
  exact Iff.rfl

theorem isDigit_of_mem_toDigits {n : Nat} {c : Char} (h : c ∈ Nat.toDigits 10 n) :
    isDigit c = true :=
  Nat.isDigit_of_mem_toDigits (by decide) (by decide) h

/-- A number that is not zero is written without a leading zero. -/
theorem toDigits_eq_cons {n : Nat} (h : n ≠ 0) : ∃ first cs, Nat.toDigits 10 n = first :: cs ∧
    isDigit first = true ∧ first ≠ '0' := by
  induction n using Nat.strongRecOn with
  | ind n ih =>
    by_cases hlt : n < 10
    · have hall : ∀ n < 10, n ≠ 0 → isDigit n.digitChar = true ∧ n.digitChar ≠ '0' := by decide
      exact ⟨_, [], Nat.toDigits_of_lt_base hlt, hall n hlt h⟩
    · obtain ⟨first, cs, hcs, hd, hz⟩ := ih (n / 10) (by omega) (by omega)
      refine ⟨first, cs ++ [Nat.digitChar (n % 10)], ?_, hd, hz⟩
      rw [Nat.toDigits_of_base_le (by decide) (by omega), hcs, List.cons_append]

theorem foldl_digits (cs : List Char) (start : Nat) :
    cs.foldl (fun n c => n * 10 + digitValue c) start = Nat.ofDigitChars 10 cs start := by
  induction cs generalizing start with
  | nil => rw [List.foldl_nil, Nat.ofDigitChars_nil]
  | cons c cs ih => rw [List.foldl_cons, ih, Nat.ofDigitChars_cons, digitValue, Nat.mul_comm]

theorem foldl_digits_lt {cs : List Char} (h : ∀ c ∈ cs, isDigit c = true) (start : Nat) :
    cs.foldl (fun n c => n * 10 + digitValue c) start < (start + 1) * 10 ^ cs.length := by
  induction cs generalizing start with
  | nil => simp
  | cons c cs ih =>
    have hc : digitValue c < 10 := by
      have hbounds := isDigit_iff.mp (h c List.mem_cons_self)
      rw [digitValue, show '0'.toNat = 48 from rfl]
      omega
    calc cs.foldl (fun n c => n * 10 + digitValue c) (start * 10 + digitValue c)
        < (start * 10 + digitValue c + 1) * 10 ^ cs.length :=
          ih (fun c hm => h c (List.mem_cons_of_mem _ hm)) _
      _ ≤ (start + 1) * 10 * 10 ^ cs.length := Nat.mul_le_mul_right _ (by omega)
      _ = (start + 1) * 10 ^ (cs.length + 1) := by ring

theorem decimalNumber_lt {digits : List Char} (h : ∀ c ∈ digits, isDigit c = true) :
    decimalNumber digits < 10 ^ digits.length := by
  have hlt := foldl_digits_lt h 0
  rwa [Nat.zero_add, Nat.one_mul] at hlt

/-! ## Filled up with zeros -/

theorem decimalNumber_padded (width n : Nat) : decimalNumber (padded width n) = n := by
  rw [decimalNumber, foldl_digits, padded, Nat.ofDigitChars_append,
    Nat.ofDigitChars_replicate_zero, Nat.mul_zero, Nat.ofDigitChars_ten_toDigits]

theorem length_padded {width n : Nat} (hw : 0 < width) (h : n < 10 ^ width) :
    (padded width n).length = width := by
  have hle : (Nat.toDigits 10 n).length ≤ width := (Nat.length_toDigits_le_iff (by decide) hw).mpr h
  rw [padded, List.length_append, List.length_replicate]
  omega

theorem isDigit_of_mem_padded {width n : Nat} {c : Char} (h : c ∈ padded width n) :
    isDigit c = true := by
  rcases List.mem_append.mp h with h | h
  · rw [List.eq_of_mem_replicate h]
    rfl
  · exact isDigit_of_mem_toDigits h

theorem padded_eq_cons (width n : Nat) :
    ∃ c cs, padded width n = c :: cs ∧ isDigit c = true := by
  cases h : padded width n with
  | nil => exact absurd (List.append_eq_nil_iff.mp h).2 Nat.toDigits_ne_nil
  | cons c cs => exact ⟨c, cs, rfl, isDigit_of_mem_padded (by rw [h]; exact List.mem_cons_self)⟩

/-! ## Hexadecimal digits -/

theorem hexValue?_hexDigit {n : Nat} (h : n < 16) : hexValue? (hexDigit n) = some n := by
  have hall : ∀ n < 16, hexValue? (hexDigit n) = some n := by decide
  exact hall n h

/-- One more digit in front counts its place. -/
theorem foldlM_hexDigits (v k start : Nat) :
    ((List.range k).reverse.map fun place => hexDigit (v / 16 ^ place % 16)).foldlM
      (fun n c => (hexValue? c).map (n * 16 + ·)) start = some (start * 16 ^ k + v % 16 ^ k) := by
  induction k generalizing start with
  | zero => simp [Nat.mod_one]
  | succ k ih =>
    rw [List.range_succ, List.reverse_append, List.reverse_singleton, List.singleton_append,
      List.map_cons, List.foldlM_cons, hexValue?_hexDigit (Nat.mod_lt _ (by decide)),
      Option.map_some]
    refine (ih _).trans (congrArg some ?_)
    rw [Nat.pow_succ, Nat.mod_mul]
    ring

end Text

/-! ## Identifiers -/

namespace Uuid

theorem takeGroups_cons {n m : Nat} {groups : List Nat} {group after : List Char}
    (h : group.length = n) : takeGroups (n :: m :: groups) (group ++ '-' :: after) =
      (takeGroups (m :: groups) after).map (group ++ ·) := by
  simp only [takeGroups, List.drop_left' h, List.take_left' h]

theorem length_hexDigits (id : Uuid) : id.hexDigits.length = 32 := by
  rw [hexDigits, List.length_map, List.length_reverse, List.length_range]

theorem hyphenated?_text (id : Uuid) : hyphenated? id.text.toList = some id.hexDigits := by
  have hl := id.length_hexDigits
  have hlast : takeGroups [12] (id.hexDigits.drop 20) = some (id.hexDigits.drop 20) :=
    if_pos (by rw [List.length_drop, hl])
  have hparts : id.hexDigits.take 8 ++ ((id.hexDigits.drop 8).take 4 ++
      ((id.hexDigits.drop 12).take 4 ++ ((id.hexDigits.drop 16).take 4 ++ id.hexDigits.drop 20))) =
      id.hexDigits := by
    rw [show id.hexDigits.drop 20 = (id.hexDigits.drop 16).drop 4 by rw [List.drop_drop],
      List.take_append_drop, show id.hexDigits.drop 16 = (id.hexDigits.drop 12).drop 4 by
        rw [List.drop_drop], List.take_append_drop,
      show id.hexDigits.drop 12 = (id.hexDigits.drop 8).drop 4 by rw [List.drop_drop],
      List.take_append_drop, List.take_append_drop]
  simp only [hyphenated?, text, String.toList_ofList, List.append_assoc, List.cons_append]
  rw [takeGroups_cons (by simp [hl]), takeGroups_cons (by simp [hl]),
    takeGroups_cons (by simp [hl]), takeGroups_cons (by simp [hl]), hlast]
  simp only [Option.map_some, hparts]

theorem parse?_text (id : Uuid) : parse? id.text = some id := by
  have hl := id.length_hexDigits
  have hlength : id.text.toList.length = 36 := by
    simp [text, hl]
  have hdigits : digits? id.text.toList = some id.hexDigits := by
    simp only [digits?, hlength]
    exact id.hyphenated?_text
  have hvalue : Text.hexNumber? id.hexDigits = some id.value.toNat := by
    have hdigit : id.digitAt = fun place => Text.hexDigit (id.value.toNat / 16 ^ place % 16) := by
      funext place
      rw [digitAt, BitVec.toNat_ushiftRight, Nat.shiftRight_eq_div_pow, Nat.pow_mul]
    have hlt : id.value.toNat < 16 ^ 32 := id.value.isLt
    rw [hexDigits, hdigit, Text.hexNumber?, Text.foldlM_hexDigits, Nat.zero_mul, Nat.zero_add,
      Nat.mod_eq_of_lt hlt]
  simp only [parse?, hdigits, hvalue, Option.bind_eq_bind, Option.bind_some, BitVec.ofNat_toNat,
    BitVec.setWidth_eq]
  rfl

end Uuid

end Sagas
