import Mathlib.Tactic.Ring
import Sagas.Postgres.Wire
import Sagas.Proofs.MomentTexts

/-! The binary form of numbers, identifiers, texts and times is read back. -/
namespace Sagas.Postgres.Wire

/-! ## Numbers -/

theorem length_bigEndian (width n : Nat) : (bigEndian width n).length = width := by
  induction width with
  | zero => rfl
  | succ width ih => rw [bigEndian, List.length_cons, ih]

theorem foldl_bigEndian (width n start : Nat) :
    (bigEndian width n).foldl (fun n b => n * 256 + b.toNat) start =
      start * 256 ^ width + n % 256 ^ width := by
  induction width generalizing start with
  | zero => simp [bigEndian, Nat.mod_one]
  | succ width ih =>
    have hbyte : (UInt8.ofNat (n >>> (8 * width))).toNat = n / 256 ^ width % 256 := by
      rw [UInt8.toNat_ofNat', Nat.shiftRight_eq_div_pow, Nat.pow_mul]
    rw [bigEndian, List.foldl_cons, ih, hbyte, Nat.pow_succ, Nat.mod_mul]
    ring

theorem ofBigEndian_bigEndian {width n : Nat} (h : n < 256 ^ width) :
    ofBigEndian (bigEndian width n) = n := by
  rw [ofBigEndian, foldl_bigEndian, Nat.zero_mul, Nat.zero_add, Nat.mod_eq_of_lt h]

theorem nat?_bigEndian {width n : Nat} (h : n < 256 ^ width) :
    nat? width (bigEndian width n) = some n := by
  rw [nat?, if_pos (length_bigEndian width n), ofBigEndian_bigEndian h]

theorem int?_ofInt {width : Nat} (hw : 0 < width) {n : Int} (hl : -2 ^ (8 * width - 1) ≤ n)
    (hu : n < 2 ^ (8 * width - 1)) : int? width (ofInt width n) = some n := by
  have hlt : (BitVec.ofInt (8 * width) n).toNat < 256 ^ width := by
    have h := (BitVec.ofInt (8 * width) n).isLt
    rwa [Nat.pow_mul] at h
  rw [int?, ofInt, if_pos (length_bigEndian _ _), ofBigEndian_bigEndian hlt,
    BitVec.ofNat_toNat, BitVec.setWidth_eq,
    BitVec.toInt_ofInt_eq_self (Nat.mul_pos (by decide) hw) hl hu]

/-! ## Values -/

theorem bool?_ofBool (b : Bool) : bool? (ofBool b) = some b := by
  cases b <;> rfl

theorem text?_ofText (s : String) : text? (ofText s) = some s := by
  have hv : s.toByteArray.IsValidUTF8 := s.isValidUTF8
  rw [text?, ofText, String.toUTF8_eq_toByteArray, Array.toArray_toList]
  exact dif_pos hv

theorem uuid?_ofUuid (id : Uuid) : uuid? (ofUuid id) = some id := by
  have hlt : id.value.toNat < 256 ^ 16 := id.value.isLt
  rw [uuid?, ofUuid, nat?_bigEndian hlt, Option.map_some, BitVec.ofNat_toNat, BitVec.setWidth_eq]

theorem float?_ofFloat (x : Binary64) : float? (ofFloat x) = some x := by
  have hlt : x.bits.toNat < 256 ^ 8 := x.bits.toNat_lt
  rw [float?, ofFloat, nat?_bigEndian hlt, Option.map_some, UInt64.ofNat_toNat]

/-! ## Times -/

/-- Nothing is cut off of whole microseconds. -/
theorem microseconds_eq {m : Moment} (h : m.IsMicro) :
    microseconds m = (m.seconds - epoch) * 1000000 + (m.nanos / 1000 : Nat) := by
  have hwhole := h.whole
  have hsplit : (m.seconds - epoch) * 1000000000 + m.nanos =
      ((m.seconds - epoch) * 1000000 + (m.nanos / 1000 : Nat)) * 1000 := by omega
  rw [microseconds, hsplit, Int.mul_tdiv_cancel _ (by decide)]

theorem momentAt_microseconds {m : Moment} (h : m.IsMicro) : momentAt (microseconds m) = m := by
  have hlt := h.nanos_lt
  have hwhole := h.whole
  have hmicro := microseconds_eq h
  have hseconds : Int.fdiv (microseconds m) 1000000 = m.seconds - epoch := by
    rw [Int.fdiv_eq_ediv_of_nonneg _ (by decide), hmicro]
    omega
  have hnanos : (microseconds m - (m.seconds - epoch) * 1000000) * 1000 = m.nanos := by
    rw [hmicro]
    omega
  simp only [momentAt, hseconds, hnanos, Int.toNat_natCast]
  rw [Int.add_comm, Int.sub_add_cancel]

theorem moment?_ofMoment {m : Moment} (h : m.IsMicro) : moment? (ofMoment m) = some m := by
  obtain ⟨hl, hu⟩ := h.seconds_bounds
  have hlt := h.nanos_lt
  have hint : int? 8 (ofMoment m) = some (microseconds m) := by
    have hmicro := microseconds_eq h
    rw [epoch] at hmicro
    exact int?_ofInt (by decide) (by omega) (by omega)
  simp only [moment?, hint, Option.bind_eq_bind, Option.bind_some, momentAt_microseconds h,
    h.isShown.yearInRange, if_true]

end Sagas.Postgres.Wire
