import Sagas.Declaration.TypeExpr.Storage
import Sagas.Proofs.ValueRoundTrip

/-! Integers in fields of integers: which are stored as they are, and what becomes of the others. -/
namespace Sagas

/-! ## Floats that are natural numbers -/

namespace Binary64

/-- A float of the value of a natural number. -/
structure IsNat (x : Binary64) (n : Nat) : Prop where
  isFinite : x.isFinite = true
  nonneg : x.isNegative = false
  whole : 0 ≤ x.magnitude.2
  value : x.magnitude.1 <<< x.magnitude.2.toNat = n

variable {e n q : Nat}

theorem toNat_bits_ofMagnitudeBits {bits : Nat} (h : bits < signBit) :
    (ofMagnitudeBits false bits).bits.toNat = bits := by
  have hlt : bits < UInt64.size := Nat.lt_trans h (by decide)
  rw [ofMagnitudeBits, if_neg Bool.false_ne_true, Nat.zero_add]
  exact UInt64.toNat_ofNat_of_lt hlt

/-- A significand that has become one bit longer by rounding counts as the next exponent. -/
theorem isNat_ofMagnitudeBits (he : 1074 ≤ e) (he' : e ≤ 2044) (hl : exponentUnit ≤ q)
    (hu : q ≤ 2 * exponentUnit) :
    (ofMagnitudeBits false (e * exponentUnit + q)).IsNat (q <<< (e - 1074)) := by
  have hunit : exponentUnit = 4503599627370496 := rfl
  have hsign : signBit = 9223372036854775808 := rfl
  have hlt : e * exponentUnit + q < signBit := by
    rw [hunit] at hu ⊢
    omega
  have hbits := toNat_bits_ofMagnitudeBits hlt
  generalize ofMagnitudeBits false (e * exponentUnit + q) = x at hbits
  have hnonneg : x.isNegative = false := by
    rw [isNegative, hbits]
    exact decide_eq_false (Nat.not_le.mpr hlt)
  by_cases hcarry : q = 2 * exponentUnit
  · have hexponent : x.biasedExponent = e + 2 := by
      rw [biasedExponent, hbits, hcarry, hunit]
      omega
    have hfraction : x.fraction = 0 := by
      rw [fraction, hbits, hcarry, hunit]
      omega
    have hmagnitude : x.magnitude = (exponentUnit, ((e + 2 : Nat) : Int) - 1075) := by
      rw [magnitude, hexponent, if_neg (by omega), hfraction, Nat.add_zero]
    have hshift : (((e + 2 : Nat) : Int) - 1075).toNat = (e - 1074) + 1 := by omega
    refine ⟨bne_iff_ne.mpr (by omega), hnonneg, by rw [hmagnitude]; omega, ?_⟩
    rw [hmagnitude, hcarry, hshift, Nat.shiftLeft_succ_inside]
  · have hexponent : x.biasedExponent = e + 1 := by
      rw [biasedExponent, hbits, hunit]
      rw [hunit] at hl hu hcarry
      omega
    have hfraction : x.fraction = q - exponentUnit := by
      rw [fraction, hbits, hunit]
      rw [hunit] at hl hu hcarry
      omega
    have hmagnitude : x.magnitude = (q, ((e + 1 : Nat) : Int) - 1075) := by
      rw [magnitude, hexponent, if_neg (by omega), hfraction, Nat.add_sub_cancel' hl]
    have hshift : (((e + 1 : Nat) : Int) - 1075).toNat = e - 1074 := by omega
    refine ⟨bne_iff_ne.mpr (by omega), hnonneg, by rw [hmagnitude]; omega, ?_⟩
    rw [hmagnitude, hshift]

theorem divNearest_bounds (num den : Nat) :
    num / den ≤ divNearest num den ∧ divNearest num den ≤ num / den + 1 := by
  rw [divNearest]
  split
  · omega
  · split <;> omega

/-- The nearest multiple of a number is at most half of it away. -/
theorem divNearest_near (num : Nat) {den : Nat} (h : 0 < den) :
    2 * (den * divNearest num den) ≤ 2 * num + den ∧
      2 * num ≤ 2 * (den * divNearest num den) + den := by
  have hsplit : den * (num / den) + num % den = num := Nat.div_add_mod num den
  have hlt : num % den < den := Nat.mod_lt num h
  rw [divNearest]
  split
  · omega
  · split
    · rw [Nat.mul_add]
      omega
    · rcases Nat.mod_two_eq_zero_or_one (num / den) with hparity | hparity
      · rw [hparity, Nat.add_zero]
        omega
      · rw [hparity, Nat.mul_add]
        omega

/-- A number of 64 bits whose highest bit is set has eleven bits more than a float keeps. -/
theorem nearest_of_high_bit {n : Nat} (hl : signBit ≤ n) (hu : n < UInt64.size) :
    nearest false n 1 = ofMagnitudeBits false (1085 * exponentUnit + divNearest n 2048) := by
  have hsign : signBit = 9223372036854775808 := rfl
  have hsize : UInt64.size = 18446744073709551616 := rfl
  have hunit : exponentUnit = 4503599627370496 := rfl
  have hlog : n.log2 = 63 := (Nat.log2_eq_iff (by omega)).mpr ⟨hl, hu⟩
  have hquotient : divNearest n 2048 ≤ n / 2048 + 1 := (divNearest_bounds n 2048).2
  have hten : shiftRatio n 1 (63 - 53) = (n, 1024) := rfl
  have heleven : shiftRatio n 1 11 = (n, 2048) := rfl
  have hwide : ¬ n / 1024 < 2 * exponentUnit := by
    rw [hunit]
    omega
  have hplace : max (63 - 52 : Int) (-1074) = 11 := rfl
  have hlevel : ((63 : Nat) : Int) - (Nat.log2 1 : Nat) = 63 := by decide
  rw [nearest, if_neg (by omega), hlog]
  simp only [hlevel, hten, if_neg hwide, hplace, heleven]
  rw [Nat.min_eq_left]
  · rfl
  · rw [hunit]
    omega

/-- An integer beyond the signed ones of 64 bits becomes a float of the nearest multiple of 2048. -/
theorem isNat_ofInt {n : Int} (hl : Int64.maxValue.toInt < n) (hu : n < UInt64.size) :
    ∃ k : Nat, (ofInt n).IsNat k ∧ 2048 ∣ k ∧ n - 1024 ≤ k ∧ k ≤ n + 1024 := by
  have hmax : Int64.maxValue.toInt = 9223372036854775807 := by decide
  have hsign : signBit = 9223372036854775808 := rfl
  have hsize : UInt64.size = 18446744073709551616 := rfl
  have hunit : exponentUnit = 4503599627370496 := rfl
  obtain ⟨m, rfl⟩ := Int.eq_ofNat_of_zero_le (a := n) (by omega)
  have hbounds := divNearest_bounds m 2048
  have hnear := divNearest_near m (show 0 < 2048 by decide)
  have hfloat : ofInt (m : Int) =
      ofMagnitudeBits false (1085 * exponentUnit + divNearest m 2048) := by
    have hnonneg : ¬ (m : Int) < 0 := by omega
    rw [ofInt, decide_eq_false hnonneg, Int.natAbs_natCast]
    exact nearest_of_high_bit (by omega) (by omega)
  have hshift : divNearest m 2048 <<< (1085 - 1074) = 2048 * divNearest m 2048 := by
    rw [Nat.shiftLeft_eq, Nat.mul_comm]
  have hnat := isNat_ofMagnitudeBits (e := 1085) (q := divNearest m 2048) (by decide) (by decide)
    (by rw [hunit]; omega) (by rw [hunit]; omega)
  rw [hshift, ← hfloat] at hnat
  exact ⟨_, hnat, Nat.dvd_mul_right .., by omega, by omega⟩

end Binary64

/-! ## Values -/

namespace Value

/-- Whether an integer in a field of a type is refused, or becomes the value of that integer. -/
def IsStoredExactly (type : FieldType) (n : Int) : Prop :=
  (∃ fault, ofJson type (.int n) = .error fault) ∨
    ∃ i : Int64, i.toInt = n ∧ ofJson type (.int n) = .ok (.int i)

/-- Whether an integer in a field of a type becomes a float of the multiple of 2048 next to it. -/
def IsStoredNearby (type : FieldType) (n : Int) : Prop :=
  ∃ (x : Binary64) (k : Nat), ofJson type (.int n) = .ok (.float x) ∧
    x.IsNat k ∧ 2048 ∣ k ∧ n - 1024 ≤ k ∧ k ≤ n + 1024

/-- The types of fields of integers. -/
def IsIntegral (type : FieldType) : Prop :=
  type = .int ∨ type = .bigint

section
variable {type : FieldType} {n : Int}

theorem ofJson_int (ht : IsIntegral type) (n : Int) :
    ofJson type (.int n) = .ok (ofNumber (.int n)) := by
  rcases ht with rfl | rfl <;> rfl

theorem ofNumber_of_le (hl : Int64.minValue.toInt ≤ n) (hu : n ≤ Int64.maxValue.toInt) :
    ∃ i : Int64, i.toInt = n ∧ ofNumber (.int n) = .int i := by
  have hi : (Int64.ofInt n).toInt = n :=
    Int64.toInt_ofInt_of_le hl (Int.lt_of_le_of_lt hu (by decide))
  refine ⟨Int64.ofInt n, hi, ?_⟩
  calc ofNumber (.int n) = ofNumber (.int (Int64.ofInt n).toInt) := by rw [hi]
    _ = .int (Int64.ofInt n) := ofNumber_int _

theorem ofNumber_of_lt (h : Int64.maxValue.toInt < n) :
    ofNumber (.int n) = .float (Binary64.ofInt n) := by
  rw [ofNumber, JsonNumber.toInt64?, if_neg (fun hrange => by omega), JsonNumber.toBinary64]

theorem isStoredNearby (ht : IsIntegral type) (hn : (JsonNumber.int n).IsProper)
    (h : Int64.maxValue.toInt < n) : IsStoredNearby type n := by
  obtain ⟨k, hk⟩ := Binary64.isNat_ofInt h hn.2
  exact ⟨_, k, by rw [ofJson_int ht, ofNumber_of_lt h], hk⟩

theorem isStoredExactly_iff (ht : IsIntegral type) (hn : (JsonNumber.int n).IsProper) :
    IsStoredExactly type n ↔ n ≤ Int64.maxValue.toInt := by
  rw [IsStoredExactly, ofJson_int ht]
  constructor
  · rintro (⟨fault, h⟩ | ⟨i, rfl, -⟩)
    · cases h
    · exact i.toInt_le
  · intro h
    obtain ⟨i, hi, hvalue⟩ := ofNumber_of_le hn.1 h
    exact .inr ⟨i, hi, by rw [hvalue]⟩

end

end Value

/-! ## Arguments -/

namespace Postgres

/-- Whether the argument of an integer in a field of a type, if it gets one, is read as that integer
again. -/
def IsSentExactly (type : FieldType) (n : Int) : Prop :=
  ∀ v a, Value.ofJson type (.int n) = .ok v → argument v (some type) = .ok a →
    ∃ bytes, a.bytes = some bytes ∧ cellJson? a.type bytes = some (.int n)

theorem cellJson?_of_argument {type : FieldType} (ht : Value.IsIntegral type) {i : Int64}
    {a : Argument} (h : argument (.int i) (some type) = .ok a) :
    ∃ bytes, a.bytes = some bytes ∧ cellJson? a.type bytes = some (.int i.toInt) := by
  rcases ht with rfl | rfl
  · rw [argument] at h
    split at h
    · next hfits =>
      cases h
      exact ⟨_, rfl, congrArg (Option.map Json.int) (int4_of_fits hfits)⟩
    · cases h
  · cases h
    exact ⟨_, rfl, congrArg (Option.map Json.int) (int8_of_toInt i)⟩

/-- The cell of a float is never read as an integer. -/
theorem cellJson?_ofFloat_ne (x : Binary64) (n : Int) :
    cellJson? .float8 (Wire.ofFloat x) ≠ some (.int n) := by
  have hcell : cellJson? .float8 (Wire.ofFloat x) = some (floatJson x) :=
    congrArg (Option.map floatJson) (Wire.float?_ofFloat x)
  rw [hcell, floatJson]
  split
  · exact nofun
  · exact nofun

theorem isSentExactly_iff {type : FieldType} {n : Int} (ht : Value.IsIntegral type)
    (hn : (JsonNumber.int n).IsProper) : IsSentExactly type n ↔ n ≤ Int64.maxValue.toInt := by
  constructor
  · intro h
    by_contra hgt
    have hvalue : Value.ofJson type (.int n) = .ok (.float (Binary64.ofInt n)) := by
      rw [Value.ofJson_int ht, Value.ofNumber_of_lt (Int.not_le.mp hgt)]
    have hsent : argument (.float (Binary64.ofInt n)) (some type) =
        .ok ⟨.float8, some (Wire.ofFloat (Binary64.ofInt n))⟩ := rfl
    obtain ⟨bytes, hbytes, hcell⟩ := h _ _ hvalue hsent
    cases hbytes
    exact cellJson?_ofFloat_ne _ n hcell
  · intro h v a hv ha
    obtain ⟨i, rfl, hvalue⟩ := Value.ofNumber_of_le hn.1 h
    rw [Value.ofJson_int ht, hvalue] at hv
    cases hv
    exact cellJson?_of_argument ht ha

end Postgres

/-! ## Declared types -/

/-- The integer types whose fields are of integers, on a machine of 64 bits. -/
inductive IntegerType where
  | i8
  | i16
  | i32
  | i64
  | isize
  | u8
  | u16
  | u32
  | u64
  | usize
deriving DecidableEq

namespace IntegerType

def name : IntegerType → String
  | i8 => "i8"
  | i16 => "i16"
  | i32 => "i32"
  | i64 => "i64"
  | isize => "isize"
  | u8 => "u8"
  | u16 => "u16"
  | u32 => "u32"
  | u64 => "u64"
  | usize => "usize"

def least : IntegerType → Int
  | i8 => Int8.minValue.toInt
  | i16 => Int16.minValue.toInt
  | i32 => Int32.minValue.toInt
  | i64 | isize => Int64.minValue.toInt
  | u8 | u16 | u32 | u64 | usize => 0

def greatest : IntegerType → Int
  | i8 => Int8.maxValue.toInt
  | i16 => Int16.maxValue.toInt
  | i32 => Int32.maxValue.toInt
  | i64 | isize => Int64.maxValue.toInt
  | u8 => UInt8.size - 1
  | u16 => UInt16.size - 1
  | u32 => UInt32.size - 1
  | u64 | usize => UInt64.size - 1

/-- Whether an integer is a value of a type. -/
def Holds (t : IntegerType) (n : Int) : Prop :=
  t.least ≤ n ∧ n ≤ t.greatest

theorem isProper_of_holds {t : IntegerType} {n : Int} (h : t.Holds n) :
    (JsonNumber.int n).IsProper := by
  have hleast : Int64.minValue.toInt ≤ t.least := by cases t <;> decide
  have hgreatest : t.greatest < UInt64.size := by cases t <;> decide
  exact ⟨Int.le_trans hleast h.1, Int.lt_of_le_of_lt h.2 hgreatest⟩

/-- A field of an integer type, or of an `Option` of one, is stored as an integer. -/
theorem isIntegral_storage (t : IntegerType) {e : TypeExpr} (h : e.required.text = t.name) :
    Value.IsIntegral e.storage := by
  have hchars : e.required.chars = t.name.toList := by
    rw [← h, TypeExpr.text, String.toList_ofList]
  rw [TypeExpr.storage, hchars]
  cases t with
  | i8 | i16 | i32 | u8 | u16 => exact .inl (by decide)
  | i64 | isize | u32 | u64 | usize => exact .inr (by decide)

theorem greatest_le_iff (t : IntegerType) :
    t.greatest ≤ Int64.maxValue.toInt ↔ t ≠ u64 ∧ t ≠ usize := by
  cases t <;> decide

theorem stored_exactly_iff (t : IntegerType) {e : TypeExpr} (h : e.required.text = t.name) :
    (∀ n, t.Holds n → Value.IsStoredExactly e.storage n) ↔ t ≠ u64 ∧ t ≠ usize := by
  have hexact : ∀ {n}, t.Holds n →
      (Value.IsStoredExactly e.storage n ↔ n ≤ Int64.maxValue.toInt) :=
    fun hn => Value.isStoredExactly_iff (t.isIntegral_storage h) (isProper_of_holds hn)
  rw [← greatest_le_iff]
  constructor
  · intro hall
    have hlast : t.Holds t.greatest := ⟨by cases t <;> decide, Int.le_refl _⟩
    exact (hexact hlast).mp (hall _ hlast)
  · intro hle n hn
    exact (hexact hn).mpr (Int.le_trans hn.2 hle)

end IntegerType

/-- Of the integers that JSON has, those that 64 signed bits hold are stored and sent as they are in
the fields of integers. Each greater one becomes a float, of the multiple of 2048 next to it. So the
values of a declared integer type are all stored exactly unless it has unsigned ones of 64 bits. -/
theorem integers_stored_exactly_iff (type : FieldType) (ht : Value.IsIntegral type) :
    (∀ n : Int, (JsonNumber.int n).IsProper →
      (Value.IsStoredExactly type n ↔ n ≤ Int64.maxValue.toInt) ∧
        (Postgres.IsSentExactly type n ↔ n ≤ Int64.maxValue.toInt) ∧
          (Int64.maxValue.toInt < n → Value.IsStoredNearby type n)) ∧
    ∀ (t : IntegerType) (e : TypeExpr), e.required.text = t.name → e.storage = type →
      ((∀ n, t.Holds n → Value.IsStoredExactly type n) ↔ t ≠ .u64 ∧ t ≠ .usize) := by
  constructor
  · intro n hn
    exact ⟨Value.isStoredExactly_iff ht hn, Postgres.isSentExactly_iff ht hn,
      Value.isStoredNearby ht hn⟩
  · rintro t e h rfl
    exact t.stored_exactly_iff h

/-- An integer that no float has, and the values of a declared type. -/
theorem odd_integer_stored_exactly :
    Value.IsStoredExactly .bigint 9007199254740993 ∧
      Postgres.IsSentExactly .bigint 9007199254740993 ∧
      ∀ n, IntegerType.u32.Holds n → Value.IsStoredExactly .bigint n := by
  obtain ⟨hint, htype⟩ := integers_stored_exactly_iff .bigint (.inr rfl)
  obtain ⟨hstored, hsent, -⟩ := hint 9007199254740993 ⟨by decide, by decide⟩
  exact ⟨hstored.mpr (by decide), hsent.mpr (by decide),
    (htype .u32 (.path [] "u32".toList []) rfl (by decide)).mpr ⟨nofun, nofun⟩⟩

/-- The float 2 ^ 63. -/
def halfRange : Binary64 :=
  ⟨0x43e0000000000000⟩

/-- The second integer above the signed ones of 64 bits is stored as the first. -/
theorem integer_stored_as_float :
    IntegerType.u64.Holds 9223372036854775809 ∧
      (TypeExpr.path [] "u64".toList []).storage = .bigint ∧
        Value.ofJson .bigint (.int 9223372036854775809) = .ok (.float halfRange) ∧
          halfRange.IsNat 9223372036854775808 ∧
            ¬ Value.IsStoredExactly .bigint 9223372036854775809 := by
  have hfloat : Binary64.ofInt 9223372036854775809 = halfRange := by decide +kernel
  have hvalue : Value.ofJson .bigint (.int 9223372036854775809) = .ok (.float halfRange) := by
    rw [Value.ofJson_int (.inr rfl), Value.ofNumber_of_lt (by decide), hfloat]
  refine ⟨⟨by decide, by decide⟩, by decide, hvalue, ⟨rfl, rfl, by decide, by decide⟩, ?_⟩
  rintro (⟨fault, h⟩ | ⟨i, -, h⟩)
  · rw [hvalue] at h
    cases h
  · rw [hvalue] at h
    cases h

end Sagas
