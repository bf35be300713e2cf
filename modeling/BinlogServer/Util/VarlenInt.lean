import BinlogServer.Util.ByteSpan

/-!
# Variable-length integers of all types

The varlen functions are templates over the integer types. A value of a signed type is written in its zigzag form,
which is a value of the unsigned type of the same width; what is read is the number that the bytes, as one
little-endian number, have above the bits that announce their count.
-/

namespace BinlogServer.Util
open ByteString

/-- A signed or an unsigned integer type. -/
structure IntegerType where
  signed : Bool
  bits : Nat
  least : 8 ≤ bits
  most : bits ≤ 64

namespace IntegerType
variable (type : IntegerType)

/-- The numbers that are values of the type. -/
def Holds (value : Int) : Prop :=
  (if type.signed then -2 ^ (type.bits - 1) else 0) ≤ value ∧
    value < (if type.signed then 2 ^ (type.bits - 1) else 2 ^ type.bits)

instance (value : Int) : Decidable (type.Holds value) := inferInstanceAs (Decidable (_ ∧ _))

/-- The value of the unsigned type of the same width that is written for a value. -/
def unsignedFor (value : Int) : Nat := if type.signed then signedRepresentation type.bits value else value.toNat

/-- `calculate_varlen_int_size` -/
def calculateVarlenIntSize (value : Int) : Nat := Util.calculateVarlenIntSize (type.unsignedFor value)

/-- `insert_varlen_int_to_byte_span_checked`: what is written, and what is left of the destination. -/
def insertVarlenIntChecked (remainder : Bytes) (value : Int) : Option (Bytes × Bytes) :=
  let numBytes := type.calculateVarlenIntSize value
  if remainder.length < numBytes then none
  else some (insertVarlenInt (type.unsignedFor value),remainder.drop numBytes)

/-- `extract_varlen_int_from_byte_span_checked`: the value, if there is one, and what the span is afterwards. -/
def extractVarlenIntChecked (remainder : Bytes) : Option Int × Bytes :=
  match Util.extractVarlenIntChecked (2 ^ type.bits - 1) remainder with
  | none => (none,remainder)
  | some (data,rest) => (some (if type.signed then representedSigned type.bits data else data),rest)

end IntegerType

/-- How many bytes a first byte announces. -/
def announced (firstByte : UInt8) : Nat := countrOne 8 firstByte.toNat + 1

/-- The number in the first `count` bytes, above the bits that announce them. -/
def encodedValue (count : Nat) (bytes : Bytes) : Nat := leNat (bytes.take count) / 2 ^ min count 8

/-- `count` is the least number of bytes from one to eight that have room for `value`, seven bits each, or else nine. -/
def LeastSize (value count : Nat) : Prop :=
  1 ≤ count ∧ count ≤ 8 ∧ value < 2 ^ (7 * count) ∧ (∀ fewer, 1 ≤ fewer → value < 2 ^ (7 * fewer) → count ≤ fewer) ∨
    count = 9 ∧ ∀ fewer, fewer ≤ 8 → 2 ^ (7 * fewer) ≤ value

/-- Nothing can be extracted for the type. -/
def IntegerType.Unreadable (type : IntegerType) : Bytes → Prop
  | [] => True
  | first :: rest => (first :: rest).length < announced first ∨
      2 ^ type.bits ≤ encodedValue (announced first) (first :: rest)

theorem calculateVarlenIntSize_least {value : Nat} (fits : value < 2 ^ 64) :
    LeastSize value (calculateVarlenIntSize value) := by
  have width : bitWidth value ≤ 64 := by
    unfold bitWidth
    split
    · omega
    · rename_i nonzero
      have := (Nat.log2_lt nonzero).mpr fits
      omega
  -- seven bits a byte: the width decides which counts are enough
  have enough : ∀ count, 1 ≤ count → (value < 2 ^ (7 * count) ↔ bitWidth value ≤ 7 * count) := by
    intro count some
    unfold bitWidth
    split
    · rename_i zero
      simp [zero]
    · rename_i nonzero
      rw [← Nat.log2_lt nonzero]
      omega
  have table : ∀ w, w ≤ 64 → ((w * 575) >>> 12) + 1 = max 1 (min 9 ((w + 6) / 7)) := by decide
  have size : calculateVarlenIntSize value = max 1 (min 9 ((bitWidth value + 6) / 7)) := table _ width
  rw [size]
  by_cases wide : bitWidth value ≤ 56
  · refine .inl ⟨by omega,by omega,(enough _ (by omega)).mpr (by omega),?_⟩
    intro fewer some room
    have := (enough fewer some).mp room
    omega
  · refine .inr ⟨by omega,?_⟩
    intro fewer small
    by_cases none : fewer = 0
    · subst none
      by_contra less
      have zero : value = 0 := by omega
      simp [zero,bitWidth] at wide
    · by_contra less
      have := (enough fewer (by omega)).mp (by omega)
      omega

private theorem countrOne_byte (byte : UInt8) :
    countrOne 8 byte.toNat ≤ 8 ∧ (countrOne 8 byte.toNat = 8 → byte.toNat = 255) := by
  have table : ∀ b, b < 256 → countrOne 8 b ≤ 8 ∧ (countrOne 8 b = 8 → b = 255) := by decide +kernel
  exact table byte.toNat byte.toNat_lt

/-- The low bits of the value stand in the first byte, the high ones in the bytes after it. -/
private theorem encodedValue_cons (first : UInt8) (later : Bytes) {following : Nat} (few : following ≤ 7) :
    encodedValue (following + 1) (first :: later) =
      2 ^ (7 - following) * leNat (later.take following) + first.toNat >>> (following + 1) ∧
      first.toNat >>> (following + 1) < 2 ^ (7 - following) := by
  have byte := first.toNat_lt
  have split : (256 : Nat) = 2 ^ (following + 1) * 2 ^ (7 - following) := by
    rw [← pow_add, show following + 1 + (7 - following) = 8 by omega]
    rfl
  constructor
  · rw [encodedValue, List.take_succ_cons, leNat, min_eq_left (by omega), Nat.shiftRight_eq_div_pow, split, mul_assoc,
      Nat.add_mul_div_left _ _ (by positivity), Nat.add_comm]
  · rw [Nat.shiftRight_eq_div_pow, Nat.div_lt_iff_lt_mul (by positivity), mul_comm, ← split]
    exact byte

/-- What is extracted from a span that is not empty. -/
theorem extractVarlenIntChecked_eq {bits : Nat} (wide : 8 ≤ bits) (first : UInt8) (later : Bytes) :
    extractVarlenIntChecked (2 ^ bits - 1) (first :: later) =
      if (first :: later).length < announced first ∨ 2 ^ bits ≤ encodedValue (announced first) (first :: later) then none
      else some (encodedValue (announced first) (first :: later),(first :: later).drop (announced first)) := by
  obtain ⟨most,full⟩ := countrOne_byte first
  have positive : 0 < 2 ^ bits := by positivity
  simp only [extractVarlenIntChecked, announced, gt_iff_lt, List.drop_succ_cons, extractFixedInt, Nat.add_sub_cancel]
  generalize countrOne 8 first.toNat = following at *
  by_cases short : (first :: later).length < following + 1
  · rw [if_pos short, if_pos (.inl short)]
  simp only [short, if_false, false_or]
  by_cases nine : following = 8
  · -- all bits of the first byte announce
    have value : encodedValue (following + 1) (first :: later) = leNat (later.take following) := by
      rw [encodedValue, List.take_succ_cons, leNat, nine, full nine, show 2 ^ min (8 + 1) 8 = 256 by rfl]
      omega
    have low : first.toNat >>> (following + 1) = 0 := by
      rw [nine, full nine]
      rfl
    have unshifted : ¬ following + 1 < 8 := by omega
    simp only [show ¬ following + 1 = 1 by omega, unshifted, if_false, low, Nat.zero_or, value]
    by_cases large : 2 ^ bits ≤ leNat (later.take following)
    · rw [if_pos large, if_pos (by omega)]
    · rw [if_neg large, if_neg (by omega)]
  obtain ⟨value,low⟩ := encodedValue_cons first later (show following ≤ 7 by omega)
  by_cases single : following = 0
  · subst single
    have byte := first.toNat_lt
    have small : encodedValue (0 + 1) (first :: later) = first.toNat >>> (0 + 1) := by simpa [leNat] using value
    have room : (2 : Nat) ^ 8 ≤ 2 ^ bits := Nat.pow_le_pow_right (by decide) wide
    rw [if_pos rfl, small, if_neg]
    · rfl
    · rw [Nat.shiftRight_eq_div_pow]
      omega
  · have high : (if following + 1 < 8 then leNat (later.take following) <<< (8 - (following + 1))
        else leNat (later.take following)) = 2 ^ (7 - following) * leNat (later.take following) := by
      split
      · rw [Nat.shiftLeft_eq, mul_comm, show 8 - (following + 1) = 7 - following by omega]
      · rw [show 7 - following = 0 by omega, pow_zero, one_mul]
    rw [if_neg (by omega), high, Nat.or_comm, ← Nat.two_pow_add_eq_or_of_lt low, ← value]
    -- a multiple of a power of two below another one leaves room for the low bits
    have exceeds : 2 ^ bits - 1 < 2 ^ (7 - following) * leNat (later.take following) ↔
        2 ^ bits ≤ encodedValue (following + 1) (first :: later) := by
      have split : 2 ^ bits = 2 ^ (7 - following) * 2 ^ (bits - (7 - following)) := by
        rw [← pow_add, show 7 - following + (bits - (7 - following)) = bits by omega]
      constructor
      · intro large
        rw [value]
        exact (Nat.le_of_pred_lt large).trans (Nat.le_add_right _ _)
      · intro large
        rw [value] at large
        by_contra less
        have below : 2 ^ (7 - following) * leNat (later.take following) <
            2 ^ (7 - following) * 2 ^ (bits - (7 - following)) := by omega
        have next := Nat.mul_le_mul_left (2 ^ (7 - following)) (Nat.lt_of_mul_lt_mul_left below)
        rw [Nat.mul_succ] at next
        omega
    simp only [exceeds]

namespace IntegerType
variable (type : IntegerType)

/-- The unsigned number that is written, and what is made of it when it is read. -/
theorem Holds.unsignedFor {type : IntegerType} {value : Int} (holds : type.Holds value) :
    type.unsignedFor value = (if type.signed then zigzag value else value.toNat) ∧ type.unsignedFor value < 2 ^ type.bits ∧
      (if type.signed then representedSigned type.bits (type.unsignedFor value) else type.unsignedFor value) = value := by
  obtain ⟨least,most⟩ := holds
  obtain ⟨half,width⟩ : ∃ half, type.bits = half + 1 := ⟨type.bits - 1,by have := type.least; omega⟩
  unfold IntegerType.unsignedFor
  rw [width, Nat.add_sub_cancel] at least most
  rw [width]
  cases signed : type.signed with
  | true =>
    simp only [signed, if_true] at least most ⊢
    rw [signedRepresentation_eq least most]
    exact ⟨rfl,zigzag_lt least most,representedSigned_zigzag least most⟩
  | false =>
    simp only [signed, Bool.false_eq_true, if_false] at least most ⊢
    have cast : ((2 ^ (half + 1) : Nat) : Int) = 2 ^ (half + 1) := by push_cast; rfl
    exact ⟨trivial,by omega,by omega⟩

theorem extractVarlenIntChecked_unreadable (bytes : Bytes) :
    ((type.extractVarlenIntChecked bytes).1 = none ↔ type.Unreadable bytes) ∧
      (type.Unreadable bytes → type.extractVarlenIntChecked bytes = (none,bytes)) := by
  cases bytes with
  | nil => exact ⟨iff_of_true rfl trivial,fun _ => rfl⟩
  | cons first later =>
    unfold extractVarlenIntChecked
    rw [extractVarlenIntChecked_eq type.least]
    by_cases unreadable : (first :: later).length < announced first ∨
        2 ^ type.bits ≤ encodedValue (announced first) (first :: later)
    · rw [if_pos unreadable]
      exact ⟨iff_of_true rfl unreadable,fun _ => rfl⟩
    · rw [if_neg unreadable]
      exact ⟨iff_of_false nofun unreadable,fun bad => absurd bad unreadable⟩

/-- A value is written in the least number of bytes that has room for it and read back from them whatever follows, and
    where nothing can be read the span stays as it is. -/
theorem varlen_int_codec :
    (∀ value, type.Holds value → ∃ bytes, bytes.length = type.calculateVarlenIntSize value ∧
      (∀ destination : Bytes, type.insertVarlenIntChecked destination value =
        if destination.length < type.calculateVarlenIntSize value then none
        else some (bytes,destination.drop (type.calculateVarlenIntSize value))) ∧
      LeastSize (if type.signed then zigzag value else value.toNat) (type.calculateVarlenIntSize value) ∧
      ∀ rest, type.extractVarlenIntChecked (bytes ++ rest) = (some value,rest)) ∧
    ∀ bytes, ((type.extractVarlenIntChecked bytes).1 = none ↔ type.Unreadable bytes) ∧
      (type.Unreadable bytes → type.extractVarlenIntChecked bytes = (none,bytes)) := by
  refine ⟨fun value holds => ?_,type.extractVarlenIntChecked_unreadable⟩
  obtain ⟨form,fits,back⟩ := holds.unsignedFor
  have wide : type.unsignedFor value < 2 ^ 64 := lt_of_lt_of_le fits (Nat.pow_le_pow_right (by decide) type.most)
  refine ⟨insertVarlenInt (type.unsignedFor value),insertVarlenInt_length _,fun _ => rfl,?_,fun rest => ?_⟩
  · rw [← form]
    exact calculateVarlenIntSize_least wide
  · rw [extractVarlenIntChecked, extractVarlenIntChecked_insertVarlenInt wide (by omega)]
    simp only [back]

end IntegerType

/-- `std::int8_t` -/
def int8 : IntegerType := ⟨true,8,le_rfl,Nat.le_of_ble_eq_true rfl⟩

theorem varlen_int_codec_int8 : int8.Holds (-128) ∧ ∃ bytes, bytes.length = int8.calculateVarlenIntSize (-128) ∧
    ∀ rest, int8.extractVarlenIntChecked (bytes ++ rest) = (some (-128),rest) := by
  have holds : int8.Holds (-128) := by decide
  obtain ⟨bytes,length,-,-,read⟩ := int8.varlen_int_codec.1 (-128) holds
  exact ⟨holds,bytes,length,read⟩

example : int8.insertVarlenIntChecked (List.replicate 3 0) (-128) = some ([0xFD,0x03],[0]) := by decide
example : int8.extractVarlenIntChecked [0xFD,0x03,7] = (some (-128),[7]) := by decide
example : int8.extractVarlenIntChecked [0x01,0x04,7] = (none,[0x01,0x04,7]) := by decide

end BinlogServer.Util
