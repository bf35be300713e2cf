import BinlogServer.Lib.Bytes
import BinlogServer.Util.Exceptions
import Mathlib.Data.Nat.Bitwise
import Mathlib.Tactic.IntervalCases
import Mathlib.Tactic.NormNum

/-!
# Extracting integers from byte spans and inserting them

The `extract_*_from_byte_span` and `insert_*_to_byte_span` families. A span that is consumed from the
left is the list of the bytes that remain; the `checked` variants answer `none` where the source answers
`false`.
-/

namespace BinlogServer.Util
open ByteString

/-- A checked extraction that raises `invalid_argument` where there is nothing to extract. -/
def extracted {α : Type} (result : Option α) (message : String) : Fallible α :=
  match result with
  | none => .error ⟨.invalidArgument,message⟩
  | some value => .ok value

@[simp] theorem extracted_eq_ok {α : Type} {result : Option α} {message : String} {value : α} :
    extracted result message = .ok value ↔ result = some value := by
  cases result <;> simp [extracted]

/-- The value of a `w`-bit two's complement number. -/
def toSigned (bits value : Nat) : Int := if value < 2 ^ (bits - 1) then value else value - 2 ^ bits

/-- The `w`-bit two's complement pattern of a number. -/
def ofSigned (bits : Nat) (value : Int) : Nat := (value % 2 ^ bits).toNat

/-- `extract_fixed_int_from_byte_span`: the caller has made sure that the bytes are there. -/
def extractFixedInt (width : Nat) (remainder : Bytes) : Nat × Bytes :=
  (leNat (remainder.take width),remainder.drop width)

/-- `extract_fixed_int_from_byte_span_checked` -/
def extractFixedIntChecked (width : Nat) (remainder : Bytes) : Option (Nat × Bytes) :=
  if width > remainder.length then none else some (extractFixedInt width remainder)

/-- `extract_byte_span_from_byte_span_checked` -/
def extractByteSpanChecked (len : Nat) (remainder : Bytes) : Option (Bytes × Bytes) :=
  if len > remainder.length then none else some (remainder.take len,remainder.drop len)

/-- `extract_packed_int_from_byte_span_checked` -/
def extractPackedIntChecked (remainder : Bytes) : Option (Nat × Bytes) :=
  match remainder with
  | [] => none
  | firstByte :: localRemainder =>
    match firstByte.toNat with
    | 251 => some (2 ^ 64 - 1,localRemainder)
    | 252 => extractFixedIntChecked 2 localRemainder
    | 253 => extractFixedIntChecked 3 localRemainder
    | 254 => extractFixedIntChecked 8 localRemainder
    | 255 => none
    | value => some (value,localRemainder)

/-- `calculate_packed_int_size` -/
def calculatePackedIntSize (value : Nat) : Nat :=
  if value < 251 then 1 else if value < 2 ^ 16 then 3 else if value < 2 ^ 24 then 4 else 9

/-- What `insert_packed_int_to_byte_span_checked` writes. -/
def insertPackedInt (value : Nat) : Bytes :=
  if value < 251 then leBytes 1 value
  else if value < 2 ^ 16 then 252 :: leBytes 2 value
  else if value < 2 ^ 24 then 253 :: leBytes 3 value
  else 254 :: leBytes 8 value

/-- `std::countr_one` of a number of `width` bits. -/
def countrOne : Nat → Nat → Nat
  | 0, _ => 0
  | width + 1, value => if value % 2 = 1 then countrOne width (value / 2) + 1 else 0

/-- `std::bit_width` -/
def bitWidth (value : Nat) : Nat := if value = 0 then 0 else Nat.log2 value + 1

/-- `calculate_varlen_int_size` of an unsigned value. -/
def calculateVarlenIntSize (value : Nat) : Nat := ((bitWidth value * 575) >>> 12) + 1

/-- `extract_varlen_int_from_byte_span_checked` for the unsigned type whose greatest value is `max`. -/
def extractVarlenIntChecked (max : Nat) (remainder : Bytes) : Option (Nat × Bytes) :=
  match remainder with
  | [] => none
  | firstByte :: localRemainder =>
    let numBytes := countrOne 8 firstByte.toNat + 1
    if numBytes > remainder.length then none
    else
      let valueCpy := firstByte.toNat >>> numBytes
      if numBytes = 1 then some (valueCpy,localRemainder)
      else
        let (extracted,localRemainder) := extractFixedInt (numBytes - 1) localRemainder
        let valueTmp := if numBytes < 8 then extracted <<< (8 - numBytes) else extracted
        if valueTmp > max then none else some (valueCpy ||| valueTmp,localRemainder)

/-- `extract_varlen_int_from_byte_span_checked` for `std::int64_t`. -/
def extractVarlenSignedChecked (remainder : Bytes) : Option (Int × Bytes) :=
  match extractVarlenIntChecked (2 ^ 64 - 1) remainder with
  | none => none
  | some (data,remainder) =>
    let signMask := if data &&& 1 ≠ 0 then 2 ^ 64 - 1 else 0
    some (toSigned 64 ((data >>> 1) ^^^ signMask),remainder)

/-- What `insert_varlen_int_to_byte_span_checked` writes for an unsigned value. -/
def insertVarlenInt (value : Nat) : Bytes :=
  let numBytes := calculateVarlenIntSize value
  let firstByte := UInt8.ofNat ((2 ^ (numBytes - 1) - 1) ||| (value <<< numBytes))
  if numBytes = 1 then [firstByte]
  else firstByte :: leBytes (numBytes - 1) (if numBytes < 8 then value >>> (8 - numBytes) else value)

/-- `detail::get_signed_representation_as_unsigned` for `std::int64_t`. -/
def getSignedRepresentationAsUnsigned (value : Int) : Nat :=
  let signMask := if value < 0 then 2 ^ 64 - 1 else 0
  (((ofSigned 64 value ^^^ signMask) <<< 1) % 2 ^ 64) ||| (signMask &&& 1)

def calculateVarlenSignedSize (value : Int) : Nat :=
  calculateVarlenIntSize (getSignedRepresentationAsUnsigned value)

def insertVarlenSigned (value : Int) : Bytes := insertVarlenInt (getSignedRepresentationAsUnsigned value)

/-- One bit of the reflected CRC-32 division. -/
def crcStep (crc : Nat) : Nat := if crc % 2 = 1 then (crc >>> 1) ^^^ 0xEDB88320 else crc >>> 1

/-- `calculate_crc32`: the CRC-32 of zlib. -/
def calculateCrc32 (portion : Bytes) : Nat :=
  (portion.foldl (fun crc b => Nat.repeat crcStep 8 (crc ^^^ b.toNat)) 0xFFFFFFFF) ^^^ 0xFFFFFFFF

theorem extractFixedIntChecked_eq_some {width value : Nat} {remainder rest : Bytes} :
    extractFixedIntChecked width remainder = some (value,rest) ↔
      value < 256 ^ width ∧ remainder = leBytes width value ++ rest := by
  unfold extractFixedIntChecked extractFixedInt
  constructor
  · intro read
    split at read
    · cases read
    · rename_i inside
      simp only [Option.some.injEq, Prod.mk.injEq] at read
      obtain ⟨rfl,rfl⟩ := read
      have sized : (remainder.take width).length = width := by simp; omega
      have bound := leNat_lt (remainder.take width)
      have bytes := leBytes_leNat (remainder.take width)
      rw [sized] at bound bytes
      exact ⟨bound,by rw [bytes, List.take_append_drop]⟩
  · rintro ⟨fits,rfl⟩
    rw [if_neg (by simp), List.take_left' (by simp), List.drop_left' (by simp), leNat_leBytes_of_lt fits]

/-- Reading a packed integer back gives the value written and leaves what follows it. -/
theorem extractPackedIntChecked_insertPackedInt {value : Nat} (fits : value < 2 ^ 64) (rest : Bytes) :
    extractPackedIntChecked (insertPackedInt value ++ rest) = some (value,rest) := by
  unfold insertPackedInt
  split_ifs with single double triple
  · have byte : (UInt8.ofNat value).toNat = value := by
      rw [UInt8.toNat_ofNat']
      omega
    simp only [leBytes, List.cons_append, List.nil_append, extractPackedIntChecked, byte]
    split <;> first | omega | rfl
  · exact extractFixedIntChecked_eq_some.mpr ⟨by omega,rfl⟩
  · exact extractFixedIntChecked_eq_some.mpr ⟨by omega,rfl⟩
  · exact extractFixedIntChecked_eq_some.mpr ⟨by omega,rfl⟩

@[simp] theorem insertPackedInt_length (value : Nat) : (insertPackedInt value).length = calculatePackedIntSize value := by
  unfold insertPackedInt calculatePackedIntSize
  split_ifs <;> simp

theorem extractPackedIntChecked_lt {remainder rest : Bytes} {value : Nat}
    (read : extractPackedIntChecked remainder = some (value,rest)) : value < 2 ^ 64 := by
  unfold extractPackedIntChecked at read
  split at read
  · cases read
  · rename_i firstByte later
    have byte := firstByte.toNat_lt
    split at read
    · cases read
      decide
    · have := (extractFixedIntChecked_eq_some.mp read).1
      omega
    · have := (extractFixedIntChecked_eq_some.mp read).1
      omega
    · have := (extractFixedIntChecked_eq_some.mp read).1
      omega
    · cases read
    · cases read
      omega

theorem extractByteSpanChecked_eq_some {len : Nat} {remainder bytes rest : Bytes} :
    extractByteSpanChecked len remainder = some (bytes,rest) ↔ bytes.length = len ∧ remainder = bytes ++ rest := by
  unfold extractByteSpanChecked
  constructor
  · intro read
    split at read
    · cases read
    · simp only [Option.some.injEq, Prod.mk.injEq] at read
      obtain ⟨rfl,rfl⟩ := read
      exact ⟨by simp; omega,(List.take_append_drop len remainder).symm⟩
  · rintro ⟨rfl,rfl⟩
    simp

/-- A variable-length integer is read from the bytes it takes, whatever follows them. -/
theorem extractVarlenIntChecked_split {max value : Nat} {remainder rest : Bytes}
    (read : extractVarlenIntChecked max remainder = some (value,rest)) :
    ∃ front, remainder = front ++ rest ∧
      ∀ other, extractVarlenIntChecked max (front ++ other) = some (value,other) := by
  cases remainder with
  | nil => cases read
  | cons firstByte later =>
    simp only [extractVarlenIntChecked] at read
    split at read
    · cases read
    · rename_i inside
      have counted : countrOne 8 firstByte.toNat ≤ later.length := by simp at inside; omega
      split at read
      · rename_i single
        simp only [Option.some.injEq, Prod.mk.injEq] at read
        obtain ⟨rfl,rfl⟩ := read
        exact ⟨[firstByte],rfl,fun other => by simp [extractVarlenIntChecked,single]⟩
      · rename_i several
        simp only [extractFixedInt, Nat.add_sub_cancel] at read
        generalize high : (if countrOne 8 firstByte.toNat + 1 < 8 then
          leNat (later.take (countrOne 8 firstByte.toNat)) <<< (8 - (countrOne 8 firstByte.toNat + 1))
          else leNat (later.take (countrOne 8 firstByte.toNat))) = valueTmp at read
        split at read
        · cases read
        · rename_i small
          simp only [Option.some.injEq, Prod.mk.injEq] at read
          obtain ⟨rfl,rfl⟩ := read
          refine ⟨firstByte :: later.take (countrOne 8 firstByte.toNat),by simp,fun other => ?_⟩
          have sized : (later.take (countrOne 8 firstByte.toNat)).length = countrOne 8 firstByte.toNat := by simpa
          simp only [extractVarlenIntChecked, List.cons_append, extractFixedInt, Nat.add_sub_cancel]
          rw [if_neg (by simp; omega), if_neg several, List.take_left' sized, List.drop_left' sized, high, if_neg small]

/-- A variable-length integer fits the type it is read for. -/
theorem extractVarlenIntChecked_lt {bits value : Nat} {remainder rest : Bytes} (wide : 7 ≤ bits)
    (read : extractVarlenIntChecked (2 ^ bits - 1) remainder = some (value,rest)) : value < 2 ^ bits := by
  have positive : 0 < 2 ^ bits := by positivity
  cases remainder with
  | nil => cases read
  | cons firstByte later =>
    have low : firstByte.toNat >>> (countrOne 8 firstByte.toNat + 1) < 2 ^ bits := by
      have byte := firstByte.toNat_lt
      have half : firstByte.toNat / 2 ^ (countrOne 8 firstByte.toNat + 1) ≤ firstByte.toNat / 2 := by
        refine Nat.div_le_div_left ?_ (by decide)
        exact Nat.le_self_pow (by omega) 2
      have seven : (2 : Nat) ^ 7 ≤ 2 ^ bits := Nat.pow_le_pow_right (by decide) wide
      rw [Nat.shiftRight_eq_div_pow]
      omega
    simp only [extractVarlenIntChecked] at read
    split_ifs at read with short single wideValue large
    · cases read
      exact low
    · cases read
      exact Nat.or_lt_two_pow low (by omega)
    · cases read
      exact Nat.or_lt_two_pow low (by omega)

theorem calculateVarlenIntSize_bounds {value : Nat} (fits : value < 2 ^ 64) :
    1 ≤ calculateVarlenIntSize value ∧ calculateVarlenIntSize value ≤ 9 ∧
      (calculateVarlenIntSize value < 9 → value < 2 ^ (7 * calculateVarlenIntSize value)) := by
  have width : bitWidth value ≤ 64 := by
    unfold bitWidth
    split
    · omega
    · rename_i nonzero
      have := (Nat.log2_lt nonzero).mpr fits
      omega
  have below : value < 2 ^ bitWidth value := by
    unfold bitWidth
    split
    · simp_all
    · exact Nat.lt_log2_self
  have table : ∀ w, w ≤ 64 → 1 ≤ ((w * 575) >>> 12) + 1 ∧ ((w * 575) >>> 12) + 1 ≤ 9 ∧
    (((w * 575) >>> 12) + 1 < 9 → w ≤ 7 * (((w * 575) >>> 12) + 1)) := by decide
  obtain ⟨least,most,fit⟩ := table (bitWidth value) width
  exact ⟨least,most,fun small => lt_of_lt_of_le below (Nat.pow_le_pow_right (by decide) (fit small))⟩

theorem calculateVarlenIntSize_mono {value other : Nat} (le : value ≤ other) :
    calculateVarlenIntSize value ≤ calculateVarlenIntSize other := by
  have width : bitWidth value ≤ bitWidth other := by
    unfold bitWidth
    split
    · omega
    · rename_i nonzero
      rw [if_neg (by omega)]
      exact Nat.succ_le_succ ((Nat.le_log2 (by omega)).mpr (le_trans (Nat.log2_self_le nonzero) le))
  unfold calculateVarlenIntSize
  simp only [Nat.shiftRight_eq_div_pow]
  have := Nat.div_le_div_right (c := 2 ^ 12) (Nat.mul_le_mul_right 575 width)
  omega

/-- The first byte of a variable-length integer of fewer than nine bytes: its trailing ones count the bytes
    that follow, the bits above them are the low bits of the value. -/
private theorem firstByte_eq {numBytes : Nat} (least : 1 ≤ numBytes) (most : numBytes ≤ 8) (value : Nat) :
    let first := (UInt8.ofNat ((2 ^ (numBytes - 1) - 1) ||| (value <<< numBytes))).toNat
    countrOne 8 first + 1 = numBytes ∧ first >>> numBytes = value % 2 ^ (8 - numBytes) := by
  have table : ∀ n, n < 9 → 1 ≤ n → ∀ low, low < 2 ^ (8 - n) →
      countrOne 8 ((2 ^ (n - 1) - 1) ||| (low <<< n)) + 1 = n ∧
        ((2 ^ (n - 1) - 1) ||| (low <<< n)) >>> n = low := by decide +kernel
  have shifted : (value <<< numBytes) % 2 ^ 8 = (value % 2 ^ (8 - numBytes)) <<< numBytes := by
    rw [Nat.shiftLeft_eq, Nat.shiftLeft_eq, ← Nat.mul_mod_mul_right, ← pow_add, Nat.sub_add_cancel most]
  have ones : (2 ^ (numBytes - 1) - 1) % 2 ^ 8 = 2 ^ (numBytes - 1) - 1 := by
    interval_cases numBytes <;> rfl
  have first : (UInt8.ofNat ((2 ^ (numBytes - 1) - 1) ||| (value <<< numBytes))).toNat =
      (2 ^ (numBytes - 1) - 1) ||| ((value % 2 ^ (8 - numBytes)) <<< numBytes) := by
    rw [UInt8.toNat_ofNat', Nat.or_mod_two_pow, ones, shifted]
  simp only [first]
  exact table numBytes (by omega) least _ (Nat.mod_lt _ (by positivity))

private theorem or_shiftRight_shiftLeft (value low : Nat) :
    value % 2 ^ low ||| (value >>> low) <<< low = value := by
  rw [Nat.or_comm, Nat.shiftLeft_eq, Nat.mul_comm, ← Nat.two_pow_add_eq_or_of_lt (Nat.mod_lt _ (by positivity)),
    Nat.shiftRight_eq_div_pow]
  exact Nat.div_add_mod value (2 ^ low)

/-- Reading a variable-length integer back gives the value written and leaves what follows it. -/
theorem extractVarlenIntChecked_insertVarlenInt {max value : Nat} (fits : value < 2 ^ 64) (small : value ≤ max)
    (rest : Bytes) : extractVarlenIntChecked max (insertVarlenInt value ++ rest) = some (value,rest) := by
  obtain ⟨least,most,bound⟩ := calculateVarlenIntSize_bounds fits
  unfold insertVarlenInt
  generalize calculateVarlenIntSize value = numBytes at *
  by_cases nine : numBytes = 9
  · subst nine
    have ones : UInt8.ofNat ((2 ^ (9 - 1) - 1) ||| value <<< 9) = 255 := by
      apply UInt8.toNat_inj.mp
      rw [UInt8.toNat_ofNat', Nat.or_mod_two_pow, Nat.shiftLeft_eq,
        show value * 2 ^ 9 = value * 2 * 2 ^ 8 by ring, Nat.mul_mod_left]
      rfl
    have read : leNat (leBytes 8 value) = value := leNat_leBytes_of_lt (by norm_num; exact fits)
    simp only [ones]
    simp [extractVarlenIntChecked,extractFixedInt,countrOne,read,small]
  · have eight : numBytes ≤ 8 := by omega
    obtain ⟨trailing,low⟩ := firstByte_eq least eight value
    have inside := bound (by omega)
    by_cases one : numBytes = 1
    · subst one
      rw [if_pos rfl]
      simp only [List.cons_append, List.nil_append, extractVarlenIntChecked, trailing, low]
      rw [Nat.mod_eq_of_lt (by simpa using inside)]
      simp
    · simp only [if_neg one, List.cons_append, extractVarlenIntChecked, trailing, low, extractFixedInt]
      rw [List.take_left' (by simp), List.drop_left' (by simp), if_neg (by simp; omega), leNat_leBytes]
      have high : (if numBytes < 8 then value >>> (8 - numBytes) else value) % 256 ^ (numBytes - 1) =
          value >>> (8 - numBytes) := by
        have same : (if numBytes < 8 then value >>> (8 - numBytes) else value) = value >>> (8 - numBytes) := by
          split
          · rfl
          · rw [show 8 - numBytes = 0 by omega, Nat.shiftRight_zero]
        rw [same, Nat.mod_eq_of_lt]
        rw [Nat.shiftRight_eq_div_pow, Nat.div_lt_iff_lt_mul (by positivity), show 256 = 2 ^ 8 by rfl, ← pow_mul, ← pow_add]
        exact lt_of_lt_of_le inside (Nat.pow_le_pow_right (by decide) (by omega))
      have shift : (if numBytes < 8 then (value >>> (8 - numBytes)) <<< (8 - numBytes)
          else value >>> (8 - numBytes)) = (value >>> (8 - numBytes)) <<< (8 - numBytes) := by
        split
        · rfl
        · rw [show 8 - numBytes = 0 by omega]; rfl
      have below : (value >>> (8 - numBytes)) <<< (8 - numBytes) ≤ value := by
        rw [Nat.shiftLeft_eq, Nat.shiftRight_eq_div_pow]
        exact Nat.div_mul_le_self _ _
      rw [high, shift, if_neg (by omega), or_shiftRight_shiftLeft]

/-- `detail::get_signed_representation_as_unsigned` for a signed type of `bits` bits. -/
def signedRepresentation (bits : Nat) (value : Int) : Nat :=
  let signMask := if value < 0 then 2 ^ bits - 1 else 0
  (((ofSigned bits value ^^^ signMask) <<< 1) % 2 ^ bits) ||| (signMask &&& 1)

/-- The value of a signed type of `bits` bits that `data` represents. -/
def representedSigned (bits data : Nat) : Int :=
  let signMask := if data &&& 1 ≠ 0 then 2 ^ bits - 1 else 0
  toSigned bits ((data >>> 1) ^^^ signMask)

/-- The zigzag form: the numbers from zero on are even, the negative ones odd. -/
def zigzag (value : Int) : Nat := if value < 0 then (-2 * value - 1).toNat else (2 * value).toNat

/-- A number below `2 ^ bits`, all its bits turned. -/
theorem xor_ones {bits value : Nat} (fits : value < 2 ^ bits) : value ^^^ (2 ^ bits - 1) = 2 ^ bits - 1 - value := by
  have flipped := congrArg BitVec.toNat (BitVec.xor_allOnes (x := BitVec.ofNat bits value))
  rwa [BitVec.toNat_xor, BitVec.toNat_not, BitVec.toNat_allOnes, BitVec.toNat_ofNat, Nat.mod_eq_of_lt fits] at flipped

section Signed
variable {half : Nat} {value : Int}

theorem zigzag_lt (least : -2 ^ half ≤ value) (most : value < 2 ^ half) : zigzag value < 2 ^ (half + 1) := by
  have cast : ((2 ^ half : Nat) : Int) = 2 ^ half := by push_cast; rfl
  rw [pow_succ']
  unfold zigzag
  split <;> omega

/-- The bit-level form is the zigzag form. -/
theorem signedRepresentation_eq (least : -2 ^ half ≤ value) (most : value < 2 ^ half) :
    signedRepresentation (half + 1) value = zigzag value := by
  have cast : ((2 ^ half : Nat) : Int) = 2 ^ half := by push_cast; rfl
  have whole : 2 ^ (half + 1) = 2 * 2 ^ half := pow_succ' 2 half
  have wholeInt : (2 : Int) ^ (half + 1) = 2 * 2 ^ half := pow_succ' 2 half
  have positive : 0 < 2 ^ half := by positivity
  unfold signedRepresentation ofSigned zigzag
  by_cases negative : value < 0
  · have pattern : (value % 2 ^ (half + 1)).toNat = 2 ^ (half + 1) - (-value).toNat := by
      rw [← Int.add_emod_right, Int.emod_eq_of_lt (by omega) (by omega)]
      omega
    have ones : (2 ^ (half + 1) - 1) &&& 1 = 1 := by
      rw [Nat.and_one_is_mod]
      omega
    have even : (2 ^ (half + 1) - 1 - (2 ^ (half + 1) - (-value).toNat)) <<< 1 % 2 ^ (half + 1) =
        2 ^ 1 * ((-value).toNat - 1) := by
      rw [Nat.shiftLeft_eq, Nat.mod_eq_of_lt (by omega)]
      omega
    simp only [negative, if_true, pattern]
    rw [xor_ones (by omega), even, ones, ← Nat.two_pow_add_eq_or_of_lt (by decide)]
    omega
  · have pattern : (value % 2 ^ (half + 1)).toNat = value.toNat := by
      rw [Int.emod_eq_of_lt (by omega) (by omega)]
    simp only [negative, if_false, pattern, Nat.xor_zero, Nat.zero_and, Nat.or_zero, Nat.shiftLeft_eq]
    rw [Nat.mod_eq_of_lt (by omega)]
    omega

/-- A value is read back from its zigzag form. -/
theorem representedSigned_zigzag (least : -2 ^ half ≤ value) (most : value < 2 ^ half) :
    representedSigned (half + 1) (zigzag value) = value := by
  have cast : ((2 ^ half : Nat) : Int) = 2 ^ half := by push_cast; rfl
  have whole : 2 ^ (half + 1) = 2 * 2 ^ half := pow_succ' 2 half
  have wholeInt : (2 : Int) ^ (half + 1) = 2 * 2 ^ half := pow_succ' 2 half
  unfold representedSigned zigzag toSigned
  simp only [Nat.and_one_is_mod, Nat.shiftRight_eq_div_pow, Nat.add_sub_cancel]
  by_cases negative : value < 0
  · have odd : (-2 * value - 1).toNat % 2 ≠ 0 := by omega
    rw [if_pos negative, if_pos odd, xor_ones (by omega), if_neg (by omega)]
    omega
  · have even : ¬ (2 * value).toNat % 2 ≠ 0 := by omega
    rw [if_neg negative, if_neg even, Nat.xor_zero, if_pos (by omega)]
    omega

end Signed

theorem toSigned_bounds {value : Nat} (fits : value < 2 ^ 64) : -2 ^ 63 ≤ toSigned 64 value ∧ toSigned 64 value < 2 ^ 63 := by
  unfold toSigned
  split <;> omega

theorem ofSigned_toSigned {value : Nat} (fits : value < 2 ^ 64) : ofSigned 64 (toSigned 64 value) = value := by
  unfold ofSigned toSigned
  split <;> omega

theorem ofSigned_lt (value : Int) : ofSigned 64 value < 2 ^ 64 := by
  unfold ofSigned
  omega

/-- Reading a signed variable-length integer back gives the value written. -/
theorem extractVarlenSignedChecked_insertVarlenSigned {value : Int} (least : -2 ^ 63 ≤ value)
    (most : value < 2 ^ 63) (rest : Bytes) :
    extractVarlenSignedChecked (insertVarlenSigned value ++ rest) = some (value,rest) := by
  have form : getSignedRepresentationAsUnsigned value = zigzag value := signedRepresentation_eq least most
  have back : representedSigned 64 (zigzag value) = value := representedSigned_zigzag least most
  have fits : zigzag value < 2 ^ 64 := zigzag_lt least most
  rw [extractVarlenSignedChecked, insertVarlenSigned, form, extractVarlenIntChecked_insertVarlenInt fits (by omega)]
  exact congrArg (fun signed => some (signed,rest)) back

@[simp] theorem insertVarlenInt_length (value : Nat) :
    (insertVarlenInt value).length = calculateVarlenIntSize value := by
  unfold insertVarlenInt
  have least : 1 ≤ calculateVarlenIntSize value := by unfold calculateVarlenIntSize; omega
  dsimp only
  split
  · simp_all
  · simp; omega

@[simp] theorem insertVarlenSigned_length (value : Int) :
    (insertVarlenSigned value).length = calculateVarlenSignedSize value := by
  simp [insertVarlenSigned,calculateVarlenSignedSize]

private theorem crcStep_lt {crc : Nat} (bound : crc < 2 ^ 32) : crcStep crc < 2 ^ 32 := by
  have half : crc >>> 1 < 2 ^ 32 := by rw [Nat.shiftRight_eq_div_pow]; omega
  unfold crcStep
  split
  · exact Nat.xor_lt_two_pow half (by decide)
  · exact half

theorem calculateCrc32_lt (portion : Bytes) : calculateCrc32 portion < 2 ^ 32 := by
  have steps : ∀ n crc, crc < 2 ^ 32 → Nat.repeat crcStep n crc < 2 ^ 32 := by
    intro n
    induction n with
    | zero => intro crc bound; exact bound
    | succ n ih => intro crc bound; exact crcStep_lt (ih crc bound)
  have fold : ∀ (bytes : Bytes) crc, crc < 2 ^ 32 →
      bytes.foldl (fun crc b => Nat.repeat crcStep 8 (crc ^^^ b.toNat)) crc < 2 ^ 32 := by
    intro bytes
    induction bytes with
    | nil => intro crc bound; exact bound
    | cons b rest ih =>
      intro crc bound
      have byte := b.toNat_lt
      exact ih _ (steps 8 _ (Nat.xor_lt_two_pow bound (by omega)))
  exact Nat.xor_lt_two_pow (fold portion _ (by decide)) (by decide)

end BinlogServer.Util
