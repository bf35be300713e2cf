import Mathlib.Data.List.Basic
import Mathlib.Data.List.Lex
import Mathlib.Tactic.Ring

/-!
# Byte strings

Little-endian numbers of a fixed width, fields at an offset of a byte string, and the two ways of
changing one: reading a field back after it, or a disjoint one, has been overwritten.
-/

namespace ByteString

abbrev Bytes := List UInt8

/-- Bytes in their numeric order, so that byte strings are ordered as `memcmp` orders them. -/
instance linearOrderUInt8 : LinearOrder UInt8 where
  le_refl := fun _ => UInt8.le_refl _
  le_trans := fun _ _ _ => UInt8.le_trans
  le_antisymm := fun _ _ => UInt8.le_antisymm
  le_total := fun _ _ => UInt8.le_total _ _
  lt_iff_le_not_ge := fun a b => by
    rw [UInt8.le_iff_toNat_le, UInt8.le_iff_toNat_le, UInt8.lt_iff_toNat_lt]
    omega
  toDecidableLE := inferInstance
  toDecidableLT := inferInstance
  toDecidableEq := inferInstance

/-- The number a byte string stands for, least significant byte first. -/
def leNat : Bytes → Nat
  | [] => 0
  | b :: rest => b.toNat + 256 * leNat rest

/-- The `width` low bytes of a number, least significant byte first. -/
def leBytes : Nat → Nat → Bytes
  | 0, _ => []
  | width + 1, value => UInt8.ofNat value :: leBytes width (value / 256)

@[simp] theorem leBytes_length (width value : Nat) : (leBytes width value).length = width := by
  induction width generalizing value with
  | zero => rfl
  | succ width ih => simp [leBytes, ih]

theorem leNat_lt (bytes : Bytes) : leNat bytes < 256 ^ bytes.length := by
  induction bytes with
  | nil => simp [leNat]
  | cons b rest ih =>
    have byte := b.toNat_lt
    simp only [leNat, List.length_cons, pow_succ]
    omega

theorem leNat_leBytes (width value : Nat) : leNat (leBytes width value) = value % 256 ^ width := by
  induction width generalizing value with
  | zero => simp [leBytes, leNat, Nat.mod_one]
  | succ width ih =>
    simp only [leBytes, leNat, ih, UInt8.toNat_ofNat']
    rw [Nat.pow_succ 256 width, Nat.mul_comm (256 ^ width) 256, Nat.mod_mul]

theorem leNat_leBytes_of_lt {width value : Nat} (fits : value < 256 ^ width) :
    leNat (leBytes width value) = value := by
  rw [leNat_leBytes, Nat.mod_eq_of_lt fits]

theorem leBytes_leNat (bytes : Bytes) : leBytes bytes.length (leNat bytes) = bytes := by
  induction bytes with
  | nil => rfl
  | cons b rest ih =>
    have byte := b.toNat_lt
    have high : (b.toNat + 256 * leNat rest) / 256 = leNat rest := by omega
    simp only [List.length_cons, leBytes, leNat, high, ih, List.cons.injEq, and_true]
    apply UInt8.toNat_inj.mp
    rw [UInt8.toNat_ofNat']
    omega

/-- The `len` bytes at `offset`. -/
def slice (offset len : Nat) (bytes : Bytes) : Bytes := (bytes.drop offset).take len

/-- The byte string with the bytes at `offset` replaced by those of `field`. -/
def patch (offset : Nat) (field bytes : Bytes) : Bytes :=
  bytes.take offset ++ field ++ bytes.drop (offset + field.length)

theorem slice_length {offset len : Nat} {bytes : Bytes} (inside : offset + len ≤ bytes.length) :
    (slice offset len bytes).length = len := by
  simp [slice]; omega

/-- A field of the beginning does not depend on what follows. -/
theorem slice_append {offset len : Nat} {bytes : Bytes} (inside : offset + len ≤ bytes.length) (rest : Bytes) :
    slice offset len (bytes ++ rest) = slice offset len bytes := by
  rw [slice, slice, List.drop_append_of_le_length (by omega), List.take_append_of_le_length (by simp; omega)]

theorem patch_length {offset : Nat} {field bytes : Bytes} (inside : offset + field.length ≤ bytes.length) :
    (patch offset field bytes).length = bytes.length := by
  simp [patch]; omega

/-- The field just overwritten reads back. -/
theorem slice_patch_same {offset : Nat} {field bytes : Bytes} (inside : offset + field.length ≤ bytes.length) :
    slice offset field.length (patch offset field bytes) = field := by
  have at_offset : (bytes.take offset).length = offset := by simp; omega
  rw [slice, patch, List.append_assoc, List.drop_append, at_offset]
  simp

/-- A field before the overwritten one is untouched. -/
theorem slice_patch_before {offset len start : Nat} {field bytes : Bytes}
    (before : start + len ≤ offset) (inside : offset ≤ bytes.length) :
    slice start len (patch offset field bytes) = slice start len bytes := by
  have whole : (bytes.take offset).length = offset := by simp; omega
  rw [slice, slice, patch, List.append_assoc, List.drop_append_of_le_length (by omega),
    List.take_append_of_le_length (by simp; omega), List.drop_take, List.take_take]
  congr 1
  omega

/-- A field after the overwritten one is untouched. -/
theorem slice_patch_after {offset len start : Nat} {field bytes : Bytes}
    (after : offset + field.length ≤ start) (inside : offset + field.length ≤ bytes.length) :
    slice start len (patch offset field bytes) = slice start len bytes := by
  have whole : (bytes.take offset ++ field).length = offset + field.length := by simp; omega
  rw [slice, slice, patch, List.drop_append, whole, List.drop_eq_nil_of_le (by omega), List.nil_append,
    List.drop_drop]
  congr 2
  omega

section Patching
variable {offset : Nat} {field bytes : Bytes}

/-- Where a field lies within the beginning, the rest is untouched. -/
theorem patch_append (inside : offset + field.length ≤ bytes.length) (rest : Bytes) :
    patch offset field (bytes ++ rest) = patch offset field bytes ++ rest := by
  rw [patch, patch, List.take_append_of_le_length (by omega), List.drop_append_of_le_length (by omega)]
  simp only [List.append_assoc]

/-- Of two fields at one place the later one counts. -/
theorem patch_patch {other : Bytes} (same : other.length = field.length) (inside : offset + field.length ≤ bytes.length) :
    patch offset field (patch offset other bytes) = patch offset field bytes := by
  have before : (bytes.take offset).length = offset := List.length_take_of_le (by omega)
  have after : (bytes.take offset ++ other).length = offset + field.length := by
    rw [List.length_append, before, same]
  conv_lhs => rw [patch]
  rw [patch, List.drop_left' after, List.append_assoc (bytes.take offset) other, List.take_left' before, same]
  rfl

/-- Putting back what is there changes nothing. -/
theorem patch_slice {len : Nat} (inside : offset + len ≤ bytes.length) :
    patch offset (slice offset len bytes) bytes = bytes := by
  rw [patch, slice_length inside, slice, ← List.drop_drop, List.append_assoc, List.take_append_drop,
    List.take_append_drop]

theorem patch_end {old : Bytes} (same : old.length = field.length) :
    patch bytes.length field (bytes ++ old) = bytes ++ field := by
  rw [patch, List.take_left' rfl, List.drop_eq_nil_of_le (by simp [same]), List.append_nil]

end Patching

/-- The longest beginning with a property, where the text goes on with something that has not got it. -/
theorem takeWhile_append_stop {p : UInt8 → Bool} {front rest : Bytes} (all : ∀ c ∈ front, p c = true)
    (stops : ∀ c ∈ rest.head?, p c = false) : (front ++ rest).takeWhile p = front := by
  rw [List.takeWhile_append_of_pos all]
  cases rest with
  | nil => simp
  | cons c later => simp [stops c rfl]

theorem length_le_flatMap {α : Type _} (items : List α) (text : α → Bytes) (nonempty : ∀ item, text item ≠ []) :
    items.length ≤ (items.flatMap text).length := by
  induction items with
  | nil => simp
  | cons item rest ih =>
    have := List.length_pos_iff.mpr (nonempty item)
    simp only [List.flatMap_cons, List.length_append, List.length_cons]
    omega

/-- Text as bytes, for text that is ASCII. -/
def ascii (text : String) : Bytes := text.toList.map fun c => UInt8.ofNat c.toNat

end ByteString
