import BinlogServer.Lib.Bytes
import Mathlib.Data.List.Induction

/-!
# Decimal numbers as text

The decimal digits of a natural number, as bytes of ASCII text, and the number a text of digits stands for.
-/

namespace ByteString

/-- The ten digits. -/
def isDigit (c : UInt8) : Bool := 0x30 ≤ c && c ≤ 0x39

/-- The decimal digits of a number, the least significant one first, for at most so many digits. -/
def digitsRev : Nat → Nat → Bytes
  | 0, _ => []
  | fuel + 1, n => UInt8.ofNat (0x30 + n % 10) :: if n < 10 then [] else digitsRev fuel (n / 10)

/-- A number in decimal notation, without leading zeros. -/
def toDecimal (n : Nat) : Bytes := (digitsRev (n + 1) n).reverse

/-- The number that decimal digits stand for. -/
def ofDigits (digits : Bytes) : Nat := digits.foldl (fun value c => value * 10 + (c.toNat - 0x30)) 0

/-- The text filled up from the left to a width. -/
def padLeft (width : Nat) (filler : UInt8) (text : Bytes) : Bytes :=
  List.replicate (width - text.length) filler ++ text

@[simp] theorem ofDigits_append_singleton (digits : Bytes) (c : UInt8) :
    ofDigits (digits ++ [c]) = ofDigits digits * 10 + (c.toNat - 0x30) := by
  simp [ofDigits]

private theorem digit_toNat (n : Nat) : (UInt8.ofNat (0x30 + n % 10)).toNat = 0x30 + n % 10 := by
  rw [UInt8.toNat_ofNat']
  omega

private theorem ofDigits_digitsRev (fuel n : Nat) (enough : n < fuel) : ofDigits (digitsRev fuel n).reverse = n := by
  induction fuel generalizing n with
  | zero => omega
  | succ fuel ih =>
    simp only [digitsRev, List.reverse_cons, ofDigits_append_singleton, digit_toNat]
    split
    · simp [ofDigits]
      omega
    · rw [ih _ (by omega)]
      omega

/-- A number is read back from its notation. -/
@[simp] theorem ofDigits_toDecimal (n : Nat) : ofDigits (toDecimal n) = n :=
  ofDigits_digitsRev _ _ (by omega)

private theorem isDigit_digitsRev (fuel n : Nat) : ∀ c ∈ digitsRev fuel n, isDigit c = true := by
  induction fuel generalizing n with
  | zero => simp [digitsRev]
  | succ fuel ih =>
    intro c member
    simp only [digitsRev, List.mem_cons] at member
    rcases member with rfl | member
    · have value := digit_toNat n
      simp only [isDigit, Bool.and_eq_true, decide_eq_true_eq, UInt8.le_iff_toNat_le, value]
      exact ⟨by simp,by simp; omega⟩
    · split at member
      · simp at member
      · exact ih _ c member

theorem isDigit_of_mem_toDecimal {n : Nat} {c : UInt8} (member : c ∈ toDecimal n) : isDigit c = true :=
  isDigit_digitsRev _ _ c (by simpa [toDecimal] using member)

theorem toDecimal_ne_nil (n : Nat) : toDecimal n ≠ [] := by
  simp [toDecimal,digitsRev]

private theorem digitsRev_length (fuel n width : Nat) (small : n < 10 ^ (width + 1)) :
    (digitsRev fuel n).length ≤ width + 1 := by
  induction fuel generalizing n width with
  | zero => simp [digitsRev]
  | succ fuel ih =>
    simp only [digitsRev, List.length_cons]
    split
    · simp
    · cases width with
      | zero => simp at small; omega
      | succ width =>
        have := ih (n / 10) width (by rw [pow_succ] at small; omega)
        omega

theorem toDecimal_length_le {n width : Nat} (small : n < 10 ^ (width + 1)) : (toDecimal n).length ≤ width + 1 := by
  simpa [toDecimal] using digitsRev_length (n + 1) n width small

/-- Texts of one width stand for different numbers. -/
theorem ofDigits_inj {digits others : Bytes} (first : ∀ c ∈ digits, isDigit c = true)
    (second : ∀ c ∈ others, isDigit c = true) (width : digits.length = others.length)
    (value : ofDigits digits = ofDigits others) : digits = others := by
  induction digits using List.reverseRecOn generalizing others with
  | nil => exact (List.length_eq_zero_iff.mp width.symm).symm
  | append_singleton digits c ih =>
    obtain rfl | ⟨others,d,rfl⟩ := List.eq_nil_or_concat' others
    · simp at width
    · have last := first c (by simp)
      have other := second d (by simp)
      simp only [isDigit, Bool.and_eq_true, decide_eq_true_eq, UInt8.le_iff_toNat_le] at last other
      simp only [UInt8.reduceToNat] at last other
      rw [ofDigits_append_singleton, ofDigits_append_singleton] at value
      have same : digits = others := ih (fun x member => first x (List.mem_append_left _ member))
        (fun x member => second x (List.mem_append_left _ member)) (by simpa using width) (by omega)
      rw [same, UInt8.toNat_inj.mp (show c.toNat = d.toNat by omega)]

/-- Zeros on the left do not change the number. -/
@[simp] theorem ofDigits_padLeft (width : Nat) (digits : Bytes) : ofDigits (padLeft width 0x30 digits) = ofDigits digits := by
  unfold padLeft
  induction width - digits.length with
  | zero => simp
  | succ count ih =>
    rw [List.replicate_succ, List.cons_append]
    simpa [ofDigits] using ih

theorem padLeft_length (width : Nat) (filler : UInt8) (text : Bytes) (fits : text.length ≤ width) :
    (padLeft width filler text).length = width := by
  simp [padLeft]
  omega

theorem mem_padLeft {width : Nat} {filler c : UInt8} {text : Bytes} (member : c ∈ padLeft width filler text) :
    c = filler ∨ c ∈ text := by
  simp only [padLeft, List.mem_append, List.mem_replicate] at member
  exact member.imp_left (·.2)

end ByteString
