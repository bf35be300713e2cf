import BinlogServer.Util.SemanticVersion

/-!
# Sizes and intervals of the configuration

`size_unit` and `time_unit`: a number, and at most one character for what it is multiplied with.
-/

namespace BinlogServer.Store
open ByteString Util

/-- The part the two constructors share. The answer is the number with what belongs to its character; `plain` belongs
    to a number that has none, and `greatest` is the largest number that may stand before a character. -/
def parseUnit (kind : String) (plain : Nat) (characters : List (UInt8 × Nat)) (greatest : Nat → Nat) (value : Bytes) :
    Fallible (Nat × Nat) :=
  match fromChars (2 ^ 64 - 1) (value.takeWhile isDigit) with
  | none => throw ⟨.invalidArgument,"unable to parse numeric part in the " ++ kind ++ " unit"⟩
  | some baseValue =>
    match value.dropWhile isDigit with
    | [] => pure (baseValue,plain)
    | character :: more => do
      raiseIf (more ≠ []) .invalidArgument
        ("unit prefix in the " ++ kind ++ " unit is expected to be a single character")
      match characters.find? (·.1 = character) with
      | none => throw ⟨.invalidArgument,"unknown unit prefix in the " ++ kind ++ " unit"⟩
      | some (_,found) =>
        -- Zero is zero with every character.
        if baseValue = 0 then pure (0,plain)
        else do
          raiseIf (baseValue > greatest found) .outOfRange
            ("the specified " ++ kind ++ " unit cannot be represented in a 64-bit unsigned integer")
          pure (baseValue,found)

/-- The number a text stands for, whatever the types that hold it. -/
def denoted (characters : List (UInt8 × Nat)) (factor : Nat → Nat) (value : Bytes) : Nat :=
  ofDigits (value.takeWhile isDigit) *
    match value.dropWhile isDigit with
    | [] => 1
    | character :: _ => ((characters.find? (·.1 = character)).map fun found => factor found.2).getD 1

/-- What is accepted stands for a number that has been computed without an overflow. -/
theorem parseUnit_ok {kind : String} {plain : Nat} {characters : List (UInt8 × Nat)} {greatest : Nat → Nat}
    {value : Bytes} {baseValue found : Nat} (factor : Nat → Nat) (one : factor plain = 1)
    (limit : ∀ code ∈ characters.map Prod.snd, ∀ n, n ≤ greatest code → n * factor code < 2 ^ 64)
    (parsed : parseUnit kind plain characters greatest value = .ok (baseValue,found)) :
    baseValue * factor found = denoted characters factor value ∧ baseValue * factor found < 2 ^ 64 := by
  unfold parseUnit at parsed
  unfold denoted
  cases number : fromChars (2 ^ 64 - 1) (value.takeWhile isDigit) with
  | none =>
    rw [number] at parsed
    exact absurd parsed throw_ne_ok
  | some n =>
    obtain ⟨-,digits⟩ := fromChars_digits number
    have small : n < 2 ^ 64 := Nat.lt_of_le_pred (by decide) (fromChars_le number)
    rw [number] at parsed
    cases rest : value.dropWhile isDigit with
    | nil =>
      simp only [rest] at parsed
      cases parsed
      simpa [one,digits] using small
    | cons character more =>
      simp only [rest, bind_eq_ok, raiseIf_eq_ok, exists_const] at parsed
      obtain ⟨-,parsed⟩ := parsed
      cases known : characters.find? (·.1 = character) with
      | none =>
        rw [known] at parsed
        exact absurd parsed throw_ne_ok
      | some entry =>
        simp only [known] at parsed
        by_cases zero : n = 0
        · rw [if_pos zero] at parsed
          cases parsed
          simp [digits,zero]
        · rw [if_neg zero] at parsed
          simp only [bind_eq_ok, raiseIf_eq_ok, exists_const, not_lt] at parsed
          obtain ⟨least,parsed⟩ := parsed
          cases parsed
          have listed := List.mem_map_of_mem (f := Prod.snd) (List.mem_of_find?_eq_some known)
          exact ⟨by simp [digits,known],limit _ listed _ least⟩

/-- `size_unit`; of an entry of `shifts` that is pointed to, only the shift matters. -/
structure SizeUnit where
  baseValue : Nat
  shift : Nat
deriving DecidableEq, Repr

namespace SizeUnit

def shifts : List (UInt8 × Nat) := [(0x5F,0),(0x4B,10),(0x4D,20),(0x47,30),(0x54,40),(0x50,50)]

/-- The constructor. The first entry of `shifts` is not searched. -/
def make (value : Bytes) : Fallible SizeUnit := do
  let (baseValue,shift) ← parseUnit "size" 0 shifts.tail (fun shift => (2 ^ 64 - 1) >>> shift) value
  pure ⟨baseValue,shift⟩

/-- `get_value` -/
def getValue (unit : SizeUnit) : Nat := (unit.baseValue <<< unit.shift) % 2 ^ 64

/-- The number of bytes a text stands for. -/
def bytes (value : Bytes) : Nat := denoted shifts.tail (2 ^ ·) value

theorem getValue_make {value : Bytes} {unit : SizeUnit} (made : make value = .ok unit) :
    unit.getValue = bytes value ∧ bytes value < 2 ^ 64 := by
  simp only [make, bind_eq_ok, Prod.exists] at made
  obtain ⟨baseValue,shift,parsed,same⟩ := made
  cases same
  have limit : ∀ code ∈ shifts.tail.map Prod.snd, ∀ n, n ≤ (2 ^ 64 - 1) >>> code → n * 2 ^ code < 2 ^ 64 := by
    intro code _ n least
    rw [Nat.shiftRight_eq_div_pow, Nat.le_div_iff_mul_le (Nat.two_pow_pos code)] at least
    omega
  obtain ⟨exact,small⟩ := parseUnit_ok (2 ^ ·) rfl limit parsed
  rw [exact] at small
  refine ⟨?_,small⟩
  rw [getValue, Nat.shiftLeft_eq, exact]
  exact Nat.mod_eq_of_lt small

end SizeUnit

/-- `time_unit`; of an entry of `multipliers` that is pointed to, only the multiplier matters. -/
structure TimeUnit where
  baseValue : Nat
  multiplier : Nat
deriving DecidableEq, Repr

namespace TimeUnit

def multipliers : List (UInt8 × Nat) := [(0x73,1),(0x6D,60),(0x68,60 * 60),(0x64,60 * 60 * 24)]

/-- The constructor. -/
def make (value : Bytes) : Fallible TimeUnit := do
  let (baseValue,multiplier) ← parseUnit "time" 1 multipliers (fun multiplier => (2 ^ 64 - 1) / multiplier) value
  pure ⟨baseValue,multiplier⟩

/-- `get_value` -/
def getValue (unit : TimeUnit) : Nat := unit.baseValue * unit.multiplier % 2 ^ 64

/-- The number of seconds a text stands for. -/
def seconds (value : Bytes) : Nat := denoted multipliers id value

theorem getValue_make {value : Bytes} {unit : TimeUnit} (made : make value = .ok unit) :
    unit.getValue = seconds value ∧ seconds value < 2 ^ 64 := by
  simp only [make, bind_eq_ok, Prod.exists] at made
  obtain ⟨baseValue,multiplier,parsed,same⟩ := made
  cases same
  have limit : ∀ code ∈ multipliers.map Prod.snd, ∀ n, n ≤ (2 ^ 64 - 1) / code → n * code < 2 ^ 64 := by
    intro code listed n least
    have positive : ∀ code ∈ multipliers.map Prod.snd, 0 < code := by decide
    replace positive := positive code listed
    rw [Nat.le_div_iff_mul_le positive] at least
    omega
  obtain ⟨exact,small⟩ := parseUnit_ok id rfl limit parsed
  rw [exact] at small
  refine ⟨?_,small⟩
  exact (congrArg (· % 2 ^ 64) exact).trans (Nat.mod_eq_of_lt small)

end TimeUnit
end BinlogServer.Store
