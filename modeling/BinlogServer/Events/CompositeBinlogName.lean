import BinlogServer.Util.SemanticVersion

/-!
# Names of binlog files

`composite_binlog_name`: a base name and a sequence number, written with six digits.
-/

namespace BinlogServer.Events
open ByteString Util

/-- What the constructor of `composite_binlog_name` lets through. -/
def CompositeBinlogName.Valid (baseName : Bytes) (sequenceNumber : Nat) : Prop :=
  baseName ≠ [] ∧ 0x2F ∉ baseName ∧ sequenceNumber ≠ 0 ∧ sequenceNumber < 10 ^ 6

instance (baseName : Bytes) (sequenceNumber : Nat) : Decidable (CompositeBinlogName.Valid baseName sequenceNumber) :=
  inferInstanceAs (Decidable (_ ∧ _ ∧ _ ∧ _))

/-- `composite_binlog_name`; the default constructed one has no base name and the number zero. -/
structure CompositeBinlogName where
  baseName : Bytes
  sequenceNumber : Nat
  valid : baseName = [] ∧ sequenceNumber = 0 ∨ CompositeBinlogName.Valid baseName sequenceNumber
deriving DecidableEq

namespace CompositeBinlogName

def numberOfSequenceNumberCharacters : Nat := 6

def none : CompositeBinlogName := ⟨[],0,.inl ⟨rfl,rfl⟩⟩

def isEmpty (name : CompositeBinlogName) : Bool := name.sequenceNumber = 0

/-- The constructor. -/
def make (baseName : Bytes) (sequenceNumber : Nat) : Fallible CompositeBinlogName :=
  if empty : baseName = [] then .error ⟨.invalidArgument,"binlog base name cannot be empty"⟩
  else if separator : 0x2F ∈ baseName then
    .error ⟨.invalidArgument,"binlog base name contains filesystem separator"⟩
  else if zero : sequenceNumber = 0 then .error ⟨.invalidArgument,"binlog sequence number cannot be zero"⟩
  else if large : sequenceNumber ≥ 10 ^ numberOfSequenceNumberCharacters then
    .error ⟨.invalidArgument,"binlog sequence number is too large"⟩
  else .ok ⟨baseName,sequenceNumber,.inr ⟨empty,separator,zero,Nat.lt_of_not_le large⟩⟩

/-- `composite_binlog_name::parse` -/
def parse (compositeName : Bytes) : Fallible CompositeBinlogName := do
  raiseIf (compositeName.length ≤ numberOfSequenceNumberCharacters + 1) .invalidArgument
    "binlog composite name is too short"
  let separatorPosition := compositeName.length - numberOfSequenceNumberCharacters - 1
  raiseIf (compositeName[separatorPosition]? ≠ some 0x2E) .invalidArgument
    ("binlog composite name does not contain a base name / sequence number " ++
      "separator at expected position")
  match fromChars (2 ^ 32 - 1) (compositeName.drop (separatorPosition + 1)) with
  | .none => throw ⟨.invalidArgument,"binlog composite name contains invalid characters in its sequence number part"⟩
  | some sequenceNumber => make (compositeName.take separatorPosition) sequenceNumber

/-- `str` -/
def str (name : CompositeBinlogName) : Bytes :=
  name.baseName ++ [0x2E] ++ padLeft numberOfSequenceNumberCharacters 0x30 (toDecimal name.sequenceNumber)

/-- `next` -/
def next (name : CompositeBinlogName) : Fallible CompositeBinlogName := make name.baseName (name.sequenceNumber + 1)

theorem make_eq_ok {baseName : Bytes} {sequenceNumber : Nat} {name : CompositeBinlogName} :
    make baseName sequenceNumber = .ok name ↔
      Valid baseName sequenceNumber ∧ name.baseName = baseName ∧ name.sequenceNumber = sequenceNumber := by
  unfold make
  split_ifs with empty separator zero large <;> simp only [false_iff, Except.ok.injEq]
  · exact fun h => h.1.1 empty
  · exact fun h => h.1.2.1 separator
  · exact fun h => h.1.2.2.1 zero
  · exact fun h => absurd h.1.2.2.2 (not_lt.mpr large)
  · constructor
    · rintro rfl
      exact ⟨⟨empty,separator,zero,not_le.mp large⟩,rfl,rfl⟩
    · rintro ⟨-,base,number⟩
      cases name
      simp_all

theorem valid_of_nonempty {name : CompositeBinlogName} (nonempty : name.isEmpty = false) :
    Valid name.baseName name.sequenceNumber := by
  rcases name.valid with ⟨-,zero⟩ | valid
  · simp [isEmpty,zero] at nonempty
  · exact valid

theorem make_nonempty {baseName : Bytes} {sequenceNumber : Nat} {name : CompositeBinlogName}
    (made : make baseName sequenceNumber = .ok name) : name.isEmpty = false := by
  obtain ⟨valid,-,number⟩ := make_eq_ok.mp made
  simpa [isEmpty,number] using valid.2.2.1

theorem parse_nonempty {text : Bytes} {name : CompositeBinlogName} (parsed : parse text = .ok name) :
    name.isEmpty = false := by
  simp only [parse, bind_eq_ok, raiseIf_eq_ok, exists_const] at parsed
  obtain ⟨-,-,parsed⟩ := parsed
  split at parsed
  · exact absurd parsed throw_ne_ok
  · exact make_nonempty parsed

private theorem number_length (name : CompositeBinlogName) :
    (padLeft numberOfSequenceNumberCharacters 0x30 (toDecimal name.sequenceNumber)).length =
      numberOfSequenceNumberCharacters := by
  have small : name.sequenceNumber < 10 ^ (5 + 1) := by
    rcases name.valid with ⟨-,zero⟩ | valid
    · simp [zero]
    · exact valid.2.2.2
  exact padLeft_length _ _ _ (toDecimal_length_le small)

theorem str_length (name : CompositeBinlogName) : name.str.length = name.baseName.length + 7 := by
  have := number_length name
  unfold numberOfSequenceNumberCharacters at this
  simp [str,numberOfSequenceNumberCharacters,this]

private theorem number_digits (name : CompositeBinlogName) :
    ∀ c ∈ padLeft numberOfSequenceNumberCharacters 0x30 (toDecimal name.sequenceNumber), isDigit c = true := by
  intro c member
  rcases mem_padLeft member with rfl | member
  · rfl
  · exact isDigit_of_mem_toDecimal member

theorem notMem_str {name : CompositeBinlogName} {c : UInt8} (base : c ∉ name.baseName) (dot : c ≠ 0x2E)
    (letter : isDigit c = false) : c ∉ name.str := by
  simp only [str, List.mem_append, List.mem_singleton, not_or]
  refine ⟨⟨base,dot⟩,fun member => ?_⟩
  cases letter.symm.trans (number_digits name _ member)

theorem separator_notMem_str (name : CompositeBinlogName) : 0x2F ∉ name.str := by
  refine notMem_str ?_ (by decide) rfl
  rcases name.valid with ⟨none,-⟩ | valid
  · simp [none]
  · exact valid.2.1

theorem str_injective : Function.Injective str := by
  intro name other same
  have lengths := (number_length name).trans (number_length other).symm
  obtain ⟨front,number⟩ := List.append_inj' same lengths
  have digits := congrArg ofDigits number
  simp only [ofDigits_padLeft, ofDigits_toDecimal] at digits
  cases name
  cases other
  simp_all

/-- The text of a name ends with a digit. -/
theorem str_getLast? (name : CompositeBinlogName) : ∃ c, name.str.getLast? = some c ∧ isDigit c = true := by
  have nonempty : padLeft numberOfSequenceNumberCharacters 0x30 (toDecimal name.sequenceNumber) ≠ [] := by
    intro none
    have length := number_length name
    rw [none] at length
    cases length
  refine ⟨_,?_,number_digits name _ (List.getLast_mem nonempty)⟩
  rw [str, List.getLast?_append_of_ne_nil _ nonempty, List.getLast?_eq_getLast_of_ne_nil]

/-- A name is read back from its text. -/
theorem parse_str {name : CompositeBinlogName} (nonempty : name.isEmpty = false) : parse name.str = .ok name := by
  have valid := valid_of_nonempty nonempty
  have length := number_length name
  set number := padLeft numberOfSequenceNumberCharacters 0x30 (toDecimal name.sequenceNumber) with number_eq
  have text : name.str = name.baseName ++ 0x2E :: number := by simp [str,number]
  have total : name.str.length - numberOfSequenceNumberCharacters - 1 = name.baseName.length := by
    rw [text]
    simp [length]
    omega
  have base : 0 < name.baseName.length := List.length_pos_iff.mpr valid.1
  have chars : fromChars (2 ^ 32 - 1) number = some name.sequenceNumber := by
    have value : ofDigits number = name.sequenceNumber := by simp [number]
    rw [← value]
    refine fromChars_eq_some ?_ (number_digits name) ?_
    · intro none
      simp [none,numberOfSequenceNumberCharacters] at length
    · have := valid.2.2.2
      omega
  unfold parse
  rw [total]
  simp only [bind_eq_ok, raiseIf_eq_ok, exists_const]
  refine ⟨?_,?_,?_⟩
  · have := str_length name
    unfold numberOfSequenceNumberCharacters
    omega
  · simp [text]
  · have rest : name.str.drop (name.baseName.length + 1) = number := by simp [text]
    have front : name.str.take name.baseName.length = name.baseName := by simp [text]
    rw [rest, chars, front]
    exact make_eq_ok.mpr ⟨valid,rfl,rfl⟩

/-- A name is written as the text it was read from. -/
theorem str_of_parse {text : Bytes} {name : CompositeBinlogName} (parsed : parse text = .ok name) : name.str = text := by
  simp only [parse, bind_eq_ok, raiseIf_eq_ok, exists_const, not_le, ne_eq, not_not] at parsed
  obtain ⟨long,separator,parsed⟩ := parsed
  unfold numberOfSequenceNumberCharacters at long separator parsed
  split at parsed
  · exact absurd parsed throw_ne_ok
  · rename_i number chars
    obtain ⟨digits,value⟩ := fromChars_digits chars
    obtain ⟨-,base,sequenceNumber⟩ := make_eq_ok.mp parsed
    have width : (text.drop (text.length - 6 - 1 + 1)).length = 6 := by
      rw [List.length_drop]
      omega
    have written : padLeft numberOfSequenceNumberCharacters 0x30 (toDecimal name.sequenceNumber) =
        text.drop (text.length - 6 - 1 + 1) := by
      refine ofDigits_inj (number_digits name) digits ((number_length name).trans width.symm) ?_
      rw [ofDigits_padLeft, ofDigits_toDecimal, sequenceNumber, value]
    obtain ⟨short,dot⟩ := List.getElem?_eq_some_iff.mp separator
    rw [str, written, base, List.append_assoc, List.singleton_append, ← dot, List.getElem_cons_drop,
      List.take_append_drop]

theorem parse_str_eq_ok {name other : CompositeBinlogName} (parsed : parse name.str = .ok other) : other = name := by
  cases empty : name.isEmpty with
  | false =>
    rw [parse_str empty] at parsed
    exact (Except.ok.inj parsed).symm
  | true =>
    -- a name without a base name is too short
    have base : name.baseName = [] := by
      rcases name.valid with ⟨none,-⟩ | valid
      · exact none
      · exact absurd (by simpa [isEmpty] using empty) valid.2.2.1
    have length : name.str.length = 7 := by simp [str_length,base]
    simp [parse,length,numberOfSequenceNumberCharacters] at parsed

namespace Sample

theorem numbered_valid (n : Fin 999999) : ascii "b" = [] ∧ n.val + 1 = 0 ∨ Valid (ascii "b") (n + 1) :=
  .inr ⟨by decide,by decide,Nat.succ_ne_zero n,by omega⟩

/-- The names b.000001, b.000002 and so on. -/
def numbered (n : Fin 999999) : CompositeBinlogName := ⟨ascii "b",n + 1,numbered_valid n⟩

def first : CompositeBinlogName := numbered 0
def second : CompositeBinlogName := numbered 1
def third : CompositeBinlogName := numbered 2

end Sample
end CompositeBinlogName
end BinlogServer.Events
