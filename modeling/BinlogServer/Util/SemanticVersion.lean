import BinlogServer.Lib.Decimal
import BinlogServer.Util.Exceptions
import Mathlib.Data.List.TakeWhile

/-!
# Server versions

`std::from_chars` and `util::semantic_version`; `std::to_string` is `toDecimal`.
-/

namespace BinlogServer.Util
open ByteString

/-- `std::from_chars` over the whole of a range, for an unsigned type whose greatest value is `max`. -/
def fromChars (max : Nat) (chars : Bytes) : Option Nat :=
  if chars = [] ∨ ¬ chars.all isDigit then none
  else if ofDigits chars > max then none else some (ofDigits chars)

theorem fromChars_eq_some {max : Nat} {chars : Bytes} (nonempty : chars ≠ []) (digits : ∀ c ∈ chars, isDigit c = true)
    (small : ofDigits chars ≤ max) : fromChars max chars = some (ofDigits chars) := by
  unfold fromChars
  rw [if_neg (by simpa [nonempty] using digits), if_neg (by omega)]

theorem fromChars_digits {max n : Nat} {chars : Bytes} (parsed : fromChars max chars = some n) :
    (∀ c ∈ chars, isDigit c = true) ∧ ofDigits chars = n := by
  unfold fromChars at parsed
  split_ifs at parsed with bad
  · exact ⟨by simpa using (not_or.mp bad).2,Option.some.inj parsed⟩

theorem fromChars_le {max n : Nat} {chars : Bytes} (parsed : fromChars max chars = some n) : n ≤ max := by
  unfold fromChars at parsed
  split_ifs at parsed with bad large
  · rw [← Option.some.inj parsed]
    exact not_lt.mp large

/-- `std::ranges::views::split` by one character: nothing for an empty range. -/
def split (delimiter : UInt8) : Bytes → List Bytes
  | [] => []
  | c :: rest =>
    if c = delimiter then [] :: (if rest = [] then [[]] else split delimiter rest)
    else match split delimiter rest with
      | [] => [[c]]
      | first :: others => (c :: first) :: others

theorem split_plain {delimiter : UInt8} {part : Bytes} (some : part ≠ []) (plain : delimiter ∉ part) :
    split delimiter part = [part] := by
  induction part with
  | nil => exact absurd rfl some
  | cons c rest ih =>
    obtain ⟨other,later⟩ := not_or.mp (List.mem_cons.not.mp plain)
    rw [split, if_neg (Ne.symm other)]
    by_cases last : rest = []
    · simp [last,split]
    · rw [ih last later]

theorem split_append {delimiter : UInt8} {part rest : Bytes} (plain : delimiter ∉ part) (some : rest ≠ []) :
    split delimiter (part ++ delimiter :: rest) = part :: split delimiter rest := by
  induction part with
  | nil => simp [split,some]
  | cons c part ih =>
    obtain ⟨other,later⟩ := not_or.mp (List.mem_cons.not.mp plain)
    rw [List.cons_append, split, if_neg (Ne.symm other), ih later]

/-- `util::semantic_version` -/
structure SemanticVersion where
  major : Nat
  minor : Nat
  patch : Nat
deriving DecidableEq, Repr

namespace SemanticVersion

/-- `semantic_version(std::uint32_t)` -/
def ofEncoded (encodedServerVersion : Nat) : SemanticVersion :=
  ⟨encodedServerVersion / 10000 % 100,encodedServerVersion / 100 % 100,encodedServerVersion % 100⟩

def getEncoded (version : SemanticVersion) : Nat := version.major * 10000 + version.minor * 100 + version.patch

def getString (version : SemanticVersion) : Bytes :=
  toDecimal version.major ++ [0x2E] ++ toDecimal version.minor ++ [0x2E] ++ toDecimal version.patch

/-- The `component_extractor` of the constructor from a string. -/
def extractComponent (name : String) : List Bytes → Fallible (Nat × List Bytes)
  | [] => .error ⟨.invalidArgument,"server_version does not have the \"" ++ name ++ "\" component"⟩
  | component :: rest =>
    match fromChars 255 component with
    | none => .error ⟨.invalidArgument,"server_version \"" ++ name ++ "\" component is not a numeric value"⟩
    | some value => .ok (value,rest)

/-- `semantic_version(std::string_view)`: whatever follows the first dash is ignored. -/
def parse (versionString : Bytes) : Fallible SemanticVersion := do
  let components := split 0x2E (versionString.takeWhile (· ≠ 0x2D))
  let (major,components) ← extractComponent "major" components
  let (minor,components) ← extractComponent "minor" components
  let (patch,components) ← extractComponent "patch" components
  raiseIf (components ≠ []) .invalidArgument "server_version has more than 3 components"
  pure ⟨major,minor,patch⟩

example : parse [0x38,0x2E,0x34,0x2E,0x36,0x2D,0x36] = .ok ⟨8,4,6⟩ := by decide

private theorem toDecimal_notMem (n : Nat) {c : UInt8} (letter : isDigit c = false) : c ∉ toDecimal n := by
  intro member
  cases letter.symm.trans (isDigit_of_mem_toDecimal member)

private theorem extractComponent_toDecimal (name : String) {n : Nat} (small : n ≤ 255) (rest : List Bytes) :
    extractComponent name (toDecimal n :: rest) = .ok (n,rest) := by
  rw [extractComponent, fromChars_eq_some (toDecimal_ne_nil n) (fun _ => isDigit_of_mem_toDecimal) (by rwa [ofDigits_toDecimal]),
    ofDigits_toDecimal]

/-- A version is read back from its text. -/
theorem parse_getString {version : SemanticVersion} (major : version.major ≤ 255) (minor : version.minor ≤ 255)
    (patch : version.patch ≤ 255) : parse version.getString = .ok version := by
  have dots : ∀ n, 0x2E ∉ toDecimal n := fun n => toDecimal_notMem n rfl
  have whole : version.getString.takeWhile (· ≠ 0x2D) = version.getString := by
    rw [List.takeWhile_eq_self_iff]
    intro c member
    have dashes : ∀ n, c ∈ toDecimal n → c ≠ 0x2D := fun n found dash => toDecimal_notMem n rfl (dash ▸ found)
    simp only [getString, List.mem_append, List.mem_singleton] at member
    rcases member with (((first | dot) | second) | dot) | third
    · simpa using dashes _ first
    · simp [dot]
    · simpa using dashes _ second
    · simp [dot]
    · simpa using dashes _ third
  have parts : split 0x2E version.getString =
      [toDecimal version.major,toDecimal version.minor,toDecimal version.patch] := by
    simp only [getString, List.append_assoc, List.cons_append, List.nil_append]
    rw [split_append (dots _) (by simp), split_append (dots _) (toDecimal_ne_nil _),
      split_plain (toDecimal_ne_nil _) (dots _)]
  rw [parse, whole, parts]
  simp [extractComponent_toDecimal _ major,extractComponent_toDecimal _ minor,extractComponent_toDecimal _ patch,raiseIf]

end SemanticVersion
end BinlogServer.Util
