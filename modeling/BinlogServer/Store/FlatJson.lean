import BinlogServer.Store.Record

/-!
# Flat documents

An implementation of the libraries behind the metadata that is enough for the documents of the server: objects of
numbers and plain text. It shows that what is assumed of the libraries can be met, and it computes.
-/

namespace BinlogServer.Store.FlatJson
open ByteString

/-- A string without escapes. -/
def quoted (text : Bytes) : Bytes := 0x22 :: (text ++ [0x22])

def valueText : JsonValue → Bytes
  | .number value => toDecimal value
  | .text value => quoted value
  | _ => ascii "null"

def memberText (member : Bytes × JsonValue) : Bytes := quoted member.1 ++ 0x3A :: valueText member.2

/-- The document of an object: `serialize` of `boost::json` puts no blanks between the tokens. -/
def serialize : JsonObject → Bytes
  | [] => ascii "\x7b\x7d"
  | first :: rest => 0x7B :: (memberText first ++ (rest.flatMap fun member => 0x2C :: memberText member) ++ [0x7D])

def parseString : Bytes → Option (Bytes × Bytes)
  | 0x22 :: rest =>
    let text := rest.takeWhile (· ≠ 0x22)
    match rest.drop text.length with
    | 0x22 :: remainder => some (text,remainder)
    | _ => none
  | _ => none

def parseNumber (remainder : Bytes) : Option (JsonValue × Bytes) :=
  let digits := remainder.takeWhile isDigit
  if digits = [] then none
  else some (if ofDigits digits < 2 ^ 64 then .number (ofDigits digits) else .other,remainder.drop digits.length)

def parseValue (remainder : Bytes) : Option (JsonValue × Bytes) :=
  match parseString remainder with
  | some (text,remainder) => some (.text text,remainder)
  | none => parseNumber remainder

def parseMember (remainder : Bytes) : Option ((Bytes × JsonValue) × Bytes) :=
  match parseString remainder with
  | some (name,0x3A :: remainder) => (parseValue remainder).map fun x => ((name,x.1),x.2)
  | _ => none

/-- The members after the first one, to the end of the document. -/
def parseMoreMembers : Nat → Bytes → Option JsonObject
  | 0, _ => none
  | fuel + 1, 0x2C :: remainder =>
    match parseMember remainder with
    | some (member,remainder) => (parseMoreMembers fuel remainder).map (member :: ·)
    | none => none
  | _ + 1, [0x7D] => some []
  | _ + 1, _ => none

def parse (data : Bytes) : Option JsonObject :=
  match data with
  | 0x7B :: remainder =>
    if remainder = [0x7D] then some []
    else match parseMember remainder with
      | some (member,remainder) => (parseMoreMembers data.length remainder).map (member :: ·)
      | none => none
  | _ => none

/-- The epoch as `boost::posix_time::to_iso_extended_string` writes it; the digits of the other times are enough
    here. -/
def epochText : Bytes := ascii "1970-01-01T00:00:00"

def isoExtendedStr (time : Nat) : Bytes := if time = 0 then epochText else toDecimal time

def parseIsoExtended (text : Bytes) : Option Nat :=
  if text = epochText then some 0
  else if text ≠ [] ∧ text.all isDigit ∧ ofDigits text ≤ TimestampRange.maxTime then some (ofDigits text)
  else none

section
variable {remainder : Bytes}

theorem parseString_quoted {text : Bytes} (plain : Plain text) :
    parseString (quoted text ++ remainder) = some (text,remainder) := by
  have taken : (text ++ 0x22 :: remainder).takeWhile (· ≠ 0x22) = text :=
    takeWhile_append_stop (fun c member => by simp [(plain c member).2.2.1]) (by simp)
  have shape : quoted text ++ remainder = 0x22 :: (text ++ 0x22 :: remainder) := by simp [quoted]
  rw [shape, parseString, taken]
  simp

/-- What follows a value in a document. -/
def Stops (remainder : Bytes) : Prop := ∀ c ∈ remainder.head?, c = 0x2C ∨ c = 0x7D

theorem parseValue_valueText {value : JsonValue} (plain : value.IsPlain) (stops : Stops remainder) :
    parseValue (valueText value ++ remainder) = some (value,remainder) := by
  cases value with
  | null => cases plain
  | other => cases plain
  | text value => rw [parseValue, valueText, parseString_quoted plain]
  | number value =>
    have taken : (toDecimal value ++ remainder).takeWhile isDigit = toDecimal value := by
      refine takeWhile_append_stop (fun c => isDigit_of_mem_toDecimal) fun c head => ?_
      rcases stops c head with rfl | rfl <;> rfl
    have unquoted : parseString (toDecimal value ++ remainder) = none := by
      cases digits : toDecimal value with
      | nil => exact absurd digits (toDecimal_ne_nil value)
      | cons c rest =>
        have digit : isDigit c = true := isDigit_of_mem_toDecimal (by rw [digits]; exact List.mem_cons_self)
        have other : c ≠ 0x22 := by
          rintro rfl
          cases digit
        simp only [List.cons_append, parseString]
        split
        · rename_i same
          exact absurd (List.cons.inj same).1 other
        · rfl
    have fits : value < 18446744073709551616 := plain
    simp [parseValue,valueText,unquoted,parseNumber,taken,toDecimal_ne_nil,fits]

theorem parseMember_memberText {member : Bytes × JsonValue} (name : Plain member.1) (value : member.2.IsPlain)
    (stops : Stops remainder) : parseMember (memberText member ++ remainder) = some (member,remainder) := by
  have shape : memberText member ++ remainder = quoted member.1 ++ 0x3A :: (valueText member.2 ++ remainder) := by
    simp [memberText]
  rw [shape, parseMember, parseString_quoted name]
  simp [parseValue_valueText value stops]

theorem parseMoreMembers_flatMap {members : JsonObject} (plain : ∀ x ∈ members, Plain x.1 ∧ x.2.IsPlain) {fuel : Nat}
    (enough : members.length < fuel) :
    parseMoreMembers fuel ((members.flatMap fun member => 0x2C :: memberText member) ++ [0x7D]) = some members := by
  induction members generalizing fuel with
  | nil =>
    obtain ⟨fuel,rfl⟩ := Nat.exists_eq_add_of_lt enough
    rfl
  | cons first rest ih =>
    obtain ⟨fuel,rfl⟩ : ∃ n, fuel = n + 1 := ⟨fuel - 1,by omega⟩
    have stops : Stops ((rest.flatMap fun member => 0x2C :: memberText member) ++ [0x7D]) := by
      cases rest <;> simp [Stops]
    have here := plain first List.mem_cons_self
    rw [List.flatMap_cons, List.cons_append, List.cons_append, List.append_assoc, parseMoreMembers,
      parseMember_memberText here.1 here.2 stops]
    simp only
    rw [ih (fun x member => plain x (List.mem_cons_of_mem _ member)) (by simp at enough; omega)]
    rfl

end

theorem parse_serialize (object : JsonObject) (plain : PlainObject object) : parse (serialize object) = some object := by
  cases object with
  | nil => rfl
  | cons first rest =>
    have stops : Stops ((rest.flatMap fun member => 0x2C :: memberText member) ++ [0x7D]) := by
      cases rest <;> simp [Stops]
    have here := plain.2 first List.mem_cons_self
    have enough : rest.length < (serialize (first :: rest)).length := by
      have := length_le_flatMap rest (fun member => 0x2C :: memberText member) (by simp)
      simp only [serialize, List.length_cons, List.length_append]
      omega
    have shape : serialize (first :: rest) =
        0x7B :: (memberText first ++ ((rest.flatMap fun member => 0x2C :: memberText member) ++ [0x7D])) := by
      simp [serialize]
    have more := parseMoreMembers_flatMap (fun x member => plain.2 x (List.mem_cons_of_mem _ member)) enough
    rw [shape] at more ⊢
    rw [parse, if_neg (by simp [memberText,quoted]), parseMember_memberText here.1 here.2 stops]
    simp only [more, Option.map_some]

theorem isoExtendedStr_plain (time : Nat) : Plain (isoExtendedStr time) := by
  unfold isoExtendedStr
  split
  · decide
  · exact plain_toDecimal time

theorem parse_isoExtendedStr (time : Nat) (known : time ≤ TimestampRange.maxTime) :
    parseIsoExtended (isoExtendedStr time) = some time := by
  unfold isoExtendedStr
  split
  · rename_i zero
    simp [parseIsoExtended,zero]
  · have digits : (toDecimal time).all isDigit = true := List.all_eq_true.mpr fun c => isDigit_of_mem_toDecimal
    have other : toDecimal time ≠ epochText := by
      intro same
      rw [same] at digits
      cases digits
    simp [parseIsoExtended,other,toDecimal_ne_nil,known]
    simpa using digits

theorem parseIsoExtended_le (text : Bytes) (time : Nat) (parsed : parseIsoExtended text = some time) :
    time ≤ TimestampRange.maxTime := by
  unfold parseIsoExtended at parsed
  split at parsed
  · cases parsed
    simp
  · split at parsed
    · rename_i known
      cases parsed
      exact known.2.2
    · cases parsed

/-- The libraries, for documents like these. -/
@[reducible] def externals : Externals where
  serialize := serialize
  parse := parse
  isoExtendedStr := isoExtendedStr
  parseIsoExtended := parseIsoExtended
  parse_serialize := parse_serialize
  isoExtendedStr_plain := fun time _ => isoExtendedStr_plain time
  parse_isoExtendedStr := parse_isoExtendedStr
  parseIsoExtended_le := parseIsoExtended_le

end BinlogServer.Store.FlatJson
