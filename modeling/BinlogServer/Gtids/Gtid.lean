import BinlogServer.Lib.Decimal
import BinlogServer.Util.Exceptions

/-!
# Transaction identifiers

`gtids::uuid`, `gtids::tag` and `gtids::gtid`. A tag is a valid name and a gtid is either the default
(empty) one or has passed `validate_components`, as the constructors make sure.
-/

namespace BinlogServer.Gtids
open ByteString Util

/-- Letters and digits of the C locale. -/
def isAlpha (c : UInt8) : Bool := (0x41 ≤ c && c ≤ 0x5A) || (0x61 ≤ c && c ≤ 0x7A)
def isAlnum (c : UInt8) : Bool := isAlpha c || isDigit c

/-- `gtids::uuid`: sixteen bytes. -/
structure Uuid where
  raw : Bytes
  sized : raw.length = 16
deriving DecidableEq

namespace Uuid

/-- A `uuid_storage` filled from the left. -/
def ofStorage (storage : Bytes) : Uuid := ⟨(storage ++ List.replicate 16 0).take 16,by simp⟩

/-- The default constructed (nil) uuid. -/
def nil : Uuid := ⟨List.replicate 16 0,by simp⟩

def isEmpty (uuid : Uuid) : Prop := uuid = nil

instance (uuid : Uuid) : Decidable uuid.isEmpty := inferInstanceAs (Decidable (uuid = nil))

theorem ofStorage_raw (uuid : Uuid) : ofStorage uuid.raw = uuid := by
  obtain ⟨raw,sized⟩ := uuid
  simp [ofStorage,← sized]

instance : LinearOrder Uuid := LinearOrder.lift' raw fun x y same => by cases x; cases y; congr

end Uuid

def Tag.ValidStart (name : Bytes) : Prop := ∀ first ∈ name.head?, first = 0x5F ∨ isAlpha first

def Tag.ValidTail (name : Bytes) : Prop := ∀ c ∈ name.tail, c = 0x5F ∨ isAlnum c

instance (name : Bytes) : Decidable (Tag.ValidStart name) := Option.decidableForallMem name.head?

instance (name : Bytes) : Decidable (Tag.ValidTail name) := List.decidableBAll _ name.tail

/-- What `tag::tag` lets through. -/
def Tag.Valid (name : Bytes) : Prop := name.length ≤ 32 ∧ ValidStart name ∧ ValidTail name

instance (name : Bytes) : Decidable (Tag.Valid name) := inferInstanceAs (Decidable (_ ∧ _ ∧ _))

/-- `gtids::tag` -/
@[ext] structure Tag where
  name : Bytes
  valid : Tag.Valid name
deriving DecidableEq

namespace Tag

/-- The default constructed (empty) tag. -/
def none : Tag := ⟨[],by simp [Valid,ValidStart,ValidTail]⟩

def isEmpty (tag : Tag) : Bool := tag.name.isEmpty

/-- `tag::tag(std::string_view)` -/
def make (name : Bytes) : Fallible Tag :=
  if long : name.length > 32 then .error ⟨.invalidArgument,"tag name is too long"⟩
  else if start : ValidStart name then
    if others : ValidTail name then .ok ⟨name,by omega,start,others⟩
    else .error ⟨.invalidArgument,"tag name must include only alphanumeric characters or underscores"⟩
  else .error ⟨.invalidArgument,"tag name must start with a letter or an underscore"⟩

@[simp] theorem make_name (tag : Tag) : make tag.name = .ok tag := by
  obtain ⟨name,short,start,others⟩ := tag
  rw [make, dif_neg (by simpa using short), dif_pos start, dif_pos others]

theorem make_eq_ok {name : Bytes} {tag : Tag} : make name = .ok tag ↔ tag.name = name := by
  constructor
  · intro made
    unfold make at made
    split at made
    · cases made
    · split at made
      · split at made
        · cases made; rfl
        · cases made
      · cases made
  · rintro rfl
    exact make_name tag

instance : LinearOrder Tag := LinearOrder.lift' name fun x y same => by cases x; cases y; congr

end Tag

/-- `min_gno` and `max_gno` -/
def minGno : Nat := 1
def maxGno : Nat := 2 ^ 63 - 1

/-- `gtids::gtid`: empty, or with validated components. -/
structure Gtid where
  uuid : Uuid
  tag : Tag
  gno : Nat
  valid : (uuid = .nil ∧ tag = .none ∧ gno = 0) ∨ (¬ uuid.isEmpty ∧ minGno ≤ gno ∧ gno ≤ maxGno)
deriving DecidableEq

namespace Gtid

/-- The default constructed gtid. -/
def empty : Gtid := ⟨.nil,.none,0,by simp⟩

def isEmpty (gtid : Gtid) : Prop := gtid.gno = 0

instance (gtid : Gtid) : Decidable gtid.isEmpty := inferInstanceAs (Decidable (gtid.gno = 0))

/-- `gtid::validate_components` -/
def validateComponents (uuid : Uuid) (gno : Nat) : Fallible Unit := do
  raiseIf uuid.isEmpty .invalidArgument "uuid must not be empty"
  raiseIf (gno < minGno ∨ gno > maxGno) .invalidArgument "gno is out of range"

theorem validateComponents_eq_ok {uuid : Uuid} {gno : Nat} {u : Unit} :
    validateComponents uuid gno = .ok u ↔ ¬ uuid.isEmpty ∧ minGno ≤ gno ∧ gno ≤ maxGno := by
  simp [validateComponents]

/-- `gtid::gtid(uuid, tag, gno)`: the components, once `validate_components` has let them through. -/
def make (uuid : Uuid) (tag : Tag) (gno : Nat) : Fallible Gtid :=
  match validated : validateComponents uuid gno with
  | .error failure => .error failure
  | .ok () => .ok ⟨uuid,tag,gno,.inr (validateComponents_eq_ok.mp validated)⟩

theorem make_eq_ok {uuid : Uuid} {tag : Tag} {gno : Nat} {gtid : Gtid} :
    make uuid tag gno = .ok gtid ↔
      gtid.uuid = uuid ∧ gtid.tag = tag ∧ gtid.gno = gno ∧ ¬ uuid.isEmpty ∧ minGno ≤ gno ∧ gno ≤ maxGno := by
  unfold make
  split
  · rename_i failure invalid
    constructor
    · rintro ⟨⟩
    · rintro ⟨-,-,-,valid⟩
      rw [(validateComponents_eq_ok (u := ())).mpr valid] at invalid
      cases invalid
  · rename_i validated
    constructor
    · rintro ⟨⟩
      exact ⟨rfl,rfl,rfl,validateComponents_eq_ok.mp validated⟩
    · rintro ⟨rfl,rfl,rfl,-⟩
      rfl

theorem nonempty_iff {gtid : Gtid} :
    ¬ gtid.isEmpty ↔ ¬ gtid.uuid.isEmpty ∧ minGno ≤ gtid.gno ∧ gtid.gno ≤ maxGno := by
  unfold isEmpty
  rcases gtid.valid with ⟨nil,-,zero⟩ | valid
  · simp [zero,nil,Uuid.isEmpty]
  · have := valid.2.1
    unfold minGno at this
    exact ⟨fun _ => valid,fun _ => by omega⟩

theorem eq_empty {gtid : Gtid} : gtid.isEmpty ↔ gtid = empty := by
  constructor
  · intro zero
    rcases gtid.valid with ⟨nil,untagged,-⟩ | ⟨-,least,-⟩
    · cases gtid
      simp_all [empty,isEmpty]
    · unfold isEmpty at zero
      unfold minGno at least
      omega
  · rintro rfl
    rfl

end Gtid
end BinlogServer.Gtids
