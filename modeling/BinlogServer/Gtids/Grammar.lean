import BinlogServer.Gtids.Algebra
import BinlogServer.Gtids.Text

/-!
# The grammar of gtid sets

The rules that stand above `gtid_set_parser`, as relations between a text and what it says; a number is read as it
stands there, whatever its length. The parser is compared with them in two steps. First it is taken apart: `read` is
the parser without the set, and what it answers is then added. What `read` answers is a derivation, and all of them
are found.
-/

namespace BinlogServer.Gtids
open ByteString Util

namespace Grammar

/-- `<hexadecimal>`, with its value. -/
def hexadecimal (c : UInt8) : Option Nat :=
  if isDigit c then some (c.toNat - 0x30)
  else if 0x61 ≤ c ∧ c ≤ 0x66 then some (c.toNat - 0x57)
  else if 0x41 ≤ c ∧ c ≤ 0x46 then some (c.toNat - 0x37)
  else none

/-- `<hexadecimal_pair>`, so many times, with the bytes. -/
inductive HexadecimalPairs : Nat → Bytes → Bytes → Prop where
  | nil : HexadecimalPairs 0 [] []
  | cons {c d : UInt8} {high low count : Nat} {text raw : Bytes} (first : hexadecimal c = some high)
      (second : hexadecimal d = some low) (rest : HexadecimalPairs count text raw) :
      HexadecimalPairs (count + 1) (c :: d :: text) (UInt8.ofNat (high * 16 + low) :: raw)

/-- `<uuid>`: groups of pairs with dashes between them. -/
inductive Groups : List Nat → Bytes → Bytes → Prop where
  | last {count : Nat} {text raw : Bytes} (pairs : HexadecimalPairs count text raw) : Groups [count] text raw
  | cons {count : Nat} {rest : List Nat} {text more raw others : Bytes} (pairs : HexadecimalPairs count text raw)
      (groups : Groups rest more others) : Groups (count :: rest) (text ++ 0x2D :: more) (raw ++ others)

/-- `<gno>` -/
structure Gno (text : Bytes) (value : Nat) : Prop where
  nonempty : text ≠ []
  digits : ∀ c ∈ text, isDigit c = true
  value : ofDigits text = value

/-- `<gno> ('-' <gno>)?` -/
inductive Numbers : Bytes → Nat → Option Nat → Prop where
  | single {text : Bytes} {lower : Nat} (gno : Gno text lower) : Numbers text lower none
  | range {text more : Bytes} {lower upper : Nat} (first : Gno text lower) (second : Gno more upper) :
      Numbers (text ++ 0x2D :: more) lower (some upper)

/-- `<optionally_tagged_interval>`: a tag holds for the intervals that follow, too. -/
inductive Interval : Tag → Bytes → Tag → Nat → Option Nat → Prop where
  | plain {tag : Tag} {text : Bytes} {lower : Nat} {upper : Option Nat} (numbers : Numbers text lower upper) :
      Interval tag text tag lower upper
  | tagged {tag label : Tag} {text : Bytes} {lower : Nat} {upper : Option Nat} (named : label.isEmpty = false)
      (numbers : Numbers text lower upper) : Interval tag (label.name ++ 0x3A :: text) label lower upper

/-- An interval in a text. -/
structure Item where
  uuid : Uuid
  tag : Tag
  lower : Nat
  upper : Option Nat

/-- The upper bound, which may be left out where it is the lower one. -/
def Item.last (item : Item) : Nat := item.upper.getD item.lower

/-- `<optionally_tagged_intervals>` -/
inductive Intervals (uuid : Uuid) : Tag → Bytes → List Item → Prop where
  | last {tag label : Tag} {text : Bytes} {lower : Nat} {upper : Option Nat}
      (interval : Interval tag text label lower upper) : Intervals uuid tag text [⟨uuid,label,lower,upper⟩]
  | cons {tag label : Tag} {text more : Bytes} {lower : Nat} {upper : Option Nat} {items : List Item}
      (interval : Interval tag text label lower upper) (rest : Intervals uuid label more items) :
      Intervals uuid tag (text ++ 0x3A :: more) (⟨uuid,label,lower,upper⟩ :: items)

/-- `<uuid_set>` -/
inductive UuidSet : Bytes → List Item → Prop where
  | intro {uuid : Uuid} {text more : Bytes} {items : List Item} (groups : Groups Uuid.groupSizes text uuid.raw)
      (intervals : Intervals uuid .none more items) : UuidSet (text ++ 0x3A :: more) items

/-- `<gtid_set>` -/
inductive UuidSets : Bytes → List Item → Prop where
  | last {text : Bytes} {items : List Item} (set : UuidSet text items) : UuidSets text items
  | cons {text space more : Bytes} {items others : List Item} (set : UuidSet text items)
      (blank : ∀ c ∈ space, GtidSet.isSpace c = true) (rest : UuidSets more others) :
      UuidSets (text ++ 0x2C :: (space ++ more)) (items ++ others)

/-! What the parser reads, without the set. -/

def readGno (remainder : Bytes) : Option (Nat × Bytes) :=
  match remainder.takeWhile isDigit with
  | [] => none
  | digits => some (ofDigits digits,remainder.drop digits.length)

def readNumbers (remainder : Bytes) : Option ((Nat × Option Nat) × Bytes) := do
  let (lower,remainder) ← readGno remainder
  match parseCharacter 0x2D remainder with
  | some remainder =>
    let (upper,remainder) ← readGno remainder
    some ((lower,some upper),remainder)
  | none => some ((lower,none),remainder)

def readInterval (uuid : Uuid) (tag : Tag) (remainder : Bytes) : Option (Item × Bytes) := do
  let (label,remainder) ←
    if remainder.head?.any isDigit then some (tag,remainder)
    else do
      let (label,remainder) ← Tag.parse remainder
      some (label,← parseCharacter 0x3A remainder)
  let ((lower,upper),remainder) ← readNumbers remainder
  some (⟨uuid,label,lower,upper⟩,remainder)

def readMoreIntervals : Nat → Uuid → Tag → Bytes → Option (List Item × Bytes)
  | 0, _, _, remainder => some ([],remainder)
  | rounds + 1, uuid, tag, remainder =>
    match parseCharacter 0x3A remainder with
    | none => some ([],remainder)
    | some remainder => do
      let (item,remainder) ← readInterval uuid tag remainder
      let (items,remainder) ← readMoreIntervals rounds uuid item.tag remainder
      some (item :: items,remainder)

def readUuidSet (remainder : Bytes) : Option (List Item × Bytes) := do
  let (uuid,remainder) ← Uuid.parse remainder
  let remainder ← parseCharacter 0x3A remainder
  let (item,remainder) ← readInterval uuid .none remainder
  let (items,remainder) ← readMoreIntervals remainder.length uuid item.tag remainder
  some (item :: items,remainder)

def readMoreUuidSets : Nat → Bytes → Option (List Item × Bytes)
  | 0, remainder => some ([],remainder)
  | rounds + 1, remainder =>
    match parseCharacter 0x2C remainder with
    | none => some ([],remainder)
    | some remainder => do
      let (items,remainder) ← readUuidSet (remainder.dropWhile GtidSet.isSpace)
      let (others,remainder) ← readMoreUuidSets rounds remainder
      some (items ++ others,remainder)

def read (value : Bytes) : Option (List Item × Bytes) := do
  let (items,remainder) ← readUuidSet value
  let (others,remainder) ← readMoreUuidSets remainder.length remainder
  some (items ++ others,remainder)

/-- What is added for an interval: the bounds have wrapped as `gno_t` does. -/
def Item.addTo (s : GtidSet) (item : Item) : Option GtidSet :=
  (s.addInterval item.uuid item.tag (item.lower % 2 ^ 64) (item.last % 2 ^ 64)).toOption

def addItems (s : GtidSet) (items : List Item) : Option GtidSet := items.foldlM Item.addTo s

theorem addItems_cons (s : GtidSet) (item : Item) (items : List Item) :
    addItems s (item :: items) = (item.addTo s).bind fun t => addItems t items := rfl

theorem addItems_append (s : GtidSet) (items others : List Item) :
    addItems s (items ++ others) = (addItems s items).bind fun t => addItems t others := by
  simp [addItems,List.foldlM_append]

theorem parseGno_eq (remainder : Bytes) :
    parseGno remainder = (readGno remainder).map fun x => (x.1 % 2 ^ 64,x.2) := by
  unfold parseGno readGno
  cases remainder.takeWhile isDigit <;> rfl

private theorem parseNumbers_eq (uuid : Uuid) (s : GtidSet) (label : Tag) (remainder : Bytes) :
    (do
      let (lower,remainder) ← parseGno remainder
      match parseCharacter 0x2D remainder with
      | some remainder =>
        let (upper,remainder) ← parseGno remainder
        let t ← (s.addInterval uuid label lower upper).toOption
        some ((t,label),remainder)
      | none =>
        let t ← (s.addComponents uuid label lower).toOption
        some ((t,label),remainder)) =
      (readNumbers remainder).bind fun x =>
        (Item.addTo s ⟨uuid,label,x.1.1,x.1.2⟩).map fun t => ((t,label),x.2) := by
  rw [readNumbers, parseGno_eq]
  cases readGno remainder with
  | none => rfl
  | some x =>
    obtain ⟨lower,remainder⟩ := x
    simp only [Option.map_some, Option.bind_eq_bind, Option.bind_some, parseGno_eq]
    cases parseCharacter 0x2D remainder with
    | none =>
      simp only [Option.bind_some, Item.addTo, Item.last, Option.getD_none, GtidSet.addInterval, if_true,
        Option.map_eq_bind]
      rfl
    | some remainder =>
      dsimp only
      cases readGno remainder with
      | none => rfl
      | some y =>
        simp only [Option.bind_some, Item.addTo, Item.last, Option.getD_some, Option.map_eq_bind]
        rfl

theorem parseInterval_eq (uuid : Uuid) (s : GtidSet) (tag : Tag) (remainder : Bytes) :
    GtidSet.parseOptionallyTaggedInterval uuid (s,tag) remainder =
      (readInterval uuid tag remainder).bind fun x => (x.1.addTo s).map fun t => ((t,x.1.tag),x.2) := by
  have numbers : ∀ label remainder, ((readNumbers remainder).bind fun x =>
        some ((⟨uuid,label,x.1.1,x.1.2⟩ : Item),x.2)).bind (fun x => (x.1.addTo s).map fun t => ((t,x.1.tag),x.2)) =
      (readNumbers remainder).bind fun x =>
        (Item.addTo s ⟨uuid,label,x.1.1,x.1.2⟩).map fun t => ((t,label),x.2) := by
    intro label remainder
    cases readNumbers remainder <;> rfl
  unfold GtidSet.parseOptionallyTaggedInterval readInterval
  split
  · exact (parseNumbers_eq uuid s tag remainder).trans (numbers tag remainder).symm
  · cases Tag.parse remainder with
    | none => rfl
    | some x =>
      obtain ⟨label,remainder⟩ := x
      simp only [Option.bind_eq_bind, Option.bind_some]
      cases parseCharacter 0x3A remainder with
      | none => rfl
      | some remainder => exact (parseNumbers_eq uuid s label remainder).trans (numbers label remainder).symm

private theorem parseMoreIntervals_eq (rounds : Nat) (uuid : Uuid) (s : GtidSet) (tag : Tag) (remainder : Bytes) :
    (GtidSet.parseMoreIntervals rounds uuid (s,tag) remainder).map (fun x => (x.1.1,x.2)) =
      (readMoreIntervals rounds uuid tag remainder).bind fun x => (addItems s x.1).map fun t => (t,x.2) := by
  induction rounds generalizing s tag remainder with
  | zero => rfl
  | succ rounds ih =>
    unfold GtidSet.parseMoreIntervals readMoreIntervals
    cases parseCharacter 0x3A remainder with
    | none => rfl
    | some remainder =>
      simp only [parseInterval_eq, Option.bind_eq_bind]
      cases readInterval uuid tag remainder with
      | none => rfl
      | some x =>
        simp only [Option.bind_some]
        cases added : x.1.addTo s with
        | none =>
          cases readMoreIntervals rounds uuid x.1.tag x.2 with
          | none => rfl
          | some y => simp [addItems_cons,added]
        | some t =>
          simp only [Option.map_some, Option.bind_some, ih]
          cases readMoreIntervals rounds uuid x.1.tag x.2 with
          | none => rfl
          | some y => simp [addItems_cons,added]

private theorem parseUuidSet_eq (s : GtidSet) (remainder : Bytes) :
    GtidSet.parseUuidSet s remainder =
      (readUuidSet remainder).bind fun x => (addItems s x.1).map fun t => (t,x.2) := by
  unfold GtidSet.parseUuidSet readUuidSet
  cases Uuid.parse remainder with
  | none => rfl
  | some x =>
    obtain ⟨uuid,remainder⟩ := x
    simp only [Option.bind_eq_bind, Option.bind_some]
    cases parseCharacter 0x3A remainder with
    | none => rfl
    | some remainder =>
      simp only [Option.bind_some, parseInterval_eq]
      cases readInterval uuid .none remainder with
      | none => rfl
      | some x =>
        have more := fun t => parseMoreIntervals_eq x.2.length uuid t x.1.tag x.2
        simp only [Option.map_eq_bind] at more
        simp only [Option.bind_some]
        cases added : x.1.addTo s with
        | none =>
          cases readMoreIntervals x.2.length uuid x.1.tag x.2 with
          | none => rfl
          | some y => simp [addItems_cons,added]
        | some t =>
          simp only [Option.map_some, Option.bind_some]
          refine (more t).trans ?_
          cases readMoreIntervals x.2.length uuid x.1.tag x.2 with
          | none => rfl
          | some y => simp [addItems_cons,added,Option.map_eq_bind]

private theorem parseMoreUuidSets_eq (rounds : Nat) (s : GtidSet) (remainder : Bytes) :
    GtidSet.parseMoreUuidSets rounds s remainder = (readMoreUuidSets rounds remainder).bind fun x => addItems s x.1 := by
  induction rounds generalizing s remainder with
  | zero => rfl
  | succ rounds ih =>
    unfold GtidSet.parseMoreUuidSets readMoreUuidSets
    cases parseCharacter 0x2C remainder with
    | none => rfl
    | some remainder =>
      simp only [parseUuidSet_eq, Option.bind_eq_bind]
      cases readUuidSet (remainder.dropWhile GtidSet.isSpace) with
      | none => rfl
      | some x =>
        simp only [Option.bind_some]
        cases added : addItems s x.1 with
        | none =>
          cases readMoreUuidSets rounds x.2 with
          | none => rfl
          | some y => simp [addItems_append,added]
        | some t =>
          simp only [Option.map_some, Option.bind_some, ih]
          cases readMoreUuidSets rounds x.2 with
          | none => rfl
          | some y => simp [addItems_append,added]

/-- The constructor adds what is read. -/
theorem ofText_eq_ok {value : Bytes} {s : GtidSet} (nonempty : value ≠ []) :
    GtidSet.ofText value = .ok s ↔ ∃ x, read value = some x ∧ addItems .empty x.1 = some s := by
  have parsed : GtidSet.parseUuidSets value = (read value).bind fun x => addItems .empty x.1 := by
    rw [GtidSet.parseUuidSets, read, parseUuidSet_eq]
    simp only [Option.bind_eq_bind]
    cases readUuidSet value with
    | none => rfl
    | some x =>
      simp only [Option.bind_some]
      cases added : addItems .empty x.1 with
      | none =>
        cases readMoreUuidSets x.2.length x.2 with
        | none => rfl
        | some y => simp [addItems_append,added]
      | some t =>
        simp only [Option.map_some, Option.bind_some, parseMoreUuidSets_eq]
        cases readMoreUuidSets x.2.length x.2 with
        | none => rfl
        | some y => simp [addItems_append,added]
  rw [GtidSet.ofText, if_neg nonempty, parsed, ← Option.bind_eq_some_iff]
  cases (read value).bind fun x => addItems .empty x.1 <;> simp

/-! What is read is a derivation of the text up to where it stops. -/

theorem parseCharacter_eq_some {c : UInt8} {remainder rest : Bytes} :
    parseCharacter c remainder = some rest ↔ remainder = c :: rest := by
  cases remainder with
  | nil => simp [parseCharacter]
  | cons d later =>
    by_cases same : d = c
    · simp [parseCharacter,same]
    · simp [parseCharacter,same]

theorem parseCharacter_eq_none {c : UInt8} {remainder : Bytes} :
    parseCharacter c remainder = none ↔ remainder.head? ≠ some c := by
  cases remainder with
  | nil => simp [parseCharacter]
  | cons d later => simp [parseCharacter]

theorem parseHexadecimal_cons (c : UInt8) (remainder : Bytes) :
    Uuid.parseHexadecimal (c :: remainder) = (hexadecimal c).map fun value => (value,remainder) := by
  have digits : isDigit c = true → ¬ (0x61 ≤ c ∧ c ≤ 0x66) ∧ ¬ (0x41 ≤ c ∧ c ≤ 0x46) := by
    simp only [isDigit, Bool.and_eq_true, decide_eq_true_eq, UInt8.le_iff_toNat_le]
    change 0x30 ≤ c.toNat ∧ c.toNat ≤ 0x39 →
      ¬ (0x61 ≤ c.toNat ∧ c.toNat ≤ 0x66) ∧ ¬ (0x41 ≤ c.toNat ∧ c.toNat ≤ 0x46)
    omega
  unfold Uuid.parseHexadecimal hexadecimal
  by_cases digit : isDigit c = true
  · simp [digit,digits digit]
  · by_cases small : 0x61 ≤ c ∧ c ≤ 0x66
    · have least : 0x61 ≤ c.toNat := UInt8.le_iff_toNat_le.mp small.1
      simp only [digit, small, and_self, if_true, Option.map_some, Bool.false_eq_true, if_false]
      congr 2
      omega
    · by_cases capital : 0x41 ≤ c ∧ c ≤ 0x46
      · have least : 0x41 ≤ c.toNat := UInt8.le_iff_toNat_le.mp capital.1
        dsimp only
        rw [if_neg small, if_pos capital, if_neg digit, if_neg small, if_pos capital, Option.map_some]
        congr 2
        omega
      · simp [digit,small,capital]

theorem parseHexadecimalPairs_eq_some {count : Nat} {remainder raw rest : Bytes} :
    Uuid.parseHexadecimalPairs count remainder = some (raw,rest) ↔
      ∃ text, remainder = text ++ rest ∧ HexadecimalPairs count text raw := by
  constructor
  · induction count generalizing remainder raw with
    | zero =>
      intro parsed
      cases parsed
      exact ⟨[],rfl,.nil⟩
    | succ count ih =>
      intro parsed
      cases remainder with
      | nil => cases parsed
      | cons c later =>
        cases later with
        | nil =>
          simp only [Uuid.parseHexadecimalPairs, parseHexadecimal_cons, Option.bind_eq_bind] at parsed
          cases first : hexadecimal c with
          | none => simp [first] at parsed
          | some high => simp [first,Uuid.parseHexadecimal] at parsed
        | cons d later =>
          simp only [Uuid.parseHexadecimalPairs, parseHexadecimal_cons, Option.bind_eq_bind,
            Option.bind_eq_some_iff, Option.map_eq_some_iff] at parsed
          obtain ⟨_,⟨high,first,rfl⟩,parsed⟩ := parsed
          simp only [parseHexadecimal_cons, Option.map_eq_some_iff] at parsed
          obtain ⟨_,⟨low,second,rfl⟩,⟨others,tail⟩,more,result⟩ := parsed
          cases result
          obtain ⟨text,rfl,pairs⟩ := ih more
          exact ⟨c :: d :: text,rfl,.cons first second pairs⟩
  · rintro ⟨text,rfl,pairs⟩
    induction pairs with
    | nil => rfl
    | cons first second _ ih => simp [Uuid.parseHexadecimalPairs,parseHexadecimal_cons,first,second,ih]

theorem HexadecimalPairs.length_eq {count : Nat} {text raw : Bytes} (pairs : HexadecimalPairs count text raw) :
    raw.length = count := by
  induction pairs with
  | nil => rfl
  | cons _ _ _ ih => simp [ih]

theorem Groups.length_eq {groups : List Nat} {text raw : Bytes} (derived : Groups groups text raw) :
    raw.length = groups.sum := by
  induction derived with
  | last pairs => simp [pairs.length_eq]
  | cons pairs _ ih => simp [pairs.length_eq,ih]

theorem parseGroups_eq_some {groups : List Nat} (some : groups ≠ []) {remainder raw rest : Bytes} :
    Uuid.parseGroups groups remainder = .some (raw,rest) ↔ ∃ text, remainder = text ++ rest ∧ Groups groups text raw := by
  constructor
  · induction groups generalizing remainder raw with
    | nil => exact absurd rfl some
    | cons count groups ih =>
      intro parsed
      simp only [Uuid.parseGroups, Option.bind_eq_bind, Option.bind_eq_some_iff] at parsed
      obtain ⟨⟨front,left⟩,first,parsed⟩ := parsed
      obtain ⟨text,rfl,pairs⟩ := parseHexadecimalPairs_eq_some.mp first
      by_cases last : groups = []
      · subst last
        simp only [if_true, Option.some.injEq, Prod.mk.injEq] at parsed
        obtain ⟨rfl,rfl⟩ := parsed
        exact ⟨text,rfl,.last pairs⟩
      · simp only [last, if_false, Option.bind_eq_some_iff, parseCharacter_eq_some] at parsed
        obtain ⟨later,rfl,⟨back,tail⟩,second,result⟩ := parsed
        cases result
        obtain ⟨more,rfl,others⟩ := ih last second
        exact ⟨text ++ 0x2D :: more,by simp,.cons pairs others⟩
  · rintro ⟨text,rfl,derived⟩
    induction derived with
    | @last count text raw pairs =>
      have first : Uuid.parseHexadecimalPairs count (text ++ rest) = .some (raw,rest) :=
        parseHexadecimalPairs_eq_some.mpr ⟨text,rfl,pairs⟩
      simp [Uuid.parseGroups,first]
    | @cons count groups text more raw others pairs derived ih =>
      have first : Uuid.parseHexadecimalPairs count (text ++ 0x2D :: (more ++ rest)) =
          .some (raw,0x2D :: (more ++ rest)) := parseHexadecimalPairs_eq_some.mpr ⟨text,rfl,pairs⟩
      have later : groups ≠ [] := by
        rintro rfl
        cases derived
      simp [Uuid.parseGroups,first,later,ih later,parseCharacter]

theorem Uuid.parse_eq_some {remainder rest : Bytes} {uuid : Uuid} :
    Uuid.parse remainder = some (uuid,rest) ↔
      ∃ text, remainder = text ++ rest ∧ Groups Uuid.groupSizes text uuid.raw := by
  simp only [Uuid.parse, Option.bind_eq_bind, Option.bind_eq_some_iff]
  constructor
  · rintro ⟨⟨raw,left⟩,parsed,result⟩
    cases result
    obtain ⟨text,rfl,derived⟩ := (parseGroups_eq_some (by decide)).mp parsed
    have whole : (Uuid.ofStorage raw).raw = raw := by
      have sized : raw.length = 16 := derived.length_eq
      simp [Uuid.ofStorage,← sized]
    exact ⟨text,rfl,whole.symm ▸ derived⟩
  · rintro ⟨text,rfl,derived⟩
    exact ⟨(uuid.raw,rest),(parseGroups_eq_some (by decide)).mpr ⟨text,rfl,derived⟩,by rw [Uuid.ofStorage_raw]⟩

theorem readGno_eq_some {remainder rest : Bytes} {value : Nat} :
    readGno remainder = some (value,rest) ↔
      ∃ text, remainder = text ++ rest ∧ Gno text value ∧ ∀ c ∈ rest.head?, isDigit c = false := by
  constructor
  · intro parsed
    have split : remainder.takeWhile isDigit ++ remainder.dropWhile isDigit = remainder :=
      List.takeWhile_append_dropWhile
    have digits : ∀ c ∈ remainder.takeWhile isDigit, isDigit c = true := List.all_eq_true.mp List.all_takeWhile
    have stops : ∀ c ∈ (remainder.dropWhile isDigit).head?, isDigit c = false := by
      intro c here
      have stop := List.head?_dropWhile_not isDigit remainder
      rw [Option.mem_def.mp here] at stop
      exact stop
    unfold readGno at parsed
    cases front : remainder.takeWhile isDigit with
    | nil => simp [front] at parsed
    | cons c others =>
      rw [front] at parsed split digits
      simp only [Option.some.injEq, Prod.mk.injEq] at parsed
      have left : rest = remainder.dropWhile isDigit := by
        rw [← parsed.2, ← split, List.drop_left, split]
      exact ⟨c :: others,left ▸ split.symm,⟨by simp,digits,parsed.1⟩,left ▸ stops⟩
  · rintro ⟨text,rfl,⟨nonempty,digits,rfl⟩,stops⟩
    have front : (text ++ rest).takeWhile isDigit = text := takeWhile_append_stop digits stops
    unfold readGno
    rw [front]
    cases text with
    | nil => exact absurd rfl nonempty
    | cons c others => simp

/-- What follows an interval when the parser has read all of it: not another digit, nor a dash that could still give
    it an upper bound. -/
def Halts (upper : Option Nat) (rest : Bytes) : Prop :=
  ∀ c ∈ rest.head?, isDigit c = false ∧ (c = 0x2D → upper.isSome = true)

theorem Gno.head {text : Bytes} {value : Nat} (gno : Gno text value) :
    ∃ c others, text = c :: others ∧ isDigit c = true := by
  cases text with
  | nil => exact absurd rfl gno.nonempty
  | cons c others => exact ⟨c,others,rfl,gno.digits c (by simp)⟩

theorem Numbers.head {text : Bytes} {lower : Nat} {upper : Option Nat} (numbers : Numbers text lower upper) :
    ∃ c others, text = c :: others ∧ isDigit c = true := by
  cases numbers with
  | single gno => exact gno.head
  | range first =>
    obtain ⟨c,others,rfl,digit⟩ := first.head
    exact ⟨c,_,rfl,digit⟩

theorem readNumbers_eq_some {remainder rest : Bytes} {lower : Nat} {upper : Option Nat} :
    readNumbers remainder = some ((lower,upper),rest) ↔
      ∃ text, remainder = text ++ rest ∧ Numbers text lower upper ∧ Halts upper rest := by
  simp only [readNumbers, Option.bind_eq_bind, Option.bind_eq_some_iff]
  constructor
  · rintro ⟨⟨low,left⟩,first,parsed⟩
    obtain ⟨text,rfl,gno,stops⟩ := readGno_eq_some.mp first
    dsimp only at parsed
    cases dash : parseCharacter 0x2D left with
    | none =>
      simp only [dash, Option.some.injEq, Prod.mk.injEq] at parsed
      obtain ⟨⟨rfl,rfl⟩,rfl⟩ := parsed
      refine ⟨text,rfl,.single gno,fun c here => ⟨stops c here,fun same => ?_⟩⟩
      exact absurd (same ▸ Option.mem_def.mp here) (parseCharacter_eq_none.mp dash)
    | some later =>
      obtain rfl := parseCharacter_eq_some.mp dash
      simp only [dash, Option.bind_eq_some_iff] at parsed
      obtain ⟨⟨high,tail⟩,second,result⟩ := parsed
      cases result
      obtain ⟨more,rfl,other,ends⟩ := readGno_eq_some.mp second
      exact ⟨text ++ 0x2D :: more,by simp,.range gno other,fun c here => ⟨ends c here,fun _ => rfl⟩⟩
  · rintro ⟨text,rfl,numbers,halts⟩
    cases numbers with
    | single gno =>
      have first := readGno_eq_some.mpr ⟨text,rfl,gno,fun c here => (halts c here).1⟩
      have ends : parseCharacter 0x2D rest = none :=
        parseCharacter_eq_none.mpr fun here => by simpa using (halts 0x2D here).2 rfl
      exact ⟨_,first,by simp [ends]⟩
    | @range text more low high gno other =>
      have first : readGno (text ++ 0x2D :: (more ++ rest)) = some (lower,0x2D :: (more ++ rest)) :=
        readGno_eq_some.mpr ⟨text,rfl,gno,by simp; decide⟩
      have second := readGno_eq_some.mpr ⟨more,rfl,other,fun c here => (halts c here).1⟩
      refine ⟨_,by simpa using first,?_⟩
      simp [parseCharacter,second]

theorem Tag.parse_eq_some {remainder rest : Bytes} {label : Tag} (parsed : Tag.parse remainder = some (label,rest)) :
    remainder = label.name ++ rest ∧ label.isEmpty = false := by
  cases remainder with
  | nil => cases parsed
  | cons first later =>
    rw [Tag.parse] at parsed
    by_cases letter : first = 0x5F ∨ isAlpha first = true
    · rw [if_pos letter] at parsed
      have here : (later.takeWhile fun c => c = 0x5F || isAlnum c).take 31 <+: later :=
        (List.take_prefix 31 _).trans (List.takeWhile_prefix _)
      generalize (later.takeWhile fun c => c = 0x5F || isAlnum c).take 31 = others at here parsed
      dsimp only at parsed
      cases made : Tag.make (first :: others) with
      | error => simp [made] at parsed
      | ok tag =>
        simp only [made, Option.some.injEq, Prod.mk.injEq] at parsed
        obtain ⟨rfl,rfl⟩ := parsed
        obtain ⟨tail,rfl⟩ := here
        have name : tag.name = first :: others := Tag.make_eq_ok.mp made
        simp [Tag.isEmpty,name]
    · simp [letter] at parsed

private theorem Tag.name_head {label : Tag} (named : label.isEmpty = false) :
    ∃ c others, label.name = c :: others ∧ isDigit c = false := by
  obtain ⟨_,start,_⟩ := label.valid
  cases shape : label.name with
  | nil => simp [Tag.isEmpty,shape] at named
  | cons c others =>
    have letter : c = 0x5F ∨ isAlpha c = true := start c (by rw [shape]; rfl)
    refine ⟨c,others,rfl,?_⟩
    simp only [isAlpha, isDigit, Bool.or_eq_true, Bool.and_eq_true, decide_eq_true_eq, UInt8.le_iff_toNat_le,
      Bool.and_eq_false_iff, decide_eq_false_iff_not] at letter ⊢
    rcases letter with rfl | letter
    · decide
    · change (0x41 ≤ c.toNat ∧ c.toNat ≤ 0x5A) ∨ (0x61 ≤ c.toNat ∧ c.toNat ≤ 0x7A) at letter
      change ¬ 0x30 ≤ c.toNat ∨ ¬ c.toNat ≤ 0x39
      omega

theorem readInterval_eq_some {uuid : Uuid} {tag : Tag} {remainder rest : Bytes} {item : Item} :
    readInterval uuid tag remainder = some (item,rest) ↔
      item.uuid = uuid ∧ ∃ text, remainder = text ++ rest ∧ Interval tag text item.tag item.lower item.upper ∧
        Halts item.upper rest := by
  constructor
  · intro parsed
    by_cases digit : remainder.head?.any isDigit = true
    · simp only [readInterval, digit, if_true, Option.bind_eq_bind, Option.bind_some, Option.bind_eq_some_iff] at parsed
      obtain ⟨⟨⟨lower,upper⟩,tail⟩,second,result⟩ := parsed
      cases result
      obtain ⟨text,rfl,numbers,halts⟩ := readNumbers_eq_some.mp second
      exact ⟨rfl,text,rfl,.plain numbers,halts⟩
    · simp only [readInterval, digit, Bool.false_eq_true, if_false, Option.bind_eq_bind, Option.bind_some,
        Option.bind_eq_some_iff, parseCharacter_eq_some] at parsed
      obtain ⟨⟨label,later⟩,first,left,rfl,⟨⟨lower,upper⟩,tail⟩,second,result⟩ := parsed
      cases result
      obtain ⟨rfl,named⟩ := Tag.parse_eq_some first
      obtain ⟨text,rfl,numbers,halts⟩ := readNumbers_eq_some.mp second
      exact ⟨rfl,label.name ++ 0x3A :: text,by simp,.tagged named numbers,halts⟩
  · rintro ⟨rfl,text,rfl,interval,halts⟩
    obtain ⟨uuid,label,lower,upper⟩ := item
    dsimp only at interval halts
    cases interval with
    | plain numbers =>
      obtain ⟨c,others,shape,digit⟩ := numbers.head
      have here : (text ++ rest).head?.any isDigit = true := by simp [shape,digit]
      have second := readNumbers_eq_some.mpr ⟨text,rfl,numbers,halts⟩
      simp only [readInterval, here, second, if_true, Option.bind_eq_bind, Option.bind_some]
    | @tagged _ text _ _ named numbers =>
      obtain ⟨c,others,shape,letter⟩ := Tag.name_head named
      have other : (label.name ++ 0x3A :: text ++ rest).head?.any isDigit = false := by simp [shape,letter]
      have first : Tag.parse (label.name ++ 0x3A :: text ++ rest) = some (label,0x3A :: (text ++ rest)) := by
        rw [List.append_assoc, List.cons_append]
        exact Tag.parse_name label named (by intro c here; cases here; decide)
      have second := readNumbers_eq_some.mpr ⟨text,rfl,numbers,halts⟩
      simp only [readInterval, other, first, parseCharacter, second, Bool.false_eq_true, if_false, if_true,
        Option.bind_eq_bind, Option.bind_some]

/-- What follows the intervals of a uuid: neither more of the last one nor another one. -/
def Closes (items : List Item) (rest : Bytes) : Prop :=
  (∀ last ∈ items.getLast?, Halts last.upper rest) ∧ rest.head? ≠ some 0x3A

theorem intervals_sound {rounds : Nat} {uuid : Uuid} {tag : Tag} {remainder left rest : Bytes} {item : Item}
    {others : List Item} (enough : left.length ≤ rounds) (first : readInterval uuid tag remainder = some (item,left))
    (more : readMoreIntervals rounds uuid item.tag left = some (others,rest)) :
    ∃ text, remainder = text ++ rest ∧ Intervals uuid tag text (item :: others) ∧ Closes (item :: others) rest := by
  obtain ⟨same,text,rfl,interval,halts⟩ := readInterval_eq_some.mp first
  obtain ⟨uuid,label,lower,upper⟩ := item
  subst same
  clear first
  induction rounds generalizing tag text label lower upper left others with
  | zero =>
    cases more
    obtain rfl := List.length_eq_zero_iff.mp (Nat.le_zero.mp enough)
    exact ⟨text,rfl,.last interval,by simpa [Closes] using halts⟩
  | succ rounds ih =>
    rw [readMoreIntervals] at more
    cases colon : parseCharacter 0x3A left with
    | none =>
      rw [colon] at more
      cases more
      exact ⟨text,rfl,.last interval,by simpa [Closes] using ⟨halts,parseCharacter_eq_none.mp colon⟩⟩
    | some later =>
      obtain rfl := parseCharacter_eq_some.mp colon
      simp only [colon, Option.bind_eq_bind, Option.bind_eq_some_iff] at more
      obtain ⟨⟨⟨uuid',label',lower',upper'⟩,tail⟩,second,⟨items,final⟩,more,result⟩ := more
      cases result
      obtain ⟨rfl,next,rfl,interval',halts'⟩ := readInterval_eq_some.mp second
      have shorter : tail.length ≤ rounds := by simp at enough; omega
      obtain ⟨rest',same,intervals,closes⟩ := ih shorter next label' lower' upper' interval' halts' more
      exact ⟨text ++ 0x3A :: rest',by simp [same],.cons interval intervals,by simpa [Closes] using closes⟩

theorem intervals_complete {uuid : Uuid} {tag : Tag} {text rest : Bytes} {items : List Item}
    (intervals : Intervals uuid tag text items) (closes : Closes items rest) :
    ∃ item others left, items = item :: others ∧ readInterval uuid tag (text ++ rest) = some (item,left) ∧
      ∀ rounds, left.length ≤ rounds → readMoreIntervals rounds uuid item.tag left = some (others,rest) := by
  induction intervals with
  | @last tag label text lower upper interval =>
    refine ⟨_,[],rest,rfl,readInterval_eq_some.mpr ⟨rfl,text,rfl,interval,closes.1 _ rfl⟩,fun rounds _ => ?_⟩
    have ends : parseCharacter 0x3A rest = none := parseCharacter_eq_none.mpr closes.2
    cases rounds <;> simp [readMoreIntervals,ends]
  | @cons tag label text more lower upper items interval intervals ih =>
    obtain ⟨item,others,left,rfl,second,later⟩ := ih (by cases intervals <;> simpa [Closes] using closes)
    have first : readInterval uuid tag (text ++ 0x3A :: (more ++ rest)) =
        some (⟨uuid,label,lower,upper⟩,0x3A :: (more ++ rest)) :=
      readInterval_eq_some.mpr ⟨rfl,text,rfl,interval,
        by intro c here; cases here; exact ⟨by decide,fun dash => absurd dash (by decide)⟩⟩
    refine ⟨_,item :: others,0x3A :: (more ++ rest),rfl,by simpa using first,fun rounds enough => ?_⟩
    obtain ⟨rounds,rfl⟩ : ∃ n, rounds = n + 1 := ⟨rounds - 1,by simp at enough; omega⟩
    have shorter : left.length ≤ rounds := by
      obtain ⟨-,front,split,-⟩ := readInterval_eq_some.mp second
      rw [List.length_cons, split, List.length_append] at enough
      omega
    simp [readMoreIntervals,parseCharacter,second,later rounds shorter]

theorem readUuidSet_eq_some {remainder rest : Bytes} {items : List Item} :
    readUuidSet remainder = some (items,rest) ↔
      ∃ text, remainder = text ++ rest ∧ UuidSet text items ∧ Closes items rest := by
  simp only [readUuidSet, Option.bind_eq_bind, Option.bind_eq_some_iff, parseCharacter_eq_some]
  constructor
  · rintro ⟨⟨uuid,left⟩,parsed,later,rfl,⟨item,tail⟩,first,⟨others,final⟩,more,result⟩
    cases result
    obtain ⟨front,rfl,groups⟩ := Uuid.parse_eq_some.mp parsed
    obtain ⟨text,rfl,intervals,closes⟩ := intervals_sound (Nat.le_refl _) first more
    exact ⟨front ++ 0x3A :: text,by simp,.intro groups intervals,closes⟩
  · rintro ⟨text,rfl,@⟨uuid,front,more,_,groups,intervals⟩,closes⟩
    obtain ⟨item,others,left,rfl,first,later⟩ := intervals_complete intervals closes
    have parsed : Uuid.parse (front ++ 0x3A :: more ++ rest) = some (uuid,0x3A :: (more ++ rest)) :=
      Uuid.parse_eq_some.mpr ⟨front,by simp,groups⟩
    exact ⟨_,parsed,_,rfl,_,first,_,later left.length (Nat.le_refl _),rfl⟩

/-- What follows a set when the parser has read all of it. -/
def Stops (items : List Item) (rest : Bytes) : Prop := Closes items rest ∧ rest.head? ≠ some 0x2C

theorem UuidSets.items_ne_nil {text : Bytes} {items : List Item} (sets : UuidSets text items) : items ≠ [] := by
  have some : ∀ {text items}, UuidSet text items → items ≠ [] := by
    rintro text items ⟨-,intervals⟩
    cases intervals <;> simp
  cases sets with
  | last set => exact some set
  | cons set => exact List.append_ne_nil_of_left_ne_nil (some set) _

theorem Stops.append {items others : List Item} {rest : Bytes} (later : others ≠ []) :
    Stops (items ++ others) rest ↔ Stops others rest := by
  unfold Stops Closes
  rw [List.getLast?_append_of_ne_nil items later]

theorem hexadecimal_of_isSpace {c : UInt8} (blank : GtidSet.isSpace c = true) : hexadecimal c = none := by
  have low : c.toNat ≤ 0x20 := by
    simp only [GtidSet.isSpace, Bool.or_eq_true, Bool.and_eq_true, decide_eq_true_eq, UInt8.le_iff_toNat_le] at blank
    rcases blank with rfl | ⟨-,low⟩
    · decide
    · exact low.trans (by decide)
  have above : ∀ {d : UInt8}, 0x20 < d.toNat → ¬ d ≤ c := fun high le =>
    absurd (UInt8.le_iff_toNat_le.mp le) (by omega)
  have digit : ¬ isDigit c = true := by
    rw [isDigit, Bool.and_eq_true, decide_eq_true_eq]
    exact fun both => above (by decide) both.1
  rw [hexadecimal, if_neg digit, if_neg fun both => above (by decide) both.1,
    if_neg fun both => above (by decide) both.1]

theorem Groups.head {count : Nat} {groups : List Nat} {text raw : Bytes}
    (derived : Groups ((count + 1) :: groups) text raw) :
    ∃ c others, text = c :: others ∧ GtidSet.isSpace c = false := by
  have first : ∀ {text raw}, HexadecimalPairs (count + 1) text raw →
      ∃ c others, text = c :: others ∧ GtidSet.isSpace c = false := by
    rintro _ _ (_ | @⟨c,_,high,_,_,_,_,first,second,rest⟩)
    refine ⟨c,_,rfl,?_⟩
    by_contra blank
    rw [hexadecimal_of_isSpace (by simpa using blank)] at first
    cases first
  cases derived with
  | last pairs => exact first pairs
  | cons pairs =>
    obtain ⟨c,others,rfl,dark⟩ := first pairs
    exact ⟨c,_,rfl,dark⟩

theorem UuidSets.head {text : Bytes} {items : List Item} (sets : UuidSets text items) (rest : Bytes) :
    ∀ c ∈ (text ++ rest).head?, GtidSet.isSpace c = false := by
  intro c here
  cases sets with
  | last set =>
    obtain ⟨groups,-⟩ := set
    obtain ⟨d,others,rfl,dark⟩ := groups.head
    cases here
    exact dark
  | cons set =>
    obtain ⟨groups,-⟩ := set
    obtain ⟨d,others,rfl,dark⟩ := groups.head
    cases here
    exact dark

theorem uuidSets_sound {rounds : Nat} {remainder left rest : Bytes} {items others : List Item}
    (enough : left.length ≤ rounds) (first : readUuidSet remainder = some (items,left))
    (more : readMoreUuidSets rounds left = some (others,rest)) :
    ∃ text, remainder = text ++ rest ∧ UuidSets text (items ++ others) ∧ Stops (items ++ others) rest := by
  induction rounds generalizing remainder left items others with
  | zero =>
    obtain ⟨text,rfl,set,closes⟩ := readUuidSet_eq_some.mp first
    cases more
    obtain rfl := List.length_eq_zero_iff.mp (Nat.le_zero.mp enough)
    exact ⟨text,rfl,by simpa using .last set,by simpa [Stops] using closes⟩
  | succ rounds ih =>
    obtain ⟨text,rfl,set,closes⟩ := readUuidSet_eq_some.mp first
    rw [readMoreUuidSets] at more
    cases comma : parseCharacter 0x2C left with
    | none =>
      rw [comma] at more
      cases more
      exact ⟨text,rfl,by simpa using .last set,by simpa [Stops] using ⟨closes,parseCharacter_eq_none.mp comma⟩⟩
    | some later =>
      obtain rfl := parseCharacter_eq_some.mp comma
      simp only [comma, Option.bind_eq_bind, Option.bind_eq_some_iff] at more
      obtain ⟨⟨items',tail⟩,second,⟨others',final⟩,more,result⟩ := more
      cases result
      have split : later.takeWhile GtidSet.isSpace ++ later.dropWhile GtidSet.isSpace = later :=
        List.takeWhile_append_dropWhile
      have blank : ∀ c ∈ later.takeWhile GtidSet.isSpace, GtidSet.isSpace c = true :=
        List.all_eq_true.mp List.all_takeWhile
      have shorter : tail.length ≤ rounds := by
        obtain ⟨front,whole,-⟩ := readUuidSet_eq_some.mp second
        rw [List.length_cons, ← split, whole, List.length_append, List.length_append] at enough
        omega
      obtain ⟨next,whole,sets,stops⟩ := ih shorter second more
      refine ⟨_,?_,.cons set blank sets,(Stops.append sets.items_ne_nil).mpr stops⟩
      rw [List.append_assoc, List.cons_append, List.append_assoc, ← whole, split]

theorem uuidSets_complete {text rest : Bytes} {items : List Item} (sets : UuidSets text items)
    (stops : Stops items rest) :
    ∃ first others left, items = first ++ others ∧ readUuidSet (text ++ rest) = some (first,left) ∧
      ∀ rounds, left.length ≤ rounds → readMoreUuidSets rounds left = some (others,rest) := by
  induction sets with
  | @last text items set =>
    refine ⟨items,[],rest,by simp,readUuidSet_eq_some.mpr ⟨text,rfl,set,stops.1⟩,fun rounds _ => ?_⟩
    have ends : parseCharacter 0x2C rest = none := parseCharacter_eq_none.mpr stops.2
    cases rounds <;> simp [readMoreUuidSets,ends]
  | @cons text space more items others set blank sets ih =>
    obtain ⟨items',others',left,rfl,second,later⟩ := ih ((Stops.append sets.items_ne_nil).mp stops)
    have closes : Closes items (0x2C :: (space ++ (more ++ rest))) :=
      ⟨fun last _ c here => by cases here; exact ⟨by decide,fun dash => absurd dash (by decide)⟩,by simp⟩
    have first : readUuidSet (text ++ 0x2C :: (space ++ (more ++ rest))) =
        some (items,0x2C :: (space ++ (more ++ rest))) := readUuidSet_eq_some.mpr ⟨text,rfl,set,closes⟩
    have skipped : (space ++ (more ++ rest)).dropWhile GtidSet.isSpace = more ++ rest := by
      rw [List.dropWhile_append_of_pos blank]
      cases start : more ++ rest with
      | nil => rfl
      | cons c tail =>
        have dark : GtidSet.isSpace c = false := sets.head rest c (by rw [start]; rfl)
        simp [dark]
    refine ⟨items,items' ++ others',_,rfl,by simpa using first,fun rounds enough => ?_⟩
    obtain ⟨rounds,rfl⟩ : ∃ n, rounds = n + 1 := ⟨rounds - 1,by simp at enough; omega⟩
    have shorter : left.length ≤ rounds := by
      obtain ⟨front,split,-⟩ := readUuidSet_eq_some.mp second
      rw [List.length_cons, split, List.length_append, List.length_append] at enough
      omega
    simp [readMoreUuidSets,parseCharacter,skipped,second,later rounds shorter]

/-- The parser reads a text up to where no rule goes on, and whatever the grammar derives it reads so. -/
theorem read_eq_some {value rest : Bytes} {items : List Item} :
    read value = some (items,rest) ↔ ∃ text, value = text ++ rest ∧ UuidSets text items ∧ Stops items rest := by
  simp only [read, Option.bind_eq_bind, Option.bind_eq_some_iff]
  constructor
  · rintro ⟨⟨first,left⟩,parsed,⟨others,final⟩,more,result⟩
    cases result
    exact uuidSets_sound (Nat.le_refl _) parsed more
  · rintro ⟨text,rfl,sets,stops⟩
    obtain ⟨first,others,left,rfl,parsed,later⟩ := uuidSets_complete sets stops
    exact ⟨_,parsed,_,later left.length (Nat.le_refl _),rfl⟩

/-! What is added for it. -/

/-- What the constructor checks of an interval: of the bounds as they have wrapped, and of the upper one only that it
    is not below. -/
def Item.Accepted (item : Item) : Prop :=
  ¬ item.uuid.isEmpty ∧ minGno ≤ item.lower % 2 ^ 64 ∧ item.lower % 2 ^ 64 ≤ maxGno ∧
    item.lower % 2 ^ 64 ≤ item.last % 2 ^ 64

/-- An interval as it should be. -/
structure Item.Proper (item : Item) : Prop where
  known : ¬ item.uuid.isEmpty
  least : minGno ≤ item.lower
  ordered : item.lower ≤ item.last
  most : item.last ≤ maxGno

/-- The triples that intervals denote. -/
def denoted (items : List Item) : Set (Uuid × Tag × Nat) :=
  {x | ∃ item ∈ items, x ∈ GtidSet.span item.uuid item.tag item.lower item.last}

theorem denoted_nil : denoted [] = ∅ := by simp [denoted]

theorem denoted_cons (item : Item) (items : List Item) :
    denoted (item :: items) = GtidSet.span item.uuid item.tag item.lower item.last ∪ denoted items := by
  ext x
  simp [denoted]

theorem Item.addTo_eq_some {item : Item} {s t : GtidSet} : item.addTo s = some t ↔ item.Accepted ∧
    t = s.update item.uuid item.tag (·.add (item.lower % 2 ^ 64) ((item.last % 2 ^ 64 + 1) % 2 ^ 64)) := by
  rw [Item.Accepted, ← GtidSet.addInterval_eq_ok, Item.addTo]
  cases s.addInterval item.uuid item.tag (item.lower % 2 ^ 64) (item.last % 2 ^ 64) <;> simp [Except.toOption]

theorem addItems_isSome (items : List Item) (s : GtidSet) :
    (∃ t, addItems s items = some t) ↔ ∀ item ∈ items, item.Accepted := by
  induction items generalizing s with
  | nil => simp [addItems]
  | cons item items ih =>
    rw [List.forall_mem_cons, addItems_cons]
    constructor
    · rintro ⟨t,added⟩
      obtain ⟨r,first,rest⟩ := Option.bind_eq_some_iff.mp added
      exact ⟨(Item.addTo_eq_some.mp first).1,(ih r).mp ⟨t,rest⟩⟩
    · rintro ⟨accepted,rest⟩
      obtain ⟨t,rest⟩ := (ih _).mpr rest
      exact ⟨t,by rw [Item.addTo_eq_some.mpr ⟨accepted,rfl⟩, Option.bind_some, rest]⟩

theorem Item.Proper.unwrapped {item : Item} (proper : item.Proper) :
    item.lower % 2 ^ 64 = item.lower ∧ item.last % 2 ^ 64 = item.last := by
  obtain ⟨-,-,ordered,most⟩ := proper
  unfold maxGno at most
  omega

theorem Item.Proper.accepted {item : Item} (proper : item.Proper) : item.Accepted := by
  obtain ⟨lower,last⟩ := proper.unwrapped
  rw [Item.Accepted, lower, last]
  exact ⟨proper.known,proper.least,proper.ordered.trans proper.most,proper.ordered⟩

theorem Item.Proper.addTo {item : Item} (proper : item.Proper) (s : GtidSet) :
    item.addTo s = some (s.update item.uuid item.tag (·.add item.lower (item.last + 1))) := by
  obtain ⟨lower,last⟩ := proper.unwrapped
  rw [Item.addTo, lower, last, GtidSet.addInterval_eq proper.known proper.least proper.ordered proper.most]
  rfl

theorem addItems_proper {items : List Item} (proper : ∀ item ∈ items, item.Proper) {s t : GtidSet}
    (added : addItems s items = some t) :
    t.denoted = s.denoted ∪ denoted items ∧ (s.Valid → t.Valid) := by
  induction items generalizing s with
  | nil =>
    cases added
    exact ⟨by rw [denoted_nil, Set.union_empty],id⟩
  | cons item items ih =>
    obtain ⟨first,rest⟩ := List.forall_mem_cons.mp proper
    rw [addItems_cons, first.addTo, Option.bind_some] at added
    obtain ⟨denotes,valid⟩ := ih rest added
    constructor
    · rw [denotes, GtidSet.denoted_update_add, Set.union_assoc, denoted_cons]
    · exact fun start => valid (start.updateAdd first.known first.least first.ordered first.most)

/-- The whole of a text derives from the grammar; the empty text says nothing. -/
def Derives (value : Bytes) (items : List Item) : Prop := (value = [] ∧ items = []) ∨ UuidSets value items

/-- The constructor takes just the texts of proper intervals and gives what they denote. -/
def Conforms (value : Bytes) : Prop :=
  ((∃ s, GtidSet.ofText value = .ok s) ↔ ∃ items, Derives value items ∧ ∀ item ∈ items, item.Proper) ∧
  ∀ s, GtidSet.ofText value = .ok s → ∃ items, Derives value items ∧ s.denoted = denoted items

/-- Where the parser stops at a set it accepts, the text is over, and no number in it is too large. -/
def Whole (value : Bytes) : Prop :=
  ∀ text rest items, value = text ++ rest → UuidSets text items → Stops items rest →
    (∀ item ∈ items, item.Accepted) → rest = [] ∧ ∀ item ∈ items, item.lower ≤ maxGno ∧ item.last ≤ maxGno

theorem UuidSets.text_ne_nil {text : Bytes} {items : List Item} (sets : UuidSets text items) : text ≠ [] := by
  cases sets with
  | last set =>
    obtain ⟨groups,-⟩ := set
    simp
  | cons set => simp

theorem stops_nil (items : List Item) : Stops items [] := by
  simp [Stops,Closes,Halts]

theorem UuidSets.read_eq {value : Bytes} {items : List Item} (sets : UuidSets value items) :
    read value = some (items,[]) :=
  read_eq_some.mpr ⟨value,by simp,sets,stops_nil items⟩

theorem Item.Accepted.proper {item : Item} (accepted : item.Accepted) (lower : item.lower ≤ maxGno)
    (last : item.last ≤ maxGno) : item.Proper := by
  obtain ⟨known,least,-,ordered⟩ := accepted
  unfold maxGno at lower last
  rw [Nat.mod_eq_of_lt (by omega)] at least ordered
  rw [Nat.mod_eq_of_lt (by omega)] at ordered
  exact ⟨known,least,ordered,by unfold maxGno; omega⟩

/-- What a text that the constructor takes says, if the whole of it was read and no number has wrapped. -/
theorem Whole.derives {value : Bytes} (whole : Whole value) {s : GtidSet} (made : GtidSet.ofText value = .ok s) :
    ∃ items, Derives value items ∧ (∀ item ∈ items, item.Proper) ∧ s.denoted = denoted items := by
  by_cases nonempty : value = []
  · subst nonempty
    cases made
    exact ⟨[],.inl ⟨rfl,rfl⟩,by simp,by rw [denoted_nil]; exact GtidSet.denoted_empty⟩
  · obtain ⟨⟨items,rest⟩,parsed,added⟩ := (ofText_eq_ok nonempty).mp made
    obtain ⟨text,split,sets,stops⟩ := read_eq_some.mp parsed
    have accepted := (addItems_isSome items .empty).mp ⟨s,added⟩
    obtain ⟨rfl,bounded⟩ := whole text rest items split sets stops accepted
    have proper : ∀ item ∈ items, item.Proper := fun item member =>
      (accepted item member).proper (bounded item member).1 (bounded item member).2
    refine ⟨items,.inr (by rwa [split, List.append_nil]),proper,?_⟩
    rw [(addItems_proper proper added).1, GtidSet.denoted_empty, Set.empty_union]

theorem ofText_of_derives {value : Bytes} {items : List Item} (derives : Derives value items)
    (proper : ∀ item ∈ items, item.Proper) : ∃ s, GtidSet.ofText value = .ok s := by
  rcases derives with ⟨rfl,-⟩ | sets
  · exact ⟨.empty,rfl⟩
  · obtain ⟨s,added⟩ := (addItems_isSome items .empty).mpr fun item member => (proper item member).accepted
    exact ⟨s,(ofText_eq_ok sets.text_ne_nil).mpr ⟨_,sets.read_eq,added⟩⟩

/-- The constructor is right about a text exactly if it reads all of it and no number in it exceeds what a gno may
    be; it neither asks for the end nor sees a number wrap. -/
theorem conforms_iff (value : Bytes) : Conforms value ↔ Whole value := by
  constructor
  · rintro ⟨taken,-⟩ text rest items split sets stops accepted
    have parsed : read value = some (items,rest) := read_eq_some.mpr ⟨text,split,sets,stops⟩
    have nonempty : value ≠ [] := by
      rw [split]
      exact List.append_ne_nil_of_left_ne_nil sets.text_ne_nil rest
    obtain ⟨s,added⟩ := (addItems_isSome items .empty).mpr accepted
    obtain ⟨others,derives,proper⟩ := taken.mp ⟨s,(ofText_eq_ok nonempty).mpr ⟨_,parsed,added⟩⟩
    rcases derives with ⟨empty,-⟩ | derived
    · exact absurd empty nonempty
    · rw [derived.read_eq, Option.some.injEq, Prod.mk.injEq] at parsed
      obtain ⟨rfl,rfl⟩ := parsed
      exact ⟨rfl,fun item member =>
        ⟨(proper item member).ordered.trans (proper item member).most,(proper item member).most⟩⟩
  · intro whole
    refine ⟨⟨?_,fun ⟨items,derives,proper⟩ => ofText_of_derives derives proper⟩,?_⟩
    · rintro ⟨s,made⟩
      obtain ⟨items,derives,proper,-⟩ := whole.derives made
      exact ⟨items,derives,proper⟩
    · intro s made
      obtain ⟨items,derives,-,denotes⟩ := whole.derives made
      exact ⟨items,derives,denotes⟩

/-- A text is accepted with what follows the set in it, and with numbers that are none. -/
theorem not_conforms :
    ¬ Conforms (ascii "11111111-1111-1111-1111-111111111111:1-3 and more") ∧
    ¬ Conforms (ascii "11111111-1111-1111-1111-111111111111:18446744073709551617") ∧
    ¬ Conforms (ascii "11111111-1111-1111-1111-111111111111:1-9223372036854775808") := by
  have refuted : ∀ value, (GtidSet.ofText value).isOk = true →
      (read value).any (fun x => x.2 ≠ [] ∨ x.1.any fun item => maxGno < item.last) = true → value ≠ [] →
      ¬ Conforms value := by
    rintro value accepted parsed nonempty ⟨taken,-⟩
    cases made : GtidSet.ofText value with
    | error => simp [made,Except.isOk,Except.toBool] at accepted
    | ok s =>
      obtain ⟨items,⟨empty,-⟩ | sets,proper⟩ := taken.mp ⟨s,made⟩
      · exact nonempty empty
      · simp only [sets.read_eq, Option.any_some, ne_eq, not_true_eq_false, false_or,
          List.any_eq_true, decide_eq_true_eq] at parsed
        obtain ⟨item,member,large⟩ := parsed
        exact absurd (proper item member).most (by omega)
  exact ⟨refuted _ (by decide +kernel) (by decide +kernel) (by decide),
    refuted _ (by decide +kernel) (by decide +kernel) (by decide),
    refuted _ (by decide +kernel) (by decide +kernel) (by decide)⟩

end Grammar
end BinlogServer.Gtids
