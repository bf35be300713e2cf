import BinlogServer.Gtids.GtidSet
import Mathlib.Tactic.IntervalCases

/-!
# The text of a gtid set

`gtid_set::str` and `gtid_set_parser`. An exception inside the parser is replaced by one of the constructor, so
the parsing functions answer `none` where the source throws.
-/

namespace BinlogServer.Gtids
open ByteString Util

/-- `parse_character` -/
def parseCharacter (expected : UInt8) : Bytes → Option Bytes
  | [] => none
  | c :: remainder => if c = expected then some remainder else none

@[simp] theorem parseCharacter_cons (c : UInt8) (remainder : Bytes) :
    parseCharacter c (c :: remainder) = some remainder := by
  simp [parseCharacter]

namespace Uuid

/-- The digits `boost::uuids::to_string` prints. -/
def hexDigit (n : Nat) : UInt8 := if n < 10 then UInt8.ofNat (0x30 + n) else UInt8.ofNat (0x57 + n)

def hexPair (b : UInt8) : Bytes := [hexDigit (b.toNat / 16),hexDigit (b.toNat % 16)]

/-- How many bytes stand between the dashes. -/
def groupSizes : List Nat := [4,2,2,2,6]

def printGroups : List Nat → Bytes → Bytes
  | [], _ => []
  | count :: rest, raw =>
    (raw.take count).flatMap hexPair ++ if rest = [] then [] else 0x2D :: printGroups rest (raw.drop count)

/-- `uuid::str` -/
def str (uuid : Uuid) : Bytes := printGroups groupSizes uuid.raw

/-- `parse_hexadecimal` -/
def parseHexadecimal : Bytes → Option (Nat × Bytes)
  | [] => Option.none
  | c :: remainder =>
    if 0x61 ≤ c ∧ c ≤ 0x66 then some (c.toNat - 0x61 + 10,remainder)
    else if 0x41 ≤ c ∧ c ≤ 0x46 then some (c.toNat - 0x41 + 10,remainder)
    else if isDigit c then some (c.toNat - 0x30,remainder)
    else Option.none

/-- `parse_hexadecimal_pair`, so many times -/
def parseHexadecimalPairs : Nat → Bytes → Option (Bytes × Bytes)
  | 0, remainder => some ([],remainder)
  | count + 1, remainder => do
    let (high,remainder) ← parseHexadecimal remainder
    let (low,remainder) ← parseHexadecimal remainder
    let (others,remainder) ← parseHexadecimalPairs count remainder
    some (UInt8.ofNat (high * 16 + low) :: others,remainder)

def parseGroups : List Nat → Bytes → Option (Bytes × Bytes)
  | [], remainder => some ([],remainder)
  | count :: rest, remainder => do
    let (front,remainder) ← parseHexadecimalPairs count remainder
    if rest = [] then some (front,remainder)
    else
      let remainder ← parseCharacter 0x2D remainder
      let (back,remainder) ← parseGroups rest remainder
      some (front ++ back,remainder)

/-- `parse_uuid` -/
def parse (remainder : Bytes) : Option (Uuid × Bytes) := do
  let (raw,remainder) ← parseGroups groupSizes remainder
  some (ofStorage raw,remainder)

theorem parseHexadecimal_hexDigit : ∀ n < 16, ∀ remainder,
    parseHexadecimal (hexDigit n :: remainder) = some (n,remainder) := by
  intro n small remainder
  interval_cases n <;> rfl

private theorem parseHexadecimalPairs_flatMap (raw remainder : Bytes) :
    parseHexadecimalPairs raw.length (raw.flatMap hexPair ++ remainder) = some (raw,remainder) := by
  induction raw with
  | nil => rfl
  | cons b rest ih =>
    have high : b.toNat / 16 < 16 := by have := b.toNat_lt; omega
    have low : b.toNat % 16 < 16 := by omega
    have value : UInt8.ofNat (b.toNat / 16 * 16 + b.toNat % 16) = b := by
      rw [Nat.div_add_mod' b.toNat 16, UInt8.ofNat_toNat]
    simpa [parseHexadecimalPairs,hexPair,parseHexadecimal_hexDigit _ high,parseHexadecimal_hexDigit _ low,ih]
      using value

private theorem parseGroups_printGroups (groups : List Nat) (raw remainder : Bytes) (sized : raw.length = groups.sum) :
    parseGroups groups (printGroups groups raw ++ remainder) = some (raw,remainder) := by
  induction groups generalizing raw with
  | nil =>
    rw [List.sum_nil, List.length_eq_zero_iff] at sized
    simp [parseGroups,printGroups,sized]
  | cons count rest ih =>
    rw [List.sum_cons] at sized
    have front := parseHexadecimalPairs_flatMap (raw.take count)
    rw [List.length_take_of_le (by omega)] at front
    rw [printGroups, parseGroups, List.append_assoc, front]
    by_cases last : rest = []
    · subst last
      have whole : raw.take count = raw := List.take_of_length_le (by simp at sized; omega)
      simp [whole]
    · have back := ih (raw.drop count) (by simp [sized])
      simp [last,back]

/-- A uuid is read back from its text. -/
theorem parse_str (uuid : Uuid) (remainder : Bytes) : parse (uuid.str ++ remainder) = some (uuid,remainder) := by
  have read := parseGroups_printGroups groupSizes uuid.raw remainder uuid.sized
  simp [parse,str,read,ofStorage_raw]

end Uuid

/-- `parse_tag`: a letter or an underscore and at most 31 characters more. -/
def Tag.parse : Bytes → Option (Tag × Bytes)
  | [] => Option.none
  | first :: remainder =>
    if first = 0x5F ∨ isAlpha first then
      let others := (remainder.takeWhile fun c => c = 0x5F || isAlnum c).take 31
      match Tag.make (first :: others) with
      | .ok tag => some (tag,remainder.drop others.length)
      | .error _ => Option.none
    else Option.none

theorem Tag.parse_name (tag : Tag) (nonempty : tag.isEmpty = false) {remainder : Bytes}
    (stops : ∀ c ∈ remainder.head?, ¬ (c = 0x5F ∨ isAlnum c = true)) :
    Tag.parse (tag.name ++ remainder) = some (tag,remainder) := by
  obtain ⟨short,start,others⟩ := tag.valid
  cases shape : tag.name with
  | nil => simp [isEmpty,shape] at nonempty
  | cons first rest =>
    rw [shape] at short start others
    have here : (rest ++ remainder).takeWhile (fun c => c = 0x5F || isAlnum c) = rest :=
      takeWhile_append_stop (by simpa [Tag.ValidTail] using others) (by simpa using stops)
    have few : rest.take 31 = rest := List.take_of_length_le (by simp at short; omega)
    have made : Tag.make (first :: rest) = .ok tag := Tag.make_eq_ok.mpr shape
    simp only [List.cons_append, Tag.parse, if_pos (start first rfl), here, few, made, List.drop_left]

/-- `parse_gno`; the value wraps as `gno_t` does. -/
def parseGno (remainder : Bytes) : Option (Nat × Bytes) :=
  match remainder.takeWhile isDigit with
  | [] => none
  | digits => some (ofDigits digits % 2 ^ 64,remainder.drop digits.length)

theorem parseGno_toDecimal {n : Nat} (small : n < 2 ^ 64) {remainder : Bytes}
    (stops : ∀ c ∈ remainder.head?, isDigit c = false) : parseGno (toDecimal n ++ remainder) = some (n,remainder) := by
  have here : (toDecimal n ++ remainder).takeWhile isDigit = toDecimal n :=
    takeWhile_append_stop (fun c member => isDigit_of_mem_toDecimal member) stops
  unfold parseGno
  rw [here]
  cases digits : toDecimal n with
  | nil => exact absurd digits (toDecimal_ne_nil n)
  | cons first rest =>
    simp only [← digits, List.drop_left]
    rw [ofDigits_toDecimal, Nat.mod_eq_of_lt small]

namespace GtidSet

/-- One interval as `str` prints it, `upper` excluded. -/
def intervalText (interval : Nat × Nat) : Bytes :=
  0x3A :: (toDecimal interval.1 ++
    if interval.2 - 1 ≠ interval.1 then 0x2D :: toDecimal (interval.2 - 1) else [])

def tagText (entry : Tag × IntervalSet) : Bytes :=
  (if entry.1.isEmpty then [] else 0x3A :: entry.1.name) ++ entry.2.intervals.flatMap intervalText

def uuidText (entry : Uuid × GnosByTag) : Bytes := entry.1.str ++ entry.2.entries.flatMap tagText

/-- `gtid_set::str` -/
def str (s : GtidSet) : Bytes :=
  match s.data.entries with
  | [] => []
  | first :: rest => uuidText first ++ rest.flatMap fun entry => 0x2C :: 0x20 :: uuidText entry

/-- What the parser has read of the current uuid: the set so far and the current tag. -/
abbrev Parsed := GtidSet × Tag

/-- `parse_optionally_tagged_interval` -/
def parseOptionallyTaggedInterval (uuid : Uuid) (parsed : Parsed) (remainder : Bytes) : Option (Parsed × Bytes) := do
  let (tag,remainder) ←
    if remainder.head?.any isDigit then some (parsed.2,remainder)
    else do
      let (tag,remainder) ← Tag.parse remainder
      some (tag,← parseCharacter 0x3A remainder)
  let (lower,remainder) ← parseGno remainder
  match parseCharacter 0x2D remainder with
  | some remainder =>
    let (upper,remainder) ← parseGno remainder
    let s ← (parsed.1.addInterval uuid tag lower upper).toOption
    some ((s,tag),remainder)
  | none =>
    let s ← (parsed.1.addComponents uuid tag lower).toOption
    some ((s,tag),remainder)

/-- The loop of `parse_optionally_tagged_intervals`. Every round consumes the colon it starts with, so as many
    rounds as there are characters are enough. -/
def parseMoreIntervals : Nat → Uuid → Parsed → Bytes → Option (Parsed × Bytes)
  | 0, _, parsed, remainder => some (parsed,remainder)
  | rounds + 1, uuid, parsed, remainder =>
    match parseCharacter 0x3A remainder with
    | none => some (parsed,remainder)
    | some remainder => do
      let (parsed,remainder) ← parseOptionallyTaggedInterval uuid parsed remainder
      parseMoreIntervals rounds uuid parsed remainder

/-- `parse_uuid_set` -/
def parseUuidSet (s : GtidSet) (remainder : Bytes) : Option (GtidSet × Bytes) := do
  let (uuid,remainder) ← Uuid.parse remainder
  let remainder ← parseCharacter 0x3A remainder
  let (parsed,remainder) ← parseOptionallyTaggedInterval uuid (s,.none) remainder
  let (parsed,remainder) ← parseMoreIntervals remainder.length uuid parsed remainder
  some (parsed.1,remainder)

/-- `std::isspace` -/
def isSpace (c : UInt8) : Bool := c = 0x20 || (0x09 ≤ c && c ≤ 0x0D)

/-- The loop of `parse_gtid_set`. -/
def parseMoreUuidSets : Nat → GtidSet → Bytes → Option GtidSet
  | 0, s, _ => some s
  | rounds + 1, s, remainder =>
    match parseCharacter 0x2C remainder with
    | none => some s
    | some remainder => do
      let (s,remainder) ← parseUuidSet s (remainder.dropWhile isSpace)
      parseMoreUuidSets rounds s remainder

def parseUuidSets (value : Bytes) : Option GtidSet := do
  let (s,remainder) ← parseUuidSet empty value
  parseMoreUuidSets remainder.length s remainder

/-- `gtid_set(std::string_view)`; what follows the last interval is not looked at. -/
def ofText (value : Bytes) : Fallible GtidSet :=
  if value = [] then .ok empty
  else
    match parseUuidSets value with
    | some s => .ok s
    | none => .error ⟨.invalidArgument,"cannot parse GTID set"⟩

/-- `operator>>` on an input with these characters left: a line of it is read, and nothing where it has ended. The
    answer is what is left then. -/
def extract (input : Bytes) : Option (GtidSet × Bytes) :=
  let line := input.takeWhile (· ≠ 0x0A)
  match ofText line with
  | .ok s => some (s,input.drop (line.length + 1))
  | .error _ => none

/-! The text of a set is read back piece by piece. A piece is what stands between two colons that `str` prints:
an interval, with the tag in front of it where the tag changes. -/

private def numbersText (interval : Nat × Nat) : Bytes :=
  toDecimal interval.1 ++ if interval.2 - 1 ≠ interval.1 then 0x2D :: toDecimal (interval.2 - 1) else []

private def pieceText (piece : Option Tag × Nat × Nat) : Bytes :=
  match piece.1 with
  | none => numbersText piece.2
  | some tag => tag.name ++ 0x3A :: numbersText piece.2

/-- What reading a piece makes of the set and of the current tag. -/
private def readPiece (uuid : Uuid) (parsed : Parsed) (piece : Option Tag × Nat × Nat) : Parsed :=
  let tag := piece.1.getD parsed.2
  (parsed.1.update uuid tag (·.add piece.2.1 piece.2.2),tag)

private structure PieceOk (piece : Option Tag × Nat × Nat) : Prop where
  tag : ∀ tag ∈ piece.1, tag.isEmpty = false
  least : minGno ≤ piece.2.1
  proper : piece.2.1 < piece.2.2
  most : piece.2.2 ≤ maxGno + 1

/-- What follows a piece: nothing, a colon or a comma. -/
private def StopsPiece (remainder : Bytes) : Prop := ∀ c ∈ remainder.head?, c = 0x3A ∨ c = 0x2C

private theorem not_isDigit_of_isAlpha {c : UInt8} (first : c = 0x5F ∨ isAlpha c = true) : isDigit c = false := by
  simp only [isAlpha, Bool.or_eq_true, Bool.and_eq_true, decide_eq_true_eq, UInt8.le_iff_toNat_le] at first
  simp only [isDigit, Bool.and_eq_false_iff, decide_eq_false_iff_not, UInt8.le_iff_toNat_le]
  rcases first with rfl | first
  · exact .inr (by decide)
  · right
    have low : (0x41 : UInt8).toNat = 0x41 := rfl
    have lower : (0x61 : UInt8).toNat = 0x61 := rfl
    have nine : (0x39 : UInt8).toNat = 0x39 := rfl
    omega

private theorem StopsPiece.not_digit {remainder : Bytes} (stops : StopsPiece remainder) : ∀ c ∈ remainder.head?, isDigit c = false := by
  intro c first
  rcases stops c first with rfl | rfl <;> rfl

private theorem parse_numbers {uuid : Uuid} (parsed : Parsed) (tag : Tag) {interval : Nat × Nat}
    (known : ¬ uuid.isEmpty) (ok : PieceOk (none,interval)) {remainder : Bytes} (stops : StopsPiece remainder) :
    (do
      let (lower,remainder) ← parseGno (numbersText interval ++ remainder)
      match parseCharacter 0x2D remainder with
      | some remainder =>
        let (upper,remainder) ← parseGno remainder
        let s ← (parsed.1.addInterval uuid tag lower upper).toOption
        some ((s,tag),remainder)
      | none =>
        let s ← (parsed.1.addComponents uuid tag lower).toOption
        some ((s,tag),remainder)) =
      some ((parsed.1.update uuid tag (·.add interval.1 interval.2),tag),remainder) := by
  obtain ⟨lower,upper⟩ := interval
  have least := ok.least
  have proper := ok.proper
  have most := ok.most
  simp only [minGno, maxGno] at least proper most
  have valid : Gtid.validateComponents uuid lower = .ok () :=
    Gtid.validateComponents_eq_ok.mpr ⟨known,by unfold minGno; omega,by unfold maxGno; omega⟩
  by_cases single : upper - 1 = lower
  · have plain : parseCharacter 0x2D remainder = none := by
      cases remainder with
      | nil => rfl
      | cons c later =>
        have other : c ≠ 0x2D := by
          rcases stops c rfl with rfl | rfl <;> decide
        simp [parseCharacter,other]
    have first : parseGno (toDecimal lower ++ remainder) = some (lower,remainder) :=
      parseGno_toDecimal (by omega) stops.not_digit
    have next : (lower + 1) % 18446744073709551616 = upper := by omega
    simp [numbersText,single,first,plain,addComponents,valid,next,bind,Except.bind,pure,Except.pure,Except.toOption]
  · have first : parseGno (toDecimal lower ++ (0x2D :: toDecimal (upper - 1) ++ remainder)) =
        some (lower,0x2D :: toDecimal (upper - 1) ++ remainder) :=
      parseGno_toDecimal (by omega) (by intro c here; cases here; rfl)
    have second : parseGno (toDecimal (upper - 1) ++ remainder) = some (upper - 1,remainder) :=
      parseGno_toDecimal (by omega) stops.not_digit
    have next : (upper - 1 + 1) % 18446744073709551616 = upper := by omega
    have above : ¬ upper - 1 < lower := by omega
    simp only [List.cons_append] at first
    simp [numbersText,single,first,second,addInterval,above,valid,next,raiseIf,bind,Except.bind,pure,Except.pure,
      Except.toOption]

/-- A piece is read back. -/
private theorem parse_piece {uuid : Uuid} (parsed : Parsed) {piece : Option Tag × Nat × Nat}
    (known : ¬ uuid.isEmpty) (ok : PieceOk piece) {remainder : Bytes} (stops : StopsPiece remainder) :
    parseOptionallyTaggedInterval uuid parsed (pieceText piece ++ remainder) =
      some (readPiece uuid parsed piece,remainder) := by
  obtain ⟨change,interval⟩ := piece
  have numbers : ∀ tag, _ := fun tag =>
    @parse_numbers uuid parsed tag interval known ⟨by simp,ok.least,ok.proper,ok.most⟩ remainder stops
  cases change with
  | none =>
    have digit : (pieceText (none,interval) ++ remainder).head?.any isDigit = true := by
      cases digits : toDecimal interval.1 with
      | nil => exact absurd digits (toDecimal_ne_nil _)
      | cons first rest =>
        simpa [pieceText,numbersText,digits] using isDigit_of_mem_toDecimal (n := interval.1) (c := first) (by simp [digits])
    rw [parseOptionallyTaggedInterval, if_pos digit]
    exact numbers parsed.2
  | some tag =>
    have nonempty := ok.tag tag rfl
    have letter : (pieceText (some tag,interval) ++ remainder).head?.any isDigit = false := by
      cases shape : tag.name with
      | nil => simp [Tag.isEmpty,shape] at nonempty
      | cons first rest =>
        have start := tag.valid.2.1 first (by simp [shape])
        simpa [pieceText,shape] using not_isDigit_of_isAlpha start
    have named : Tag.parse (pieceText (some tag,interval) ++ remainder) =
        some (tag,0x3A :: (numbersText interval ++ remainder)) := by
      rw [pieceText, List.append_assoc, List.cons_append]
      exact Tag.parse_name tag nonempty (by intro c here; cases here; decide)
    rw [parseOptionallyTaggedInterval, if_neg (by rw [letter]; decide), named]
    exact numbers tag

private theorem parse_pieces {uuid : Uuid} (known : ¬ uuid.isEmpty) (pieces : List (Option Tag × Nat × Nat))
    (ok : ∀ piece ∈ pieces, PieceOk piece) (parsed : Parsed) {remainder : Bytes} (stops : StopsPiece remainder)
    (ends : parseCharacter 0x3A remainder = none) (rounds : Nat) (enough : pieces.length ≤ rounds) :
    parseMoreIntervals rounds uuid parsed (pieces.flatMap (fun piece => 0x3A :: pieceText piece) ++ remainder) =
      some (pieces.foldl (readPiece uuid) parsed,remainder) := by
  induction pieces generalizing parsed rounds with
  | nil => cases rounds <;> simp [parseMoreIntervals,ends]
  | cons piece rest ih =>
    cases rounds with
    | zero => simp at enough
    | succ rounds =>
      have goesOn : StopsPiece (rest.flatMap (fun piece => 0x3A :: pieceText piece) ++ remainder) := by
        cases rest with
        | nil => simpa using stops
        | cons next later =>
          intro c here
          cases here
          exact .inl rfl
      have here := parse_piece parsed known (ok piece (by simp)) goesOn
      have later := ih (fun other member => ok other (by simp [member])) (readPiece uuid parsed piece) rounds
        (by simpa using enough)
      simp only [List.flatMap_cons, List.cons_append, List.append_assoc, parseMoreIntervals, parseCharacter_cons]
      rw [here]
      exact later

/-- The pieces of one tag. -/
private def tagPieces (entry : Tag × IntervalSet) : List (Option Tag × Nat × Nat) :=
  match entry.2.intervals with
  | [] => []
  | first :: rest => (if entry.1.isEmpty then none else some entry.1,first) :: rest.map fun interval => (none,interval)

private theorem tagText_eq (entry : Tag × IntervalSet) (nonempty : entry.2.intervals ≠ []) :
    tagText entry = (tagPieces entry).flatMap fun piece => 0x3A :: pieceText piece := by
  unfold tagText tagPieces
  cases shape : entry.2.intervals with
  | nil => exact absurd shape nonempty
  | cons first rest =>
    have others : (rest.map fun interval => ((none : Option Tag),interval)).flatMap (fun piece => 0x3A :: pieceText piece) =
        rest.flatMap intervalText := by
      rw [List.flatMap_map]
      rfl
    rw [List.flatMap_cons, List.flatMap_cons, others]
    cases entry.1.isEmpty <;> simp [pieceText,intervalText,numbersText]

private theorem foldl_same_tag (uuid : Uuid) (intervals : List (Nat × Nat)) (s : GtidSet) (tag : Tag)
    (f : IntervalSet → IntervalSet) :
    (intervals.map fun interval => ((none : Option Tag),interval)).foldl (readPiece uuid) (s.update uuid tag f,tag) =
      (s.update uuid tag (fun gnos => intervals.foldl (fun acc i => acc.add i.1 i.2) (f gnos)),tag) := by
  induction intervals generalizing f with
  | nil => rfl
  | cons interval rest ih =>
    simp only [List.map_cons, List.foldl_cons]
    have step : readPiece uuid (s.update uuid tag f,tag) (none,interval) =
        (s.update uuid tag ((·.add interval.1 interval.2) ∘ f),tag) := by
      simp [readPiece,update_update]
    rw [step, ih]
    rfl

/-- Reading the pieces of a tag adds its numbers. -/
private theorem foldl_tagPieces (uuid : Uuid) (entry : Tag × IntervalSet) (nonempty : entry.2.intervals ≠ []) (s : GtidSet)
    (tag : Tag) (current : entry.1.isEmpty = true → tag = entry.1) :
    (tagPieces entry).foldl (readPiece uuid) (s,tag) = (s.update uuid entry.1 (·.union entry.2),entry.1) := by
  unfold tagPieces
  cases shape : entry.2.intervals with
  | nil => exact absurd shape nonempty
  | cons first rest =>
    have change : (if entry.1.isEmpty then none else some entry.1).getD tag = entry.1 := by
      cases blank : entry.1.isEmpty with
      | true => simpa using current blank
      | false => simp
    have start : readPiece uuid (s,tag) (if entry.1.isEmpty then none else some entry.1,first) =
        (s.update uuid entry.1 (·.add first.1 first.2),entry.1) := by
      simp only [readPiece, change]
    rw [List.foldl_cons, start, foldl_same_tag]
    simp [IntervalSet.union,shape]

private theorem foldl_tags (uuid : Uuid) (entries : List (Tag × IntervalSet)) (s : GtidSet) (tag : Tag)
    (sorted : entries.Pairwise fun x y => x.1 < y.1) (full : ∀ entry ∈ entries, entry.2.intervals ≠ [])
    (current : ∀ entry ∈ entries, entry.1.isEmpty = true → tag = entry.1) :
    ((entries.flatMap tagPieces).foldl (readPiece uuid) (s,tag)).1 =
      entries.foldl (fun acc y => acc.update uuid y.1 (·.union y.2)) s := by
  induction entries generalizing s tag with
  | nil => rfl
  | cons entry rest ih =>
    obtain ⟨least,later⟩ := List.pairwise_cons.mp sorted
    rw [List.flatMap_cons, List.foldl_append, foldl_tagPieces uuid entry (full entry (by simp)) s tag (current entry (by simp)),
      ih _ _ later (fun other member => full other (by simp [member]))]
    · rfl
    · -- the empty tag is the least one, so it cannot come after another
      intro other member blank
      have order : entry.1.name < other.1.name := least other member
      rw [List.isEmpty_iff.mp blank] at order
      exact absurd order (List.not_lt_nil _)

/-- The numbers of a valid set stand in intervals that can be written. -/
private theorem Valid.pieces_ok {s : GtidSet} (valid : s.Valid) {uuid : Uuid} {tagged : GnosByTag}
    (member : (uuid,tagged) ∈ s.data.entries) : ∀ piece ∈ tagged.entries.flatMap tagPieces, PieceOk piece := by
  intro piece inside
  obtain ⟨entry,known,inside⟩ := List.mem_flatMap.mp inside
  have interval : piece.2 ∈ entry.2.intervals ∧ ∀ tag ∈ piece.1, tag.isEmpty = false := by
    unfold tagPieces at inside
    split at inside
    · cases inside
    · rename_i first rest shape
      rw [shape]
      rcases List.mem_cons.mp inside with rfl | later
      · refine ⟨by simp,fun tag here => ?_⟩
        cases blank : entry.1.isEmpty with
        | true => simp [blank] at here
        | false =>
          simp only [blank, Bool.false_eq_true, if_false, Option.mem_def, Option.some.injEq] at here
          exact here ▸ blank
      · obtain ⟨other,there,rfl⟩ := List.mem_map.mp later
        exact ⟨List.mem_cons_of_mem _ there,by simp⟩
  have proper := entry.2.nonempty piece.2 interval.1
  have range : ∀ n, piece.2.1 ≤ n → n < piece.2.2 → minGno ≤ n ∧ n ≤ maxGno := fun n low high =>
    (valid.range uuid entry.1 n (mem_gnos.mpr ⟨tagged,member,entry.2,known,piece.2,interval.1,low,high⟩)).2
  refine ⟨interval.2,(range piece.2.1 le_rfl proper).1,proper,?_⟩
  have last := (range (piece.2.2 - 1) (by omega) (by omega)).2
  omega

private theorem Valid.intervals_ne_nil {s : GtidSet} (valid : s.Valid) {uuid : Uuid} {tagged : GnosByTag}
    (member : (uuid,tagged) ∈ s.data.entries) : ∀ entry ∈ tagged.entries, entry.2.intervals ≠ [] := by
  intro entry known nothing
  obtain ⟨n,i,inside,-⟩ := valid.numbers uuid tagged entry.1 entry.2 (SortedMap.find?_eq_some.mpr member)
    (SortedMap.find?_eq_some.mpr known)
  rw [nothing] at inside
  cases inside

/-- The text of a uuid is read back, up to the comma or the end after it. -/
private theorem parse_uuidText {s : GtidSet} (valid : s.Valid) {entry : Uuid × GnosByTag} (member : entry ∈ s.data.entries)
    (acc : GtidSet) (remainder : Bytes) (stops : StopsPiece remainder) (ends : parseCharacter 0x3A remainder = none) :
    parseUuidSet acc (uuidText entry ++ remainder) =
      some (entry.2.entries.foldl (fun acc y => acc.update entry.1 y.1 (·.union y.2)) acc,remainder) := by
  obtain ⟨uuid,tagged⟩ := entry
  have full := valid.intervals_ne_nil member
  have ok := valid.pieces_ok member
  have nonempty := valid.tags uuid tagged (SortedMap.find?_eq_some.mpr member)
  have known : ¬ uuid.isEmpty := by
    cases entries : tagged.entries with
    | nil => exact absurd entries nonempty
    | cons first rest =>
      obtain ⟨n,inside⟩ := valid.numbers uuid tagged first.1 first.2 (SortedMap.find?_eq_some.mpr member)
        (SortedMap.find?_eq_some.mpr (by simp [entries]))
      exact (valid.range uuid first.1 n (mem_gnos.mpr ⟨tagged,member,first.2,by simp [entries],inside⟩)).1
  have text : tagged.entries.flatMap tagText =
      (tagged.entries.flatMap tagPieces).flatMap fun piece => 0x3A :: pieceText piece := by
    rw [List.flatMap_assoc]
    exact List.flatMap_congr fun entry here => tagText_eq entry (full entry here)
  have result := foldl_tags uuid tagged.entries acc .none tagged.sorted full (by
    intro entry here blank
    have name := List.isEmpty_iff.mp blank
    cases h : entry.1
    simp_all [Tag.none])
  cases shape : tagged.entries.flatMap tagPieces with
  | nil =>
    -- a uuid has a tag and a tag has an interval, so there is a first piece
    cases entries : tagged.entries with
    | nil => exact absurd entries nonempty
    | cons first rest =>
      have some := full first (by simp [entries])
      rw [entries, List.flatMap_cons, List.append_eq_nil_iff] at shape
      have none := shape.1
      unfold tagPieces at none
      split at none
      · rename_i nothing
        exact absurd nothing some
      · cases none
  | cons first rest =>
    rw [shape] at ok result text
    have goesOn : StopsPiece (rest.flatMap (fun piece => 0x3A :: pieceText piece) ++ remainder) := by
      cases rest with
      | nil => simpa using stops
      | cons next later =>
        intro c here
        cases here
        exact .inl rfl
    have head := parse_piece (acc,Tag.none) known (ok first (by simp)) goesOn
    have tail := parse_pieces known rest (fun other there => ok other (by simp [there])) (readPiece uuid (acc,.none) first)
      stops ends (rest.flatMap (fun piece => 0x3A :: pieceText piece) ++ remainder).length
      (by
        have := length_le_flatMap rest (fun piece => 0x3A :: pieceText piece) (by simp)
        simp only [List.length_append]
        omega)
    rw [← result, parseUuidSet, uuidText, List.append_assoc, Uuid.parse_str, text]
    simp only [List.flatMap_cons, List.cons_append, List.append_assoc, Option.bind_eq_bind, Option.bind_some,
      parseCharacter_cons, head, tail, List.foldl_cons]

private theorem isSpace_hexDigit : ∀ n < 16, isSpace (Uuid.hexDigit n) = false := by
  intro n small
  interval_cases n <;> rfl

/-- A uuid does not start with a space. -/
private theorem uuidText_start (entry : Uuid × GnosByTag) : ∃ c rest, uuidText entry = c :: rest ∧ isSpace c = false := by
  cases shape : entry.1.raw with
  | nil =>
    have sized := entry.1.sized
    simp [shape] at sized
  | cons b rest =>
    refine ⟨Uuid.hexDigit (b.toNat / 16),(uuidText entry).tail,?_,isSpace_hexDigit _ (by have := b.toNat_lt; omega)⟩
    simp [uuidText,Uuid.str,shape,Uuid.groupSizes,Uuid.printGroups,Uuid.hexPair]

/-- A valid set is read back from its text. -/
theorem Valid.ofText_str {s : GtidSet} (valid : s.Valid) : ofText s.str = .ok s := by
  have rest : ∀ (entries : List (Uuid × GnosByTag)) (acc : GtidSet) (rounds : Nat), (∀ x ∈ entries, x ∈ s.data.entries) →
      entries.length ≤ rounds →
      parseMoreUuidSets rounds acc (entries.flatMap fun entry => 0x2C :: 0x20 :: uuidText entry) =
        some (entries.foldl (fun acc x => x.2.entries.foldl (fun acc y => acc.update x.1 y.1 (·.union y.2)) acc) acc) := by
    intro entries
    induction entries with
    | nil => intro acc rounds _ _; cases rounds <;> rfl
    | cons entry later ih =>
      intro acc rounds known enough
      cases rounds with
      | zero => simp at enough
      | succ rounds =>
        have here := parse_uuidText valid (known entry (by simp)) acc
          (later.flatMap fun entry => 0x2C :: 0x20 :: uuidText entry)
          (by cases later <;> intro c first <;> cases first; exact .inr rfl) (by cases later <;> rfl)
        have blank : (0x20 :: uuidText entry ++ later.flatMap fun entry => 0x2C :: 0x20 :: uuidText entry).dropWhile
            isSpace = uuidText entry ++ later.flatMap fun entry => 0x2C :: 0x20 :: uuidText entry := by
          obtain ⟨c,others,start,plain⟩ := uuidText_start entry
          have space : isSpace 0x20 = true := rfl
          rw [start]
          simp [plain,space]
        simp only [List.cons_append] at blank
        simp only [List.flatMap_cons, List.cons_append, parseMoreUuidSets, parseCharacter_cons, blank, here,
          Option.bind_eq_bind, Option.bind_some, List.foldl_cons]
        exact ih _ rounds (fun x member => known x (by simp [member])) (by simpa using enough)
  unfold ofText str
  cases shape : s.data.entries with
  | nil =>
    have nothing : s = empty := by
      cases s with
      | mk data =>
        refine congrArg GtidSet.mk (SortedMap.ext fun uuid => ?_)
        simp only at shape
        rw [SortedMap.find?, shape]
        rfl
    simp [nothing]
  | cons first others =>
    obtain ⟨c,text,start,-⟩ := uuidText_start first
    have some : ¬ (uuidText first ++ others.flatMap fun entry => 0x2C :: 0x20 :: uuidText entry) = [] := by
      rw [start]
      simp
    have here := @parse_uuidText s valid first (by simp [shape]) empty
      (others.flatMap fun entry => 0x2C :: 0x20 :: uuidText entry)
      (by cases others <;> intro c front <;> cases front; exact .inr rfl) (by cases others <;> rfl)
    have later := rest others (first.2.entries.foldl (fun acc y => acc.update first.1 y.1 (·.union y.2)) empty)
      (others.flatMap fun entry => 0x2C :: 0x20 :: uuidText entry).length (by simp +contextual [shape])
      (length_le_flatMap others _ (by simp))
    have whole := valid.empty_add
    simp only [GtidSet.add, shape, List.foldl_cons] at whole
    rw [if_neg some]
    simp only [parseUuidSets, here, Option.bind_eq_bind, Option.bind_some, later, whole]

end GtidSet
end BinlogServer.Gtids
