import BinlogServer.Gtids.Encoding
import BinlogServer.Gtids.Grammar

/-!
# The representation invariant of gtid sets

Which calls of `gtids::gtid_set` keep a set valid. All that is ever added to a set are intervals under a uuid and a
tag (`Tsid`); what they make of it is told once, for the constructors and for `add_interval`.
-/

namespace BinlogServer.Gtids
open ByteString Util Grammar

namespace GtidSet

/-- The maps have an entry for a uuid and a tag, with or without numbers. -/
def Present (s : GtidSet) (uuid : Uuid) (tag : Tag) : Prop :=
  ∃ tagged gnos, s.data.find? uuid = some tagged ∧ tagged.find? tag = some gnos

/-- No map of tags is empty. -/
def Solid (s : GtidSet) : Prop := ∀ uuid tagged, s.data.find? uuid = some tagged → tagged.entries ≠ []

theorem present_update {s : GtidSet} {uuid other : Uuid} {tag label : Tag} {f : IntervalSet → IntervalSet} :
    (s.update uuid tag f).Present other label ↔ (other = uuid ∧ label = tag) ∨ s.Present other label := by
  unfold Present update
  simp only [SortedMap.find?_alter]
  by_cases sameUuid : other = uuid
  · subst sameUuid
    by_cases sameTag : label = tag
    · simp [sameTag]
    · cases s.data.find? other <;> simp [sameTag,SortedMap.find?_alter]
  · simp [sameUuid]

theorem Solid.update {s : GtidSet} (solid : s.Solid) (uuid : Uuid) (tag : Tag) (f : IntervalSet → IntervalSet) :
    (s.update uuid tag f).Solid := by
  intro other tagged found
  simp only [GtidSet.update, SortedMap.find?_alter] at found
  split at found
  · cases found
    intro none
    have here := SortedMap.find?_alter ((s.data.find? uuid).getD .empty) tag tag fun gnos => f (gnos.getD .empty)
    rw [if_pos rfl, SortedMap.find?, none] at here
    cases here
  · exact solid other tagged found

theorem valid_iff {s : GtidSet} : s.Valid ↔ s.Solid ∧
    (∀ uuid tag n, n ∈ s.gnos uuid tag → ¬ uuid.isEmpty ∧ minGno ≤ n ∧ n ≤ maxGno) ∧
    ∀ uuid tag, s.Present uuid tag → ∃ n, n ∈ s.gnos uuid tag := by
  have here : ∀ {uuid tagged tag gnos}, s.data.find? uuid = some tagged → tagged.find? tag = some gnos →
      s.gnos uuid tag = gnos := fun outer inner => by simp [gnos,outer,inner]
  constructor
  · rintro ⟨range,tags,numbers⟩
    refine ⟨tags,range,?_⟩
    rintro uuid tag ⟨tagged,gnos,outer,inner⟩
    rw [here outer inner]
    exact numbers uuid tagged tag gnos outer inner
  · rintro ⟨solid,range,present⟩
    refine ⟨range,solid,fun uuid tagged tag gnos outer inner => ?_⟩
    rw [← here outer inner]
    exact present uuid tag ⟨tagged,gnos,outer,inner⟩

end GtidSet

namespace Tsid
open GtidSet

theorem mem_gnos_addTo {s : GtidSet} {tsid : Tsid} {uuid : Uuid} {tag : Tag} {n : Nat} :
    n ∈ (addTo s tsid).gnos uuid tag ↔
      n ∈ s.gnos uuid tag ∨ (tsid.uuid = uuid ∧ tsid.tag = tag ∧ ∃ i ∈ tsid.intervals, i.1 ≤ n ∧ n < i.2) := by
  rw [addTo_eq, gnos_update]
  by_cases same : uuid = tsid.uuid ∧ tag = tsid.tag
  · obtain ⟨rfl,rfl⟩ := same
    simp [IntervalSet.mem_foldl_add]
  · rw [if_neg same]
    refine ⟨.inl,?_⟩
    rintro (old | ⟨rfl,rfl,-⟩)
    · exact old
    · exact absurd ⟨rfl,rfl⟩ same

theorem mem_gnos_foldl_addTo {tsids : List Tsid} {s : GtidSet} {uuid : Uuid} {tag : Tag} {n : Nat} :
    n ∈ (tsids.foldl addTo s).gnos uuid tag ↔ n ∈ s.gnos uuid tag ∨
      ∃ x ∈ tsids, x.uuid = uuid ∧ x.tag = tag ∧ ∃ i ∈ x.intervals, i.1 ≤ n ∧ n < i.2 := by
  induction tsids generalizing s with
  | nil => simp
  | cons x rest ih => rw [List.foldl_cons, ih, mem_gnos_addTo, List.exists_mem_cons_iff, or_assoc]

theorem present_foldl_addTo {tsids : List Tsid} {s : GtidSet} {uuid : Uuid} {tag : Tag} :
    (tsids.foldl addTo s).Present uuid tag ↔ s.Present uuid tag ∨ ∃ x ∈ tsids, x.uuid = uuid ∧ x.tag = tag := by
  induction tsids generalizing s with
  | nil => simp
  | cons x rest ih =>
    rw [List.foldl_cons, ih, addTo_eq, present_update, List.exists_mem_cons_iff, ← or_assoc,
      or_comm (b := s.Present uuid tag), @eq_comm _ uuid, @eq_comm _ tag]

theorem solid_foldl_addTo (tsids : List Tsid) {s : GtidSet} (solid : s.Solid) : (tsids.foldl addTo s).Solid := by
  induction tsids generalizing s with
  | nil => exact solid
  | cons x rest ih =>
    rw [List.foldl_cons, addTo_eq]
    exact ih (solid.update _ _ _)

/-- What must be said of pairs that are added to a set: the intervals that are none apart, they lie within the range
    of numbers under a uuid that is one, and of every pair there is some number, there already or added. -/
def SoundOver (s : GtidSet) (tsids : List Tsid) : Prop :=
  ∀ x ∈ tsids, (∀ i ∈ x.intervals, i.1 < i.2 → ¬ x.uuid.isEmpty ∧ minGno ≤ i.1 ∧ i.2 ≤ maxGno + 1) ∧
    ((∃ n, n ∈ s.gnos x.uuid x.tag) ∨ ∃ y ∈ tsids, y.uuid = x.uuid ∧ y.tag = x.tag ∧ ∃ i ∈ y.intervals, i.1 < i.2)

theorem valid_foldl_addTo {s : GtidSet} (valid : s.Valid) (tsids : List Tsid) :
    (tsids.foldl addTo s).Valid ↔ SoundOver s tsids := by
  obtain ⟨solid,range,present⟩ := valid_iff.mp valid
  rw [valid_iff]
  constructor
  · rintro ⟨-,ranges,numbers⟩ x member
    have added : ∀ i ∈ x.intervals, ∀ n, i.1 ≤ n → n < i.2 → n ∈ (tsids.foldl addTo s).gnos x.uuid x.tag :=
      fun i inside n low high => mem_gnos_foldl_addTo.mpr (.inr ⟨x,member,rfl,rfl,i,inside,low,high⟩)
    refine ⟨fun i inside proper => ?_,?_⟩
    · have first := ranges _ _ _ (added i inside i.1 (le_refl _) proper)
      have last := ranges _ _ _ (added i inside (i.2 - 1) (by omega) (by omega))
      exact ⟨first.1,first.2.1,by omega⟩
    · obtain ⟨n,there⟩ := numbers x.uuid x.tag (present_foldl_addTo.mpr (.inr ⟨x,member,rfl,rfl⟩))
      rcases mem_gnos_foldl_addTo.mp there with old | ⟨y,others,sameUuid,sameTag,i,inside,low,high⟩
      · exact .inl ⟨n,old⟩
      · exact .inr ⟨y,others,sameUuid,sameTag,i,inside,by omega⟩
  · intro sound
    refine ⟨solid_foldl_addTo tsids solid,?_,?_⟩
    · intro uuid tag n there
      rcases mem_gnos_foldl_addTo.mp there with old | ⟨x,member,rfl,rfl,i,inside,low,high⟩
      · exact range uuid tag n old
      · obtain ⟨known,least,most⟩ := (sound x member).1 i inside (by omega)
        exact ⟨known,by omega,by omega⟩
    · intro uuid tag there
      rcases present_foldl_addTo.mp there with old | ⟨x,member,rfl,rfl⟩
      · obtain ⟨n,inside⟩ := present uuid tag old
        exact ⟨n,mem_gnos_foldl_addTo.mpr (.inl inside)⟩
      · rcases (sound x member).2 with ⟨n,old⟩ | ⟨y,others,sameUuid,sameTag,i,inside,proper⟩
        · exact ⟨n,mem_gnos_foldl_addTo.mpr (.inl old)⟩
        · exact ⟨i.1,mem_gnos_foldl_addTo.mpr (.inr ⟨y,others,sameUuid,sameTag,i,inside,le_refl _,proper⟩)⟩

end Tsid
/-- What a text adds for an interval. -/
def Grammar.Item.tsid (item : Item) : Tsid :=
  ⟨item.uuid,item.tag,[(item.lower % 2 ^ 64,(item.last % 2 ^ 64 + 1) % 2 ^ 64)]⟩

theorem Grammar.addItems_eq {items : List Item} {s t : GtidSet} (added : addItems s items = some t) :
    t = (items.map Item.tsid).foldl Tsid.addTo s := by
  induction items generalizing s with
  | nil =>
    cases added
    rfl
  | cons item items ih =>
    rw [addItems_cons] at added
    obtain ⟨r,first,rest⟩ := Option.bind_eq_some_iff.mp added
    obtain ⟨-,rfl⟩ := Item.addTo_eq_some.mp first
    rw [ih rest, List.map_cons, List.foldl_cons, GtidSet.addTo_eq]
    rfl

namespace GtidSet

/-- The calls that make a set or change one. -/
inductive Call where
  | ofText (value : Bytes)
  | ofBytes (portion : Bytes)
  | addComponents (uuid : Uuid) (tag : Tag) (gno : UInt64)
  | addGtid (value : Gtid)
  | addInterval (uuid : Uuid) (tag : Tag) (lower upper : UInt64)
  | add (values : GtidSet)
  | subtractComponents (uuid : Uuid) (tag : Tag) (gno : UInt64)
  | subtractGtid (value : Gtid)
  | subtractInterval (uuid : Uuid) (tag : Tag) (lower upper : UInt64)
  | subtract (values : GtidSet)

def Call.run (s : GtidSet) : Call → Fallible GtidSet
  | .ofText value => GtidSet.ofText value
  | .ofBytes portion => GtidSet.ofBytes portion
  | .addComponents uuid tag gno => s.addComponents uuid tag gno.toNat
  | .addGtid value => s.addGtid value
  | .addInterval uuid tag lower upper => s.addInterval uuid tag lower.toNat upper.toNat
  | .add values => .ok (s.add values)
  | .subtractComponents uuid tag gno => s.subtractComponents uuid tag gno.toNat
  | .subtractGtid value => s.subtractGtid value
  | .subtractInterval uuid tag lower upper => s.subtractInterval uuid tag lower.toNat upper.toNat
  | .subtract values => .ok (s.subtract values)

/-- The set a call takes besides the one it is made on. -/
def Call.operand : Call → Option GtidSet
  | .add values | .subtract values => some values
  | _ => none

/-- What calls make of sets, in any order, when each call is allowed on the set it is made on. -/
inductive Obtained (allowed : GtidSet → Call → Prop) : GtidSet → Prop where
  | empty : Obtained allowed .empty
  | call {s t : GtidSet} {c : Call} (target : Obtained allowed s)
      (operand : ∀ values ∈ c.operand, Obtained allowed values) (may : allowed s c) (ran : c.run s = .ok t) :
      Obtained allowed t

/-- What is left to the caller: an upper bound within the range, in a text and in bytes as well, and of bytes the
    uuids and the lower bounds, too. An upper bound that wraps adds nothing and does no harm where there are numbers. -/
def Careful (s : GtidSet) : Call → Prop
  | .ofText value => ∀ text rest items, value = text ++ rest → UuidSets text items → Stops items rest →
      Tsid.SoundOver .empty (items.map Item.tsid)
  | .ofBytes portion => ∀ tsids, Tsid.Encoded portion tsids → Tsid.SoundOver .empty tsids
  | .addInterval uuid tag _ upper => upper.toNat ≤ maxGno ∨ upper.toNat = 2 ^ 64 - 1 ∧ ∃ n, n ∈ s.gnos uuid tag
  | _ => True

theorem ofText_valid_iff {value : Bytes} {s : GtidSet} (made : ofText value = .ok s) (t : GtidSet) :
    s.Valid ↔ Careful t (.ofText value) := by
  by_cases nonempty : value = []
  · subst nonempty
    cases made
    refine iff_of_true valid_empty fun text rest items split sets => ?_
    exact absurd (List.append_eq_nil_iff.mp split.symm).1 sets.text_ne_nil
  · obtain ⟨⟨items,rest⟩,parsed,added⟩ := (ofText_eq_ok nonempty).mp made
    rw [addItems_eq added, Tsid.valid_foldl_addTo valid_empty]
    constructor
    · intro sound text rest' items' split sets stops
      have same : read value = some (items',rest') := read_eq_some.mpr ⟨text,split,sets,stops⟩
      rw [parsed] at same
      cases same
      exact sound
    · intro careful
      obtain ⟨text,split,sets,stops⟩ := read_eq_some.mp parsed
      exact careful text rest items split sets stops

theorem ofBytes_valid_iff {portion : Bytes} {s : GtidSet} (made : ofBytes portion = .ok s) (t : GtidSet) :
    s.Valid ↔ Careful t (.ofBytes portion) := by
  constructor
  · intro valid tsids encoded
    have same : ofBytes portion = .ok (tsids.foldl Tsid.addTo .empty) := ofBytes_eq_ok.mpr ⟨tsids,encoded,rfl⟩
    rw [made] at same
    cases same
    exact (Tsid.valid_foldl_addTo valid_empty tsids).mp valid
  · intro careful
    obtain ⟨tsids,encoded,rfl⟩ := ofBytes_eq_ok.mp made
    exact (Tsid.valid_foldl_addTo valid_empty tsids).mpr (careful tsids encoded)

theorem addInterval_valid_iff {s t : GtidSet} (valid : s.Valid) {uuid : Uuid} {tag : Tag} {lower upper : UInt64}
    (added : s.addInterval uuid tag lower.toNat upper.toNat = .ok t) :
    t.Valid ↔ Careful s (.addInterval uuid tag lower upper) := by
  obtain ⟨⟨known,least,most,ordered⟩,rfl⟩ := addInterval_eq_ok.mp added
  have fits := upper.toNat_lt
  have one := Tsid.valid_foldl_addTo valid [⟨uuid,tag,[(lower.toNat,(upper.toNat + 1) % 2 ^ 64)]⟩]
  simp only [List.foldl_cons, List.foldl_nil, addTo_eq] at one
  rw [one]
  simp only [Tsid.SoundOver, List.mem_singleton, forall_eq, exists_eq_left, true_and, Careful]
  by_cases wraps : upper.toNat = 2 ^ 64 - 1
  · have nothing : ¬ lower.toNat < (upper.toNat + 1) % 2 ^ 64 := by simp [wraps]
    have beyond : ¬ upper.toNat ≤ maxGno := by unfold maxGno; omega
    rw [iff_false_intro nothing, iff_false_intro beyond, iff_true_intro wraps]
    simp only [false_implies, true_and, false_or, or_false]
  · rw [Nat.mod_eq_of_lt (by omega)]
    have proper : lower.toNat < upper.toNat + 1 := by omega
    simp only [proper, known, least, wraps, not_false_eq_true, true_and, forall_const, or_true, and_true, false_and,
      or_false, Nat.add_le_add_iff_right]

theorem Valid.subtractInterval {s t : GtidSet} (valid : s.Valid) {uuid : Uuid} {tag : Tag} {lower upper : Nat}
    (subtracted : s.subtractInterval uuid tag lower upper = .ok t) : t.Valid := by
  have reduced : ∀ first last, (s.reduce uuid tag (·.erase first last)).Valid := fun first last =>
    valid.reduce uuid tag fun gnos n member => (IntervalSet.mem_erase.mp member).1
  unfold GtidSet.subtractInterval at subtracted
  split at subtracted
  · simp only [subtractComponents, bind_eq_ok, pure_eq_ok] at subtracted
    obtain ⟨-,-,rfl⟩ := subtracted
    exact reduced _ _
  · simp only [bind_eq_ok, pure_eq_ok] at subtracted
    obtain ⟨-,-,-,-,rfl⟩ := subtracted
    exact reduced _ _

/-- Every call leaves a valid set exactly if it is a careful one. -/
theorem Call.valid_iff {s t : GtidSet} (valid : s.Valid) {c : Call} (operand : ∀ values ∈ c.operand, values.Valid)
    (ran : c.run s = .ok t) : t.Valid ↔ Careful s c := by
  cases c with
  | ofText value => exact ofText_valid_iff ran s
  | ofBytes portion => exact ofBytes_valid_iff ran s
  | addInterval uuid tag lower upper => exact addInterval_valid_iff valid ran
  | addComponents uuid tag gno =>
    have single : s.addInterval uuid tag gno.toNat gno.toNat = .ok t := by rw [GtidSet.addInterval, if_pos rfl]; exact ran
    obtain ⟨⟨-,-,most,-⟩,-⟩ := addInterval_eq_ok.mp single
    exact iff_of_true ((addInterval_valid_iff valid single).mpr (.inl most)) trivial
  | addGtid value => exact iff_of_true (valid.addGtid ran) trivial
  | add values =>
    cases ran
    exact iff_of_true (valid.add (operand values rfl)) trivial
  | subtractComponents uuid tag gno =>
    have single : s.subtractInterval uuid tag gno.toNat gno.toNat = .ok t := by
      rw [GtidSet.subtractInterval, if_pos rfl]
      exact ran
    exact iff_of_true (valid.subtractInterval single) trivial
  | subtractGtid value =>
    simp only [Call.run, GtidSet.subtractGtid, bind_eq_ok, pure_eq_ok] at ran
    obtain ⟨-,-,rfl⟩ := ran
    refine iff_of_true (valid.reduce _ _ fun gnos n member => ?_) trivial
    exact (IntervalSet.mem_erase.mp member).1
  | subtractInterval uuid tag lower upper => exact iff_of_true (valid.subtractInterval ran) trivial
  | subtract values =>
    cases ran
    exact iff_of_true (valid.subtract values) trivial

theorem Obtained.valid {s : GtidSet} (obtained : Obtained Careful s) : s.Valid := by
  induction obtained with
  | empty => exact valid_empty
  | call _ _ may ran valid operand => exact (Call.valid_iff valid operand ran).mpr may

/-- Whatever careful calls make is valid, and the first call that is not careful makes a set that is not. -/
theorem obtained_valid_iff {s : GtidSet} (obtained : Obtained Careful s) :
    s.Valid ∧ ∀ c t, (∀ values ∈ c.operand, Obtained Careful values) → c.run s = .ok t → (t.Valid ↔ Careful s c) :=
  ⟨obtained.valid,fun _ _ operand ran =>
    Call.valid_iff obtained.valid (fun values member => (operand values member).valid) ran⟩

theorem obtained_valid_iff_sample : Sample.first.Valid ∧
    ¬ ∃ t, (Call.addInterval Sample.uuid .none 1 9223372036854775808).run Sample.first = .ok t ∧ t.Valid := by
  have made : Obtained Careful Sample.first :=
    .call (c := .addInterval Sample.uuid .none 1 3) .empty (by simp [Call.operand]) (.inl (by decide)) rfl
  obtain ⟨valid,otherwise⟩ := obtained_valid_iff made
  refine ⟨valid,?_⟩
  rintro ⟨t,ran,sound⟩
  rcases (otherwise _ _ (by simp [Call.operand]) ran).mp sound with small | ⟨wraps,-⟩
  · exact absurd small (by decide)
  · exact absurd wraps (by decide)

/-- Calls on the empty set that leave a number beyond the range, an entry without numbers and a nil uuid. -/
theorem obtained_not_valid :
    (∃ s, (Call.addInterval Sample.uuid .none 1 9223372036854775808).run .empty = .ok s ∧ ¬ s.Valid) ∧
    (∃ s, (Call.addInterval Sample.uuid .none 1 18446744073709551615).run .empty = .ok s ∧ ¬ s.Valid) ∧
    ∃ s, (Call.ofBytes (leBytes 8 1 ++ Uuid.nil.raw ++ leBytes 8 1 ++ encodeInterval (1,2))).run .empty = .ok s ∧
      ¬ s.Valid := by
  refine ⟨⟨empty.update Sample.uuid .none (·.add 1 (2 ^ 63 + 1)),rfl,fun valid => ?_⟩,
    ⟨empty.update Sample.uuid .none (·.add 1 0),rfl,fun valid => ?_⟩,
    ⟨empty.update .nil .none (·.add 1 2),by decide +kernel,fun valid => ?_⟩⟩
  · exact absurd (valid.range Sample.uuid .none (2 ^ 63) (by decide)).2.2 (by decide)
  · obtain ⟨n,member⟩ := (valid_iff.mp valid).2.2 Sample.uuid .none (present_update.mpr (.inl ⟨rfl,rfl⟩))
    rw [gnos_update, if_pos ⟨rfl,rfl⟩, IntervalSet.mem_add] at member
    rcases member with new | old
    · omega
    · exact absurd old (IntervalSet.not_mem_empty n)
  · exact absurd rfl (valid.range .nil .none 1 (by decide)).1

end GtidSet
end BinlogServer.Gtids
