import BinlogServer.Gtids.GtidSet
import Mathlib.Data.Set.Basic

/-!
# The algebra of gtid sets

The subtracting half of `gtids::gtid_set` and its comparisons. A set stands for triples of a uuid, a tag and a
number, and where it is valid the operations are those on sets of triples.
-/

namespace BinlogServer.Gtids
open ByteString Util

namespace GtidSet

/-- `find_gnos`, a change of the numbers that are there, and `cleanup_if_empty`. -/
def reduce (s : GtidSet) (uuid : Uuid) (tag : Tag) (f : IntervalSet → IntervalSet) : GtidSet :=
  match s.data.find? uuid with
  | none => s
  | some tagged =>
    match tagged.find? tag with
    | none => s
    | some gnos =>
      if (f gnos).intervals ≠ [] then ⟨s.data.insert uuid (tagged.insert tag (f gnos))⟩
      else if (tagged.erase tag).entries ≠ [] then ⟨s.data.insert uuid (tagged.erase tag)⟩
      else ⟨s.data.erase uuid⟩

/-- `gtid_set::subtract(uuid, tag, gno)` -/
def subtractComponents (s : GtidSet) (uuid : Uuid) (tag : Tag) (gno : Nat) : Fallible GtidSet := do
  Gtid.validateComponents uuid gno
  pure (s.reduce uuid tag (·.erase gno ((gno + 1) % 2 ^ 64)))

/-- `gtid_set::subtract(const gtid &)` -/
def subtractGtid (s : GtidSet) (value : Gtid) : Fallible GtidSet := do
  raiseIf value.isEmpty .invalidArgument "cannot subtract an empty gtid"
  pure (s.reduce value.uuid value.tag (·.erase value.gno ((value.gno + 1) % 2 ^ 64)))

/-- `gtid_set::subtract(const gtid_set &)` -/
def subtract (s : GtidSet) (values : GtidSet) : GtidSet :=
  values.data.entries.foldl (fun acc x =>
    x.2.entries.foldl (fun acc y => acc.reduce x.1 y.1 (·.difference y.2)) acc) s

/-- `gtid_set::subtract_interval` -/
def subtractInterval (s : GtidSet) (uuid : Uuid) (tag : Tag) (lower upper : Nat) : Fallible GtidSet :=
  if upper = lower then s.subtractComponents uuid tag lower
  else do
    raiseIf (upper < lower) .invalidArgument "cannot subtract an interval with invalid bounds"
    Gtid.validateComponents uuid lower
    pure (s.reduce uuid tag (·.erase lower ((upper + 1) % 2 ^ 64)))

/-- `intersects` -/
def intersects (first second : GtidSet) : Bool :=
  second.data.entries.any fun x =>
    match first.data.find? x.1 with
    | none => false
    | some tagged => x.2.entries.any fun y =>
      match tagged.find? y.1 with
      | none => false
      | some gnos => gnos.intersects y.2

/-- The entries of the inner maps, one after the other. -/
def pairs (s : GtidSet) : List (Uuid × Tag × IntervalSet) :=
  s.data.entries.flatMap fun x => x.2.entries.map fun y => (x.1,y)

theorem mem_pairs {s : GtidSet} {uuid : Uuid} {tag : Tag} {gnos : IntervalSet} :
    (uuid,tag,gnos) ∈ s.pairs ↔ ∃ tagged, (uuid,tagged) ∈ s.data.entries ∧ (tag,gnos) ∈ tagged.entries := by
  simp [pairs]

theorem mem_gnos_pairs {s : GtidSet} {uuid : Uuid} {tag : Tag} {n : Nat} :
    n ∈ s.gnos uuid tag ↔ ∃ gnos, (uuid,tag,gnos) ∈ s.pairs ∧ n ∈ gnos := by
  rw [mem_gnos]
  simp only [mem_pairs]
  constructor
  · rintro ⟨tagged,outer,gnos,inner,inside⟩
    exact ⟨gnos,⟨tagged,outer,inner⟩,inside⟩
  · rintro ⟨gnos,⟨tagged,outer,inner⟩,inside⟩
    exact ⟨tagged,outer,gnos,inner,inside⟩

theorem subtract_eq (s t : GtidSet) :
    s.subtract t = t.pairs.foldl (fun acc x => acc.reduce x.1 x.2.1 (·.difference x.2.2)) s := by
  simp only [subtract, pairs, List.foldl_flatMap, List.foldl_map]

/-- There is nothing to change, or the numbers that are left are stored, or what has become empty is removed. -/
private theorem reduce_cases (s : GtidSet) (uuid : Uuid) (tag : Tag) (f : IntervalSet → IntervalSet) :
    s.gnos uuid tag = .empty ∧ s.reduce uuid tag f = s ∨
    ∃ tagged gnos, s.data.find? uuid = some tagged ∧ tagged.find? tag = some gnos ∧
      ((f gnos).intervals ≠ [] ∧ s.reduce uuid tag f = ⟨s.data.insert uuid (tagged.insert tag (f gnos))⟩ ∨
        (f gnos).intervals = [] ∧
          ((tagged.erase tag).entries ≠ [] ∧ s.reduce uuid tag f = ⟨s.data.insert uuid (tagged.erase tag)⟩ ∨
            (tagged.erase tag).entries = [] ∧ s.reduce uuid tag f = ⟨s.data.erase uuid⟩)) := by
  cases found : s.data.find? uuid with
  | none => exact .inl ⟨by simp [gnos,found],by simp [reduce,found]⟩
  | some tagged =>
    cases inner : tagged.find? tag with
    | none => exact .inl ⟨by simp [gnos,found,inner],by simp [reduce,found,inner]⟩
    | some numbers =>
      refine .inr ⟨tagged,numbers,rfl,inner,?_⟩
      by_cases gone : (f numbers).intervals = []
      · by_cases last : (tagged.erase tag).entries = []
        · exact .inr ⟨gone,.inr ⟨last,by simp [reduce,found,inner,gone,last]⟩⟩
        · exact .inr ⟨gone,.inl ⟨last,by simp [reduce,found,inner,gone,last]⟩⟩
      · exact .inl ⟨gone,by simp [reduce,found,inner,gone]⟩

/-- Nothing but the numbers under one uuid and tag is changed, and these are what the change leaves. -/
theorem gnos_reduce (s : GtidSet) (uuid other : Uuid) (tag label : Tag) {f : IntervalSet → IntervalSet}
    (shrinks : ∀ gnos n, n ∈ f gnos → n ∈ gnos) (n : Nat) :
    n ∈ (s.reduce uuid tag f).gnos other label ↔
      if other = uuid ∧ label = tag then n ∈ f (s.gnos uuid tag) else n ∈ s.gnos other label := by
  rcases reduce_cases s uuid tag f with ⟨blank,same⟩ | ⟨tagged,numbers,found,inner,result⟩
  · have nothing : n ∉ f .empty := fun member => IntervalSet.not_mem_empty n (shrinks _ n member)
    rw [same]
    split
    · rename_i here
      simp [here.1,here.2,blank,nothing]
    · rfl
  · have here : s.gnos uuid tag = numbers := by simp [gnos,found,inner]
    rw [here]
    by_cases sameUuid : other = uuid
    · subst sameUuid
      rcases result with ⟨-,result⟩ | ⟨gone,⟨-,result⟩ | ⟨last,result⟩⟩
      · by_cases sameTag : label = tag <;> simp [result,gnos,SortedMap.find?_insert,sameTag,found]
      · have none := IntervalSet.intervals_eq_nil.mp gone n
        by_cases sameTag : label = tag <;>
          simp [result,gnos,SortedMap.find?_insert,SortedMap.find?_erase,sameTag,found,none]
      · have none := IntervalSet.intervals_eq_nil.mp gone n
        by_cases sameTag : label = tag
        · simp [result,gnos,SortedMap.find?_erase,sameTag,none]
        · have alone : tagged.find? label = Option.none := by
            have erased := SortedMap.find?_erase tagged tag label
            rw [if_neg sameTag, SortedMap.find?, last] at erased
            exact erased.symm
          simp [result,gnos,SortedMap.find?_erase,sameTag,found,alone]
    · rcases result with ⟨-,result⟩ | ⟨-,⟨-,result⟩ | ⟨-,result⟩⟩ <;>
        simp [result,gnos,SortedMap.find?_insert,SortedMap.find?_erase,sameUuid]

theorem Valid.reduce {s : GtidSet} (valid : s.Valid) (uuid : Uuid) (tag : Tag) {f : IntervalSet → IntervalSet}
    (shrinks : ∀ gnos n, n ∈ f gnos → n ∈ gnos) : (s.reduce uuid tag f).Valid := by
  have range : ∀ other label n, n ∈ (s.reduce uuid tag f).gnos other label → n ∈ s.gnos other label := by
    intro other label n member
    rw [gnos_reduce s uuid other tag label shrinks] at member
    split at member
    · rename_i same
      rw [same.1, same.2]
      exact shrinks _ n member
    · exact member
  -- what is stored under the uuid is a map of its own, all others are as they were
  have stored : ∀ {kept : GnosByTag}, kept.entries ≠ [] →
      (∀ label gnos, kept.find? label = some gnos → ∃ n, n ∈ gnos) →
      s.reduce uuid tag f = ⟨s.data.insert uuid kept⟩ → (s.reduce uuid tag f).Valid := by
    intro kept full numbers result
    refine ⟨fun other label n member => valid.range other label n (range other label n member),?_,?_⟩
    · intro other found there
      rw [result, SortedMap.find?_insert] at there
      split at there
      · cases there
        exact full
      · exact valid.tags other found there
    · intro other found label gnos there
      rw [result, SortedMap.find?_insert] at there
      split at there
      · cases there
        exact numbers label gnos
      · exact valid.numbers other found label gnos there
  rcases reduce_cases s uuid tag f with ⟨-,same⟩ | ⟨tagged,numbers,found,inner,result⟩
  · rw [same]
    exact valid
  · have others : ∀ label gnos, tagged.find? label = some gnos → ∃ n, n ∈ gnos := fun label gnos =>
      valid.numbers uuid tagged label gnos found
    rcases result with ⟨rest,result⟩ | ⟨-,⟨rest,result⟩ | ⟨-,result⟩⟩
    · refine stored (fun none => ?_) (fun label gnos there => ?_) result
      · have there := SortedMap.find?_insert tagged tag tag (f numbers)
        rw [if_pos rfl, SortedMap.find?, none] at there
        cases there
      · rw [SortedMap.find?_insert] at there
        split at there
        · cases there
          by_contra none
          exact rest (IntervalSet.intervals_eq_nil.mpr (not_exists.mp none))
        · exact others label gnos there
    · refine stored rest (fun label gnos there => ?_) result
      rw [SortedMap.find?_erase] at there
      split at there
      · cases there
      · exact others label gnos there
    · refine ⟨fun other label n member => valid.range other label n (range other label n member),?_,?_⟩
      all_goals rw [result]
      · intro other kept there
        rw [SortedMap.find?_erase] at there
        split at there
        · cases there
        · exact valid.tags other kept there
      · intro other kept label gnos there
        rw [SortedMap.find?_erase] at there
        split at there
        · cases there
        · exact valid.numbers other kept label gnos there

/-- The triples a set stands for. -/
def denoted (s : GtidSet) : Set (Uuid × Tag × Nat) := fun x => x.2.2 ∈ s.gnos x.1 x.2.1

theorem mem_denoted {s : GtidSet} {uuid : Uuid} {tag : Tag} {n : Nat} :
    (uuid,tag,n) ∈ s.denoted ↔ n ∈ s.gnos uuid tag := Iff.rfl

/-- The triples of an interval of numbers, both ends included. -/
def span (uuid : Uuid) (tag : Tag) (lower upper : Nat) : Set (Uuid × Tag × Nat) :=
  fun x => x.1 = uuid ∧ x.2.1 = tag ∧ lower ≤ x.2.2 ∧ x.2.2 ≤ upper

theorem span_self (uuid : Uuid) (tag : Tag) (n : Nat) : span uuid tag n n = {(uuid,tag,n)} := by
  ext ⟨other,label,m⟩
  change (other = uuid ∧ label = tag ∧ n ≤ m ∧ m ≤ n) ↔ (other,label,m) = (uuid,tag,n)
  rw [Prod.mk.injEq, Prod.mk.injEq, and_comm (a := n ≤ m), ← le_antisymm_iff]

theorem denoted_update_add (s : GtidSet) (uuid : Uuid) (tag : Tag) {lower upper : Nat} :
    (s.update uuid tag (·.add lower (upper + 1))).denoted = s.denoted ∪ span uuid tag lower upper := by
  ext ⟨other,label,n⟩
  change n ∈ (s.update uuid tag (·.add lower (upper + 1))).gnos other label ↔
    n ∈ s.gnos other label ∨ (other = uuid ∧ label = tag ∧ lower ≤ n ∧ n ≤ upper)
  rw [gnos_update]
  by_cases same : other = uuid ∧ label = tag
  · rw [if_pos same, IntervalSet.mem_add, same.1, same.2, or_comm, Nat.lt_succ_iff]
    simp
  · rw [if_neg same]
    have apart : ¬ (other = uuid ∧ label = tag ∧ lower ≤ n ∧ n ≤ upper) := fun inside => same ⟨inside.1,inside.2.1⟩
    simp [apart]

private theorem erase_shrinks (lower upper : Nat) (gnos : IntervalSet) (n : Nat) (member : n ∈ gnos.erase lower upper) :
    n ∈ gnos := (IntervalSet.mem_erase.mp member).1

private theorem difference_shrinks (others gnos : IntervalSet) (n : Nat) (member : n ∈ gnos.difference others) :
    n ∈ gnos := (IntervalSet.mem_difference.mp member).1

theorem denoted_reduce_erase (s : GtidSet) (uuid : Uuid) (tag : Tag) {lower upper : Nat} :
    (s.reduce uuid tag (·.erase lower (upper + 1))).denoted = s.denoted \ span uuid tag lower upper := by
  ext ⟨other,label,n⟩
  change n ∈ (s.reduce uuid tag (·.erase lower (upper + 1))).gnos other label ↔
    n ∈ s.gnos other label ∧ ¬ (other = uuid ∧ label = tag ∧ lower ≤ n ∧ n ≤ upper)
  rw [gnos_reduce s uuid other tag label (erase_shrinks lower (upper + 1))]
  by_cases same : other = uuid ∧ label = tag
  · rw [if_pos same, IntervalSet.mem_erase, same.1, same.2, Nat.lt_succ_iff]
    simp
  · rw [if_neg same]
    have apart : ¬ (other = uuid ∧ label = tag ∧ lower ≤ n ∧ n ≤ upper) := fun inside => same ⟨inside.1,inside.2.1⟩
    simp [apart]

theorem denoted_add (s t : GtidSet) : (s.add t).denoted = s.denoted ∪ t.denoted := by
  ext ⟨uuid,tag,n⟩
  exact mem_gnos_add

private theorem mem_gnos_foldl_reduce (pairs : List (Uuid × Tag × IntervalSet)) (s : GtidSet) (uuid : Uuid) (tag : Tag)
    (n : Nat) :
    n ∈ (pairs.foldl (fun acc x => acc.reduce x.1 x.2.1 (·.difference x.2.2)) s).gnos uuid tag ↔
      n ∈ s.gnos uuid tag ∧ ¬ ∃ gnos, (uuid,tag,gnos) ∈ pairs ∧ n ∈ gnos := by
  induction pairs generalizing s with
  | nil => simp
  | cons x rest ih =>
    obtain ⟨other,label,gnos⟩ := x
    rw [List.foldl_cons, ih, gnos_reduce s other uuid label tag (difference_shrinks gnos)]
    have first : (∃ numbers, (uuid,tag,numbers) ∈ (other,label,gnos) :: rest ∧ n ∈ numbers) ↔
        (uuid = other ∧ tag = label) ∧ n ∈ gnos ∨ ∃ numbers, (uuid,tag,numbers) ∈ rest ∧ n ∈ numbers := by
      simp only [List.mem_cons, Prod.mk.injEq, or_and_right, exists_or]
      refine or_congr_left ⟨?_,?_⟩
      · rintro ⟨_,⟨same,label,rfl⟩,inside⟩
        exact ⟨⟨same,label⟩,inside⟩
      · rintro ⟨⟨same,label⟩,inside⟩
        exact ⟨gnos,⟨same,label,rfl⟩,inside⟩
    rw [first, not_or]
    by_cases same : uuid = other ∧ tag = label
    · rw [if_pos same, IntervalSet.mem_difference, same.1, same.2]
      simp [and_assoc]
    · rw [if_neg same]
      simp [same]

theorem denoted_subtract (s t : GtidSet) : (s.subtract t).denoted = s.denoted \ t.denoted := by
  ext ⟨uuid,tag,n⟩
  change n ∈ (s.subtract t).gnos uuid tag ↔ n ∈ s.gnos uuid tag ∧ n ∉ t.gnos uuid tag
  rw [subtract_eq, mem_gnos_foldl_reduce, mem_gnos_pairs (s := t)]

theorem Valid.subtract {s : GtidSet} (valid : s.Valid) (t : GtidSet) : (s.subtract t).Valid := by
  rw [subtract_eq]
  generalize t.pairs = pairs
  induction pairs generalizing s with
  | nil => exact valid
  | cons x rest ih => exact ih (valid.reduce x.1 x.2.1 (difference_shrinks x.2.2))

/-- Under a uuid that a valid set knows there is a number. -/
private theorem Valid.some_number {s : GtidSet} (valid : s.Valid) {uuid : Uuid} {tagged : GnosByTag}
    (found : s.data.find? uuid = some tagged) : ∃ tag n, n ∈ s.gnos uuid tag := by
  cases entries : tagged.entries with
  | nil => exact absurd entries (valid.tags uuid tagged found)
  | cons first rest =>
    have inner : tagged.find? first.1 = some first.2 := SortedMap.find?_eq_some.mpr (by simp [entries])
    obtain ⟨n,member⟩ := valid.numbers uuid tagged first.1 first.2 found inner
    exact ⟨first.1,n,by simpa [gnos,found,inner] using member⟩

private theorem Valid.ext_tags {s t : GtidSet} (valid : s.Valid) (others : t.Valid) {uuid : Uuid} {left right : GnosByTag}
    (first : s.data.find? uuid = some left) (second : t.data.find? uuid = some right)
    (same : ∀ tag n, n ∈ s.gnos uuid tag ↔ n ∈ t.gnos uuid tag) : left = right := by
  refine SortedMap.ext fun tag => ?_
  have numbers := same tag
  simp only [gnos, first, second] at numbers
  cases here : left.find? tag with
  | none =>
    cases there : right.find? tag with
    | none => rfl
    | some gnos =>
      obtain ⟨n,member⟩ := others.numbers uuid right tag gnos second there
      simpa [here] using (numbers n).mpr (by simpa [there] using member)
  | some gnos =>
    cases there : right.find? tag with
    | none =>
      obtain ⟨n,member⟩ := valid.numbers uuid left tag gnos first here
      simpa [there] using (numbers n).mp (by simpa [here] using member)
    | some others =>
      rw [IntervalSet.ext_mem (s := gnos) (t := others) (by simpa [here,there] using numbers)]

/-- Valid sets that stand for the same triples are equal. -/
theorem Valid.ext {s t : GtidSet} (valid : s.Valid) (others : t.Valid) (same : s.denoted = t.denoted) : s = t := by
  have numbers : ∀ uuid tag n, n ∈ s.gnos uuid tag ↔ n ∈ t.gnos uuid tag := fun uuid tag n => by
    rw [← mem_denoted, ← mem_denoted, same]
  have data : s.data = t.data := by
    refine SortedMap.ext fun uuid => ?_
    cases first : s.data.find? uuid with
    | none =>
      cases second : t.data.find? uuid with
      | none => rfl
      | some right =>
        obtain ⟨tag,n,member⟩ := others.some_number second
        simpa [gnos,first] using (numbers uuid tag n).mpr member
    | some left =>
      cases second : t.data.find? uuid with
      | none =>
        obtain ⟨tag,n,member⟩ := valid.some_number first
        simpa [gnos,second] using (numbers uuid tag n).mp member
      | some right => rw [valid.ext_tags others first second (numbers uuid)]
  cases s
  cases t
  exact congrArg GtidSet.mk data

/-- A valid set is known by the gtids that it contains. -/
theorem Valid.eq_of_contains {s t : GtidSet} (valid : s.Valid) (others : t.Valid)
    (same : ∀ gtid : Gtid, s.contains gtid ↔ t.contains gtid) : s = t := by
  apply valid.ext others
  ext ⟨uuid,tag,n⟩
  rw [mem_denoted, mem_denoted]
  constructor
  · intro member
    exact (same ⟨uuid,tag,n,.inr (valid.range uuid tag n member)⟩).mp member
  · intro member
    exact (same ⟨uuid,tag,n,.inr (others.range uuid tag n member)⟩).mpr member

/-- Valid sets of the same gtids are equal. -/
theorem Valid.eq_iff_contains {s t : GtidSet} (valid : s.Valid) (others : t.Valid) :
    s = t ↔ ∀ gtid, s.contains gtid ↔ t.contains gtid := by
  refine ⟨fun same gtid => by rw [same],fun same => valid.ext others ?_⟩
  ext ⟨uuid,tag,n⟩
  constructor
  · intro member
    obtain ⟨some,least,most⟩ := valid.range uuid tag n member
    exact (same ⟨uuid,tag,n,.inr ⟨some,least,most⟩⟩).mp member
  · intro member
    obtain ⟨some,least,most⟩ := others.range uuid tag n member
    exact (same ⟨uuid,tag,n,.inr ⟨some,least,most⟩⟩).mpr member

theorem isEmpty_iff {s : GtidSet} : s.isEmpty ↔ s = empty := by
  constructor
  · intro none
    have data : s.data = empty.data := SortedMap.ext fun uuid => by
      rw [SortedMap.find?, none]
      rfl
    cases s
    exact congrArg GtidSet.mk data
  · rintro rfl
    rfl

theorem denoted_empty : empty.denoted = ∅ := by
  ext ⟨uuid,tag,n⟩
  change n ∈ empty.gnos uuid tag ↔ False
  simp [gnos,empty]

theorem intersects_iff {s t : GtidSet} : s.intersects t = true ↔ (s.denoted ∩ t.denoted).Nonempty := by
  have shared : (s.denoted ∩ t.denoted).Nonempty ↔
      ∃ uuid tag n, n ∈ s.gnos uuid tag ∧ n ∈ t.gnos uuid tag := by
    simp only [Set.Nonempty, Set.mem_inter_iff, Prod.exists, mem_denoted]
  rw [shared]
  simp only [intersects, List.any_eq_true]
  constructor
  · rintro ⟨⟨uuid,tagged⟩,outer,hit⟩
    split at hit
    · cases hit
    · rename_i found first
      obtain ⟨⟨tag,gnos⟩,inner,hit⟩ := List.any_eq_true.mp hit
      split at hit
      · cases hit
      · rename_i numbers second
        obtain ⟨n,left,right⟩ := IntervalSet.intersects_iff.mp hit
        exact ⟨uuid,tag,n,by simpa [GtidSet.gnos,first,second] using left,mem_gnos.mpr ⟨tagged,outer,gnos,inner,right⟩⟩
  · rintro ⟨uuid,tag,n,left,right⟩
    obtain ⟨tagged,outer,gnos,inner,inside⟩ := mem_gnos.mp right
    refine ⟨(uuid,tagged),outer,?_⟩
    cases first : s.data.find? uuid with
    | none => simp [GtidSet.gnos,first] at left
    | some found =>
      refine List.any_eq_true.mpr ⟨(tag,gnos),inner,?_⟩
      cases second : found.find? tag with
      | none => simp [GtidSet.gnos,first,second] at left
      | some numbers =>
        exact IntervalSet.intersects_iff.mpr ⟨n,by simpa [GtidSet.gnos,first,second] using left,inside⟩

section
variable {s t : GtidSet} {uuid : Uuid} {tag : Tag} {lower upper : Nat}

theorem Valid.updateAdd (valid : s.Valid) (known : ¬ uuid.isEmpty) (least : minGno ≤ lower) (proper : lower ≤ upper)
    (most : upper ≤ maxGno) : (s.update uuid tag (·.add lower (upper + 1))).Valid := by
  refine valid.update (fun g => ⟨lower,IntervalSet.mem_add.mpr (.inl ⟨le_rfl,by omega⟩)⟩) fun n member => ?_
  rcases IntervalSet.mem_add.mp member with new | old
  · exact ⟨known,by omega,by omega⟩
  · exact valid.range _ _ n old

private theorem wrap_succ {n : Nat} (most : n ≤ maxGno) : (n + 1) % 2 ^ 64 = n + 1 := by
  unfold maxGno at most
  omega

theorem addComponents_eq (known : ¬ uuid.isEmpty) (least : minGno ≤ lower) (most : lower ≤ maxGno) :
    s.addComponents uuid tag lower = .ok (s.update uuid tag (·.add lower (lower + 1))) := by
  rw [addComponents, Gtid.validateComponents_eq_ok (u := ()) |>.mpr ⟨known,least,most⟩, wrap_succ most]
  rfl

theorem subtractComponents_eq (known : ¬ uuid.isEmpty) (least : minGno ≤ lower) (most : lower ≤ maxGno) :
    s.subtractComponents uuid tag lower = .ok (s.reduce uuid tag (·.erase lower (lower + 1))) := by
  rw [subtractComponents, Gtid.validateComponents_eq_ok (u := ()) |>.mpr ⟨known,least,most⟩, wrap_succ most]
  rfl

/-- Of the upper bound it is only checked that it is not below the lower one. -/
theorem addInterval_eq_ok {r : GtidSet} : s.addInterval uuid tag lower upper = .ok r ↔
    (¬ uuid.isEmpty ∧ minGno ≤ lower ∧ lower ≤ maxGno ∧ lower ≤ upper) ∧
      r = s.update uuid tag (·.add lower ((upper + 1) % 2 ^ 64)) := by
  unfold addInterval
  split
  · rename_i single
    subst single
    simp only [addComponents, bind_eq_ok, Gtid.validateComponents_eq_ok, pure_eq_ok, exists_const, le_refl, and_true,
      @eq_comm _ r]
  · simp only [bind_eq_ok, raiseIf_eq_ok, Gtid.validateComponents_eq_ok, pure_eq_ok, exists_const, not_lt, @eq_comm _ r]
    tauto

theorem addInterval_eq (known : ¬ uuid.isEmpty) (least : minGno ≤ lower) (proper : lower ≤ upper)
    (most : upper ≤ maxGno) :
    s.addInterval uuid tag lower upper = .ok (s.update uuid tag (·.add lower (upper + 1))) :=
  addInterval_eq_ok.mpr ⟨⟨known,least,by omega,proper⟩,by rw [wrap_succ most]⟩

theorem subtractInterval_eq (known : ¬ uuid.isEmpty) (least : minGno ≤ lower) (proper : lower ≤ upper)
    (most : upper ≤ maxGno) :
    s.subtractInterval uuid tag lower upper = .ok (s.reduce uuid tag (·.erase lower (upper + 1))) := by
  unfold subtractInterval
  split
  · rename_i single
    rw [single]
    exact subtractComponents_eq known least (by omega)
  · rw [raiseIf, if_neg (by omega), Gtid.validateComponents_eq_ok (u := ()) |>.mpr ⟨known,least,by omega⟩, wrap_succ most]
    rfl

theorem addGtid_eq {value : Gtid} (some : ¬ value.isEmpty) :
    s.addGtid value = .ok (s.update value.uuid value.tag (·.add value.gno (value.gno + 1))) := by
  rw [addGtid, raiseIf, if_neg some, wrap_succ (Gtid.nonempty_iff.mp some).2.2]
  rfl

theorem subtractGtid_eq {value : Gtid} (some : ¬ value.isEmpty) :
    s.subtractGtid value = .ok (s.reduce value.uuid value.tag (·.erase value.gno (value.gno + 1))) := by
  rw [subtractGtid, raiseIf, if_neg some, wrap_succ (Gtid.nonempty_iff.mp some).2.2]
  rfl

/-- On valid sets, with arguments that are in range, the operations return, keep the sets valid and are those on
    sets of triples; and the questions that can be asked about sets are answered as for sets of triples. -/
theorem operations_denote (valid : s.Valid) (others : t.Valid) :
    (∀ uuid tag gno, ¬ uuid.isEmpty → minGno ≤ gno → gno ≤ maxGno →
      (∃ r, s.addComponents uuid tag gno = .ok r ∧ r.Valid ∧ r.denoted = s.denoted ∪ {(uuid,tag,gno)}) ∧
      ∃ r, s.subtractComponents uuid tag gno = .ok r ∧ r.Valid ∧ r.denoted = s.denoted \ {(uuid,tag,gno)}) ∧
    (∀ value : Gtid, ¬ value.isEmpty →
      (∃ r, s.addGtid value = .ok r ∧ r.Valid ∧ r.denoted = s.denoted ∪ {(value.uuid,value.tag,value.gno)}) ∧
      ∃ r, s.subtractGtid value = .ok r ∧ r.Valid ∧
        r.denoted = s.denoted \ {(value.uuid,value.tag,value.gno)}) ∧
    (∀ uuid tag lower upper, ¬ uuid.isEmpty → minGno ≤ lower → lower ≤ upper → upper ≤ maxGno →
      (∃ r, s.addInterval uuid tag lower upper = .ok r ∧ r.Valid ∧
        r.denoted = s.denoted ∪ span uuid tag lower upper) ∧
      ∃ r, s.subtractInterval uuid tag lower upper = .ok r ∧ r.Valid ∧
        r.denoted = s.denoted \ span uuid tag lower upper) ∧
    ((s.add t).Valid ∧ (s.add t).denoted = s.denoted ∪ t.denoted) ∧
    ((s.subtract t).Valid ∧ (s.subtract t).denoted = s.denoted \ t.denoted) ∧
    (∀ value : Gtid, s.contains value ↔ (value.uuid,value.tag,value.gno) ∈ s.denoted) ∧
    (s.isEmpty ↔ s.denoted = ∅) ∧
    (s.intersects t = true ↔ (s.denoted ∩ t.denoted).Nonempty) ∧
    (s = t ↔ s.denoted = t.denoted) := by
  have single : ∀ uuid tag gno, ¬ uuid.isEmpty → minGno ≤ gno → gno ≤ maxGno →
      (s.update uuid tag (·.add gno (gno + 1))).Valid ∧
        (s.update uuid tag (·.add gno (gno + 1))).denoted = s.denoted ∪ {(uuid,tag,gno)} :=
    fun uuid tag gno known least most => ⟨valid.updateAdd known least le_rfl most,by
      rw [denoted_update_add, span_self]⟩
  have less : ∀ uuid tag gno, (s.reduce uuid tag (·.erase gno (gno + 1))).Valid ∧
      (s.reduce uuid tag (·.erase gno (gno + 1))).denoted = s.denoted \ {(uuid,tag,gno)} :=
    fun uuid tag gno => ⟨valid.reduce uuid tag (erase_shrinks gno (gno + 1)),by
      rw [denoted_reduce_erase, span_self]⟩
  refine ⟨fun uuid tag gno known least most => ⟨?_,?_⟩,fun value some => ⟨?_,?_⟩,
    fun uuid tag lower upper known least proper most => ⟨?_,?_⟩,⟨valid.add others,denoted_add s t⟩,
    ⟨valid.subtract t,denoted_subtract s t⟩,fun _ => Iff.rfl,?_,intersects_iff,?_⟩
  · exact ⟨_,addComponents_eq known least most,single uuid tag gno known least most⟩
  · exact ⟨_,subtractComponents_eq known least most,less uuid tag gno⟩
  · obtain ⟨known,least,most⟩ := Gtid.nonempty_iff.mp some
    exact ⟨_,addGtid_eq some,single value.uuid value.tag value.gno known least most⟩
  · exact ⟨_,subtractGtid_eq some,less value.uuid value.tag value.gno⟩
  · exact ⟨_,addInterval_eq known least proper most,valid.updateAdd known least proper most,denoted_update_add ..⟩
  · exact ⟨_,subtractInterval_eq known least proper most,valid.reduce uuid tag (erase_shrinks lower (upper + 1)),
      denoted_reduce_erase ..⟩
  · rw [isEmpty_iff, ← denoted_empty]
    exact ⟨congrArg denoted,valid.ext valid_empty⟩
  · exact ⟨congrArg denoted,valid.ext others⟩

end

namespace Sample

def uuid : Uuid := ⟨1 :: List.replicate 15 0,by simp⟩

/-- The numbers from 1 to 3. -/
def first : GtidSet := empty.update uuid .none (·.add 1 (3 + 1))

/-- The numbers from 3 to 5. -/
def second : GtidSet := empty.update uuid .none (·.add 3 (5 + 1))

theorem first_valid : first.Valid := valid_empty.updateAdd (by decide) (by decide) (by decide) (by decide)

theorem second_valid : second.Valid := valid_empty.updateAdd (by decide) (by decide) (by decide) (by decide)

def server : Uuid := ⟨2 :: List.replicate 15 0,by simp⟩

def tag : Tag := ⟨[0x61,0x5F,0x31],by decide⟩

/-- Of one server the numbers from 1 to 3 and 7, and with a tag those from 2 to 5; of another one 9 with the tag. -/
def several : GtidSet :=
  (((empty.update uuid .none (·.add 1 (3 + 1))).update uuid .none (·.add 7 (7 + 1))).update uuid tag
    (·.add 2 (5 + 1))).update server tag (·.add 9 (9 + 1))

theorem several_valid : several.Valid :=
  (((valid_empty.updateAdd (by decide) (by decide) (by decide) (by decide)).updateAdd (by decide) (by decide)
    (by decide) (by decide)).updateAdd (by decide) (by decide) (by decide) (by decide)).updateAdd (by decide) (by decide)
    (by decide) (by decide)

end Sample

theorem operations_denote_overlap : Sample.first.Valid ∧ Sample.second.Valid ∧
    (Sample.first.subtract Sample.second).denoted = Sample.first.denoted \ Sample.second.denoted ∧
    (Sample.first.denoted ∩ Sample.second.denoted).Nonempty := by
  obtain ⟨-,-,-,-,⟨-,difference⟩,-,-,shared,-⟩ := operations_denote Sample.first_valid Sample.second_valid
  exact ⟨Sample.first_valid,Sample.second_valid,difference,shared.mp (by decide)⟩

end GtidSet
end BinlogServer.Gtids
