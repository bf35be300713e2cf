import BinlogServer.Lib.SortedMap
import BinlogServer.Lib.IntervalSet
import BinlogServer.Gtids.Gtid

/-!
# Sets of transaction identifiers

`gtids::gtid_set`: per uuid and per tag a set of numbers kept as joined intervals.
-/

namespace BinlogServer.Gtids
open ByteString Util

abbrev GnosByTag := SortedMap Tag IntervalSet

/-- `gtids::gtid_set` -/
structure GtidSet where
  data : SortedMap Uuid GnosByTag
deriving DecidableEq

namespace GtidSet

def empty : GtidSet := ⟨.empty⟩

def isEmpty (s : GtidSet) : Prop := s.data.entries = []

instance (s : GtidSet) : Decidable s.isEmpty := inferInstanceAs (Decidable (_ = _))

/-- `gtid_set::contains_tags` -/
def containsTags (s : GtidSet) : Bool := s.data.entries.any fun x => x.2.entries.any fun y => !y.1.isEmpty

/-- The numbers under a uuid and a tag: none where the maps have no entry. -/
def gnos (s : GtidSet) (uuid : Uuid) (tag : Tag) : IntervalSet :=
  match s.data.find? uuid with
  | none => .empty
  | some tagged => (tagged.find? tag).getD .empty

/-- `gtid_set::contains` -/
def contains (s : GtidSet) (value : Gtid) : Prop := value.gno ∈ s.gnos value.uuid value.tag

instance (s : GtidSet) (value : Gtid) : Decidable (s.contains value) :=
  inferInstanceAs (Decidable (value.gno ∈ s.gnos value.uuid value.tag))

/-- `data_[uuid][tag]` changed in place. -/
def update (s : GtidSet) (uuid : Uuid) (tag : Tag) (f : IntervalSet → IntervalSet) : GtidSet :=
  ⟨s.data.alter uuid fun tagged => (tagged.getD .empty).alter tag fun gnos => f (gnos.getD .empty)⟩

theorem gnos_update (s : GtidSet) (uuid other : Uuid) (tag label : Tag) (f : IntervalSet → IntervalSet) :
    (s.update uuid tag f).gnos other label =
      if other = uuid ∧ label = tag then f (s.gnos uuid tag) else s.gnos other label := by
  unfold gnos update
  rw [SortedMap.find?_alter]
  by_cases sameUuid : other = uuid
  · subst sameUuid
    rw [if_pos rfl]
    dsimp only
    rw [SortedMap.find?_alter]
    cases s.data.find? other <;> by_cases sameTag : label = tag <;> simp [sameTag]
  · simp [sameUuid]

theorem update_update (s : GtidSet) (uuid : Uuid) (tag : Tag) (f g : IntervalSet → IntervalSet) :
    (s.update uuid tag f).update uuid tag g = s.update uuid tag (g ∘ f) := by
  have data : ((s.update uuid tag f).update uuid tag g).data = (s.update uuid tag (g ∘ f)).data := by
    refine SortedMap.ext fun other => ?_
    simp only [update, SortedMap.find?_alter]
    by_cases same : other = uuid
    · subst same
      simp only [if_true, Option.getD_some, Option.some.injEq]
      refine SortedMap.ext fun label => ?_
      simp only [SortedMap.find?_alter]
      by_cases sameTag : label = tag <;> simp [sameTag]
    · simp [same]
  exact congrArg GtidSet.mk data

/-- `gtid_set::add(uuid, tag, gno)` -/
def addComponents (s : GtidSet) (uuid : Uuid) (tag : Tag) (gno : Nat) : Fallible GtidSet := do
  Gtid.validateComponents uuid gno
  pure (s.update uuid tag (·.add gno ((gno + 1) % 2 ^ 64)))

/-- `gtid_set::add(const gtid &)` -/
def addGtid (s : GtidSet) (value : Gtid) : Fallible GtidSet := do
  raiseIf value.isEmpty .invalidArgument "cannot add an empty gtid"
  pure (s.update value.uuid value.tag (·.add value.gno ((value.gno + 1) % 2 ^ 64)))

/-- `gtid_set::add(const gtid_set &)` -/
def add (s : GtidSet) (values : GtidSet) : GtidSet :=
  values.data.entries.foldl (fun acc x =>
    x.2.entries.foldl (fun acc y => acc.update x.1 y.1 (·.union y.2)) acc) s

/-- `gtid_set::add_interval` -/
def addInterval (s : GtidSet) (uuid : Uuid) (tag : Tag) (lower upper : Nat) : Fallible GtidSet :=
  if upper = lower then s.addComponents uuid tag lower
  else do
    raiseIf (upper < lower) .invalidArgument "cannot add an interval with invalid bounds"
    Gtid.validateComponents uuid lower
    pure (s.update uuid tag (·.add lower ((upper + 1) % 2 ^ 64)))

@[simp] theorem not_contains_empty (value : Gtid) : ¬ empty.contains value := by
  simp [contains,gnos,empty]

theorem contains_addGtid {s t : GtidSet} {value : Gtid} (added : s.addGtid value = .ok t) (other : Gtid) :
    t.contains other ↔ s.contains other ∨ other = value := by
  simp only [addGtid, bind_eq_ok, raiseIf_eq_ok, pure_eq_ok] at added
  obtain ⟨-,nonempty,rfl⟩ := added
  have most := (Gtid.nonempty_iff.mp nonempty).2.2
  unfold maxGno at most
  rw [Nat.mod_eq_of_lt (by omega)]
  unfold contains
  rw [gnos_update]
  by_cases same : other.uuid = value.uuid ∧ other.tag = value.tag
  · rw [if_pos same, IntervalSet.mem_add, same.1, same.2]
    have : other = value ↔ other.gno = value.gno := by
      refine ⟨congrArg _,fun gno => ?_⟩
      cases other
      cases value
      simp_all
    rw [this, or_comm]
    refine or_congr_right ?_
    omega
  · rw [if_neg same]
    have differ : other ≠ value := fun eq => same (by simp [eq])
    simp [differ]

private theorem gnos_foldl_tags (uuid : Uuid) (entries : List (Tag × IntervalSet)) (s : GtidSet)
    (sorted : entries.Pairwise (fun x y => x.1 < y.1)) (other : Uuid) (label : Tag) (n : Nat) :
    n ∈ (entries.foldl (fun acc y => acc.update uuid y.1 (·.union y.2)) s).gnos other label ↔
      n ∈ s.gnos other label ∨ other = uuid ∧ ∃ gnos, (label,gnos) ∈ entries ∧ n ∈ gnos := by
  induction entries generalizing s with
  | nil => simp
  | cons y rest ih =>
    obtain ⟨tag,gnos⟩ := y
    rw [List.foldl_cons, ih _ (List.pairwise_cons.mp sorted).2, gnos_update]
    by_cases sameUuid : other = uuid
    · subst sameUuid
      by_cases sameTag : label = tag
      · subst sameTag
        simp only [and_self, if_true, IntervalSet.mem_union, true_and, List.mem_cons, Prod.mk.injEq]
        constructor
        · rintro ((old | new) | later)
          · exact .inl old
          · exact .inr ⟨gnos,.inl rfl,new⟩
          · obtain ⟨other,member,inside⟩ := later
            exact .inr ⟨other,.inr member,inside⟩
        · rintro (old | ⟨other,rfl | member,inside⟩)
          · exact .inl (.inl old)
          · exact .inl (.inr inside)
          · exact .inr ⟨other,member,inside⟩
      · simp [sameTag]
    · simp [sameUuid]

private theorem gnos_foldl_uuids (entries : List (Uuid × GnosByTag)) (s : GtidSet) (other : Uuid) (label : Tag)
    (n : Nat) :
    n ∈ (entries.foldl (fun acc x => x.2.entries.foldl (fun acc y => acc.update x.1 y.1 (·.union y.2)) acc) s).gnos
        other label ↔
      n ∈ s.gnos other label ∨ ∃ tagged, (other,tagged) ∈ entries ∧
        ∃ gnos, (label,gnos) ∈ tagged.entries ∧ n ∈ gnos := by
  induction entries generalizing s with
  | nil => simp
  | cons x rest ih =>
    obtain ⟨uuid,tagged⟩ := x
    rw [List.foldl_cons, ih, gnos_foldl_tags _ _ _ tagged.sorted, or_assoc]
    refine or_congr_right ?_
    constructor
    · rintro (⟨rfl,inside⟩ | ⟨other,member,inside⟩)
      · exact ⟨tagged,by simp,inside⟩
      · exact ⟨other,by simp [member],inside⟩
    · rintro ⟨other,member,inside⟩
      rcases List.mem_cons.mp member with same | member
      · cases same
        exact .inl ⟨rfl,inside⟩
      · exact .inr ⟨other,member,inside⟩

theorem mem_gnos {s : GtidSet} {uuid : Uuid} {tag : Tag} {n : Nat} :
    n ∈ s.gnos uuid tag ↔ ∃ tagged, (uuid,tagged) ∈ s.data.entries ∧
      ∃ gnos, (tag,gnos) ∈ tagged.entries ∧ n ∈ gnos := by
  unfold gnos
  simp only [← SortedMap.find?_eq_some]
  cases found : s.data.find? uuid with
  | none => simp
  | some tagged =>
    cases inner : tagged.find? tag with
    | none => simp [inner]
    | some gnos => simp [inner]

theorem mem_gnos_add {s t : GtidSet} {uuid : Uuid} {tag : Tag} {n : Nat} :
    n ∈ (s.add t).gnos uuid tag ↔ n ∈ s.gnos uuid tag ∨ n ∈ t.gnos uuid tag := by
  unfold add
  rw [gnos_foldl_uuids, ← mem_gnos]

theorem contains_add (s t : GtidSet) (value : Gtid) :
    (s.add t).contains value ↔ s.contains value ∨ t.contains value := mem_gnos_add

/-- No uuid without a tag, no tag without a number, and only numbers a gtid may have: the sets that are made by
    adding gtids. -/
structure Valid (s : GtidSet) : Prop where
  range : ∀ uuid tag n, n ∈ s.gnos uuid tag → ¬ uuid.isEmpty ∧ minGno ≤ n ∧ n ≤ maxGno
  tags : ∀ uuid tagged, s.data.find? uuid = some tagged → tagged.entries ≠ []
  numbers : ∀ uuid tagged tag gnos, s.data.find? uuid = some tagged → tagged.find? tag = some gnos → ∃ n, n ∈ gnos

theorem valid_empty : empty.Valid := by
  refine ⟨fun uuid tag n member => ?_,fun uuid tagged found => ?_,fun uuid tagged tag gnos found => ?_⟩
  · simp [gnos,empty] at member
  · simp [empty] at found
  · simp [empty] at found

private theorem alter_ne_nil {κ ν : Type} [LinearOrder κ] (m : SortedMap κ ν) (key : κ) (f : Option ν → ν) :
    (m.alter key f).entries ≠ [] := by
  intro nothing
  have found := SortedMap.find?_alter_same m key f
  rw [SortedMap.find?_eq_some, nothing] at found
  cases found

/-- Numbers in range under a uuid that is not nil keep a set valid. -/
theorem Valid.update {s : GtidSet} (valid : s.Valid) {uuid : Uuid} {tag : Tag} {f : IntervalSet → IntervalSet}
    (grows : ∀ g, ∃ n, n ∈ f g)
    (range : ∀ n ∈ f (s.gnos uuid tag), ¬ uuid.isEmpty ∧ minGno ≤ n ∧ n ≤ maxGno) : (s.update uuid tag f).Valid := by
  refine ⟨fun other label n member => ?_,fun other tagged found => ?_,fun other tagged label gnos found inner => ?_⟩
  · rw [gnos_update] at member
    split at member
    · rename_i same
      rw [same.1]
      exact range n member
    · exact valid.range other label n member
  · rw [GtidSet.update, SortedMap.find?_alter] at found
    split at found
    · cases found
      exact alter_ne_nil _ _ _
    · exact valid.tags other tagged found
  · rw [GtidSet.update, SortedMap.find?_alter] at found
    split at found
    · cases found
      rw [SortedMap.find?_alter] at inner
      split at inner
      · cases inner
        exact grows _
      · cases before : s.data.find? uuid with
        | none => simp [before] at inner
        | some tagged =>
          simp only [before, Option.getD_some] at inner
          exact valid.numbers uuid tagged label gnos before inner
    · exact valid.numbers other tagged label gnos found inner

theorem Valid.addGtid {s t : GtidSet} (valid : s.Valid) {value : Gtid} (added : s.addGtid value = .ok t) : t.Valid := by
  simp only [GtidSet.addGtid, bind_eq_ok, raiseIf_eq_ok, pure_eq_ok] at added
  obtain ⟨-,nonempty,rfl⟩ := added
  obtain ⟨known,least,most⟩ := Gtid.nonempty_iff.mp nonempty
  have small : (value.gno + 1) % 2 ^ 64 = value.gno + 1 := by
    unfold maxGno at most
    omega
  rw [small]
  refine valid.update (fun g => ⟨value.gno,IntervalSet.mem_add.mpr (.inl (by omega))⟩) fun n member => ?_
  rcases IntervalSet.mem_add.mp member with new | old
  · exact ⟨known,by omega,by omega⟩
  · exact valid.range _ _ n old

theorem Valid.add {s t : GtidSet} (valid : s.Valid) (others : t.Valid) : (s.add t).Valid := by
  have tags : ∀ (uuid : Uuid) (entries : List (Tag × IntervalSet)) (acc : GtidSet), acc.Valid →
      (∀ y ∈ entries, (∃ n, n ∈ y.2) ∧ ∀ n ∈ y.2, ¬ uuid.isEmpty ∧ minGno ≤ n ∧ n ≤ maxGno) →
      (entries.foldl (fun acc y => acc.update uuid y.1 (·.union y.2)) acc).Valid := by
    intro uuid entries
    induction entries with
    | nil => exact fun acc valid _ => valid
    | cons y rest ih =>
      intro acc valid fine
      obtain ⟨⟨n,inside⟩,range⟩ := fine y (by simp)
      refine ih _ (valid.update (fun g => ⟨n,IntervalSet.mem_union.mpr (.inr inside)⟩) fun m member => ?_)
        (fun z member => fine z (by simp [member]))
      rcases IntervalSet.mem_union.mp member with old | new
      · exact valid.range _ _ m old
      · exact range m new
  have uuids : ∀ (entries : List (Uuid × GnosByTag)) (acc : GtidSet), acc.Valid →
      (∀ x ∈ entries, x ∈ t.data.entries) →
      (entries.foldl (fun acc x => x.2.entries.foldl (fun acc y => acc.update x.1 y.1 (·.union y.2)) acc) acc).Valid := by
    intro entries
    induction entries with
    | nil => exact fun acc valid _ => valid
    | cons x rest ih =>
      intro acc valid known
      refine ih _ (tags x.1 x.2.entries acc valid fun y member => ?_) (fun z later => known z (by simp [later]))
      have found := SortedMap.find?_eq_some.mpr (known x (by simp))
      have inner := SortedMap.find?_eq_some.mpr member
      refine ⟨others.numbers _ _ _ _ found inner,fun n inside => others.range x.1 y.1 n ?_⟩
      exact mem_gnos.mpr ⟨x.2,known x (by simp),y.2,member,inside⟩
  exact uuids t.data.entries s valid (fun x member => member)

/-- The tags of one uuid with those of another map added. -/
private def tagsInto (m : GnosByTag) (entries : List (Tag × IntervalSet)) : GnosByTag :=
  entries.foldl (fun m y => m.alter y.1 fun gnos => (gnos.getD .empty).union y.2) m

private theorem find?_tagsInto (m : GnosByTag) (entries : List (Tag × IntervalSet))
    (sorted : entries.Pairwise fun x y => x.1 < y.1) (label : Tag) :
    (tagsInto m entries).find? label = match SortedMap.lookup label entries with
      | none => m.find? label
      | some gnos => some (((m.find? label).getD .empty).union gnos) := by
  induction entries generalizing m with
  | nil => rfl
  | cons y rest ih =>
    obtain ⟨tag,gnos⟩ := y
    obtain ⟨least,later⟩ := List.pairwise_cons.mp sorted
    have step := ih (m.alter tag fun old => (old.getD .empty).union gnos) later
    rw [SortedMap.lookup]
    rw [show tagsInto m ((tag,gnos) :: rest) =
      tagsInto (m.alter tag fun old => (old.getD .empty).union gnos) rest from rfl, step, SortedMap.find?_alter]
    by_cases same : tag = label
    · subst same
      have gone : SortedMap.lookup tag rest = none :=
        SortedMap.lookup_eq_none.mpr fun z member => (least z member).ne'
      simp [gone]
    · simp [same,Ne.symm same]

private theorem tagsInto_empty (tagged : GnosByTag) : tagsInto .empty tagged.entries = tagged := by
  refine SortedMap.ext fun label => ?_
  rw [find?_tagsInto _ _ tagged.sorted]
  change (match tagged.find? label with
    | none => _
    | some gnos => _) = _
  cases tagged.find? label with
  | none => simp
  | some gnos => simp [IntervalSet.empty_union]

private theorem find?_addTags (uuid other : Uuid) (entries : List (Tag × IntervalSet)) (s : GtidSet)
    (nonempty : entries ≠ []) :
    (entries.foldl (fun acc y => acc.update uuid y.1 (·.union y.2)) s).data.find? other =
      if other = uuid then some (tagsInto ((s.data.find? uuid).getD .empty) entries) else s.data.find? other := by
  induction entries generalizing s with
  | nil => exact absurd rfl nonempty
  | cons y rest ih =>
    rw [List.foldl_cons]
    by_cases last : rest = []
    · subst last
      rw [List.foldl_nil, update, SortedMap.find?_alter]
      by_cases same : other = uuid <;> simp [same,tagsInto]
    · rw [ih _ last, update, SortedMap.find?_alter, SortedMap.find?_alter]
      simp only [if_true, Option.getD_some]
      split <;> rfl

private theorem find?_addUuids (entries : List (Uuid × GnosByTag)) (s : GtidSet)
    (sorted : entries.Pairwise fun x y => x.1 < y.1) (full : ∀ x ∈ entries, x.2.entries ≠ []) (key : Uuid) :
    (entries.foldl (fun acc x => x.2.entries.foldl (fun acc y => acc.update x.1 y.1 (·.union y.2)) acc) s).data.find? key =
      match SortedMap.lookup key entries with
      | none => s.data.find? key
      | some tagged => some (tagsInto ((s.data.find? key).getD .empty) tagged.entries) := by
  induction entries generalizing s with
  | nil => rfl
  | cons x rest ih =>
    obtain ⟨uuid,tagged⟩ := x
    obtain ⟨least,later⟩ := List.pairwise_cons.mp sorted
    rw [List.foldl_cons, ih _ later (fun z member => full z (by simp [member])), SortedMap.lookup,
      find?_addTags _ _ _ _ (full _ (by simp))]
    by_cases same : uuid = key
    · subst same
      have gone : SortedMap.lookup uuid rest = none :=
        SortedMap.lookup_eq_none.mpr fun z member => (least z member).ne'
      simp [gone]
    · simp [same,Ne.symm same]

/-- A set without empty parts is rebuilt from its entries. -/
theorem Valid.empty_add {s : GtidSet} (valid : s.Valid) : empty.add s = s := by
  have data : (empty.add s).data = s.data := by
    refine SortedMap.ext fun uuid => ?_
    unfold GtidSet.add
    rw [find?_addUuids _ _ s.data.sorted fun x member =>
      valid.tags x.1 x.2 (SortedMap.find?_eq_some.mpr member)]
    change (match s.data.find? uuid with
      | none => _
      | some tagged => _) = _
    cases s.data.find? uuid with
    | none => rfl
    | some tagged =>
      rw [show empty.data.find? uuid = none from rfl]
      exact congrArg some (tagsInto_empty tagged)
  cases s
  exact congrArg GtidSet.mk data

end GtidSet
end BinlogServer.Gtids
