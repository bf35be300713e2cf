import Mathlib.Order.Lattice
import Mathlib.Data.List.Basic

/-!
# Ordered maps

A map as the list of its entries in increasing order of the keys. `alter` inserts or updates one entry,
`find?` reads one, `erase` removes one; a map is determined by what `find?` answers.
-/

/-- A map from `κ` to `ν` with its entries in increasing order of the keys. -/
structure SortedMap (κ ν : Type) [LinearOrder κ] where
  entries : List (κ × ν)
  sorted : entries.Pairwise (fun x y => x.1 < y.1)

namespace SortedMap
variable {κ ν : Type} [LinearOrder κ]

instance [DecidableEq ν] : DecidableEq (SortedMap κ ν) := fun x y =>
  decidable_of_iff (x.entries = y.entries) ⟨fun same => by cases x; cases y; congr,congrArg entries⟩

def empty : SortedMap κ ν := ⟨[],List.Pairwise.nil⟩

/-- The value under a key in a list of entries. -/
def lookup (key : κ) : List (κ × ν) → Option ν
  | [] => none
  | (k,v) :: rest => if k = key then some v else lookup key rest

/-- The entries with the value under `key` replaced by what `f` makes of it. -/
def alterEntries (key : κ) (f : Option ν → ν) : List (κ × ν) → List (κ × ν)
  | [] => [(key,f none)]
  | (k,v) :: rest =>
    if key < k then (key,f none) :: (k,v) :: rest
    else if key = k then (k,f (some v)) :: rest
    else (k,v) :: alterEntries key f rest

theorem mem_alterEntries {key : κ} {f : Option ν → ν} {entries : List (κ × ν)} {x : κ × ν}
    (member : x ∈ alterEntries key f entries) : x.1 = key ∨ x ∈ entries := by
  induction entries with
  | nil => simp [alterEntries] at member; simp [member]
  | cons entry rest ih =>
    obtain ⟨k,v⟩ := entry
    simp only [alterEntries] at member
    split at member
    · simp only [List.mem_cons] at member ⊢
      rcases member with rfl | member
      · exact .inl rfl
      · exact .inr member
    · split at member
      · rename_i same
        simp only [List.mem_cons] at member ⊢
        rcases member with rfl | member
        · exact .inl same.symm
        · exact .inr (.inr member)
      · simp only [List.mem_cons] at member ⊢
        rcases member with rfl | member
        · exact .inr (.inl rfl)
        · exact (ih member).imp_right .inr

theorem alterEntries_sorted {key : κ} {f : Option ν → ν} {entries : List (κ × ν)}
    (sorted : entries.Pairwise (fun x y => x.1 < y.1)) :
    (alterEntries key f entries).Pairwise (fun x y => x.1 < y.1) := by
  induction entries with
  | nil => simp [alterEntries]
  | cons entry rest ih =>
    obtain ⟨k,v⟩ := entry
    obtain ⟨least,tail⟩ := List.pairwise_cons.mp sorted
    simp only [alterEntries]
    split
    · rename_i below
      refine List.pairwise_cons.mpr ⟨?_,sorted⟩
      intro x member
      rcases List.mem_cons.mp member with rfl | member
      · exact below
      · exact lt_trans below (least x member)
    · rename_i above
      split
      · exact List.pairwise_cons.mpr ⟨least,tail⟩
      · rename_i other
        refine List.pairwise_cons.mpr ⟨?_,ih tail⟩
        intro x member
        rcases mem_alterEntries member with same | member
        · rw [same]
          exact lt_of_le_of_ne (not_lt.mp above) (Ne.symm other)
        · exact least x member

/-- `m[key]` replaced by what `f` makes of the value there, if any. -/
def alter (m : SortedMap κ ν) (key : κ) (f : Option ν → ν) : SortedMap κ ν :=
  ⟨alterEntries key f m.entries,alterEntries_sorted m.sorted⟩

def insert (m : SortedMap κ ν) (key : κ) (value : ν) : SortedMap κ ν := m.alter key fun _ => value

def erase (m : SortedMap κ ν) (key : κ) : SortedMap κ ν :=
  ⟨m.entries.filter (fun x => x.1 ≠ key),m.sorted.filter _⟩

def find? (m : SortedMap κ ν) (key : κ) : Option ν := lookup key m.entries

def keys (m : SortedMap κ ν) : List κ := m.entries.map Prod.fst

theorem keys_nodup (m : SortedMap κ ν) : m.keys.Nodup := by
  rw [keys, List.Nodup, List.pairwise_map]
  exact m.sorted.imp fun below => below.ne

theorem lookup_eq_none {key : κ} {entries : List (κ × ν)} :
    lookup key entries = none ↔ ∀ x ∈ entries, x.1 ≠ key := by
  induction entries with
  | nil => simp [lookup]
  | cons entry rest ih =>
    simp only [lookup, List.mem_cons, forall_eq_or_imp]
    split <;> simp_all

theorem lookup_eq_some {key : κ} {value : ν} {entries : List (κ × ν)}
    (sorted : entries.Pairwise (fun x y => x.1 < y.1)) :
    lookup key entries = some value ↔ (key,value) ∈ entries := by
  induction entries with
  | nil => simp [lookup]
  | cons entry rest ih =>
    obtain ⟨least,tail⟩ := List.pairwise_cons.mp sorted
    simp only [lookup, List.mem_cons]
    split
    · rename_i same
      constructor
      · rintro ⟨⟩; exact .inl (by rw [← same])
      · rintro (rfl | member)
        · rfl
        · exact absurd (least _ member) (by simp [same])
    · rename_i other
      rw [ih tail]
      constructor
      · exact .inr
      · rintro (rfl | member)
        · exact absurd rfl other
        · exact member

theorem find?_eq_some {m : SortedMap κ ν} {key : κ} {value : ν} :
    m.find? key = some value ↔ (key,value) ∈ m.entries := lookup_eq_some m.sorted

theorem find?_eq_none {m : SortedMap κ ν} {key : κ} : m.find? key = none ↔ key ∉ m.keys := by
  rw [find?, lookup_eq_none, keys, List.mem_map]
  exact ⟨fun apart ⟨x,member,same⟩ => apart x member same,fun absent x member same => absent ⟨x,member,same⟩⟩

theorem mem_keys {m : SortedMap κ ν} {key : κ} : key ∈ m.keys ↔ (m.find? key).isSome := by
  cases found : m.find? key with
  | none => simpa using find?_eq_none.mp found
  | some value =>
    simp only [Option.isSome_some, iff_true]
    exact List.mem_map.mpr ⟨_,find?_eq_some.mp found,rfl⟩

/-- A sorted map is determined by what it answers. -/
@[ext] theorem ext {m n : SortedMap κ ν} (same : ∀ key, m.find? key = n.find? key) : m = n := by
  have member : ∀ x, x ∈ m.entries ↔ x ∈ n.entries := by
    rintro ⟨key,value⟩
    rw [← find?_eq_some, ← find?_eq_some, same]
  have irrefl : ∀ x y : κ × ν, x.1 < y.1 → ¬ y.1 < x.1 := fun _ _ => lt_asymm
  have nodup : ∀ {o : SortedMap κ ν}, o.entries.Nodup := by
    intro o
    refine o.sorted.imp ?_
    rintro x _ less rfl
    exact lt_irrefl _ less
  have perm : m.entries.Perm n.entries := (List.perm_ext_iff_of_nodup nodup nodup).mpr member
  have entries := perm.eq_of_pairwise
    (fun x y _ _ first second => absurd second (irrefl x y first)) m.sorted n.sorted
  cases m
  cases n
  simp_all

@[simp] theorem find?_empty (key : κ) : (empty : SortedMap κ ν).find? key = none := rfl

private theorem lookup_alterEntries {key other : κ} {f : Option ν → ν} {entries : List (κ × ν)}
    (sorted : entries.Pairwise (fun x y => x.1 < y.1)) :
    lookup other (alterEntries key f entries) =
      if other = key then some (f (lookup key entries)) else lookup other entries := by
  induction entries with
  | nil =>
    by_cases same : other = key <;> simp [alterEntries,lookup,same,eq_comm (a := key)]
  | cons entry rest ih =>
    obtain ⟨k,v⟩ := entry
    obtain ⟨least,tail⟩ := List.pairwise_cons.mp sorted
    simp only [alterEntries]
    split
    · rename_i below
      have absent : lookup key ((k,v) :: rest) = none := by
        refine lookup_eq_none.mpr fun x member => ?_
        rcases List.mem_cons.mp member with rfl | member
        · exact ne_of_gt below
        · exact ne_of_gt (lt_trans below (least x member))
      rw [lookup]
      by_cases same : other = key
      · simp [same,absent]
      · simp [same,Ne.symm same]
    · split
      · rename_i same
        subst same
        by_cases hit : other = key
        · simp [lookup,hit]
        · simp [lookup,hit,Ne.symm hit]
      · rename_i differ
        rw [lookup, lookup, lookup, ih tail, if_neg (Ne.symm differ)]
        by_cases hit : other = key
        · subst hit
          simp [Ne.symm differ]
        · simp [hit]

theorem find?_alter (m : SortedMap κ ν) (key other : κ) (f : Option ν → ν) :
    (m.alter key f).find? other = if other = key then some (f (m.find? key)) else m.find? other :=
  lookup_alterEntries m.sorted

@[simp] theorem find?_alter_same (m : SortedMap κ ν) (key : κ) (f : Option ν → ν) :
    (m.alter key f).find? key = some (f (m.find? key)) := by
  simp [find?_alter]

theorem find?_insert (m : SortedMap κ ν) (key other : κ) (value : ν) :
    (m.insert key value).find? other = if other = key then some value else m.find? other :=
  find?_alter m key other _

theorem insert_same {m : SortedMap κ ν} {key : κ} {value : ν} (found : m.find? key = some value) : m.insert key value = m := by
  apply ext
  intro other
  rw [find?_insert]
  by_cases same : other = key
  · rw [if_pos same, same, found]
  · rw [if_neg same]

theorem find?_erase (m : SortedMap κ ν) (key other : κ) :
    (m.erase key).find? other = if other = key then none else m.find? other := by
  by_cases same : other = key
  · subst same
    simp [find?,erase,lookup_eq_none]
  · rw [if_neg same]
    apply Option.ext
    intro value
    rw [find?_eq_some, find?_eq_some]
    simp [erase,same]

/-- The values that `f` makes of those of a map; keys for which it makes none are dropped. -/
def filterMap {μ : Type} (m : SortedMap κ ν) (f : κ → ν → Option μ) : SortedMap κ μ where
  entries := m.entries.filterMap fun x => (f x.1 x.2).map (Prod.mk x.1)
  sorted := by
    rw [List.pairwise_filterMap]
    refine m.sorted.imp fun less x first y second => ?_
    obtain ⟨_,_,rfl⟩ := Option.map_eq_some_iff.mp first
    obtain ⟨_,_,rfl⟩ := Option.map_eq_some_iff.mp second
    exact less

theorem find?_filterMap {μ : Type} (m : SortedMap κ ν) (f : κ → ν → Option μ) (key : κ) :
    (m.filterMap f).find? key = (m.find? key).bind (f key) := by
  apply Option.ext
  intro value
  rw [find?_eq_some, Option.bind_eq_some_iff, filterMap, List.mem_filterMap]
  constructor
  · rintro ⟨⟨k,v⟩,member,made⟩
    obtain ⟨_,found,same⟩ := Option.map_eq_some_iff.mp made
    obtain ⟨rfl,rfl⟩ := Prod.mk.inj same
    exact ⟨v,find?_eq_some.mpr member,found⟩
  · rintro ⟨v,found,made⟩
    exact ⟨(key,v),find?_eq_some.mp found,by simp [made]⟩

/-- The entries with each value mapped are those of the map of these values. -/
theorem entries_filterMap_some {μ : Type} (m : SortedMap κ ν) (f : ν → μ) :
    (m.filterMap fun _ value => some (f value)).entries = m.entries.map fun x => (x.1,f x.2) := by
  simp [filterMap]

end SortedMap
