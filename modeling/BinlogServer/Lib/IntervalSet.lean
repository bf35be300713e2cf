import Mathlib.Data.List.Basic
import Mathlib.Order.Lattice

/-!
# Sets of natural numbers as joined half-open intervals

The intervals of a set stand in increasing order and neither overlap nor touch, so two equal sets have
the same intervals.
-/

/-- A finite union of half-open intervals: nonempty, in increasing order, with a gap between neighbours. -/
structure IntervalSet where
  intervals : List (Nat × Nat)
  nonempty : ∀ x ∈ intervals, x.1 < x.2
  apart : intervals.Pairwise (fun x y => x.2 < y.1)
deriving DecidableEq

namespace IntervalSet

def empty : IntervalSet := ⟨[],by simp,List.Pairwise.nil⟩

instance : Membership Nat IntervalSet := ⟨fun s x => ∃ i ∈ s.intervals, i.1 ≤ x ∧ x < i.2⟩

theorem mem_def {s : IntervalSet} {x : Nat} : x ∈ s ↔ ∃ i ∈ s.intervals, i.1 ≤ x ∧ x < i.2 := Iff.rfl

instance (s : IntervalSet) (x : Nat) : Decidable (x ∈ s) :=
  inferInstanceAs (Decidable (∃ i ∈ s.intervals, i.1 ≤ x ∧ x < i.2))

/-- The intervals with `[lower,upper)` joined to those it overlaps or touches. -/
def insertInterval (lower upper : Nat) : List (Nat × Nat) → List (Nat × Nat)
  | [] => [(lower,upper)]
  | (a,b) :: rest =>
    if upper < a then (lower,upper) :: (a,b) :: rest
    else if b < lower then (a,b) :: insertInterval lower upper rest
    else insertInterval (min lower a) (max upper b) rest

private theorem insertInterval_bounds {lower upper : Nat} {l : List (Nat × Nat)} (proper : lower < upper)
    (nonempty : ∀ x ∈ l, x.1 < x.2) : ∀ x ∈ insertInterval lower upper l, x.1 < x.2 := by
  induction l generalizing lower upper with
  | nil => simpa [insertInterval] using proper
  | cons i rest ih =>
    obtain ⟨a,b⟩ := i
    have first : a < b := nonempty (a,b) (by simp)
    have others : ∀ x ∈ rest, x.1 < x.2 := fun x member => nonempty x (by simp [member])
    simp only [insertInterval]
    split
    · intro x member
      rcases List.mem_cons.mp member with rfl | member
      · exact proper
      · exact nonempty x member
    · split
      · intro x member
        rcases List.mem_cons.mp member with rfl | member
        · exact first
        · exact ih proper others x member
      · exact ih (by omega) others

private theorem insertInterval_above {c lower upper : Nat} {l : List (Nat × Nat)} (bound : c < lower)
    (above : ∀ x ∈ l, c < x.1) : ∀ x ∈ insertInterval lower upper l, c < x.1 := by
  induction l generalizing lower upper with
  | nil => simpa [insertInterval] using bound
  | cons i rest ih =>
    obtain ⟨a,b⟩ := i
    have first : c < a := above (a,b) (by simp)
    have others : ∀ x ∈ rest, c < x.1 := fun x member => above x (by simp [member])
    simp only [insertInterval]
    split
    · intro x member
      rcases List.mem_cons.mp member with rfl | member
      · exact bound
      · exact above x member
    · split
      · intro x member
        rcases List.mem_cons.mp member with rfl | member
        · exact first
        · exact ih bound others x member
      · exact ih (by omega) others

private theorem insertInterval_apart {lower upper : Nat} {l : List (Nat × Nat)}
    (apart : l.Pairwise (fun x y => x.2 < y.1)) (nonempty : ∀ x ∈ l, x.1 < x.2) :
    (insertInterval lower upper l).Pairwise (fun x y => x.2 < y.1) := by
  induction l generalizing lower upper with
  | nil => simp [insertInterval]
  | cons i rest ih =>
    obtain ⟨a,b⟩ := i
    obtain ⟨gap,tail⟩ := List.pairwise_cons.mp apart
    have first : a < b := nonempty (a,b) (by simp)
    have others : ∀ x ∈ rest, x.1 < x.2 := fun x member => nonempty x (by simp [member])
    simp only [insertInterval]
    split
    · rename_i below
      refine List.pairwise_cons.mpr ⟨?_,apart⟩
      intro x member
      rcases List.mem_cons.mp member with rfl | member
      · exact below
      · have := gap x member
        omega
    · split
      · rename_i after
        exact List.pairwise_cons.mpr ⟨insertInterval_above after gap,ih tail others⟩
      · exact ih tail others

private theorem mem_insertInterval {lower upper x : Nat} {l : List (Nat × Nat)} (proper : lower < upper)
    (nonempty : ∀ x ∈ l, x.1 < x.2) :
    (∃ i ∈ insertInterval lower upper l, i.1 ≤ x ∧ x < i.2) ↔
      (lower ≤ x ∧ x < upper) ∨ ∃ i ∈ l, i.1 ≤ x ∧ x < i.2 := by
  induction l generalizing lower upper with
  | nil => simp [insertInterval]
  | cons i rest ih =>
    obtain ⟨a,b⟩ := i
    have first : a < b := nonempty (a,b) (by simp)
    have others : ∀ x ∈ rest, x.1 < x.2 := fun x member => nonempty x (by simp [member])
    simp only [insertInterval]
    split
    · simp
    · split
      · simp only [List.exists_mem_cons_iff, ih proper others]
        tauto
      · -- the two intervals overlap or touch: together they are one
        rw [ih (by omega) others, List.exists_mem_cons_iff, ← or_assoc]
        refine or_congr_left ?_
        simp only
        omega

/-- The set with `[lower,upper)` added; an interval that is not proper adds nothing. -/
def add (s : IntervalSet) (lower upper : Nat) : IntervalSet :=
  if proper : lower < upper then
    ⟨insertInterval lower upper s.intervals,insertInterval_bounds proper s.nonempty,
      insertInterval_apart s.apart s.nonempty⟩
  else s

theorem mem_add {s : IntervalSet} {lower upper x : Nat} :
    x ∈ s.add lower upper ↔ (lower ≤ x ∧ x < upper) ∨ x ∈ s := by
  unfold add
  split
  · rename_i proper
    exact mem_insertInterval proper s.nonempty
  · constructor
    · exact .inr
    · rintro (inside | member)
      · omega
      · exact member

def union (s t : IntervalSet) : IntervalSet := t.intervals.foldl (fun acc i => acc.add i.1 i.2) s

theorem mem_foldl_add {l : List (Nat × Nat)} {s : IntervalSet} {x : Nat} :
    x ∈ l.foldl (fun acc i => acc.add i.1 i.2) s ↔ x ∈ s ∨ ∃ i ∈ l, i.1 ≤ x ∧ x < i.2 := by
  induction l generalizing s with
  | nil => simp
  | cons i rest ih =>
    rw [List.foldl_cons, ih, mem_add, List.exists_mem_cons_iff]
    tauto

theorem mem_union {s t : IntervalSet} {x : Nat} : x ∈ s.union t ↔ x ∈ s ∨ x ∈ t := mem_foldl_add

@[simp] theorem not_mem_empty (x : Nat) : x ∉ empty := by simp [mem_def,empty]

/-- An interval beyond all others goes to the end. -/
theorem insertInterval_append {lower upper : Nat} {l : List (Nat × Nat)} (nonempty : ∀ x ∈ l, x.1 < x.2)
    (proper : lower < upper) (after : ∀ x ∈ l, x.2 < lower) :
    insertInterval lower upper l = l ++ [(lower,upper)] := by
  induction l with
  | nil => rfl
  | cons i rest ih =>
    have first := nonempty i (by simp)
    have beyond := after i (by simp)
    rw [insertInterval, if_neg (by omega), if_pos beyond, List.cons_append,
      ih (fun x member => nonempty x (by simp [member])) (fun x member => after x (by simp [member]))]

@[ext] theorem ext_intervals {s t : IntervalSet} (same : s.intervals = t.intervals) : s = t := by
  cases s
  cases t
  congr

private theorem foldl_add_intervals (rest : List (Nat × Nat)) (s : IntervalSet) (proper : ∀ x ∈ rest, x.1 < x.2)
    (ordered : (s.intervals ++ rest).Pairwise fun x y => x.2 < y.1) :
    (rest.foldl (fun acc i => acc.add i.1 i.2) s).intervals = s.intervals ++ rest := by
  induction rest generalizing s with
  | nil => simp
  | cons i rest ih =>
    have here : i.1 < i.2 := proper i (by simp)
    have after : ∀ x ∈ s.intervals, x.2 < i.1 := fun x member =>
      (List.pairwise_append.mp ordered).2.2 x member i (by simp)
    have step : (s.add i.1 i.2).intervals = s.intervals ++ [i] := by
      rw [add, dif_pos here]
      exact insertInterval_append s.nonempty here after
    rw [List.foldl_cons, ih _ (fun x member => proper x (by simp [member])) (by simpa [step] using ordered), step]
    simp

/-- Adding the intervals of a set to nothing gives the set back. -/
theorem empty_union (t : IntervalSet) : empty.union t = t := by
  refine ext_intervals ?_
  rw [union, foldl_add_intervals t.intervals empty t.nonempty (by simpa [empty] using t.apart)]
  simp [empty]

/-- What `[lower,upper)` leaves of an interval: a part before it and a part after it. -/
def residuals (lower upper : Nat) (i : Nat × Nat) : List (Nat × Nat) :=
  (if i.1 < min i.2 lower then [(i.1,min i.2 lower)] else []) ++
    if max i.1 upper < i.2 then [(max i.1 upper,i.2)] else []

private theorem mem_residuals {lower upper : Nat} {i j : Nat × Nat} (member : j ∈ residuals lower upper i) :
    j.1 < j.2 ∧ i.1 ≤ j.1 ∧ j.2 ≤ i.2 := by
  rcases List.mem_append.mp member with left | right
  · split at left
    · rw [List.mem_singleton.mp left]
      exact ⟨‹_›,le_rfl,min_le_left _ _⟩
    · cases left
  · split at right
    · rw [List.mem_singleton.mp right]
      exact ⟨‹_›,le_max_left _ _,le_rfl⟩
    · cases right

private theorem exists_residuals {lower upper x : Nat} (i : Nat × Nat) :
    (∃ j ∈ residuals lower upper i, j.1 ≤ x ∧ x < j.2) ↔ (i.1 ≤ x ∧ x < i.2) ∧ (x < lower ∨ upper ≤ x) := by
  have left : (∃ j ∈ (if i.1 < min i.2 lower then [(i.1,min i.2 lower)] else []), j.1 ≤ x ∧ x < j.2) ↔
      (i.1 ≤ x ∧ x < i.2) ∧ x < lower := by
    split <;> simp <;> omega
  have right : (∃ j ∈ (if max i.1 upper < i.2 then [(max i.1 upper,i.2)] else []), j.1 ≤ x ∧ x < j.2) ↔
      (i.1 ≤ x ∧ x < i.2) ∧ upper ≤ x := by
    split <;> simp <;> omega
  rw [residuals]
  simp only [List.mem_append, or_and_right, exists_or]
  rw [left, right, ← and_or_left]

private theorem residuals_apart {lower upper : Nat} (proper : lower < upper) {l : List (Nat × Nat)}
    (apart : l.Pairwise (fun x y => x.2 < y.1)) :
    (l.flatMap (residuals lower upper)).Pairwise (fun x y => x.2 < y.1) := by
  rw [List.pairwise_flatMap]
  refine ⟨fun i _ => ?_,apart.imp fun {x y} gap j left k right => ?_⟩
  · rw [residuals, List.pairwise_append]
    refine ⟨by split <;> simp,by split <;> simp,fun j left k right => ?_⟩
    split at left
    · split at right
      · rw [List.mem_singleton.mp left, List.mem_singleton.mp right]
        simp only
        omega
      · cases right
    · cases left
  · have := (mem_residuals left).2.2
    have := (mem_residuals right).2.1
    omega

/-- The set with `[lower,upper)` taken out; an interval that is not proper takes nothing. -/
def erase (s : IntervalSet) (lower upper : Nat) : IntervalSet :=
  if proper : lower < upper then
    ⟨s.intervals.flatMap (residuals lower upper),
      fun j member => by
        obtain ⟨i,-,inside⟩ := List.mem_flatMap.mp member
        exact (mem_residuals inside).1,
      residuals_apart proper s.apart⟩
  else s

theorem mem_erase {s : IntervalSet} {lower upper x : Nat} :
    x ∈ s.erase lower upper ↔ x ∈ s ∧ ¬ (lower ≤ x ∧ x < upper) := by
  have outside : ¬ (lower ≤ x ∧ x < upper) ↔ x < lower ∨ upper ≤ x := by omega
  unfold erase
  split
  · rw [mem_def, mem_def, outside]
    simp only [List.mem_flatMap]
    constructor
    · rintro ⟨j,⟨i,member,inside⟩,bounds⟩
      obtain ⟨here,apart⟩ := (exists_residuals i).mp ⟨j,inside,bounds⟩
      exact ⟨⟨i,member,here⟩,apart⟩
    · rintro ⟨⟨i,member,here⟩,apart⟩
      obtain ⟨j,inside,bounds⟩ := (exists_residuals i).mpr ⟨here,apart⟩
      exact ⟨j,⟨i,member,inside⟩,bounds⟩
  · exact ⟨fun member => ⟨member,by omega⟩,And.left⟩

def difference (s t : IntervalSet) : IntervalSet := t.intervals.foldl (fun acc i => acc.erase i.1 i.2) s

theorem mem_difference {s t : IntervalSet} {x : Nat} : x ∈ s.difference t ↔ x ∈ s ∧ x ∉ t := by
  have fold : ∀ (l : List (Nat × Nat)) (acc : IntervalSet),
      x ∈ l.foldl (fun acc i => acc.erase i.1 i.2) acc ↔ x ∈ acc ∧ ¬ ∃ i ∈ l, i.1 ≤ x ∧ x < i.2 := by
    intro l
    induction l with
    | nil => simp
    | cons i rest ih =>
      intro acc
      rw [List.foldl_cons, ih, mem_erase, List.exists_mem_cons_iff, not_or, and_assoc]
  exact fold t.intervals s

/-- Two sets have an element in common. -/
def intersects (s t : IntervalSet) : Bool :=
  s.intervals.any fun i => t.intervals.any fun j => i.1 < j.2 && j.1 < i.2

theorem intersects_iff {s t : IntervalSet} : s.intersects t = true ↔ ∃ x, x ∈ s ∧ x ∈ t := by
  simp only [intersects, List.any_eq_true, Bool.and_eq_true, decide_eq_true_eq, mem_def]
  constructor
  · rintro ⟨i,left,j,right,below,above⟩
    have := s.nonempty i left
    have := t.nonempty j right
    exact ⟨max i.1 j.1,⟨i,left,by omega,by omega⟩,⟨j,right,by omega,by omega⟩⟩
  · rintro ⟨x,⟨i,left,inside⟩,⟨j,right,within⟩⟩
    exact ⟨i,left,j,right,by omega,by omega⟩

theorem intervals_eq_nil {s : IntervalSet} : s.intervals = [] ↔ ∀ x, x ∉ s := by
  constructor
  · rintro none x ⟨i,member,-⟩
    rw [none] at member
    cases member
  · intro none
    cases shape : s.intervals with
    | nil => rfl
    | cons i rest =>
      have member : i ∈ s.intervals := by simp [shape]
      exact absurd ⟨i,member,le_rfl,s.nonempty i member⟩ (none i.1)

private theorem intervals_ext {l r : List (Nat × Nat)} (left : ∀ x ∈ l, x.1 < x.2) (right : ∀ x ∈ r, x.1 < x.2)
    (apart : l.Pairwise (fun x y => x.2 < y.1)) (others : r.Pairwise (fun x y => x.2 < y.1))
    (same : ∀ x, (∃ i ∈ l, i.1 ≤ x ∧ x < i.2) ↔ ∃ i ∈ r, i.1 ≤ x ∧ x < i.2) : l = r := by
  -- the first interval is told by its least number and by the first number after it that is missing
  induction l generalizing r with
  | nil =>
    cases r with
    | nil => rfl
    | cons j rest => exact absurd ((same j.1).mpr ⟨j,by simp,le_rfl,right j (by simp)⟩) (by simp)
  | cons i rest ih =>
    cases r with
    | nil => exact absurd ((same i.1).mp ⟨i,by simp,le_rfl,left i (by simp)⟩) (by simp)
    | cons j more =>
      obtain ⟨gap,tail⟩ := List.pairwise_cons.mp apart
      obtain ⟨space,end_⟩ := List.pairwise_cons.mp others
      have first := left i (by simp)
      have second := right j (by simp)
      have split : ∀ x, ((i.1 ≤ x ∧ x < i.2) ∨ ∃ k ∈ rest, k.1 ≤ x ∧ x < k.2) ↔
          (j.1 ≤ x ∧ x < j.2) ∨ ∃ k ∈ more, k.1 ≤ x ∧ x < k.2 := fun x => by simpa using same x
      have after : ∀ x, (∃ k ∈ rest, k.1 ≤ x ∧ x < k.2) → i.2 < x := by
        rintro x ⟨k,member,here,-⟩
        have := gap k member
        omega
      have beyond : ∀ x, (∃ k ∈ more, k.1 ≤ x ∧ x < k.2) → j.2 < x := by
        rintro x ⟨k,member,here,-⟩
        have := space k member
        omega
      have lower : i.1 = j.1 := by
        have here := (split i.1).mp (.inl ⟨le_rfl,first⟩)
        have there := (split j.1).mpr (.inl ⟨le_rfl,second⟩)
        have := here.imp_right (beyond i.1)
        have := there.imp_right (after j.1)
        omega
      have upper : i.2 = j.2 := by
        by_contra differ
        rcases Nat.lt_or_gt_of_ne differ with short | long
        · have there := (split i.2).mpr (.inl ⟨by omega,short⟩)
          have := there.imp_right (after i.2)
          omega
        · have here := (split j.2).mp (.inl ⟨by omega,long⟩)
          have := here.imp_right (beyond j.2)
          omega
      have rests : ∀ x, (∃ k ∈ rest, k.1 ≤ x ∧ x < k.2) ↔ ∃ k ∈ more, k.1 ≤ x ∧ x < k.2 := by
        intro x
        constructor
        · intro there
          have := after x there
          exact ((split x).mp (.inr there)).resolve_left (by omega)
        · intro there
          have := beyond x there
          exact ((split x).mpr (.inr there)).resolve_left (by omega)
      rw [Prod.ext lower upper, ih (fun x member => left x (by simp [member]))
        (fun x member => right x (by simp [member])) tail end_ rests]

/-- A set is determined by its elements. -/
theorem ext_mem {s t : IntervalSet} (same : ∀ x, x ∈ s ↔ x ∈ t) : s = t :=
  ext_intervals (intervals_ext s.nonempty t.nonempty s.apart t.apart same)

/-- There are no more intervals than numbers they could lie in. -/
theorem length_intervals_le {s : IntervalSet} {bound : Nat} (inside : ∀ i ∈ s.intervals, i.2 ≤ bound) :
    s.intervals.length ≤ bound := by
  have count : ∀ (l : List (Nat × Nat)) (start : Nat), (∀ i ∈ l, start ≤ i.1 ∧ i.1 < i.2 ∧ i.2 ≤ bound) →
      l.Pairwise (fun x y => x.2 < y.1) → start + l.length ≤ max start bound := by
    intro l
    induction l with
    | nil => intro start _ _; exact le_max_left _ _
    | cons i rest ih =>
      intro start fits apart
      obtain ⟨first,others⟩ := List.forall_mem_cons.mp fits
      obtain ⟨after,apart⟩ := List.pairwise_cons.mp apart
      have rest := ih i.2 (fun j member => ⟨(after j member).le,(others j member).2⟩) apart
      rw [List.length_cons]
      omega
  have whole := count s.intervals 0 (fun i member => ⟨Nat.zero_le _,s.nonempty i member,inside i member⟩) s.apart
  omega

end IntervalSet
