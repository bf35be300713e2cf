import Mathlib.Data.List.FinRange
import Mathlib.Data.Set.Lattice
import Mathlib.Data.Fintype.Card

/-!
# Covers from the front

A set is to be covered by items of a list, each of which has some elements. Those that have an element which no item
before them has are enough, and where the items have nothing in common no cover can do without them.
-/

namespace Cover
open Classical

variable {α ρ : Type} (has : ρ → Set α)

/-- The item at this place has an element of the query that no item before it has. -/
def Fresh (items : List ρ) (query : Set α) (i : Fin items.length) : Prop :=
  ∃ x ∈ query, x ∈ has (items.get i) ∧ ∀ j < i, x ∉ has (items.get j)

/-- The places of these items, in order. -/
noncomputable def selected (items : List ρ) (query : Set α) : List (Fin items.length) :=
  (List.finRange items.length).filter fun i => Fresh has items query i

/-- The items at some places have all of the query. -/
def Covers (items : List ρ) (query : Set α) (places : Finset (Fin items.length)) : Prop :=
  ∀ x ∈ query, ∃ i ∈ places, x ∈ has (items.get i)

variable {has} {items : List ρ} {query : Set α}

theorem mem_selected {i : Fin items.length} : i ∈ selected has items query ↔ Fresh has items query i := by
  simp [selected]

theorem selected_empty (items : List ρ) : selected has items ∅ = [] := by
  simp [selected,Fresh]

theorem fresh_zero {first : ρ} {rest : List ρ} :
    Fresh has (first :: rest) query ⟨0,Nat.succ_pos rest.length⟩ ↔ (query ∩ has first).Nonempty := by
  constructor
  · rintro ⟨x,asked,here,-⟩
    exact ⟨x,asked,here⟩
  · rintro ⟨x,asked,here⟩
    exact ⟨x,asked,here,fun j before => absurd before (Nat.not_lt_zero j)⟩

/-- What the first item has is not looked for in the others. -/
theorem fresh_succ {first : ρ} {rest : List ρ} {i : Fin rest.length} :
    Fresh has (first :: rest) query i.succ ↔ Fresh has rest (query \ has first) i := by
  constructor
  · rintro ⟨x,asked,here,new⟩
    refine ⟨x,⟨asked,new 0 (Fin.succ_pos i)⟩,here,?_⟩
    intro j before
    exact new j.succ (Fin.succ_lt_succ_iff.mpr before)
  · rintro ⟨x,⟨asked,other⟩,here,new⟩
    refine ⟨x,asked,here,?_⟩
    intro j before
    cases j using Fin.cases with
    | zero => exact other
    | succ j => exact new j (Fin.succ_lt_succ_iff.mp before)

/-- The items that are selected, when the first one has been looked at. -/
theorem selected_cons (first : ρ) (rest : List ρ) (query : Set α) :
    (selected has (first :: rest) query).map (first :: rest).get =
      (if (query ∩ has first).Nonempty then [first] else []) ++
        (selected has rest (query \ has first)).map rest.get := by
  have places : List.finRange (first :: rest).length = ⟨0,Nat.succ_pos rest.length⟩ :: (List.finRange rest.length).map Fin.succ :=
    List.finRange_succ
  have later : ((List.finRange rest.length).map Fin.succ).filter (fun i => Fresh has (first :: rest) query i) =
      (selected has rest (query \ has first)).map Fin.succ := by
    rw [List.filter_map, selected]
    congr 1
    apply List.filter_congr
    intro i _
    simp only [Function.comp_apply, fresh_succ]
  rw [selected, places, List.filter_cons, later]
  by_cases asked : (query ∩ has first).Nonempty
  · rw [if_pos (decide_eq_true (fresh_zero.mpr asked)), if_pos asked, List.map_cons, List.map_map]
    rfl
  · rw [if_neg fun fresh => asked (fresh_zero.mp (of_decide_eq_true fresh)), if_neg asked, List.map_map]
    rfl

/-- What can be covered is covered by the selected items: each element is in the first item that has it. -/
theorem selected_covers (all : ∀ x ∈ query, ∃ item ∈ items, x ∈ has item) :
    Covers has items query (selected has items query).toFinset := by
  intro x asked
  obtain ⟨item,member,here⟩ := all x asked
  obtain ⟨i,rfl⟩ := List.get_of_mem member
  obtain ⟨first,there,least⟩ := wellFounded_lt.has_min {i | x ∈ has (items.get i)} ⟨i,here⟩
  refine ⟨first,List.mem_toFinset.mpr (mem_selected.mpr ⟨x,asked,there,?_⟩),there⟩
  intro j before earlier
  exact least j earlier before

/-- Where the items have nothing in common, every cover has the selected ones. -/
theorem selected_subset (disjoint : items.Pairwise fun a b => ∀ x ∈ has a, x ∉ has b)
    {places : Finset (Fin items.length)} (covers : Covers has items query places) :
    (selected has items query).toFinset ⊆ places := by
  intro i member
  obtain ⟨x,asked,here,-⟩ := mem_selected.mp (List.mem_toFinset.mp member)
  obtain ⟨j,inside,there⟩ := covers x asked
  obtain rfl : i = j := by
    by_contra differ
    rcases lt_or_gt_of_ne differ with before | before
    · exact List.pairwise_iff_get.mp disjoint i j before x here there
    · exact List.pairwise_iff_get.mp disjoint j i before x there here
  exact inside

end Cover
