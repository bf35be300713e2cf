import Mathlib.Data.List.Basic
import Mathlib.Data.List.Forall2
import Mathlib.Data.List.Nodup

/-!
# Streams of batches

A stream of items that come in batches, each batch with a key. A stream that is cut anywhere has whole batches and a part of
one; if it is cut where a batch ends, it is the stream of the first batches.
-/

/-- Some items that belong together. -/
structure Batch (κ α : Type) where
  key : κ
  items : List α
deriving DecidableEq

/-- An item of a stream, and the items of its batch that come after it. -/
structure Line (κ α : Type) where
  key : κ
  item : α
  rest : List α

namespace Line
variable {κ α : Type}

/-- The lines of what is left of a batch. -/
def ofItems (key : κ) : List α → List (Line κ α)
  | [] => []
  | item :: rest => ⟨key,item,rest⟩ :: ofItems key rest

@[simp] theorem ofItems_nil (key : κ) : ofItems key ([] : List α) = [] := rfl

@[simp] theorem ofItems_cons (key : κ) (item : α) (rest : List α) :
    ofItems key (item :: rest) = ⟨key,item,rest⟩ :: ofItems key rest := rfl

theorem map_item_ofItems (key : κ) (items : List α) : (ofItems key items).map item = items := by
  induction items with
  | nil => rfl
  | cons item rest ih => simp [ih]

theorem mem_ofItems {key : κ} {items : List α} {line : Line κ α} (member : line ∈ ofItems key items) : line.key = key := by
  induction items with
  | nil => simp at member
  | cons item rest ih =>
    rcases List.mem_cons.mp member with rfl | later
    · rfl
    · exact ih later

theorem exists_last_ofItems (key : κ) {items : List α} (some : items ≠ []) :
    ∃ line ∈ ofItems key items, line.key = key ∧ line.rest = [] := by
  induction items with
  | nil => exact absurd rfl some
  | cons item rest ih =>
    by_cases last : rest = []
    · exact ⟨⟨key,item,rest⟩,by simp,rfl,last⟩
    · obtain ⟨line,member,ends⟩ := ih last
      exact ⟨line,List.mem_cons_of_mem _ member,ends⟩

/-- What is cut inside a batch does not end with it. -/
theorem ofItems_isPrefix {key : κ} {items : List α} {lines : List (Line κ α)} (part : lines <+: ofItems key items)
    (ends : ∀ last ∈ lines.getLast?, last.rest = []) : lines = [] ∨ lines = ofItems key items := by
  induction items generalizing lines with
  | nil => exact .inl (List.prefix_nil.mp part)
  | cons item rest ih =>
    cases lines with
    | nil => exact .inl rfl
    | cons first lines =>
      obtain ⟨rfl,inner⟩ := List.cons_prefix_cons.mp part
      right
      have later : ∀ last ∈ lines.getLast?, last.rest = [] := by
        intro last member
        apply ends last
        rw [Option.mem_def] at member ⊢
        rw [List.getLast?_cons, member]
        rfl
      rcases ih inner later with rfl | rfl
      · have nothing : rest = [] := ends ⟨key,item,rest⟩ rfl
        rw [nothing]
        rfl
      · rfl

/-- The lines of a stream. -/
def script (batches : List (Batch κ α)) : List (Line κ α) := batches.flatMap fun batch => ofItems batch.key batch.items

@[simp] theorem script_nil : script ([] : List (Batch κ α)) = [] := rfl

@[simp] theorem script_cons (batch : Batch κ α) (batches : List (Batch κ α)) :
    script (batch :: batches) = ofItems batch.key batch.items ++ script batches := rfl

theorem script_append (front back : List (Batch κ α)) : script (front ++ back) = script front ++ script back :=
  List.flatMap_append

theorem map_item_script (batches : List (Batch κ α)) : (script batches).map item = batches.flatMap Batch.items := by
  induction batches with
  | nil => rfl
  | cons batch batches ih => simp [ih,map_item_ofItems]

theorem mem_script {batches : List (Batch κ α)} {line : Line κ α} (member : line ∈ script batches) :
    line.key ∈ batches.map Batch.key := by
  obtain ⟨batch,known,member⟩ := List.mem_flatMap.mp member
  rw [mem_ofItems member]
  exact List.mem_map_of_mem known

theorem exists_last_script {batches : List (Batch κ α)} {batch : Batch κ α} (member : batch ∈ batches)
    (some : batch.items ≠ []) : ∃ line ∈ script batches, line.key = batch.key ∧ line.rest = [] := by
  obtain ⟨line,there,ends⟩ := exists_last_ofItems batch.key some
  exact ⟨line,List.mem_flatMap.mpr ⟨batch,member,there⟩,ends⟩

/-- A stream that is cut where a batch ends. -/
theorem script_isPrefix {batches : List (Batch κ α)} {lines : List (Line κ α)} (part : lines <+: script batches)
    (ends : ∀ last ∈ lines.getLast?, last.rest = []) : ∃ front, front <+: batches ∧ lines = script front := by
  induction batches generalizing lines with
  | nil => exact ⟨[],List.nil_prefix,List.prefix_nil.mp part⟩
  | cons batch batches ih =>
    rw [script_cons] at part
    rcases List.prefix_or_prefix_of_prefix part (List.prefix_append _ _) with inside | ⟨more,rfl⟩
    · rcases ofItems_isPrefix inside ends with rfl | rfl
      · exact ⟨[],List.nil_prefix,rfl⟩
      · exact ⟨[batch],by simp,by simp⟩
    · have later : ∀ last ∈ more.getLast?, last.rest = [] := by
        intro last member
        apply ends last
        rw [List.getLast?_append, Option.mem_def.mp member]
        rfl
      obtain ⟨front,first,rfl⟩ := ih ((List.prefix_append_right_inj _).mp part) later
      exact ⟨batch :: front,List.cons_prefix_cons.mpr ⟨rfl,first⟩,rfl⟩

end Line

/-- What is left of the batches where those with the keys of the first ones are left out. -/
theorem Batch.filter_rest {κ α : Type} [DecidableEq κ] {front back : List (Batch κ α)}
    (distinct : ((front ++ back).map Batch.key).Nodup) :
    (front ++ back).filter (fun batch => batch.key ∉ front.map Batch.key) = back := by
  rw [List.map_append, List.nodup_append] at distinct
  rw [List.filter_append]
  have none : front.filter (fun batch => batch.key ∉ front.map Batch.key) = [] := by
    rw [List.filter_eq_nil_iff]
    intro batch member
    simpa using ⟨batch,member,rfl⟩
  have all : back.filter (fun batch => batch.key ∉ front.map Batch.key) = back := by
    rw [List.filter_eq_self]
    intro batch member
    refine decide_eq_true fun known => ?_
    exact distinct.2.2 _ known _ (List.mem_map_of_mem member) rfl
  rw [none, all, List.nil_append]

/-- Where two lists are related item by item, so are their last items. -/
theorem forall₂_getLast? {α β : Type} {R : α → β → Prop} {first : List α} {second : List β}
    (related : List.Forall₂ R first second) {last : α} (member : last ∈ first.getLast?) :
    ∃ other ∈ second.getLast?, R last other := by
  induction related with
  | nil => simp at member
  | @cons a b first second head tail ih =>
    cases tail with
    | nil =>
      obtain rfl : a = last := by simpa using member
      exact ⟨b,rfl,head⟩
    | cons =>
      rw [List.getLast?_cons_cons] at member ⊢
      exact ih member

theorem forall₂_mem {α β : Type} {R : α → β → Prop} {first : List α} {second : List β}
    (related : List.Forall₂ R first second) {item : α} (member : item ∈ first) : ∃ other ∈ second, R item other := by
  induction related with
  | nil => simp at member
  | @cons a b first second head tail ih =>
    rcases List.mem_cons.mp member with rfl | later
    · exact ⟨b,by simp,head⟩
    · obtain ⟨other,known,same⟩ := ih later
      exact ⟨other,List.mem_cons_of_mem _ known,same⟩
