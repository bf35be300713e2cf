import Mathlib.Data.List.DropRight

/-!
# Journals

Entries that are written through a buffer. A mark on an entry ends a group of entries: only whole groups leave the
buffer, and what is in the buffer after the last mark can be dropped.
-/

/-- A list that ends where a group ends. -/
def EndsMarked {α : Type} (mark : α → Bool) (entries : List α) : Prop := ∀ last ∈ entries.getLast?, mark last = true

theorem EndsMarked.append {α : Type} {mark : α → Bool} {front back : List α} (first : EndsMarked mark front)
    (second : EndsMarked mark back) : EndsMarked mark (front ++ back) := by
  intro last member
  rw [List.getLast?_append] at member
  cases ending : back.getLast? with
  | none => simp [ending] at member; exact first last member
  | some _ => simp [ending] at member; exact second last (by simp [ending,member])

/-- Dropping a group that has not ended does not go beyond the end of a group. -/
theorem EndsMarked.rdropWhile_append {α : Type} {mark : α → Bool} {front : List α} (ends : EndsMarked mark front)
    (back : List α) : (front ++ back).rdropWhile (!mark ·) = front ++ back.rdropWhile (!mark ·) := by
  induction back using List.reverseRecOn with
  | nil =>
    rw [List.append_nil, List.rdropWhile_nil, List.append_nil, List.rdropWhile_eq_self_iff]
    intro nonempty
    simp [ends _ (List.getLast?_eq_getLast_of_ne_nil nonempty)]
  | append_singleton back last ih =>
    rw [← List.append_assoc]
    cases marked : mark last with
    | true => rw [List.rdropWhile_concat_neg _ _ _ (by simp [marked]), List.rdropWhile_concat_neg _ _ _ (by simp [marked]),
        List.append_assoc]
    | false => rw [List.rdropWhile_concat_pos _ _ _ (by simp [marked]), List.rdropWhile_concat_pos _ _ _ (by simp [marked]), ih]

/-- A journal of entries: `kept` has left the buffer, `ready` is in it up to the last mark, `rest` is after it. -/
structure Journal {α : Type} (mark : α → Bool) where
  kept : List α
  ready : List α
  rest : List α
  kept_ends : EndsMarked mark kept
  ready_ends : EndsMarked mark ready
  rest_unmarked : ∀ entry ∈ rest, mark entry = false

namespace Journal
variable {α : Type} {mark : α → Bool}

def empty : Journal mark := ⟨[],[],[],by simp [EndsMarked],by simp [EndsMarked],by simp⟩

/-- The entries in the buffer. -/
def buffered (journal : Journal mark) : List α := journal.ready ++ journal.rest

/-- All entries, in the order in which they were written. -/
def held (journal : Journal mark) : List α := journal.kept ++ journal.buffered

def write (journal : Journal mark) (entry : α) : Journal mark :=
  if marked : mark entry = true then
    { journal with
      ready := journal.buffered ++ [entry]
      rest := []
      ready_ends := by simp [EndsMarked,marked]
      rest_unmarked := by simp }
  else
    { journal with
      rest := journal.rest ++ [entry]
      rest_unmarked := by
        intro other member
        rcases List.mem_append.mp member with old | new
        · exact journal.rest_unmarked other old
        · simpa [List.mem_singleton.mp new] using marked }

/-- The group that has not ended is dropped. -/
def discard (journal : Journal mark) : Journal mark := { journal with rest := [], rest_unmarked := by simp }

/-- The whole groups leave the buffer. -/
def flush (journal : Journal mark) : Journal mark :=
  { journal with
    kept := journal.kept ++ journal.ready
    ready := []
    kept_ends := journal.kept_ends.append journal.ready_ends
    ready_ends := by simp [EndsMarked] }

section
variable (journal : Journal mark) (entry : α)

@[simp] theorem write_kept : (journal.write entry).kept = journal.kept := by
  unfold write
  split <;> rfl

theorem write_marked (marked : mark entry = true) :
    (journal.write entry).ready = journal.buffered ++ [entry] ∧ (journal.write entry).rest = [] := by
  simp [write,marked]

theorem write_unmarked (unmarked : mark entry = false) :
    (journal.write entry).ready = journal.ready ∧ (journal.write entry).rest = journal.rest ++ [entry] := by
  simp [write,unmarked]

@[simp] theorem buffered_write : (journal.write entry).buffered = journal.buffered ++ [entry] := by
  cases marked : mark entry with
  | true => simp [buffered,journal.write_marked entry marked]
  | false => simp [buffered,journal.write_unmarked entry marked]

@[simp] theorem held_write : (journal.write entry).held = journal.held ++ [entry] := by
  simp [held]

@[simp] theorem held_flush : journal.flush.held = journal.held := by
  simp [held,buffered,flush]

/-- Dropping the group that has not ended leaves what was written up to the last mark. -/
theorem held_discard : journal.discard.held = journal.held.rdropWhile (!mark ·) := by
  have none : journal.rest.rdropWhile (!mark ·) = [] := by
    simpa [List.rdropWhile_eq_nil_iff] using journal.rest_unmarked
  have split : journal.held = journal.kept ++ journal.ready ++ journal.rest := by simp [held,buffered]
  rw [split, (journal.kept_ends.append journal.ready_ends).rdropWhile_append, none]
  simp [held,buffered,discard]

theorem kept_prefix_held : journal.kept <+: journal.held := ⟨journal.buffered,rfl⟩

end
end Journal
