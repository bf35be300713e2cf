import Mathlib.Order.Iterate
import Mathlib.Order.Lattice

/-!
# Iterations that come to rest

A function whose values depend only on a level of their arguments, and grow with it, is iterated. The values go in one
direction, and so do their levels; as soon as a level repeats, the next value is a fixed point. With finitely many
levels this happens within as many rounds as there are levels.
-/

namespace Iteration

/-- How a function depends on the levels of its arguments, among those that are reached. -/
structure Levelled {α : Type} [LinearOrder α] (f : α → α) (level : α → Nat) (reached : α → Prop) : Prop where
  closed : ∀ x, reached x → reached (f x)
  level_mono : ∀ x y, reached x → reached y → x ≤ y → level x ≤ level y
  value_mono : ∀ x y, reached x → reached y → level x ≤ level y → f x ≤ f y

namespace Levelled
variable {α : Type} [LinearOrder α] {f : α → α} {level : α → Nat} {reached : α → Prop} {x : α}

/-- A level that repeats is the last one. -/
theorem fixed_of_level (levelled : Levelled f level reached) (start : reached x) (same : level (f x) = level x) :
    f (f x) = f x := by
  have next := levelled.closed x start
  apply le_antisymm
  · exact levelled.value_mono _ _ next start same.le
  · exact levelled.value_mono _ _ start next same.ge

/-- Where every round either repeats the level or leaves fewer levels to go, the rounds that are left are enough. -/
theorem fixed_of_remaining (levelled : Levelled f level reached) {direction : α → Prop} {remaining : α → Nat}
    (round : ∀ y, reached y → direction y → direction (f y) ∧ (level (f y) = level y ∨ remaining (f y) < remaining y))
    {rounds : Nat} (start : reached x) (goes : direction x) (enough : remaining x ≤ rounds) :
    f (f^[rounds + 1] x) = f^[rounds + 1] x := by
  induction rounds generalizing x with
  | zero =>
    rcases (round x start goes).2 with same | fewer
    · exact levelled.fixed_of_level start same
    · omega
  | succ rounds ih =>
    obtain ⟨on,same | fewer⟩ := round x start goes
    · have fixed := levelled.fixed_of_level start same
      rw [Function.iterate_succ_apply, Function.iterate_fixed fixed, fixed]
    · rw [Function.iterate_succ_apply]
      exact ih (levelled.closed x start) on (by omega)

/-- With the levels from `least` to `most` there are at most as many rounds as there are levels. -/
theorem iterate_fixed (levelled : Levelled f level reached) {least most : Nat}
    (bounds : ∀ y, reached y → least ≤ level y ∧ level y ≤ most) (start : reached x) :
    f (f^[most - least + 1] x) = f^[most - least + 1] x := by
  obtain ⟨low,high⟩ := bounds x start
  rcases le_total x (f x) with up | down
  · refine @fixed_of_remaining _ _ _ _ _ _ levelled (fun y => y ≤ f y) (fun y => most - level y) ?_ _ start up (by omega)
    intro y member goes
    have next := levelled.closed y member
    have higher := levelled.level_mono y (f y) member next goes
    have above := (bounds _ next).2
    exact ⟨levelled.value_mono y (f y) member next higher,by omega⟩
  · refine @fixed_of_remaining _ _ _ _ _ _ levelled (fun y => f y ≤ y) (fun y => level y - least) ?_ _ start down (by omega)
    intro y member goes
    have next := levelled.closed y member
    have lower := levelled.level_mono (f y) y next member goes
    have above := (bounds _ next).1
    exact ⟨levelled.value_mono (f y) y next member lower,by omega⟩

end Levelled
end Iteration
