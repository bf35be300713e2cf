import BinlogServer.Util.Exceptions

/-!
# Computations on an object

A member function that may throw: it changes the state of its object, and what it has changed before an exception
stays changed.
-/

namespace BinlogServer.Util

/-- A computation on a state that may throw and keeps the state it threw in. -/
abbrev Action (σ : Type) := EStateM Failure σ

/-- A computation without a state as one with a state it does not touch. -/
def Action.ofFallible {σ α : Type} (x : Fallible α) : Action σ α := fun s =>
  match x with
  | .ok a => .ok a s
  | .error failure => .error failure s

instance {σ : Type} : MonadLift Fallible (Action σ) := ⟨Action.ofFallible⟩

namespace Action
variable {σ α β : Type} {s t : σ}

/-- The state a computation leaves behind, whether it threw or not. -/
def after (x : Action σ α) (s : σ) : σ :=
  match x s with
  | .ok _ t => t
  | .error _ t => t

theorem after_ok {x : Action σ α} {a : α} (run : x s = .ok a t) : x.after s = t := by
  simp [after,run]

theorem after_error {x : Action σ α} {failure : Failure} (run : x s = .error failure t) : x.after s = t := by
  simp [after,run]

/-- What follows a computation that returned runs in the state that it left. -/
theorem bind_of_ok {x : Action σ α} {f : α → Action σ β} {a : α} (run : x s = .ok a t) : (x >>= f) s = f a t := by
  simp only [bind, EStateM.bind, run]

@[simp] theorem bind_eq_ok {x : Action σ α} {f : α → Action σ β} {b : β} :
    (x >>= f) s = .ok b t ↔ ∃ a m, x s = .ok a m ∧ f a m = .ok b t := by
  simp only [bind, EStateM.bind]
  cases x s with
  | error failure m => simp
  | ok a m =>
    constructor
    · exact fun later => ⟨a,m,rfl,later⟩
    · rintro ⟨_,_,⟨⟩,later⟩
      exact later

@[simp] theorem bind_eq_error {x : Action σ α} {f : α → Action σ β} {failure : Failure} :
    (x >>= f) s = .error failure t ↔
      x s = .error failure t ∨ ∃ a m, x s = .ok a m ∧ f a m = .error failure t := by
  simp only [bind, EStateM.bind]
  cases x s with
  | error failure m => simp
  | ok a m =>
    constructor
    · exact fun later => .inr ⟨a,m,rfl,later⟩
    · rintro (before | ⟨_,_,⟨⟩,later⟩)
      · cases before
      · exact later

@[simp] theorem pure_eq_ok {a b : α} : (pure a : Action σ α) s = .ok b t ↔ a = b ∧ s = t := by
  simp [pure,EStateM.pure]

@[simp] theorem pure_ne_error {a : α} {failure : Failure} : ¬ (pure a : Action σ α) s = .error failure t := by
  simp [pure,EStateM.pure]

theorem get_run : (get : Action σ σ) s = .ok s s := rfl

/-- What follows runs with the state. -/
theorem get_bind_run (f : σ → Action σ α) : (get >>= f) s = f s s := rfl

theorem modify_run (f : σ → σ) : (modify f : Action σ PUnit) s = .ok () (f s) := rfl

@[simp] theorem get_eq_ok {a : σ} : (get : Action σ σ) s = .ok a t ↔ s = a ∧ s = t := by
  simp [get_run]

@[simp] theorem get_ne_error {failure : Failure} : ¬ (get : Action σ σ) s = .error failure t := by
  simp [get_run]

@[simp] theorem modify_eq_ok {f : σ → σ} {u : PUnit} : (modify f : Action σ PUnit) s = .ok u t ↔ f s = t := by
  simp [modify_run]

@[simp] theorem modify_ne_error {f : σ → σ} {failure : Failure} :
    ¬ (modify f : Action σ PUnit) s = .error failure t := by
  simp [modify_run]

@[simp] theorem lift_eq_ok {x : Fallible α} {a : α} :
    (liftM x : Action σ α) s = .ok a t ↔ x = .ok a ∧ s = t := by
  cases x <;> simp [liftM,MonadLiftT.monadLift,MonadLift.monadLift,ofFallible]

@[simp] theorem lift_eq_error {x : Fallible α} {failure : Failure} :
    (liftM x : Action σ α) s = .error failure t ↔ x = .error failure ∧ s = t := by
  cases x <;> simp [liftM,MonadLiftT.monadLift,MonadLift.monadLift,ofFallible]

theorem lift_ok_bind_run (a : α) (f : α → Action σ β) :
    ((liftM (.ok a : Fallible α) : Action σ α) >>= f) s = f a s := rfl

/-- A check raises in the state it is made in, or what follows runs in this state. -/
theorem raiseIf_bind_run (condition : Prop) [Decidable condition] (type : ExceptionType) (message : String)
    (f : Unit → Action σ α) : ((liftM (raiseIf condition type message) : Action σ Unit) >>= f) s =
      if condition then .error ⟨type,message⟩ s else f () s := by
  by_cases raised : condition
  · simp [raiseIf,raised]
  · simp only [raiseIf, raised, if_false]
    rfl

/-- What throws, throws in any state. -/
@[simp] theorem throw_ne_ok {failure : Failure} {a : α} : ¬ (throw failure : Action σ α) s = .ok a t := by
  intro returned
  cases returned

end Action
end BinlogServer.Util
