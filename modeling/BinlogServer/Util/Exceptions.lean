import Mathlib.Init

/-!
# Exceptions

`util::exception_location().raise<E>(message)` throws a standard exception with a message. A computation
that may throw is an `Except Failure`; an exception leaving a `noexcept` function ends the process, which
is the kind `terminate`.
-/

namespace BinlogServer.Util

/-- The exception classes the server throws. -/
inductive ExceptionType where
  | invalidArgument
  | logicError
  | runtimeError
  | outOfRange
  | lengthError
  | badAlloc
  | terminate
deriving Repr, DecidableEq

/-- A thrown exception: its class and its message. -/
structure Failure where
  type : ExceptionType
  message : String
deriving Repr, DecidableEq

abbrev Fallible := Except Failure

/-- `if (condition) { raise<type>(message); }` -/
def raiseIf (condition : Prop) [Decidable condition] (type : ExceptionType) (message : String) :
    Fallible Unit :=
  if condition then .error ⟨type,message⟩ else .ok ()

@[simp] theorem raiseIf_eq_ok {condition : Prop} [Decidable condition] {type : ExceptionType}
    {message : String} {u : Unit} : raiseIf condition type message = .ok u ↔ ¬ condition := by
  unfold raiseIf
  split <;> simp_all

@[simp] theorem bind_eq_ok {α β : Type _} {x : Fallible α} {f : α → Fallible β} {b : β} :
    (x >>= f) = .ok b ↔ ∃ a, x = .ok a ∧ f a = .ok b := by
  cases x <;> simp [bind,Except.bind]

theorem raiseIf_eq_error {condition : Prop} [Decidable condition] {type : ExceptionType} {message : String}
    {failure : Failure} : raiseIf condition type message = .error failure ↔ condition ∧ ⟨type,message⟩ = failure := by
  unfold raiseIf
  split <;> simp_all

theorem ok_bind {α β : Type _} (a : α) (f : α → Fallible β) : ((.ok a : Fallible α) >>= f) = f a := rfl

theorem raiseIf_bind {β : Type _} (condition : Prop) [Decidable condition] (type : ExceptionType) (message : String)
    (f : Unit → Fallible β) :
    (raiseIf condition type message >>= f) = if condition then .error ⟨type,message⟩ else f () := by
  unfold raiseIf
  split <;> rfl

theorem bind_eq_error {α β : Type _} {x : Fallible α} {f : α → Fallible β} {failure : Failure} :
    (x >>= f) = .error failure ↔ x = .error failure ∨ ∃ a, x = .ok a ∧ f a = .error failure := by
  cases x <;> simp [bind,Except.bind]

@[simp] theorem pure_eq_ok {α : Type _} {a b : α} : (pure a : Fallible α) = .ok b ↔ a = b := by
  simp [pure,Except.pure]

@[simp] theorem throw_ne_ok {α : Type _} {failure : Failure} {b : α} :
    ¬ (throw failure : Fallible α) = .ok b := by
  simp [throw,throwThe,MonadExceptOf.throw]

/-- A computation under `noexcept`: whatever it throws ends the process. -/
def noexcept {α : Type _} (x : Fallible α) : Fallible α :=
  match x with
  | .ok a => .ok a
  | .error failure => .error ⟨.terminate,failure.message⟩

@[simp] theorem noexcept_eq_ok {α : Type _} {x : Fallible α} {a : α} :
    noexcept x = .ok a ↔ x = .ok a := by
  cases x <;> simp [noexcept]

theorem noexcept_eq_error {α : Type _} {x : Fallible α} {failure : Failure} :
    noexcept x = .error failure ↔ ∃ raised, x = .error raised ∧ ⟨.terminate,raised.message⟩ = failure := by
  cases x <;> simp [noexcept]

end BinlogServer.Util
