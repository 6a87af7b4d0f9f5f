/-
# Lifecycle

A server begins without an environment and then accepts only `make`.  Once an
environment was made, every method is accepted, and there is no way back.
-/
import Rollout.Rejection

namespace Rollout

/-- What a server accepts. -/
inductive Lifecycle where
  /-- No environment was made yet. -/
  | uninitialized
  /-- There is an environment. -/
  | ready
  deriving DecidableEq, Repr

namespace Lifecycle

/-- The name of a state. -/
def name : Lifecycle → String
  | .uninitialized => "Uninitialized"
  | .ready => "Ready"

/-- Rejects a method that is not accepted. -/
def accept : Lifecycle → Method → Except Rejection Unit
  | .ready, _ => .ok ()
  | .uninitialized, .make => .ok ()
  | .uninitialized, m => .error (.notReady m)

/-- The state after a method was carried out. -/
def after : Lifecycle → Method → Lifecycle
  | _, .make => .ready
  | s, _ => s

/-- Before an environment was made only `make` is accepted. -/
theorem accept_eq_ok_iff (s : Lifecycle) (m : Method) :
    s.accept m = .ok () ↔ s = .ready ∨ m = .make := by
  cases s <;> cases m <;> simp [accept]

/-- `make` is accepted in every state. -/
@[simp] theorem accept_make (s : Lifecycle) : s.accept .make = .ok () :=
  (s.accept_eq_ok_iff .make).mpr (Or.inr rfl)

@[simp] theorem after_make (s : Lifecycle) : s.after .make = .ready := by cases s <;> rfl

/-- Only `make` changes the state. -/
theorem after_of_ne_make (s : Lifecycle) {m : Method} (h : m ≠ .make) : s.after m = s := by
  cases m with
  | make => exact absurd rfl h
  | _ => cases s <;> rfl

end Lifecycle

end Rollout
