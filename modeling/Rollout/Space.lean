/-
# Spaces and actions

A space describes the valid actions or observations of an environment: the
integers below a bound, or the tensors of one shape between bounds.  Actions are
checked against a space before an environment sees them.  Bounds are not part of
the check: an environment clips what lies outside.
-/
import Rollout.Numeric.Text
import Rollout.Tensor.Inspect

namespace Rollout

/-! ## Spaces -/

/-- A set of actions or observations. -/
inductive Space where
  /-- The integers from zero up to a bound. -/
  | discrete (size : Nat)
  /-- Tensors of a shape with bounds for each element, in row-major order. -/
  | box (low high : List Float32) (shape : List Nat)
  deriving DecidableEq

/-- Whether the members of a space are integers or tensors. -/
inductive SpaceKind where
  | discrete
  | continuous
  deriving DecidableEq, Repr

namespace Space

/-- The box of a shape with the same bounds everywhere. -/
def uniform (shape : List Nat) (low high : Float32) : Space :=
  .box (List.replicate (wordVolume shape) low) (List.replicate (wordVolume shape) high) shape

/-- The kind of the members. -/
def kind : Space → SpaceKind
  | .discrete _ => .discrete
  | .box .. => .continuous

/-- The name that clients see. -/
def typeName : Space → String
  | .discrete _ => "Discrete"
  | .box .. => "Box"

/-- The shape of a member; an integer has no axes. -/
def shape : Space → List Nat
  | .discrete _ => []
  | .box _ _ shape => shape

/-- The number of integers, or of elements of a tensor. -/
def size : Space → Nat
  | .discrete n => n
  | .box _ _ shape => wordVolume shape

/-- Whether two spaces agree; bounds are compared as numbers, so that both zeros agree and
not-a-number agrees with nothing. -/
def agrees : Space → Space → Bool
  | .discrete m, .discrete n => m == n
  | .box low high shape, .box low' high' shape' =>
    low == low' && high == high' && shape == shape'
  | _, _ => false

/-- The bounds of a box as text. -/
def boundsText (xs : List Float32) : String :=
  bracketed (xs.map (Numeric.float32Text .inspect))

/-- A space as text. -/
def inspect : Space → String
  | .discrete n => s!"Discrete \x7b n: {n} \x7d"
  | .box low high shape =>
    "Box \x7b low: " ++ boundsText low ++ ", high: " ++ boundsText high
      ++ ", shape: " ++ shapeText shape ++ " \x7d"

end Space

/-! ## Actions -/

/-- What is done to a single environment. -/
inductive Action where
  /-- An index into a discrete space. -/
  | discrete (index : Int)
  /-- A member of a box. -/
  | continuous (values : Tensor Numeric.Single)
  deriving DecidableEq

namespace Action

/-- An action as text. -/
def inspect : Action → String
  | .discrete i => "Discrete(" ++ Numeric.intText i ++ ")"
  | .continuous t => "Continuous(" ++ t.inspect (Numeric.singleText .inspect) ++ ")"

/-- Why an action does not belong to a space. -/
inductive Fault where
  /-- The index is not below the size. -/
  | outOfRange (size : Nat)
  /-- The shape is not the one of the box. -/
  | shape (got expected : List Nat)
  /-- The action is of the other kind. -/
  | kind (typeName : String)
  deriving DecidableEq, Repr

/-- The wording of an action fault. -/
def Fault.message : Fault → String
  | .outOfRange n => s!"out of range 0..{n}"
  | .shape got expected => s!"shape {shapeText got} differs from {shapeText expected}"
  | .kind name => s!"not a member of a {name} space"

end Action

/-- What is wrong with an action of the space, if anything. -/
def Space.fault? (s : Space) (a : Action) : Option Action.Fault :=
  match s, a with
  | .discrete n, .discrete i => if 0 ≤ i ∧ i < n then none else some (.outOfRange n)
  | .box _ _ shape, .continuous t => if t.shape = shape then none else some (.shape t.shape shape)
  | s, _ => some (.kind s.typeName)

/-- The actions of a discrete space are the indices below its size. -/
theorem Space.fault?_discrete_eq_none_iff {n : Nat} {a : Action} :
    (Space.discrete n).fault? a = none ↔ ∃ i : Nat, i < n ∧ a = .discrete i := by
  cases a with
  | discrete index =>
    rw [fault?]
    constructor
    · intro h
      split at h
      · rename_i hi
        refine ⟨index.toNat, by omega, ?_⟩
        rw [Int.toNat_of_nonneg hi.1]
      · cases h
    · rintro ⟨i, hi, h⟩
      cases h
      exact if_pos (by omega)
  | continuous values =>
    constructor
    · intro h
      cases h
    · rintro ⟨i, -, h⟩
      cases h

end Rollout
