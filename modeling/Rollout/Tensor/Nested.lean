/-
# Nested lists

The form of a tensor on the wire: a scalar, or a list of nested lists, one level
per axis.  `Nested.ofTensor` writes a tensor as nested lists.  `Nested.toTensor`
reads one back: the shape is the one along the first elements, and every list of
a level must have the length that the shape says.
-/
import Rollout.Tensor.Basic

namespace Rollout

/-- A scalar or a list of nested lists. -/
inductive Nested (α : Type) where
  | scalar (a : α)
  | list (items : List (Nested α))
  deriving Repr

namespace Nested

variable {α : Type}

/-! ## From tensors -/

/-- The nested lists of elements in row-major order. -/
def ofRows : (shape : List Nat) → (data : List α) → Nested α
  | [], a :: _ => .scalar a
  | [], [] => .list []
  | count :: inner, data =>
    .list ((List.range count).map fun i =>
      ofRows inner ((data.drop (i * volume inner)).take (volume inner)))

/-- A tensor as nested lists, one level per axis. -/
def ofTensor (t : Tensor α) : Nested α := ofRows t.shape t.data

/-! ## To tensors -/

/-- The lengths of the lists along the first elements. -/
def shape : Nested α → List Nat
  | .scalar _ => []
  | .list [] => [0]
  | .list (first :: rest) => (rest.length + 1) :: shape first

mutual

/-- The scalars from left to right, if every list has the length that the shape says. -/
def flatten : Nested α → List Nat → Option (List α)
  | .scalar a, [] => some [a]
  | .list items, count :: inner =>
    if items.length = count then flattenAll items inner else none
  | _, _ => none

/-- The scalars of nested lists of one shape. -/
def flattenAll : List (Nested α) → List Nat → Option (List α)
  | [], _ => some []
  | first :: rest, inner =>
    match flatten first inner, flattenAll rest inner with
    | some xs, some ys => some (xs ++ ys)
    | _, _ => none

end

mutual

/-- Lists that are flattened give as many elements as their shape has indices. -/
theorem length_flatten : ∀ {n : Nested α} {s : List Nat} {xs : List α},
    flatten n s = some xs → xs.length = volume s
  | .scalar a, [], xs, h => by simp [flatten] at h; simp [← h, volume]
  | .scalar _, _ :: _, xs, h => by simp [flatten] at h
  | .list _, [], xs, h => by simp [flatten] at h
  | .list items, count :: inner, xs, h => by
    simp only [flatten] at h
    split at h
    · rename_i hc
      rw [length_flattenAll h, volume, hc]
    · simp at h

/-- Items that are flattened one after another give as many elements as all their shapes together. -/
theorem length_flattenAll : ∀ {ns : List (Nested α)} {s : List Nat} {xs : List α},
    flattenAll ns s = some xs → xs.length = ns.length * volume s
  | [], s, xs, h => by simp [flattenAll] at h; simp [← h]
  | first :: rest, s, xs, h => by
    simp only [flattenAll] at h
    split at h
    · rename_i as bs ha hb
      have h1 := length_flatten ha
      have h2 := length_flattenAll hb
      simp only [Option.some.injEq] at h
      rw [← h, List.length_append, h1, h2, List.length_cons, Nat.succ_mul, Nat.add_comm]
    · simp at h

end

/-- Why nested lists are no tensor. -/
inductive Fault where
  /-- Two lists of one level differ in length or in kind. -/
  | ragged
  /-- The shape along the first elements claims more memory than can be reserved. -/
  | capacity
  deriving DecidableEq, Repr

/-- Whether room for so many elements of eight bytes can be reserved. -/
def reservable (count : Nat) : Bool := 8 * count < 2 ^ 63

/-- The tensor of nested lists.  Before they are checked, room is reserved for as many elements as
their shape claims.  The number is multiplied up in a word without a check of its own, so of a
product that is too large for the word only what `wordVolume` leaves of it is reserved.  Rectangular
lists hold as many scalars as their shape says, so only ragged ones can claim memory that nobody
has. -/
def toTensor (n : Nested α) : Except Fault (Tensor α) :=
  match h : flatten n n.shape with
  | some data => .ok ⟨n.shape, data, length_flatten h⟩
  | none => .error (if reservable (wordVolume n.shape) then .ragged else .capacity)

end Nested

end Rollout
