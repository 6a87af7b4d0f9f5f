/-
# Tensors

A tensor is a shape with one element per index, in row-major order: the last
axis runs fastest.  Rows are the slices along the first axis, and `stack` is
their inverse.
-/
import Rollout.Numeric.Binary

namespace Rollout

/-! ## Shapes -/

/-- The number of indices of a shape. -/
def volume : List Nat → Nat
  | [] => 1
  | n :: rest => n * volume rest

/-- The number of indices as a 64-bit word holds it: what does not fit is cut off. -/
def wordVolume (shape : List Nat) : Nat := volume shape % 2 ^ 64

/-- A list of numbers in brackets. -/
def bracketed (items : List String) : String := "[" ++ String.intercalate ", " items ++ "]"

/-- A shape as text. -/
def shapeText (shape : List Nat) : String := bracketed (shape.map toString)

/-- Why tensors cannot be combined. -/
inductive ShapeFault where
  /-- The parts differ in shape. -/
  | incompatible
  /-- There are no parts. -/
  | unsupported
  deriving DecidableEq, Repr

/-- The wording of a shape fault. -/
def ShapeFault.message : ShapeFault → String
  | .incompatible => "ShapeError/IncompatibleShape: incompatible shapes"
  | .unsupported => "ShapeError/Unsupported: unsupported operation"

/-! ## Tensors -/

/-- A shape with one element per index, in row-major order. -/
structure Tensor (α : Type) where
  shape : List Nat
  data : List α
  length_data : data.length = volume shape
  deriving DecidableEq, Repr

namespace Tensor

variable {α β : Type}

/-- Two tensors with the same shape and elements are equal. -/
theorem ext {t u : Tensor α} (hs : t.shape = u.shape) (hd : t.data = u.data) : t = u := by
  cases t; cases u; simp_all

/-- The tensor of a shape that holds the same element everywhere. -/
def fill (shape : List Nat) (a : α) : Tensor α :=
  ⟨shape, List.replicate (volume shape) a, List.length_replicate⟩

/-- A tensor without axes. -/
def scalar (a : α) : Tensor α := ⟨[], [a], rfl⟩

/-- A tensor with one axis. -/
def vector (xs : List α) : Tensor α := ⟨[xs.length], xs, by simp [volume]⟩

/-- A tensor with one column. -/
def column (xs : List α) : Tensor α := ⟨[xs.length, 1], xs, by simp [volume]⟩

/-- The elements with a function applied. -/
def map (f : α → β) (t : Tensor α) : Tensor β :=
  ⟨t.shape, t.data.map f, by rw [List.length_map, t.length_data]⟩

/-- The tensor of a shape and its elements, if their number is right. -/
def ofData? (shape : List Nat) (data : List α) : Option (Tensor α) :=
  if h : data.length = volume shape then some ⟨shape, data, h⟩ else none

/-! ## Rows -/

/-- The slices of elements along a first axis of length `count`. -/
def slices (inner : List Nat) : (count : Nat) → (data : List α) →
    data.length = count * volume inner → List (Tensor α)
  | 0, _, _ => []
  | count + 1, data, h =>
    ⟨inner, data.take (volume inner), by
      rw [List.length_take, h, Nat.succ_mul]; omega⟩ ::
    slices inner count (data.drop (volume inner)) (by
      rw [List.length_drop, h, Nat.succ_mul]; omega)

/-- The slices along the first axis; a tensor without axes has none. -/
def rows : Tensor α → List (Tensor α)
  | ⟨[], _, _⟩ => []
  | ⟨count :: inner, data, h⟩ => slices inner count data h

/-- The length of the first axis, zero without one. -/
def leading (t : Tensor α) : Nat := t.shape.headD 0

/-- There are as many slices as were asked for. -/
@[simp] theorem length_slices (inner : List Nat) (count : Nat) (data : List α)
    (h : data.length = count * volume inner) : (slices inner count data h).length = count := by
  induction count generalizing data with
  | zero => rfl
  | succ count ih => simp [slices, ih]

/-- There are as many rows as the first axis is long. -/
@[simp] theorem length_rows (t : Tensor α) : t.rows.length = t.leading := by
  obtain ⟨shape, data, h⟩ := t
  cases shape with
  | nil => rfl
  | cons count inner => exact length_slices inner count data h

/-! ## Stacking -/

/-- The elements of tensors of one shape, one after another. -/
def concat (parts : List (Tensor α)) : List α := parts.flatMap Tensor.data

@[simp] theorem length_concat {inner : List Nat} {parts : List (Tensor α)}
    (h : ∀ p ∈ parts, p.shape = inner) : (concat parts).length = parts.length * volume inner := by
  induction parts with
  | nil => simp [concat]
  | cons p parts ih =>
    have hp : p.data.length = volume inner := by rw [p.length_data, h p (by simp)]
    have hr := ih fun q hq => h q (by simp [hq])
    simp only [concat] at hr ⊢
    rw [List.flatMap_cons, List.length_append, hp, hr, List.length_cons, Nat.succ_mul, Nat.add_comm]

/-- The tensors as rows of a new first axis; they must have one shape. -/
def stack : List (Tensor α) → Except ShapeFault (Tensor α)
  | [] => .error .unsupported
  | first :: rest =>
    if h : ∀ p ∈ first :: rest, p.shape = first.shape then
      .ok ⟨(first :: rest).length :: first.shape, concat (first :: rest), length_concat h⟩
    else .error .incompatible

end Tensor

end Rollout
