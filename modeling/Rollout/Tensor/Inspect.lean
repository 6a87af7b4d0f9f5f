/-
# Tensors as text

The text shows a tensor as nested brackets, one row a line, and adds its shape,
the distance between neighbours along each axis and the kinds of contiguity.
From 500 elements on, the middle of long axes is left out.
-/
import Rollout.Tensor.Basic

namespace Rollout.Tensor

variable {α : Type}

/-! ## Long axes -/

/-- Number of elements from which the middle of long axes is left out. -/
def crowd : Nat := 500

/-- The longest axis shown in full, by its distance from the last one. -/
def axisLimit (fromLast : Nat) : Nat := if fromLast ≤ 1 then 11 else 6

/-- The items of an axis with the middle left out if it is longer than the limit. -/
def abridge (limit : Option Nat) (items : List String) : List String :=
  match limit with
  | none => items
  | some limit =>
    if items.length ≤ limit then items
    else items.take (limit / 2) ++ ["..."] ++ items.drop (items.length - limit / 2)

/-! ## Brackets -/

/-- The rows of `data` along the axes, `depth` levels inside. -/
def brackets (item : α → String) (full : Bool) : (shape : List Nat) → (depth : Nat) →
    (data : List α) → String
  | [], _, data => String.join (data.map item)
  | count :: inner, depth, data =>
    let limit := if full then none else some (axisLimit inner.length)
    let rows := (List.range count).map fun i =>
      brackets item full inner (depth + 1) ((data.drop (i * volume inner)).take (volume inner))
    let separator :=
      if inner.isEmpty then ", "
      else ",\n" ++ String.ofList (List.replicate (inner.length - 1) '\n')
        ++ String.ofList (List.replicate (depth + 1) ' ')
    "[" ++ String.intercalate separator (abridge limit rows) ++ "]"

/-- The elements in brackets; a tensor without elements shows one pair per axis. -/
def elementsText (item : α → String) (t : Tensor α) : String :=
  if t.data.isEmpty then
    String.ofList (List.replicate t.shape.length '[' ++ List.replicate t.shape.length ']')
  else brackets item (t.data.length < crowd) t.shape 0 t.data

/-! ## Layout -/

/-- The distance between neighbours along each axis; all zero without elements. -/
def strides (shape : List Nat) : List Nat :=
  if volume shape = 0 then shape.map fun _ => 0
  else (List.range shape.length).map fun i => volume (shape.drop (i + 1))

/-- The kinds of contiguity: row-major, and column-major too when at most one axis is longer
than one. -/
def layoutText (shape : List Nat) : String :=
  if (shape.filter (1 < ·)).length ≤ 1 then "CFcf (0xf)" else "Cc (0x5)"

/-- A tensor as text. -/
def inspect (item : α → String) (t : Tensor α) : String :=
  elementsText item t ++ ", shape=" ++ shapeText t.shape ++ ", strides="
    ++ shapeText (strides t.shape) ++ ", layout=" ++ layoutText t.shape
    ++ ", dynamic ndim=" ++ toString t.shape.length

end Rollout.Tensor
