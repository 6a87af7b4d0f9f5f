/-
# Tensors as values

`Value.Holds` says what it means that a value holds the elements of a tensor: a tensor
without axes is one leaf, and any other one an array of its rows, in order.  The
nested lists of a tensor hold its elements: `holds_ofTensor`.
-/
import Rollout.Proofs.NestedValues

namespace Rollout

open MsgPack (Value)

variable {α : Type}

/-! ## Values of a shape -/

/-- The value holds elements in row-major order as lists nested one level per axis.  Every row
along the first axis comes with the value that holds it. -/
inductive MsgPack.Value.Holds (leaf : α → Value) :
    (shape : List Nat) → (data : List α) → Value → Prop
  | scalar (a : α) : Holds leaf [] [a] (leaf a)
  | list {inner : List Nat} (rows : List (List α × Value))
    (all : ∀ row ∈ rows, Holds leaf inner row.1 row.2) :
    Holds leaf (rows.length :: inner) (rows.flatMap Prod.fst) (.array (rows.map Prod.snd))

/-- A value holds rows that its items hold one by one. -/
theorem MsgPack.Value.Holds.range {leaf : α → Value} {inner : List Nat} {count : Nat}
    {row : Nat → List α} {item : Nat → Value} (h : ∀ i < count, Holds leaf inner (row i) (item i)) :
    Holds leaf (count :: inner) ((List.range count).flatMap row)
      (.array ((List.range count).map item)) := by
  have hall : ∀ p ∈ (List.range count).map fun i => (row i, item i), Holds leaf inner p.1 p.2 := by
    intro p hp
    obtain ⟨i, hi, rfl⟩ := List.mem_map.mp hp
    exact h i (List.mem_range.mp hi)
  have hrows := Holds.list _ hall
  rwa [List.length_map, List.length_range, List.flatMap_map, List.map_map] at hrows

/-- A tensor has at most a hundred axes, and their lengths can be written. -/
def Tensor.Fits (t : Tensor α) : Prop :=
  t.shape.length ≤ 100 ∧ ∀ n ∈ t.shape, n < 2 ^ 32

/-! ## Rows of elements -/

namespace Nested

variable {inner : List Nat} {count : Nat} {data : List α}

/-- The elements of row `i` when every row has `width` of them. -/
def chunk (width : Nat) (data : List α) (i : Nat) : List α :=
  (data.drop (i * width)).take width

@[simp] theorem length_chunk {width i : Nat} (h : data.length = count * width) (hi : i < count) :
    (chunk width data i).length = width := by
  have hle : (i + 1) * width ≤ count * width := Nat.mul_le_mul_right width hi
  rw [Nat.succ_mul] at hle
  rw [chunk, List.length_take, List.length_drop, h]
  omega

/-- The rows are the elements, cut after every row. -/
@[simp] theorem flatMap_chunk {width : Nat} (h : data.length = count * width) :
    (List.range count).flatMap (chunk width data) = data := by
  -- the first rows are the first elements, also when there are more of them
  have htake : ∀ count,
      (List.range count).flatMap (chunk width data) = data.take (count * width) := by
    intro count
    induction count with
    | zero => rw [Nat.zero_mul, List.take_zero]; rfl
    | succ count ih =>
      rw [List.range_succ, List.flatMap_append, ih, List.flatMap_singleton, Nat.succ_mul,
        List.take_add, chunk]
  rw [htake, ← h, List.take_length]

theorem ofRows_cons (count : Nat) (inner : List Nat) (data : List α) :
    ofRows (count :: inner) data
      = .list ((List.range count).map fun i => ofRows inner (chunk (volume inner) data i)) := by
  rw [ofRows]
  rfl

/-! ## Nested lists of tensors -/

/-- The nested lists of a shape are as deep as it has axes. -/
theorem fits_ofRows {shape : List Nat} (hshape : ∀ n ∈ shape, n < 2 ^ 32)
    (h : data.length = volume shape) : (ofRows shape data).Fits shape.length := by
  induction shape generalizing data with
  | nil =>
    obtain ⟨a, rfl⟩ := List.length_eq_one_iff.mp h
    exact .scalar a
  | cons count inner ih =>
    rw [ofRows_cons]
    refine .list ?_ ?_
    · rw [List.length_map, List.length_range]
      exact hshape count List.mem_cons_self
    · intro x hx
      obtain ⟨i, hi, rfl⟩ := List.mem_map.mp hx
      exact ih (fun n hn => hshape n (List.mem_cons_of_mem count hn))
        (length_chunk h (List.mem_range.mp hi))

/-- The value of the nested lists of a shape holds the elements. -/
theorem holds_ofRows (leaf : α → Value) {shape : List Nat} (h : data.length = volume shape) :
    Value.Holds leaf shape data ((ofRows shape data).toValue leaf) := by
  induction shape generalizing data with
  | nil =>
    obtain ⟨a, rfl⟩ := List.length_eq_one_iff.mp h
    exact .scalar a
  | cons count inner ih =>
    have hrow : ∀ i < count, Value.Holds leaf inner (chunk (volume inner) data i)
        ((ofRows inner (chunk (volume inner) data i)).toValue leaf) :=
      fun i hi => ih (length_chunk h hi)
    have hrows := Value.Holds.range hrow
    rw [flatMap_chunk h] at hrows
    rw [ofRows_cons, toValue, toValues_eq_map, List.map_map]
    exact hrows

end Nested

namespace Tensor

variable {t : Tensor α} {leaf : α → Value}

/-- The value of a tensor fits as many levels as there are axes. -/
theorem Fits.toValue (h : t.Fits) (hleaf : ∀ a n, (leaf a).Fits n) :
    ((Nested.ofTensor t).toValue leaf).Fits 100 :=
  ((Nested.fits_ofRows h.2 t.length_data).mono h.1).toValue hleaf

/-- **The value of a tensor holds its elements.** -/
theorem holds_ofTensor (leaf : α → Value) (t : Tensor α) :
    Value.Holds leaf t.shape t.data ((Nested.ofTensor t).toValue leaf) :=
  Nested.holds_ofRows leaf t.length_data

end Tensor

end Rollout
