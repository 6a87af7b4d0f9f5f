/-
# Rows of stacked tensors

Stacking puts tensors of one shape under a new first axis; the slices along that
axis are the tensors again, in order.
-/
import Rollout.Tensor.Basic

namespace Rollout.Tensor

variable {α : Type} {inner : List Nat} {parts : List (Tensor α)} {t : Tensor α}

/-- Slices give back what was put one after another. -/
@[simp] theorem slices_concat (hs : ∀ p ∈ parts, p.shape = inner)
    (h : (concat parts).length = parts.length * volume inner) :
    slices inner parts.length (concat parts) h = parts := by
  induction parts with
  | nil => rfl
  | cons p parts ih =>
    have hp : p.shape = inner := hs p List.mem_cons_self
    have hd : p.data.length = volume inner := by rw [p.length_data, hp]
    have hc : concat (p :: parts) = p.data ++ concat parts := by
      rw [concat, List.flatMap_cons, concat]
    have hrest : ∀ q ∈ parts, q.shape = inner := fun q hq => hs q (List.mem_cons_of_mem p hq)
    show slices inner (parts.length + 1) (concat (p :: parts)) h = p :: parts
    rw [slices]
    congr 1
    · apply ext
      · exact hp.symm
      · show (concat (p :: parts)).take (volume inner) = p.data
        rw [hc, ← hd, List.take_left]
    · have hdrop : (concat (p :: parts)).drop (volume inner) = concat parts := by
        rw [hc, ← hd, List.drop_left]
      simp only [hdrop]
      exact ih hrest (length_concat hrest)

/-- Slices have the shape that is left without the first axis. -/
theorem shape_of_mem_slices {count : Nat} {data : List α} {h : data.length = count * volume inner}
    {p : Tensor α} (hp : p ∈ slices inner count data h) : p.shape = inner := by
  induction count generalizing data with
  | zero => cases hp
  | succ count ih =>
    rw [slices, List.mem_cons] at hp
    rcases hp with rfl | hp
    · rfl
    · exact ih hp

/-- The rows of a tensor have its shape without the first axis. -/
theorem shape_eq_of_mem_rows {p : Tensor α} (hp : p ∈ t.rows) :
    t.shape = t.leading :: p.shape := by
  obtain ⟨shape, data, h⟩ := t
  cases shape with
  | nil => cases hp
  | cons count inner =>
    have hs : p.shape = inner := shape_of_mem_slices hp
    rw [hs]
    rfl

/-- What a successful stack holds: at least one part, and parts of one shape. -/
theorem stack_eq_ok_iff : stack parts = .ok t ↔
    ∃ first rest, parts = first :: rest ∧ (∀ p ∈ parts, p.shape = first.shape) ∧
      t.shape = parts.length :: first.shape ∧ t.data = concat parts := by
  cases parts with
  | nil => simp [stack]
  | cons first rest =>
    rw [stack]
    split
    · rename_i h
      constructor
      · rintro ⟨⟩
        exact ⟨first, rest, rfl, h, rfl, rfl⟩
      · rintro ⟨_, _, ⟨⟩, -, hs, hd⟩
        exact congrArg Except.ok (ext hs.symm hd.symm)
    · rename_i h
      constructor
      · rintro ⟨⟩
      · rintro ⟨_, _, ⟨⟩, hs, -, -⟩
        exact absurd hs h

/-- **The rows of a stack** are the tensors that were stacked. -/
theorem rows_of_stack_eq_ok (h : stack parts = .ok t) : t.rows = parts := by
  obtain ⟨first, rest, rfl, hp, hs, hd⟩ := stack_eq_ok_iff.mp h
  obtain ⟨shape, data, hl⟩ := t
  subst hs hd
  exact slices_concat hp (length_concat hp)

/-- The first axis of a stack counts the tensors. -/
theorem leading_of_stack_eq_ok (h : stack parts = .ok t) : t.leading = parts.length := by
  rw [← length_rows, rows_of_stack_eq_ok h]

/-- Tensors of one shape can be stacked, if there is one. -/
theorem exists_stack_eq_ok (hne : parts ≠ []) (hs : ∀ p ∈ parts, p.shape = inner) :
    ∃ t, stack parts = .ok t ∧ t.shape = parts.length :: inner := by
  cases parts with
  | nil => exact absurd rfl hne
  | cons first rest =>
    have hf : first.shape = inner := hs first List.mem_cons_self
    rw [stack, dif_pos fun p hp => (hs p hp).trans hf.symm]
    exact ⟨_, rfl, congrArg _ hf⟩

end Rollout.Tensor
