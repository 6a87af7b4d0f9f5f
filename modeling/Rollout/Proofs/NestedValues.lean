/-
# Nested lists as values

Nested lists fit a number of levels if they are nested no deeper and no list is too
long to be written.  Then their value fits too, and nested lists of numbers are read
back from it: `readsBack_content`.  Whatever is read as nested lists fits the levels
that the reader was given: `gives_content`.
-/
import Rollout.Proofs.RecordRoundTrip
import Rollout.Wire.Nested

namespace Rollout.Nested

open MsgPack (Value Content)
open Numeric (Double)

variable {α : Type}

/-! ## Lists that fit -/

/-- The lists are nested at most `n` deep, and their lengths can be written. -/
inductive Fits : (n : Nat) → Nested α → Prop
  | scalar {n : Nat} (a : α) : Fits n (.scalar a)
  | list {n : Nat} {items : List (Nested α)} (length : items.length < 2 ^ 32)
    (all : ∀ i ∈ items, Fits n i) : Fits (n + 1) (.list items)

theorem Fits.mono {n m : Nat} {x : Nested α} (h : Fits n x) (hnm : n ≤ m) : Fits m x := by
  induction h generalizing m with
  | scalar a => exact .scalar a
  | list length _ ih =>
    obtain ⟨m, rfl⟩ : ∃ k, m = k + 1 := ⟨m - 1, by omega⟩
    exact .list length fun i hi => ih i hi (by omega)

/-! ## Values of nested lists -/

@[simp] theorem toValues_eq_map (leaf : α → Value) (items : List (Nested α)) :
    toValues leaf items = items.map (toValue leaf) := by
  induction items with
  | nil => rw [toValues, List.map_nil]
  | cons i items ih => rw [toValues, List.map_cons, ih]

/-- The value of nested lists that fit fits. -/
theorem Fits.toValue {n : Nat} {x : Nested α} (h : Fits n x) {leaf : α → Value}
    (hleaf : ∀ a n, (leaf a).Fits n) : (x.toValue leaf).Fits n := by
  induction h with
  | scalar a =>
    rw [Nested.toValue]
    exact hleaf a _
  | list length _ ih =>
    rw [Nested.toValue, toValues_eq_map]
    refine .array (by rwa [List.length_map]) ?_
    intro v hv
    obtain ⟨i, hi, rfl⟩ := List.mem_map.mp hv
    exact ih i hi

mutual

/-- The value of nested lists holds them. -/
@[simp] theorem ofValue?_toValue : ∀ x : Nested Double, ofValue? (x.toValue .double) = some x
  | .scalar a => by rw [toValue, ofValue?]
  | .list items => by rw [toValue, ofValue?, ofValues?_toValues items]; rfl

theorem ofValues?_toValues : ∀ items : List (Nested Double),
    ofValues? (toValues .double items) = some items
  | [] => by rw [toValues, ofValues?]
  | i :: items => by rw [toValues, ofValues?, ofValue?_toValue i, ofValues?_toValues items]

end

/-! ## Nested lists of values -/

/-- Every one of the nested lists is that of one of the values. -/
theorem of_ofValues?_eq_some {vs : List Value} {items : List (Nested Double)}
    (h : ofValues? vs = some items) :
    items.length = vs.length ∧ ∀ i ∈ items, ∃ v ∈ vs, ofValue? v = some i := by
  induction vs generalizing items with
  | nil =>
    rw [ofValues?] at h
    cases h
    exact ⟨rfl, fun i hi => absurd hi List.not_mem_nil⟩
  | cons v vs ih =>
    rw [ofValues?] at h
    split at h
    · rename_i i items' hv hvs
      cases h
      obtain ⟨hlength, hall⟩ := ih hvs
      refine ⟨congrArg (· + 1) hlength, ?_⟩
      intro j hj
      rcases List.mem_cons.mp hj with rfl | hj
      · exact ⟨v, List.mem_cons_self, hv⟩
      · obtain ⟨w, hw, hwj⟩ := hall j hj
        exact ⟨w, List.mem_cons_of_mem v hw, hwj⟩
    · cases h

/-- The nested lists of a value that fits fit. -/
theorem fits_of_ofValue?_eq_some {n : Nat} {v : Value} (hv : v.Fits n) {x : Nested Double}
    (h : ofValue? v = some x) : x.Fits n := by
  induction hv generalizing x with
  | int lo hi =>
    rw [ofValue?] at h
    cases h
    exact .scalar _
  | single y =>
    rw [ofValue?] at h
    cases h
    exact .scalar _
  | double y =>
    rw [ofValue?] at h
    cases h
    exact .scalar _
  | array length _ ih =>
    rw [ofValue?, Option.map_eq_some_iff] at h
    obtain ⟨items, hitems, rfl⟩ := h
    obtain ⟨hlength, hall⟩ := of_ofValues?_eq_some hitems
    refine .list (by rwa [hlength]) ?_
    intro i hi
    obtain ⟨v, hv, hvi⟩ := hall i hi
    exact ih v hv hvi
  | _ =>
    simp only [ofValue?] at h
    cases h

/-! ## Nested lists as a content -/

/-- A value that holds nested lists of numbers is read as them. -/
theorem readsBack_of_ofValue?_eq_some {levels : Nat} {v : Value} (hv : v.Fits levels)
    {x : Nested Double} (h : ofValue? v = some x) : content.ReadsBack levels v x := by
  intro rest
  simp only [content, MsgPack.readValue_write hv, h]

/-- Nested lists of numbers that are read fit. -/
theorem gives_content (levels : Nat) : content.Gives levels (Fits levels) where
  read {bytes rest x} h := by
    simp only [content] at h
    split at h
    · cases h
    · rename_i v mid hv
      split at h
      · rename_i y hy
        cases h
        exact fits_of_ofValue?_eq_some (MsgPack.fits_of_readValue hv) hy
      · cases h
  byte h := by
    cases h
    exact .scalar _

/-- What holds nested lists of numbers is read as them where nil may stand in their place. -/
theorem readsBack_optional {levels : Nat} {v : Value} (hv : v.Fits levels) {x : Nested Double}
    (h : ofValue? v = some x) : (Content.optional content).ReadsBack levels v (some x) := by
  have hnil : v ≠ .nil := by
    rintro rfl
    simp only [ofValue?] at h
    cases h
  obtain ⟨b, bytes, hwrite, hb⟩ := hv.exists_cons hnil
  exact (readsBack_of_ofValue?_eq_some hv h).optional hwrite hb

/-- Nested lists of numbers that fit are read back where nil may stand in their place. -/
theorem readsBack_content {levels : Nat} {x : Nested Double} (h : x.Fits levels) :
    (Content.optional content).ReadsBack levels (x.toValue .double) (some x) :=
  readsBack_optional (h.toValue fun a _ => .double a) (ofValue?_toValue x)

end Rollout.Nested
