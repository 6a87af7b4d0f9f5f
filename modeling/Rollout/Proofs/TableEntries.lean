/-
# Entries of a table

The entry of a pair is found exactly if the pair lies in the table.  A table is
closed if no entry is empty or leads out of the table: then there is always an
outcome, and a state to go on from.
-/
import Rollout.TransitionTable

namespace Rollout.TransitionTable

variable {t : TransitionTable} {states actions state action : Nat}

/-! ## Positions -/

@[simp] theorem contains_iff :
    t.contains state action = true ↔ state < t.states ∧ action < t.actions := by
  rw [contains, Bool.and_eq_true, decide_eq_true_iff, decide_eq_true_iff]

/-- The position of a pair lies below the number of pairs. -/
theorem position_lt (hs : state < states) (ha : action < actions) :
    state * actions + action < states * actions := by
  calc state * actions + action < state * actions + actions := by omega
    _ = (state + 1) * actions := (Nat.succ_mul state actions).symm
    _ ≤ states * actions := Nat.mul_le_mul_right actions hs

/-- A pair in the table has an entry. -/
theorem exists_entry?_eq_some (hs : state < t.states) (ha : action < t.actions) :
    ∃ os ∈ t.entries, t.entry? state action = some os := by
  have hlt : state * t.actions + action < t.entries.length := by
    rw [t.length_entries]
    exact position_lt hs ha
  refine ⟨t.entries[state * t.actions + action], List.getElem_mem hlt, ?_⟩
  unfold entry?
  rw [if_pos (contains_iff.mpr ⟨hs, ha⟩)]
  exact List.getElem?_eq_getElem hlt

/-- An entry that is found belongs to a pair in the table. -/
theorem of_entry?_eq_some {os : List Transition} (h : t.entry? state action = some os) :
    (state < t.states ∧ action < t.actions) ∧ os ∈ t.entries := by
  unfold entry? at h
  split at h
  · rename_i hc
    exact ⟨contains_iff.mp hc, List.mem_of_getElem? h⟩
  · cases h

/-- The entry of a pair of a table given by a function. -/
theorem entry?_ofFn (outcomes : Nat → Nat → List Transition) (hs : state < states)
    (ha : action < actions) :
    entry? (ofFn states actions outcomes) state action = some (outcomes state action) := by
  have hc : (ofFn states actions outcomes).contains state action = true :=
    contains_iff.mpr ⟨hs, ha⟩
  have hpos : 0 < actions := by omega
  unfold entry?
  rw [if_pos hc]
  show ((List.range (states * actions)).map fun i =>
    outcomes (i / actions) (i % actions))[state * actions + action]? = _
  rw [List.getElem?_map, List.getElem?_range (position_lt hs ha), Option.map_some,
    Nat.mul_comm state actions, Nat.mul_add_div hpos, Nat.div_eq_of_lt ha, Nat.add_zero,
    Nat.mul_add_mod, Nat.mod_eq_of_lt ha]

/-! ## Closed tables -/

/-- No entry is empty, and every outcome leads to a state of the table. -/
def Closed (t : TransitionTable) : Prop :=
  ∀ os ∈ t.entries, os ≠ [] ∧ ∀ o ∈ os, o.next < t.states

/-- A table given by a function is closed if the outcomes of its pairs are. -/
theorem closed_ofFn {outcomes : Nat → Nat → List Transition}
    (h : ∀ state action, state < states → action < actions →
      outcomes state action ≠ [] ∧ ∀ o ∈ outcomes state action, o.next < states) :
    (ofFn states actions outcomes).Closed := by
  intro os hos
  obtain ⟨i, hi, rfl⟩ := List.mem_map.mp hos
  rw [List.mem_range] at hi
  have hpos : 0 < actions := Nat.pos_of_mul_pos_left (by omega : 0 < states * actions)
  exact h _ _ ((Nat.div_lt_iff_lt_mul hpos).mpr hi) (Nat.mod_lt i hpos)

end Rollout.TransitionTable
