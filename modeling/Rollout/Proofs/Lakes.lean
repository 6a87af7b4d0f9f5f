/-
# Walks that stay on the map

A move on a grid leads to a cell of the grid, so the tables of the open grid and of
every frozen lake are closed.
-/
import Rollout.Proofs.TabularSteps
import Rollout.World.FrozenLake

namespace Rollout

variable {rows columns state direction : Nat}

/-! ## Moves -/

namespace Grid

/-- The neighbour of a cell of the grid lies on the grid. -/
theorem neighbour_lt {row column : Nat} (hr : row < rows) (hc : column < columns)
    (direction : Nat) :
    (neighbour rows columns (row, column) direction).1 < rows ∧
      (neighbour rows columns (row, column) direction).2 < columns := by
  unfold neighbour
  split
  · exact ⟨hr, by omega⟩
  · exact ⟨by omega, hc⟩
  · exact ⟨hr, by omega⟩
  · exact ⟨by omega, hc⟩

/-- A move stays on the grid. -/
theorem move_lt (h : state < rows * columns) (direction : Nat) :
    move rows columns state direction < rows * columns := by
  -- there is a state, so a row is not empty
  have hpos : 0 < columns := Nat.pos_of_mul_pos_left (by omega : 0 < rows * columns)
  have hr : state / columns < rows := (Nat.div_lt_iff_lt_mul hpos).mpr h
  have hc : state % columns < columns := Nat.mod_lt state hpos
  obtain ⟨hr', hc'⟩ := neighbour_lt hr hc direction
  exact TransitionTable.position_lt hr' hc'

/-! ## The open grid -/

/-- The grid that is built starts in the first cell. -/
theorem of_build_eq_ok {seed : UInt64} {e : Tabular} (h : build seed = .ok e) :
    e.table = table ∧ e.initial = 1.0 :: List.replicate 15 0.0 ∧ e.state = 0 := by
  rw [build] at h
  rcases hb : Tabular.build table (1.0 :: List.replicate 15 0.0) seed with f | e'
  · rw [hb] at h
    cases h
  · rw [hb] at h
    cases h
    exact (Tabular.of_build_eq_ok hb).2

theorem outcome_next_lt (h : state < 16) (direction : Nat) : (outcome state direction).next < 16 := by
  have hmove : move 4 4 state direction < 4 * 4 := move_lt h direction
  rw [outcome]
  split
  · exact h
  · exact hmove

/-- The table leads to its own states only. -/
theorem closed_table : table.Closed := by
  refine TransitionTable.closed_ofFn ?_
  intro state direction hs _
  refine ⟨List.cons_ne_nil _ _, ?_⟩
  intro o ho
  rw [List.mem_singleton.mp ho]
  exact outcome_next_lt hs direction

end Grid

/-! ## Frozen lakes -/

namespace FrozenLake

variable {c : Cells} {slippery : Bool}

theorem Cells.directions_ne_nil (slippery : Bool) (direction : Nat) :
    Cells.directions slippery direction ≠ [] := by
  rw [Cells.directions]
  split
  · exact List.cons_ne_nil _ _
  · exact List.cons_ne_nil _ _

/-- Every lake has outcomes in every cell, and they stay on the lake. -/
theorem Cells.closed_table (c : Cells) (slippery : Bool) : (c.table slippery).Closed := by
  refine TransitionTable.closed_ofFn ?_
  intro state direction hs _
  rw [Cells.outcomes]
  split
  · refine ⟨List.cons_ne_nil _ _, ?_⟩
    intro o ho
    rw [List.mem_singleton.mp ho]
    exact hs
  · refine ⟨?_, ?_⟩
    · intro h
      exact Cells.directions_ne_nil slippery direction (List.map_eq_nil_iff.mp h)
    · intro o ho
      obtain ⟨way, -, rfl⟩ := List.mem_map.mp ho
      exact Grid.move_lt hs way

@[simp] theorem Cells.length_initial (c : Cells) : c.initial.length = c.size := by
  rw [Cells.initial, List.length_map, List.length_range]

/-- A lake with a start has a cell. -/
theorem Cells.size_pos_of_starts_ne_zero (h : c.starts ≠ 0) : 0 < c.size := by
  refine Nat.pos_of_ne_zero ?_
  intro hz
  rw [Cells.starts, hz] at h
  exact h rfl

/-- A lake that is built comes from a map with a start. -/
theorem of_build_eq_ok {map : List String} {seed : UInt64} {e : Tabular}
    (h : build map slippery seed = .ok e) :
    ∃ c, Cells.ofMap? map = some c ∧ c.starts ≠ 0 ∧ e.table = c.table slippery ∧
      e.initial = c.initial ∧ e.state = 0 := by
  rw [build] at h
  rcases hm : Cells.ofMap? map with _ | c
  · rw [hm] at h
    cases h
  · simp only [hm] at h
    split at h
    · cases h
    · rename_i hs
      rcases hb : Tabular.build (c.table slippery) c.initial seed with f | e'
      · rw [hb] at h
        cases h
      · rw [hb] at h
        cases h
        obtain ⟨-, htable, hinitial, hstate⟩ := Tabular.of_build_eq_ok hb
        exact ⟨c, rfl, hs, htable, hinitial, hstate⟩

end FrozenLake

end Rollout
