/-
# The dynamics of a lake

A move leads to the cell beside the agent's, in the direction of the move, or nowhere
if that cell lies off the grid.  With it the outcomes of a lake are told by its map, with
any number of rows and columns: `outcomes_of_ends` and `outcomes_of_not_ends`.
-/
import Mathlib.Data.List.Forall2
import Rollout.Proofs.LakeMaps

namespace Rollout

variable {rows columns state direction : Nat}

/-! ## Cells beside a cell -/

namespace Grid

/-- The row and the column of a state. -/
def place (columns state : Nat) : Int × Int := ((state / columns : Nat), (state % columns : Nat))

/-- The row and the column beside others, in a direction: left, down, right and up. -/
def beside (direction : Nat) (cell : Int × Int) : Int × Int :=
  match direction with
  | 0 => (cell.1, cell.2 - 1)
  | 1 => (cell.1 + 1, cell.2)
  | 2 => (cell.1, cell.2 + 1)
  | _ => (cell.1 - 1, cell.2)

/-- The row and the column are those of a cell of the grid. -/
def OnGrid (rows columns : Nat) (cell : Int × Int) : Prop :=
  (0 ≤ cell.1 ∧ cell.1 < rows) ∧ 0 ≤ cell.2 ∧ cell.2 < columns

instance (rows columns : Nat) (cell : Int × Int) : Decidable (OnGrid rows columns cell) :=
  inferInstanceAs (Decidable ((0 ≤ cell.1 ∧ cell.1 < rows) ∧ 0 ≤ cell.2 ∧ cell.2 < columns))

theorem place_position {row column : Nat} (hc : column < columns) :
    place columns (row * columns + column) = (↑row, ↑column) := by
  have hpos : 0 < columns := by omega
  rw [place, Nat.add_comm, Nat.add_mul_div_right _ _ hpos, Nat.div_eq_of_lt hc, Nat.zero_add,
    Nat.add_mul_mod_self_right, Nat.mod_eq_of_lt hc]

theorem beside_ne_self (direction : Nat) (cell : Int × Int) : beside direction cell ≠ cell := by
  obtain ⟨row, column⟩ := cell
  rcases direction with _ | _ | _ | direction
  all_goals
    intro h
    simp only [beside, Prod.mk.injEq, true_and, and_true] at h
    omega

/-- The neighbour in a direction is the cell beside, if it lies on the grid. -/
theorem neighbour_of_onGrid {row column : Nat}
    (hon : OnGrid rows columns (beside direction (row, column))) :
    (((neighbour rows columns (row, column) direction).1 : Int),
        ((neighbour rows columns (row, column) direction).2 : Int))
      = beside direction (row, column) := by
  rcases direction with _ | _ | _ | direction
  all_goals
    simp only [OnGrid, beside] at hon
    simp only [neighbour, beside, Prod.mk.injEq, true_and, and_true]
    omega

/-- The neighbour of a cell at the edge is the cell itself. -/
theorem neighbour_of_not_onGrid {row column : Nat} (hr : row < rows) (hc : column < columns)
    (hoff : ¬ OnGrid rows columns (beside direction (row, column))) :
    neighbour rows columns (row, column) direction = (row, column) := by
  rcases direction with _ | _ | _ | direction
  all_goals
    simp only [OnGrid, beside] at hoff
    simp only [neighbour, Prod.mk.injEq, true_and, and_true]
    omega

/-- A move to a cell of the grid goes there. -/
theorem place_move_of_onGrid (h : state < rows * columns)
    (hon : OnGrid rows columns (beside direction (place columns state))) :
    place columns (move rows columns state direction) = beside direction (place columns state) := by
  have hpos : 0 < columns := Nat.pos_of_mul_pos_left (by omega : 0 < rows * columns)
  have hr : state / columns < rows := (Nat.div_lt_iff_lt_mul hpos).mpr h
  have hc : state % columns < columns := Nat.mod_lt state hpos
  rw [move, place_position (neighbour_lt hr hc direction).2]
  exact neighbour_of_onGrid hon

/-- A move off the grid leads nowhere. -/
theorem move_of_not_onGrid (h : state < rows * columns)
    (hoff : ¬ OnGrid rows columns (beside direction (place columns state))) :
    move rows columns state direction = state := by
  have hpos : 0 < columns := Nat.pos_of_mul_pos_left (by omega : 0 < rows * columns)
  have hr : state / columns < rows := (Nat.div_lt_iff_lt_mul hpos).mpr h
  have hc : state % columns < columns := Nat.mod_lt state hpos
  rw [move, neighbour_of_not_onGrid hr hc hoff]
  exact Nat.div_add_mod' state columns

/-- A move leads nowhere exactly if the cell beside lies off the grid. -/
theorem move_eq_self_iff (h : state < rows * columns) :
    move rows columns state direction = state ↔
      ¬ OnGrid rows columns (beside direction (place columns state)) := by
  constructor
  · intro hself hon
    have hplace := place_move_of_onGrid h hon
    rw [hself] at hplace
    exact beside_ne_self _ _ hplace.symm
  · exact move_of_not_onGrid h

end Grid

/-! ## Outcomes -/

namespace FrozenLake

variable {map : List String} {width : Nat} {slippery : Bool}

/-- The probability of each way that a move may go. -/
def chance (slippery : Bool) : Float := if slippery then 1.0 / 3.0 else 1.0

/-- **What an outcome is** of going from a state in a direction. -/
structure Leads (map : List String) (width : Nat) (slippery : Bool) (state direction : Nat)
    (o : Transition) : Prop where
  probability : o.probability = chance slippery
  goes : Grid.OnGrid map.length width (Grid.beside direction (Grid.place width state)) →
    Grid.place width o.next = Grid.beside direction (Grid.place width state)
  stays : o.next = state ↔
    ¬ Grid.OnGrid map.length width (Grid.beside direction (Grid.place width state))
  reward : o.reward = if Holds map width o.next 'G' then 1.0 else 0.0
  done : o.done = true ↔ Ends map width o.next

/-- A move never goes the opposite way. -/
theorem opposite_not_mem_directions (slippery : Bool) (direction : Nat) :
    (direction + 2) % 4 ∉ Cells.directions slippery direction := by
  cases slippery
  · simp only [Cells.directions, Bool.false_eq_true, if_false, List.mem_singleton]
    omega
  · simp only [Cells.directions, if_true, List.mem_cons, List.not_mem_nil, or_false]
    omega

theorem probability_directions (slippery : Bool) (direction : Nat) :
    1.0 / Numeric.doubleOfInt (Cells.directions slippery direction).length = chance slippery := by
  cases slippery
  · show 1.0 / Numeric.doubleOfInt 1 = (1.0 : Float)
    decide +kernel
  · show 1.0 / Numeric.doubleOfInt 3 = (1.0 / 3.0 : Float)
    decide +kernel

/-- The outcome of a direction is as it is said to be. -/
theorem Rectangle.leads_outcome (h : Rectangle map width) (hs : state < map.length * width)
    (slippery : Bool) (direction : Nat) :
    Leads map width slippery state direction
      ((cellsOf map width).outcome state (chance slippery) direction) where
  probability := rfl
  goes := Grid.place_move_of_onGrid hs
  stays := Grid.move_eq_self_iff hs
  reward := by
    rw [Cells.outcome]
    exact if_congr h.holds_iff rfl rfl
  done := h.final_iff

/-- In a cell that ends the episode a move leads nowhere and pays nothing. -/
theorem Rectangle.outcomes_of_ends (h : Rectangle map width) (hend : Ends map width state)
    (slippery : Bool) (direction : Nat) :
    (cellsOf map width).outcomes slippery state direction = [⟨1.0, state, 0.0, true⟩] := by
  rw [Cells.outcomes, if_pos (h.final_iff.mpr hend)]

/-- In any other cell there is an outcome for each way that the move may go. -/
theorem Rectangle.outcomes_of_not_ends (h : Rectangle map width) (hs : state < map.length * width)
    (hend : ¬ Ends map width state) (slippery : Bool) (direction : Nat) :
    List.Forall₂ (Leads map width slippery state) (Cells.directions slippery direction)
      ((cellsOf map width).outcomes slippery state direction) := by
  have hfinal : ¬ (cellsOf map width).final state = true := fun hf => hend (h.final_iff.mp hf)
  rw [Cells.outcomes, if_neg hfinal]
  simp only [probability_directions]
  rw [List.forall₂_map_right_iff, List.forall₂_same]
  intro way _
  exact h.leads_outcome hs slippery way

/-- An outcome in any other cell is that of one of the ways. -/
theorem Rectangle.exists_leads_of_mem_outcomes (h : Rectangle map width)
    (hs : state < map.length * width) (hend : ¬ Ends map width state) {o : Transition}
    (ho : o ∈ (cellsOf map width).outcomes slippery state direction) :
    ∃ way, Leads map width slippery state way o := by
  have hfinal : ¬ (cellsOf map width).final state = true := fun hf => hend (h.final_iff.mp hf)
  rw [Cells.outcomes, if_neg hfinal] at ho
  simp only [probability_directions] at ho
  obtain ⟨way, -, rfl⟩ := List.mem_map.mp ho
  exact ⟨way, h.leads_outcome hs slippery way⟩

/-- The entry of a state and a move. -/
theorem Rectangle.entry? (h : Rectangle map width) (hs : state < map.length * width)
    (hd : direction < 4) (slippery : Bool) :
    TransitionTable.entry? ((cellsOf map width).table slippery) state direction
      = some ((cellsOf map width).outcomes slippery state direction) :=
  TransitionTable.entry?_ofFn _ (h.size_cellsOf ▸ hs) hd

end FrozenLake

end Rollout
