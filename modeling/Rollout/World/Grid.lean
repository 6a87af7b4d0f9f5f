/-
# The open grid

A deterministic walk on a four by four grid, from the first cell to the last.
Every move costs one, except the one that arrives.
-/
import Rollout.World.Tabular

namespace Rollout.Grid

/-- The cell next to a cell in a direction (left, down, right, up), or the cell itself at
the edge. -/
def neighbour (rows columns : Nat) (cell : Nat × Nat) (direction : Nat) : Nat × Nat :=
  match direction with
  | 0 => (cell.1, cell.2 - 1)
  | 1 => (min (cell.1 + 1) (rows - 1), cell.2)
  | 2 => (cell.1, min (cell.2 + 1) (columns - 1))
  | _ => (cell.1 - 1, cell.2)

/-- The number of the cell next to the cell of a number. -/
def move (rows columns state direction : Nat) : Nat :=
  let cell := neighbour rows columns (state / columns, state % columns) direction
  cell.1 * columns + cell.2

/-- The last cell. -/
def goal : Nat := 15

/-- The outcome of a direction in a cell. -/
def outcome (state direction : Nat) : Transition :=
  if state = goal then ⟨1.0, state, 0.0, true⟩
  else
    let next := move 4 4 state direction
    ⟨1.0, next, if next = goal then 0.0 else -1.0, next = goal⟩

/-- The dynamics of the grid. -/
def table : TransitionTable := .ofFn 16 4 fun state direction => [outcome state direction]

/-- The grid, cut after a hundred steps. -/
def build (seed : UInt64) : Except Failure Tabular :=
  (Tabular.build table (1.0 :: List.replicate 15 0.0) seed).map fun e =>
    { e with limit := some 100, picture := some ["SFFF", "FFFF", "FFFF", "FFFG"] }

end Rollout.Grid
