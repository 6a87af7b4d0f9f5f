/-
# Frozen lakes

A walk over a frozen lake: `S` is a start, `H` a hole and `G` the goal.  Holes
and the goal end the episode and the goal pays one.  On a slippery lake a move
goes astray to either side as often as not.  A map is a list of rows; a cell of
the lake is a byte of a row.
-/
import Rollout.Text.Utf8
import Rollout.World.Grid

namespace Rollout.FrozenLake

/-! ## Maps -/

/-- The cells of a map, row by row, and their number in a row. -/
structure Cells where
  rows : Nat
  columns : Nat
  cells : Bytes

/-- The cells of a map whose rows are of one length. -/
def Cells.ofMap? (map : List String) : Option Cells :=
  let rows := map.map Text.Utf8.encode
  let columns := (rows.headD []).length
  if columns = 0 ∨ ∃ row ∈ rows, row.length ≠ columns then none
  else some ⟨rows.length, columns, rows.flatten⟩

namespace Cells

/-- The number of cells. -/
def size (c : Cells) : Nat := c.rows * c.columns

/-- Whether a cell holds a letter. -/
def holds (c : Cells) (state : Nat) (letter : Char) : Bool :=
  c.cells[state]? == some (UInt8.ofNat letter.toNat)

/-- Whether a cell ends the episode. -/
def final (c : Cells) (state : Nat) : Bool := c.holds state 'G' || c.holds state 'H'

/-! ## Dynamics -/

/-- The directions in which a move may go. -/
def directions (slippery : Bool) (direction : Nat) : List Nat :=
  if slippery then [(direction + 3) % 4, direction, (direction + 1) % 4] else [direction]

/-- The outcome of going in a direction, with a probability. -/
def outcome (c : Cells) (state : Nat) (probability : Float) (direction : Nat) : Transition :=
  let next := Grid.move c.rows c.columns state direction
  ⟨probability, next, if c.holds next 'G' then 1.0 else 0.0, c.final next⟩

/-- The outcomes of a move. -/
def outcomes (c : Cells) (slippery : Bool) (state direction : Nat) : List Transition :=
  if c.final state then [⟨1.0, state, 0.0, true⟩]
  else
    let ways := directions slippery direction
    ways.map (c.outcome state (1.0 / Numeric.doubleOfInt ways.length))

/-- The dynamics of a lake. -/
def table (c : Cells) (slippery : Bool) : TransitionTable :=
  .ofFn c.size 4 (c.outcomes slippery)

/-- The number of starts. -/
def starts (c : Cells) : Nat := ((List.range c.size).filter (c.holds · 'S')).length

/-- The initial distribution: all starts are equally likely. -/
def initial (c : Cells) : List Float :=
  (List.range c.size).map fun state =>
    if c.holds state 'S' then 1.0 / Numeric.doubleOfInt c.starts else 0.0

end Cells

/-! ## Construction -/

/-- The lake of a map, cut after a hundred steps. -/
def build (map : List String) (slippery : Bool) (seed : UInt64) : Except Failure Tabular :=
  match Cells.ofMap? map with
  | none => .error .mapShape
  | some c =>
    if c.starts = 0 then .error .mapStart
    else
      (Tabular.build (c.table slippery) c.initial seed).map fun e =>
        { e with limit := some 100, picture := some map }

/-- The usual map. -/
def usual : List String := ["SFFF", "FHFH", "FFFH", "HFFG"]

end Rollout.FrozenLake
