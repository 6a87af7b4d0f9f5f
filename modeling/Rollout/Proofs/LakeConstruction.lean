/-
# How a lake is built

The construction reads cells by row and column, subtracts one from numbers of rows and
columns, and adds outcomes to entries one by one.  `guarded` does the same with every
division, index and difference checked.  The main statement, `build_of_map`, says that no
check ever fails, which maps are built, and what each entry of the table holds.
-/
import Rollout.Proofs.LakeTables
import Rollout.Proofs.TableUpdates

namespace Rollout.FrozenLake

variable {map : List String} {slippery : Bool} {seed : UInt64} {width state direction : Nat}

/-! ## Guarded operations -/

/-- A difference of naturals, none if it falls below zero. -/
def minus? (a b : Nat) : Option Nat := if b ≤ a then some (a - b) else none

/-- The byte of a state, none if there are no columns or if the row or the column is missing. -/
def cell? (rows : List Bytes) (columns state : Nat) : Option UInt8 :=
  if columns = 0 then none else rows[state / columns]?.bind (·[state % columns]?)

/-- The neighbour of a cell, none if there is no last row or no last column. -/
def neighbour? (rows columns : Nat) (cell : Nat × Nat) (direction : Nat) : Option (Nat × Nat) :=
  match direction with
  | 0 => some (cell.1, cell.2 - 1)
  | 1 => (minus? rows 1).map fun last => (min (cell.1 + 1) last, cell.2)
  | 2 => (minus? columns 1).map fun last => (cell.1, min (cell.2 + 1) last)
  | _ => some (cell.1 - 1, cell.2)

/-- The outcome of a direction. -/
def outcome? (rows : List Bytes) (columns state : Nat) (probability : Float) (direction : Nat) :
    Option Transition := do
  let cell ← neighbour? rows.length columns (state / columns, state % columns) direction
  let next := cell.1 * columns + cell.2
  let byte ← cell? rows columns next
  return ⟨probability, next, if byte = byteOf 'G' then 1.0 else 0.0,
    byte = byteOf 'G' || byte = byteOf 'H'⟩

/-- The outcomes of a move. -/
def outcomes? (rows : List Bytes) (columns : Nat) (slippery : Bool) (state direction : Nat) :
    Option (List Transition) := do
  let byte ← cell? rows columns state
  if byte = byteOf 'G' ∨ byte = byteOf 'H' then return [⟨1.0, state, 0.0, true⟩]
  else
    let ways := Cells.directions slippery direction
    ways.mapM (outcome? rows columns state (1.0 / Numeric.doubleOfInt ways.length))

/-- **The guarded construction** of a lake: none if a division, an index or a difference fails. -/
def guarded (map : List String) (slippery : Bool) (seed : UInt64) :
    Option (Except Failure Tabular) :=
  let rows := map.map Text.Utf8.encode
  let columns := (rows.headD []).length
  if columns = 0 ∨ ∃ row ∈ rows, row.length ≠ columns then some (.error .mapShape)
  else do
    let states := rows.length * columns
    let table ← TransitionTable.fill? states 4 (outcomes? rows columns slippery)
    let bytes ← (List.range states).mapM (cell? rows columns)
    let starts := (bytes.filter (· = byteOf 'S')).length
    if starts = 0 then some (.error .mapStart)
    else
      let initial := bytes.map fun byte =>
        if byte = byteOf 'S' then 1.0 / Numeric.doubleOfInt starts else 0.0
      some ((Tabular.build table initial seed).map fun e =>
        { e with limit := some 100, picture := some map })

/-! ## No guard fails -/

theorem mapM_eq_some {α β : Type} {f : α → Option β} {g : α → β} {l : List α}
    (h : ∀ a ∈ l, f a = some (g a)) : l.mapM f = some (l.map g) := by
  induction l with
  | nil => rfl
  | cons a l ih =>
    rw [List.forall_mem_cons] at h
    rw [List.mapM_cons, h.1, ih h.2]
    rfl

theorem minus?_of_le {a b : Nat} (h : b ≤ a) : minus? a b = some (a - b) := if_pos h

/-- The neighbour of a cell is found on every grid that has one. -/
theorem neighbour?_eq_some {rows columns : Nat} (hr : 0 < rows) (hc : 0 < columns)
    (cell : Nat × Nat) (direction : Nat) :
    neighbour? rows columns cell direction = some (Grid.neighbour rows columns cell direction) := by
  unfold neighbour?
  rw [minus?_of_le hr, minus?_of_le hc]
  rcases direction with _ | _ | _ | direction
  all_goals rfl

namespace Cells

variable {c : Cells} {byte : UInt8}

theorem holds_of_cell (h : c.cells[state]? = some byte) (letter : Char) :
    c.holds state letter = decide (byte = byteOf letter) := by
  rw [holds, h, Bool.eq_iff_iff, beq_iff_eq, decide_eq_true_iff, Option.some.injEq]
  rfl

end Cells

namespace Rectangle

/-- The guarded look-up of a cell finds what the map has there. -/
theorem cell?_eq (h : Rectangle map width) (state : Nat) :
    cell? (map.map Text.Utf8.encode) width state = (cellsOf map width).cells[state]? := by
  rw [cell?, if_neg (Nat.pos_iff_ne_zero.mp h.pos), h.getElem?_cells, byteAt?, List.getElem?_map]
  rcases map[state / width]? with _ | row
  · rfl
  · rfl

/-- Every state of the map has a cell. -/
theorem exists_cell (h : Rectangle map width) (hs : state < map.length * width) :
    ∃ byte, (cellsOf map width).cells[state]? = some byte := by
  obtain ⟨byte, hbyte⟩ := h.exists_byteAt? hs
  exact ⟨byte, (h.getElem?_cells state).trans hbyte⟩

/-- The outcome of a direction is found for every state of a rectangle. -/
theorem outcome?_eq_some (h : Rectangle map width) (hs : state < map.length * width)
    (probability : Float) (direction : Nat) :
    outcome? (map.map Text.Utf8.encode) width state probability direction
      = some ((cellsOf map width).outcome state probability direction) := by
  obtain ⟨byte, hbyte⟩ := h.exists_cell (Grid.move_lt hs direction)
  have hcell := (h.cell?_eq _).trans hbyte
  rw [outcome?, List.length_map, neighbour?_eq_some h.length_pos h.pos]
  show (cell? (map.map Text.Utf8.encode) width (Grid.move map.length width state direction)).bind _
    = _
  rw [hcell, Cells.outcome, Cells.final]
  show some (Transition.mk _ _ _ _) = some (Transition.mk _ _ _ _)
  have hbyte : (cellsOf map width).cells[Grid.move (cellsOf map width).rows
    (cellsOf map width).columns state direction]? = some byte := hbyte
  rw [Cells.holds_of_cell hbyte, Cells.holds_of_cell hbyte]
  simp only [decide_eq_true_eq]
  rfl

/-- All outcomes of an action are found for every state of a rectangle. -/
theorem outcomes?_eq_some (h : Rectangle map width) (hs : state < map.length * width)
    (slippery : Bool) (direction : Nat) :
    outcomes? (map.map Text.Utf8.encode) width slippery state direction
      = some ((cellsOf map width).outcomes slippery state direction) := by
  obtain ⟨byte, hbyte⟩ := h.exists_cell hs
  rw [outcomes?, h.cell?_eq, hbyte, Cells.outcomes, Cells.final, Cells.holds_of_cell hbyte,
    Cells.holds_of_cell hbyte]
  show (if byte = byteOf 'G' ∨ byte = byteOf 'H' then _ else _) = _
  by_cases hend : byte = byteOf 'G' ∨ byte = byteOf 'H'
  · rw [if_pos hend, if_pos (by simpa using hend)]
    rfl
  · rw [if_neg hend, if_neg (by simpa using hend)]
    exact mapM_eq_some fun way _ => h.outcome?_eq_some hs _ way

/-- The table can be filled, and is the one of the lake. -/
theorem fill?_eq_some (h : Rectangle map width) (slippery : Bool) :
    TransitionTable.fill? (map.length * width) 4
      (outcomes? (map.map Text.Utf8.encode) width slippery)
      = some ((cellsOf map width).table slippery) :=
  TransitionTable.fill?_eq_some fun _ hs direction _ => h.outcomes?_eq_some hs slippery direction

/-- All cells can be read. -/
theorem mapM_cell? (h : Rectangle map width) :
    (List.range (map.length * width)).mapM (cell? (map.map Text.Utf8.encode) width)
      = some ((List.range (map.length * width)).map fun state =>
        ((cellsOf map width).cells[state]?).getD 0) := by
  refine mapM_eq_some fun state hs => ?_
  obtain ⟨byte, hbyte⟩ := h.exists_cell (List.mem_range.mp hs)
  rw [h.cell?_eq, hbyte]
  rfl

theorem getD_cell_eq_iff (h : Rectangle map width) (hs : state ∈ List.range (map.length * width)) :
    ((cellsOf map width).cells[state]?).getD 0 = byteOf 'S' ↔
      (cellsOf map width).holds state 'S' = true := by
  obtain ⟨byte, hbyte⟩ := h.exists_cell (List.mem_range.mp hs)
  rw [Cells.holds_of_cell hbyte, hbyte, decide_eq_true_iff]
  rfl

/-- The starts among the bytes that are read are those of the lake. -/
theorem length_filter_cells (h : Rectangle map width) :
    (((List.range (map.length * width)).map fun state =>
      ((cellsOf map width).cells[state]?).getD 0).filter (· = byteOf 'S')).length
      = (cellsOf map width).starts := by
  rw [List.filter_map, List.length_map, Cells.starts, h.size_cellsOf]
  congr 1
  apply List.filter_congr
  intro state hs
  rw [Function.comp_apply, Bool.eq_iff_iff, decide_eq_true_iff]
  exact h.getD_cell_eq_iff hs

end Rectangle

/-- **No guard fails**, on any map. -/
theorem guarded_eq_some (map : List String) (slippery : Bool) (seed : UInt64) :
    guarded map slippery seed = some (build map slippery seed) := by
  rcases hc : Cells.ofMap? map with _ | c
  · -- the shape of the map is looked at before the first guard
    simp only [build, hc]
    simp only [Cells.ofMap?, ite_eq_left_iff] at hc
    simp only [guarded]
    rw [if_pos]
    by_contra hshape
    cases hc hshape
  · obtain ⟨width, h, rfl⟩ := ofMap?_eq_some_iff.mp hc
    have hcolumns : ((map.map Text.Utf8.encode).headD []).length = width := h.length_headD
    simp only [guarded, build, hc]
    rw [hcolumns, if_neg h.not_uneven, List.length_map, h.fill?_eq_some, h.mapM_cell?]
    show (if _ = 0 then _ else _) = some (if _ = 0 then _ else _)
    rw [h.length_filter_cells]
    split
    · rfl
    · -- the initial distribution is made from the bytes that were read for the starts
      rw [List.map_map]
      have hinitial : (List.range (map.length * width)).map ((fun byte =>
          if byte = byteOf 'S' then 1.0 / Numeric.doubleOfInt (cellsOf map width).starts else 0.0) ∘
          fun state => ((cellsOf map width).cells[state]?).getD 0) = (cellsOf map width).initial := by
        rw [Cells.initial, h.size_cellsOf]
        apply List.map_congr_left
        intro state hs
        exact if_congr (h.getD_cell_eq_iff hs) rfl rfl
      rw [hinitial]

/-! ## Well-formed lakes -/

/-- **Every map builds a well-formed lake** or none.  No division, index or difference of the
construction fails.  It succeeds exactly on rows of one width, which is not zero, with a start among
them.  Then every state and move has an outcome, and no outcome leaves the lake.  In a goal or a hole
the only outcome is to stay, for nothing, and to end.  In any other cell there is one outcome for
each way that the move may go, in order, and none for the opposite way; what it is, `Leads` says. -/
theorem build_of_map (map : List String) (slippery : Bool) (seed : UInt64) :
    guarded map slippery seed = some (build map slippery seed) ∧
    ((∃ e, build map slippery seed = .ok e) ↔ (∃ width, Rectangle map width) ∧ HasStart map) ∧
    ∀ e, build map slippery seed = .ok e → ∃ width, Rectangle map width ∧
      e.table.states = map.length * width ∧ e.table.actions = 4 ∧
      ∀ state < map.length * width, ∀ direction < 4, ∃ os,
        e.table.entry? state direction = some os ∧ os ≠ [] ∧
        (∀ o ∈ os, o.next < map.length * width) ∧
        (Ends map width state → os = [⟨1.0, state, 0.0, true⟩]) ∧
        (¬ Ends map width state →
          let ways := if slippery then [(direction + 3) % 4, direction, (direction + 1) % 4]
            else [direction]
          List.Forall₂ (Leads map width slippery state) ways os ∧ (direction + 2) % 4 ∉ ways) := by
  refine ⟨guarded_eq_some map slippery seed, exists_build_eq_ok_iff, ?_⟩
  intro e he
  obtain ⟨width, h, -, htable, -⟩ := exists_rectangle_of_build_eq_ok he
  refine ⟨width, h, by rw [htable]; rfl, by rw [htable]; rfl, ?_⟩
  intro state hs direction hd
  have hentry := h.entry? hs hd slippery
  obtain ⟨hne, hnext⟩ := (cellsOf map width).closed_table slippery _
    (TransitionTable.of_entry?_eq_some hentry).2
  refine ⟨_, by rw [htable, hentry], hne, hnext, fun hend => h.outcomes_of_ends hend _ _, ?_⟩
  intro hend ways
  exact ⟨h.outcomes_of_not_ends hs hend slippery direction,
    opposite_not_mem_directions slippery direction⟩

/-- On a lake of two rows and three columns, a move up from the last cell goes right into the wall, up
to the goal, or left into the hole. -/
theorem build_of_map_twoRows :
    ∃ e os, build ["SFG", "FHF"] true 0 = .ok e ∧ e.table.entry? 5 3 = some os ∧
      List.Forall₂ (Leads ["SFG", "FHF"] 3 true 5) [2, 3, 0] os ∧
      os.map Transition.next = [5, 2, 4] ∧ os.map Transition.reward = [0.0, 1.0, 0.0] := by
  have hmap : Rectangle ["SFG", "FHF"] 3 := ⟨by decide, by decide, by decide +kernel⟩
  obtain ⟨-, hbuilt, htable⟩ := build_of_map ["SFG", "FHF"] true 0
  obtain ⟨e, he⟩ := hbuilt.mpr ⟨⟨3, hmap⟩, by decide +kernel⟩
  obtain ⟨width, hwidth, -, -, hentries⟩ := htable e he
  obtain rfl := hmap.unique hwidth
  obtain ⟨os, hentry, -, -, -, hways⟩ := hentries 5 (by decide) 3 (by decide)
  obtain ⟨hleads, -⟩ := hways (by decide +kernel)
  have hshown : ((build ["SFG", "FHF"] true 0).toOption.bind fun e => e.table.entry? 5 3).map
      (fun os => (os.map Transition.next, os.map Transition.reward))
        = some ([5, 2, 4], [0.0, 1.0, 0.0]) := by
    decide +kernel
  rw [he, Except.toOption, Option.bind_some, hentry, Option.map_some, Option.some.injEq,
    Prod.mk.injEq] at hshown
  exact ⟨e, os, he, hentry, hleads, hshown.1, hshown.2⟩

end Rollout.FrozenLake
