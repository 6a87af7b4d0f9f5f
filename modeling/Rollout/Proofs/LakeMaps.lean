/-
# Lake maps by rows and columns

A lake keeps the bytes of its map in one row.  Here a map is read as a reader would:
the cell of a state lies in row `state / width` and column `state % width`.  The two
readings agree on every map whose rows are equally long, and only those with a start
are built: `exists_build_eq_ok_iff`.
-/
import Rollout.Proofs.Lakes

namespace Rollout.FrozenLake

variable {map : List String} {slippery : Bool} {seed : UInt64} {width state : Nat} {letter : Char}

/-! ## Rows of one width -/

/-- The element in a row and a column of rows of one width, put one after another. -/
theorem getElem?_flatten_of_length {α : Type} {rows : List (List α)} {column : Nat} (row : Nat)
    (h : ∀ r ∈ rows, r.length = width) (hc : column < width) :
    rows.flatten[row * width + column]? = rows[row]?.bind (·[column]?) := by
  induction rows generalizing row with
  | nil => simp
  | cons r rows ih =>
    rw [List.forall_mem_cons] at h
    rw [List.flatten_cons]
    cases row with
    | zero =>
      rw [Nat.zero_mul, Nat.zero_add, List.getElem?_append_left (by omega)]
      rfl
    | succ row =>
      have hge : r.length ≤ (row + 1) * width + column := by
        rw [h.1, Nat.succ_mul]
        omega
      have hsub : (row + 1) * width + column - r.length = row * width + column := by
        rw [h.1, Nat.succ_mul]
        omega
      rw [List.getElem?_append_right hge, hsub, ih row h.2]
      rfl

/-- The number of elements in rows of one width. -/
theorem length_flatten_of_length {α : Type} {rows : List (List α)}
    (h : ∀ r ∈ rows, r.length = width) : rows.flatten.length = rows.length * width := by
  induction rows with
  | nil => simp
  | cons r rows ih =>
    rw [List.forall_mem_cons] at h
    rw [List.flatten_cons, List.length_append, h.1, ih h.2, List.length_cons, Nat.succ_mul,
      Nat.add_comm]

/-! ## Maps -/

/-- The byte of a letter. -/
def byteOf (letter : Char) : UInt8 := UInt8.ofNat letter.toNat

/-- The byte of a map in the row and the column of a state. -/
def byteAt? (map : List String) (width state : Nat) : Option UInt8 :=
  map[state / width]?.bind fun row => (Text.Utf8.encode row)[state % width]?

/-- The cell of a state shows a letter. -/
def Holds (map : List String) (width state : Nat) (letter : Char) : Prop :=
  byteAt? map width state = some (byteOf letter)

instance : Decidable (Holds map width state letter) :=
  inferInstanceAs (Decidable (byteAt? map width state = some (byteOf letter)))

/-- The cell of a state is the goal or a hole. -/
def Ends (map : List String) (width state : Nat) : Prop :=
  Holds map width state 'G' ∨ Holds map width state 'H'

instance : Decidable (Ends map width state) :=
  inferInstanceAs (Decidable (Holds map width state 'G' ∨ Holds map width state 'H'))

/-- Some cell of the map is a start. -/
def HasStart (map : List String) : Prop := ∃ row ∈ map, byteOf 'S' ∈ Text.Utf8.encode row

instance : Decidable (HasStart map) :=
  inferInstanceAs (Decidable (∃ row ∈ map, byteOf 'S' ∈ Text.Utf8.encode row))

/-- The map has rows, all of one width in bytes, which is not zero. -/
structure Rectangle (map : List String) (width : Nat) : Prop where
  ne_nil : map ≠ []
  pos : 0 < width
  length_row : ∀ row ∈ map, (Text.Utf8.encode row).length = width

namespace Rectangle

theorem length_of_mem (h : Rectangle map width) :
    ∀ r ∈ map.map Text.Utf8.encode, r.length = width := by
  intro r hr
  obtain ⟨row, hrow, rfl⟩ := List.mem_map.mp hr
  exact h.length_row row hrow

theorem length_pos (h : Rectangle map width) : 0 < map.length :=
  List.length_pos_iff.mpr h.ne_nil

/-- The first row has the width of the map. -/
theorem length_headD (h : Rectangle map width) :
    ((map.map Text.Utf8.encode).headD []).length = width := by
  cases map with
  | nil => exact absurd rfl h.ne_nil
  | cons row rows => exact h.length_row row List.mem_cons_self

theorem not_uneven (h : Rectangle map width) :
    ¬ (width = 0 ∨ ∃ r ∈ map.map Text.Utf8.encode, r.length ≠ width) := by
  rintro (hzero | ⟨r, hr, hne⟩)
  · exact absurd h.pos (by omega)
  · exact hne (h.length_of_mem r hr)

/-- A map has one width. -/
theorem unique {width' : Nat} (h : Rectangle map width) (h' : Rectangle map width') :
    width = width' := by
  obtain ⟨row, hrow⟩ := List.exists_mem_of_ne_nil map h.ne_nil
  rw [← h.length_row row hrow, h'.length_row row hrow]

/-- A state of the map has a byte. -/
theorem exists_byteAt? (h : Rectangle map width) (hs : state < map.length * width) :
    ∃ b, byteAt? map width state = some b := by
  have hrow : state / width < map.length := (Nat.div_lt_iff_lt_mul h.pos).mpr hs
  have hcolumn : state % width < (Text.Utf8.encode map[state / width]).length := by
    rw [h.length_row _ (List.getElem_mem hrow)]
    exact Nat.mod_lt state h.pos
  rw [byteAt?, List.getElem?_eq_getElem hrow, Option.bind_some, List.getElem?_eq_getElem hcolumn]
  exact ⟨_, rfl⟩

end Rectangle

/-! ## Cells of a map -/

/-- The cells of a map of a width. -/
def cellsOf (map : List String) (width : Nat) : Cells :=
  ⟨map.length, width, (map.map Text.Utf8.encode).flatten⟩

theorem Rectangle.size_cellsOf (_ : Rectangle map width) :
    (cellsOf map width).size = map.length * width := rfl

/-- A map has cells exactly if it is a rectangle. -/
theorem ofMap?_eq_some_iff {c : Cells} :
    Cells.ofMap? map = some c ↔ ∃ width, Rectangle map width ∧ c = cellsOf map width := by
  simp only [Cells.ofMap?]
  constructor
  · intro h
    split at h
    · cases h
    · rename_i hbad
      cases h
      rw [not_or, not_exists] at hbad
      obtain ⟨hpos, hrows⟩ := hbad
      refine ⟨_, ⟨?_, Nat.pos_of_ne_zero hpos, ?_⟩, by rw [cellsOf, List.length_map]⟩
      · rintro rfl
        exact hpos rfl
      · intro row hrow
        have hlength := hrows (Text.Utf8.encode row)
        rw [not_and, Decidable.not_not] at hlength
        exact hlength (List.mem_map_of_mem hrow)
  · rintro ⟨width, h, rfl⟩
    rw [h.length_headD, if_neg h.not_uneven, List.length_map]
    rfl

namespace Rectangle

/-- The cell of a state is the byte that the map has in its row and its column. -/
theorem getElem?_cells (h : Rectangle map width) (state : Nat) :
    (cellsOf map width).cells[state]? = byteAt? map width state := by
  have hcell :=
    getElem?_flatten_of_length (state / width) h.length_of_mem (Nat.mod_lt state h.pos)
  rw [Nat.div_add_mod'] at hcell
  rw [cellsOf, hcell, byteAt?, List.getElem?_map]
  rcases map[state / width]? with _ | row
  · rfl
  · rfl

/-- A cell holds a letter exactly if the map has it there. -/
theorem holds_iff (h : Rectangle map width) :
    (cellsOf map width).holds state letter = true ↔ Holds map width state letter := by
  rw [Cells.holds, h.getElem?_cells, beq_iff_eq]
  rfl

/-- The states that end an episode are the holes and the goals. -/
theorem final_iff (h : Rectangle map width) :
    (cellsOf map width).final state = true ↔ Ends map width state := by
  rw [Cells.final, Bool.or_eq_true, h.holds_iff, h.holds_iff]
  rfl

/-- A lake has starts exactly if its map has one. -/
theorem starts_ne_zero_iff (h : Rectangle map width) :
    (cellsOf map width).starts ≠ 0 ↔ HasStart map := by
  have hlength : (cellsOf map width).cells.length = (cellsOf map width).size :=
    (length_flatten_of_length h.length_of_mem).trans (by rw [List.length_map, h.size_cellsOf])
  have hmem : HasStart map ↔ byteOf 'S' ∈ (cellsOf map width).cells := by
    rw [cellsOf, List.mem_flatten]
    constructor
    · rintro ⟨row, hrow, hbyte⟩
      exact ⟨_, List.mem_map_of_mem hrow, hbyte⟩
    · rintro ⟨_, hr, hbyte⟩
      obtain ⟨row, hrow, rfl⟩ := List.mem_map.mp hr
      exact ⟨row, hrow, hbyte⟩
  have hstarts : (cellsOf map width).starts ≠ 0 ↔
      ∃ state < (cellsOf map width).size, (cellsOf map width).holds state 'S' = true := by
    simp [Cells.starts, List.filter_eq_nil_iff]
  rw [hstarts, hmem, List.mem_iff_getElem?]
  constructor
  · rintro ⟨state, -, hstate⟩
    rw [Cells.holds, beq_iff_eq] at hstate
    exact ⟨state, hstate⟩
  · rintro ⟨state, hstate⟩
    refine ⟨state, hlength ▸ (List.getElem?_eq_some_iff.mp hstate).1, ?_⟩
    rw [Cells.holds, beq_iff_eq]
    exact hstate

/-- The lake of a map, before the time limit and the picture are put on. -/
theorem build_eq (h : Rectangle map width) (hS : HasStart map) (slippery : Bool) (seed : UInt64) :
    build map slippery seed
      = (Tabular.build ((cellsOf map width).table slippery) (cellsOf map width).initial seed).map
        fun e => { e with limit := some 100, picture := some map } := by
  rw [build, ofMap?_eq_some_iff.mpr ⟨width, h, rfl⟩]
  exact if_neg (h.starts_ne_zero_iff.mpr hS)

end Rectangle

/-! ## Lakes that are built -/

/-- **A lake is built** exactly from a rectangle with a start. -/
theorem exists_build_eq_ok_iff :
    (∃ e, build map slippery seed = .ok e) ↔ (∃ width, Rectangle map width) ∧ HasStart map := by
  constructor
  · rintro ⟨e, he⟩
    obtain ⟨c, hc, hstarts, -⟩ := of_build_eq_ok he
    obtain ⟨width, h, rfl⟩ := ofMap?_eq_some_iff.mp hc
    exact ⟨⟨width, h⟩, h.starts_ne_zero_iff.mp hstarts⟩
  · rintro ⟨⟨width, h⟩, hS⟩
    have hlength : (cellsOf map width).initial.length = ((cellsOf map width).table slippery).states :=
      (cellsOf map width).length_initial
    rw [h.build_eq hS, Tabular.build, if_pos hlength]
    exact ⟨_, rfl⟩

/-- A lake that is built has the dynamics of its map. -/
theorem exists_rectangle_of_build_eq_ok {e : Tabular} (he : build map slippery seed = .ok e) :
    ∃ width, Rectangle map width ∧ HasStart map ∧ e.table = (cellsOf map width).table slippery ∧
      e.initial = (cellsOf map width).initial ∧ e.state = 0 := by
  obtain ⟨c, hc, hstarts, htable, hinitial, hstate⟩ := of_build_eq_ok he
  obtain ⟨width, h, rfl⟩ := ofMap?_eq_some_iff.mp hc
  exact ⟨width, h, h.starts_ne_zero_iff.mp hstarts, htable, hinitial, hstate⟩

end Rollout.FrozenLake
