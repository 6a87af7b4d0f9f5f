/-
# Pictures with highlighted cells

A picture is drawn row by row, each row on a line of its own, with some of its cells
highlighted.  A text points at a cell if it shows the picture with this cell highlighted
and no other.  Which cells are highlighted can be told from the text as far as there is
to be one of them: `points_drawn_iff`.
-/
import Rollout.Proofs.Highlights

namespace Rollout.Picture

open Glyph (lit unlit writtenAll)

variable {picture : List String} {row column : Nat} {here here' : Nat → Nat → Bool}

/-! ## Rows with highlighted cells -/

/-- The rows of a picture, each ended by a line feed. -/
def lines (picture : List String) : String := String.join (picture.map (· ++ "\n"))

/-- The cells of a row, with those highlighted whose columns are picked. -/
def rowGlyphs (here : Nat → Bool) (cells : List Char) : List Glyph :=
  cells.mapIdx fun c cell => (cell, here c)

/-- The rows of a picture on lines of their own, with the cells highlighted whose rows and columns are
picked. -/
def glyphs (here : Nat → Nat → Bool) (picture : List String) : List Glyph :=
  (picture.mapIdx fun r row => rowGlyphs (here r) row.toList ++ [('\n', false)]).flatten

/-- The picture has a cell, which is a character, in this row and this column. -/
def IsCell (picture : List String) (row column : Nat) : Prop :=
  ∃ line, picture[row]? = some line ∧ column < line.toList.length

/-- The one cell in a row and a column. -/
def only (row column : Nat) : Nat → Nat → Bool := fun r c => r == row && c == column

@[simp] theorem toList_lines_cons (line : String) (picture : List String) :
    (lines (line :: picture)).toList = line.toList ++ '\n' :: (lines picture).toList := by
  rw [lines, List.map_cons, String.join_cons, String.toList_append, String.toList_append,
    List.append_assoc]
  rfl

/-- The first line stands before the others, whose rows are counted from the next. -/
theorem glyphs_cons (here : Nat → Nat → Bool) (line : String) (picture : List String) :
    glyphs here (line :: picture) =
      rowGlyphs (here 0) line.toList ++ ('\n', false) :: glyphs (fun r => here (r + 1)) picture := by
  rw [glyphs, List.mapIdx_cons, List.flatten_cons, List.append_assoc]
  rfl

theorem rowGlyphs_cons (here : Nat → Bool) (cell : Char) (cells : List Char) :
    rowGlyphs here (cell :: cells) = (cell, here 0) :: rowGlyphs (fun c => here (c + 1)) cells :=
  List.mapIdx_cons

@[simp] theorem length_rowGlyphs (here : Nat → Bool) (cells : List Char) :
    (rowGlyphs here cells).length = cells.length := List.length_mapIdx

theorem rowGlyphs_of_false {here : Nat → Bool} {cells : List Char} (h : ∀ c, here c = false) :
    rowGlyphs here cells = unlit cells := by
  induction cells generalizing here with
  | nil => rfl
  | cons cell cells ih =>
    rw [rowGlyphs_cons, h, ih fun c => h (c + 1)]
    rfl

/-- If no cell is highlighted, the picture is plain. -/
theorem glyphs_of_false (h : ∀ r c, here r c = false) :
    glyphs here picture = unlit (lines picture).toList := by
  induction picture generalizing here with
  | nil => rfl
  | cons line picture ih =>
    rw [glyphs_cons, rowGlyphs_of_false (h 0), ih fun r => h (r + 1), toList_lines_cons,
      Glyph.unlit_append]
    rfl

/-- Nothing is shown but the rows. -/
@[simp] theorem map_fst_glyphs (here : Nat → Nat → Bool) (picture : List String) :
    (glyphs here picture).map Prod.fst = (lines picture).toList := by
  induction picture generalizing here with
  | nil => rfl
  | cons line picture ih =>
    have hcells : (rowGlyphs (here 0) line.toList).map Prod.fst = line.toList := by
      apply List.ext_getElem?
      intro c
      rw [rowGlyphs, List.getElem?_map, List.getElem?_mapIdx, Option.map_map]
      exact Option.map_id'
    rw [glyphs_cons, List.map_append, List.map_cons, hcells, ih, toList_lines_cons]

/-- Two choices highlight the same exactly if they agree on all cells of the picture. -/
theorem glyphs_eq_iff :
    glyphs here picture = glyphs here' picture ↔
      ∀ r c, IsCell picture r c → here r c = here' r c := by
  induction picture generalizing here here' with
  | nil =>
    refine iff_of_true rfl ?_
    rintro r c ⟨line, hline, -⟩
    cases hline
  | cons line picture ih =>
    have hrow : rowGlyphs (here 0) line.toList = rowGlyphs (here' 0) line.toList ↔
        ∀ c < line.toList.length, here 0 c = here' 0 c := by
      rw [rowGlyphs, rowGlyphs, List.mapIdx_eq_mapIdx_iff]
      exact forall₂_congr fun c _ => by simp
    rw [glyphs_cons, glyphs_cons]
    constructor
    · intro h
      obtain ⟨hcells, hrest⟩ := List.append_inj h (by rw [length_rowGlyphs, length_rowGlyphs])
      rintro (_ | r) c ⟨line', hline', hc⟩
      · cases hline'
        exact hrow.mp hcells c hc
      · exact ih.mp (List.cons.inj hrest).2 r c ⟨line', hline', hc⟩
    · intro h
      rw [hrow.mpr fun c hc => h 0 c ⟨line, rfl, hc⟩,
        ih.mpr fun r c ⟨line', hline', hc⟩ => h (r + 1) c ⟨line', hline', hc⟩]

/-! ## One highlighted cell -/

/-- If one cell of a row is highlighted, the others stand before and after it. -/
theorem rowGlyphs_only (left right : List Char) (cell : Char) :
    rowGlyphs (· == left.length) (left ++ cell :: right) = lit left cell right := by
  induction left with
  | nil =>
    have hright : ∀ c, (c + 1 == ([] : List Char).length) = false := fun _ => rfl
    rw [List.nil_append, rowGlyphs_cons, rowGlyphs_of_false hright]
    rfl
  | cons d left ih =>
    have hrest : (fun c => c + 1 == (d :: left).length) = (· == left.length) := by
      funext c
      simp
    rw [List.cons_append, rowGlyphs_cons, hrest, ih]
    rfl

/-- The rows with one cell highlighted, around the cell. -/
theorem glyphs_only {above below : List String} {line : String} {left right : List Char}
    {cell : Char} (hline : line.toList = left ++ cell :: right) :
    glyphs (only above.length left.length) (above ++ line :: below) =
      lit ((lines above).toList ++ left) cell (right ++ '\n' :: (lines below).toList) := by
  induction above with
  | nil =>
    have hrow : rowGlyphs (only 0 left.length 0) line.toList = lit left cell right := by
      rw [hline]
      exact rowGlyphs_only left right cell
    have hbelow : ∀ r c, only 0 left.length (r + 1) c = false := fun _ _ => rfl
    rw [List.nil_append, List.length_nil, glyphs_cons, hrow, glyphs_of_false hbelow]
    simp [lit, lines, unlit]
  | cons line' above ih =>
    have hfirst : ∀ c, only (above.length + 1) left.length 0 c = false := fun _ => rfl
    have hrest : (fun r => only (above.length + 1) left.length (r + 1))
        = only above.length left.length := by
      funext r c
      simp [only]
    rw [List.cons_append, List.length_cons, glyphs_cons, hrest, ih, rowGlyphs_of_false hfirst,
      toList_lines_cons]
    simp [lit, unlit]

/-! ## Texts -/

/-- The rows of a picture on lines of their own, with the cells highlighted that are picked. -/
def drawn (picture : List String) (here : Nat → Nat → Bool) : String :=
  String.ofList (writtenAll (glyphs here picture))

/-- **A text points at a cell** of a picture: it shows the rows in order, each on a line of its own,
and of all their cells the one in this row and this column is highlighted. -/
def Points (picture : List String) (row column : Nat) (text : String) : Prop :=
  ∃ above line below left cell right,
    picture = above ++ line :: below ∧ above.length = row ∧
    line.toList = left ++ cell :: right ∧ left.length = column ∧
    text = lines above ++ String.ofList left ++ "\x1b[41m" ++ String.singleton cell ++ "\x1b[0m"
      ++ String.ofList right ++ "\n" ++ lines below

theorem exists_split {α : Type} {l : List α} {i : Nat} {a : α} (h : l[i]? = some a) :
    ∃ k k', l = k ++ a :: k' ∧ k.length = i := by
  obtain ⟨hi, rfl⟩ := List.getElem?_eq_some_iff.mp h
  refine ⟨l.take i, l.drop (i + 1), ?_, List.length_take_of_le hi.le⟩
  rw [← List.drop_eq_getElem_cons hi, List.take_append_drop]

/-- What stands around a cell. -/
theorem IsCell.exists_around (h : IsCell picture row column) :
    ∃ above line below left cell right,
      picture = above ++ line :: below ∧ above.length = row ∧
      line.toList = left ++ cell :: right ∧ left.length = column := by
  obtain ⟨line, hline, hcolumn⟩ := h
  obtain ⟨above, below, hpicture, habove⟩ := exists_split hline
  obtain ⟨left, right, hcells, hleft⟩ := exists_split (List.getElem?_eq_getElem hcolumn)
  exact ⟨above, line, below, left, _, right, hpicture, habove, hcells, hleft⟩

/-- The rows drawn with one cell highlighted, around the cell. -/
theorem drawn_only {above below : List String} {line : String} {left right : List Char}
    {cell : Char} (hline : line.toList = left ++ cell :: right) :
    drawn (above ++ line :: below) (only above.length left.length) =
      lines above ++ String.ofList left ++ "\x1b[41m" ++ String.singleton cell ++ "\x1b[0m"
        ++ String.ofList right ++ "\n" ++ lines below := by
  rw [drawn, glyphs_only hline, Glyph.writtenAll_lit, ← String.toList_inj]
  simp [Glyph.opening, Glyph.closing]

/-- A text points at a cell exactly if there is the cell, and no other is picked to draw the text. -/
theorem points_iff {text : String} :
    Points picture row column text ↔
      IsCell picture row column ∧ text = drawn picture (only row column) := by
  constructor
  · rintro ⟨above, line, below, left, cell, right, rfl, rfl, hline, rfl, rfl⟩
    refine ⟨⟨line, ?_, ?_⟩, (drawn_only hline).symm⟩
    · simp
    · simp [hline]
  · rintro ⟨hcell, rfl⟩
    obtain ⟨above, line, below, left, cell, right, rfl, rfl, hline, rfl⟩ := hcell.exists_around
    exact ⟨above, line, below, left, cell, right, rfl, rfl, hline, rfl, drawn_only hline⟩

/-- The picked cells can be told from the text, if there is one of them. -/
theorem drawn_eq_only_iff (hcell : IsCell picture row column) :
    drawn picture here = drawn picture (only row column) ↔
      glyphs here picture = glyphs (only row column) picture := by
  constructor
  · intro h
    obtain ⟨above, line, below, left, cell, right, rfl, rfl, hline, rfl⟩ := hcell.exists_around
    have hplain := (map_fst_glyphs here _).trans
      (map_fst_glyphs (only above.length left.length) (above ++ line :: below)).symm
    have hwritten := String.ofList_injective h
    rw [glyphs_only hline] at hplain hwritten ⊢
    rw [Glyph.map_fst_lit] at hplain
    exact Glyph.eq_of_writtenAll_eq hplain hwritten
  · intro h
    rw [drawn, h, drawn]

/-- A drawn picture points at a cell exactly if of all cells this one is picked. -/
theorem points_drawn_iff :
    Points picture row column (drawn picture here) ↔ IsCell picture row column ∧
      ∀ r c, IsCell picture r c → (here r c = true ↔ r = row ∧ c = column) := by
  rw [points_iff]
  apply and_congr_right
  intro hcell
  rw [drawn_eq_only_iff hcell, glyphs_eq_iff]
  refine forall_congr' fun r => forall_congr' fun c => forall_congr' fun _ => ?_
  rw [Bool.eq_iff_iff, only, Bool.and_eq_true, beq_iff_eq, beq_iff_eq]

/-! ## Frames -/

/-- What stands above the picture: the name of the last action. -/
def title (last : Option Int) : String :=
  match last with
  | some index => "  (" ++ Tabular.actionName index ++ ")\n"
  | none => ""

/-- The cells of a row are drawn as its glyphs are written. -/
theorem toList_join_cellText (here : Nat → Bool) (cells : List Char) :
    (String.join (cells.mapIdx fun c cell => Tabular.cellText (here c) cell)).toList =
      writtenAll (rowGlyphs here cells) := by
  induction cells generalizing here with
  | nil => rfl
  | cons cell cells ih =>
    rw [List.mapIdx_cons, String.join_cons, String.toList_append, Glyph.toList_cellText,
      ih fun c => here (c + 1), rowGlyphs_cons]
    rfl

theorem toList_rowText (state first : Nat) (line : String) :
    (Tabular.rowText state first line).toList =
      writtenAll (rowGlyphs (fun c => first + c == state) line.toList ++ [('\n', false)]) := by
  rw [Tabular.rowText, String.toList_append, toList_join_cellText fun c => first + c == state,
    Glyph.writtenAll_append]
  rfl

/-- Rows that start with these numbers are drawn with the cell highlighted that has the number of
the state. -/
theorem join_rowText (state : Nat) (first : Nat → Nat) (picture : List String) :
    String.join (picture.mapIdx fun r line => Tabular.rowText state (first r) line) =
      drawn picture fun r c => first r + c == state := by
  rw [← String.toList_inj, drawn, String.toList_ofList]
  induction picture generalizing first with
  | nil => rfl
  | cons line picture ih =>
    rw [List.mapIdx_cons, String.join_cons, String.toList_append, toList_rowText,
      ih fun r => first (r + 1), glyphs_cons, ← Glyph.writtenAll_append, List.append_assoc]
    rfl

/-- A grid is drawn under its title, with its rows taken to be as wide as the first one. -/
theorem gridText_eq (state : Nat) (last : Option Int) (line : String) (picture : List String) :
    Tabular.gridText state last (line :: picture) =
      title last ++ drawn (line :: picture) fun r c => r * line.length + c == state := by
  rw [← join_rowText state (· * line.length)]
  rfl

end Rollout.Picture
