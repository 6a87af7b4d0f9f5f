/-
# Frames of a lake

The table of a lake counts the cells of a row in bytes.  A frame counts them in
characters, and takes every row to have as many of them as the first one.  The two agree
where characters are single bytes.  So the frames of most maps show where the agent is;
on the others some do and some do not: `frame_points_at_agent_iff`.
-/
import Rollout.Proofs.ClosedTables
import Rollout.Proofs.LakeMaps
import Rollout.Proofs.Pictures
import Rollout.Proofs.TableUpdates

namespace Rollout.FrozenLake

open Picture (Points IsCell drawn title)

variable {map : List String} {slippery : Bool} {width state row column : Nat}
variable {cells : List Char}

/-! ## Bytes and characters -/

/-- All characters are single bytes. -/
def OneByte (cells : List Char) : Prop := ∀ c ∈ cells, c.toNat < 0x80

instance (cells : List Char) : Decidable (OneByte cells) :=
  List.decidableBAll (fun c : Char => c.toNat < 0x80) cells

/-- The number of bytes of some characters. -/
def byteLength (cells : List Char) : Nat := (cells.flatMap Text.Utf8.encodeChar).length

/-- The byte at a position is one of the character's in this column. -/
def Covers (cells : List Char) (column position : Nat) : Prop :=
  byteLength (cells.take column) ≤ position ∧ position < byteLength (cells.take (column + 1))

theorem length_encodeChar (c : Char) :
    1 ≤ (Text.Utf8.encodeChar c).length ∧
      ((Text.Utf8.encodeChar c).length = 1 ↔ c.toNat < 0x80) := by
  simp only [Text.Utf8.encodeChar]
  split_ifs with h
  all_goals simp [h]

/-- There are as many bytes as characters at least, and no more exactly if all are single bytes. -/
theorem length_le_byteLength (cells : List Char) :
    cells.length ≤ byteLength cells ∧ (byteLength cells = cells.length ↔ OneByte cells) := by
  induction cells with
  | nil => exact ⟨Nat.le_refl 0, iff_of_true rfl (List.forall_mem_nil _)⟩
  | cons c cells ih =>
    obtain ⟨hle, heq⟩ := ih
    obtain ⟨hpos, hone⟩ := length_encodeChar c
    have hcons : byteLength (c :: cells) = (Text.Utf8.encodeChar c).length + byteLength cells := by
      rw [byteLength, List.flatMap_cons, List.length_append, byteLength]
    rw [hcons, List.length_cons]
    refine ⟨by omega, ?_⟩
    rw [OneByte, List.forall_mem_cons, ← hone, ← OneByte, ← heq]
    omega

/-- A character starts no earlier than its column says. -/
theorem Covers.column_le {position : Nat} (h : Covers cells column position)
    (hcolumn : column ≤ cells.length) : column ≤ position := by
  obtain ⟨hle, -⟩ := length_le_byteLength (cells.take column)
  rw [List.length_take_of_le hcolumn] at hle
  exact hle.trans h.1

/-- The byte at a position is that of the character in the same column exactly if all characters
before it are single bytes. -/
theorem covers_self_iff (hcolumn : column < cells.length) :
    Covers cells column column ↔ OneByte (cells.take column) := by
  obtain ⟨hle, hone⟩ := length_le_byteLength (cells.take column)
  obtain ⟨hle', -⟩ := length_le_byteLength (cells.take (column + 1))
  rw [List.length_take_of_le hcolumn.le] at hle hone
  rw [List.length_take_of_le hcolumn] at hle'
  rw [← hone, Covers]
  omega

/-! ## Pictures of a map -/

/-- The picture of a map in a state: the cells are highlighted that have its number, if all rows are
taken to have as many characters as the first one. -/
def pictureOf (map : List String) (state : Nat) : String :=
  drawn map fun r c => r * (map.headD "").toList.length + c == state

/-- A grid is drawn as the picture of its state, under the name of the last action. -/
theorem gridText_eq_pictureOf (hmap : map ≠ []) (state : Nat) (last : Option Int) :
    Tabular.gridText state last map = title last ++ pictureOf map state := by
  obtain ⟨line, rest, rfl⟩ := List.exists_cons_of_ne_nil hmap
  rw [Picture.gridText_eq, ← String.length_toList]
  rfl

/-- The number of a state, if rows are taken to have `count` cells: nothing changes in the first row. -/
theorem number_eq {count : Nat} (h : state / width = 0 ∨ count = width) :
    state / width * count + state % width = state := by
  have hstate : state / width * width + state % width = state := Nat.div_add_mod' state width
  rcases h with hzero | rfl
  · rw [hzero, Nat.zero_mul] at hstate ⊢
    exact hstate
  · exact hstate

namespace Rectangle

variable {line : String}

/-- A row has no more characters than bytes, and as many exactly if all are single bytes. -/
theorem length_toList_le (h : Rectangle map width) (hline : line ∈ map) :
    line.toList.length ≤ width ∧ (line.toList.length = width ↔ OneByte line.toList) := by
  obtain ⟨hle, hone⟩ := length_le_byteLength line.toList
  have hwidth : byteLength line.toList = width := h.length_row line hline
  rw [hwidth] at hle hone
  exact ⟨hle, eq_comm.trans hone⟩

theorem headD_mem (h : Rectangle map width) : map.headD "" ∈ map := by
  cases map with
  | nil => exact absurd rfl h.ne_nil
  | cons line rest => exact List.mem_cons_self

/-- If an earlier column in the row of a state is pointed at, it is the state's, and rows are counted
right as far as it matters. -/
theorem of_points (h : Rectangle map width)
    (hpoints : Points map (state / width) column (pictureOf map state))
    (hcolumn : column ≤ state % width) :
    (state / width = 0 ∨ OneByte (map.headD "").toList) ∧ column = state % width := by
  obtain ⟨hle, hone⟩ := h.length_toList_le h.headD_mem
  obtain ⟨hcell, honly⟩ := Picture.points_drawn_iff.mp hpoints
  have hnumber := beq_iff_eq.mp ((honly _ _ hcell).mpr ⟨rfl, rfl⟩)
  have hstate : state / width * width + state % width = state := Nat.div_add_mod' state width
  have hmul := Nat.mul_le_mul_left (state / width) hle
  refine ⟨?_, by omega⟩
  rcases Nat.eq_zero_or_pos (state / width) with hzero | hpos
  · exact .inl hzero
  · exact .inr (hone.mp (Nat.eq_of_mul_eq_mul_left hpos (by omega)))

/-- If rows are counted right as far as it matters, the cell of a state is pointed at. -/
theorem points_of_isCell (h : Rectangle map width)
    (hrows : state / width = 0 ∨ OneByte (map.headD "").toList)
    (hcell : IsCell map (state / width) (state % width)) :
    Points map (state / width) (state % width) (pictureOf map state) := by
  obtain ⟨hle, hone⟩ := h.length_toList_le h.headD_mem
  rw [← hone] at hrows
  have hnumber := number_eq hrows
  have hcolumn : state % width < (map.headD "").toList.length := by
    rcases hrows with hzero | hwidth
    · -- the state lies in the first row
      obtain ⟨line, hline, hlt⟩ := hcell
      rw [hzero, ← List.head?_eq_getElem?] at hline
      rwa [List.headD_eq_head?_getD, hline]
    · rw [hwidth]
      exact Nat.mod_lt state h.pos
  refine Picture.points_drawn_iff.mpr ⟨hcell, ?_⟩
  rintro r c ⟨line, hline, hc⟩
  rw [beq_iff_eq]
  constructor
  · intro heq
    have hlt : c < (map.headD "").toList.length := by
      rcases hrows with hzero | hwidth
      · rw [hzero] at hnumber
        omega
      · rw [hwidth]
        exact hc.trans_le (h.length_toList_le (List.mem_of_getElem? hline)).1
    exact (TransitionTable.position_injective hlt hcolumn).mp (heq.trans hnumber.symm)
  · rintro ⟨rfl, rfl⟩
    exact hnumber

theorem isCell_iff (h : Rectangle map width) (hs : state < map.length * width) :
    IsCell map (state / width) column ↔ column < (map.getD (state / width) "").toList.length := by
  have hrow : state / width < map.length := (Nat.div_lt_iff_lt_mul h.pos).mpr hs
  rw [IsCell, List.getD_eq_getElem?_getD, List.getElem?_eq_getElem hrow]
  simp

/-- **The cell of a state is pointed at** exactly if the row of the state has so many characters and
is the first one, or the first row has single bytes only. -/
theorem points_iff (h : Rectangle map width) (hs : state < map.length * width) :
    Points map (state / width) (state % width) (pictureOf map state) ↔
      (state / width = 0 ∨ OneByte (map.headD "").toList) ∧
        state % width < (map.getD (state / width) "").toList.length := by
  rw [← h.isCell_iff hs]
  constructor
  · intro hpoints
    exact ⟨(h.of_points hpoints (Nat.le_refl _)).1, (Picture.points_drawn_iff.mp hpoints).1⟩
  · rintro ⟨hrows, hcell⟩
    exact h.points_of_isCell hrows hcell

/-- The row of a state is one of the map's. -/
theorem getD_mem (h : Rectangle map width) (hs : state < map.length * width) :
    map.getD (state / width) "" ∈ map := by
  have hrow : state / width < map.length := (Nat.div_lt_iff_lt_mul h.pos).mpr hs
  rw [List.getD_eq_getElem?_getD, List.getElem?_eq_getElem hrow]
  exact List.getElem_mem hrow

theorem lt_length_of_oneByte (h : Rectangle map width) {line : String} (hline : line ∈ map)
    (hone : OneByte (line.toList.take (state % width))) : state % width < line.toList.length := by
  have hlt : state % width < width := Nat.mod_lt state h.pos
  by_contra hge
  -- all characters of the row come before the column then
  rw [List.take_of_length_le (Nat.le_of_not_lt hge)] at hone
  rw [← (h.length_toList_le hline).2] at hone
  omega

/-- The character with the byte of a state is pointed at exactly if the characters before it are
single bytes, and the row is the first one or the first row has single bytes only. -/
theorem covers_and_points_iff (h : Rectangle map width) (hs : state < map.length * width) :
    (∃ column, Covers (map.getD (state / width) "").toList column (state % width) ∧
        Points map (state / width) column (pictureOf map state)) ↔
      (state / width = 0 ∨ OneByte (map.headD "").toList) ∧
        OneByte ((map.getD (state / width) "").toList.take (state % width)) := by
  constructor
  · rintro ⟨column, hcovers, hpoints⟩
    have hcolumn := (h.isCell_iff hs).mp (Picture.points_drawn_iff.mp hpoints).1
    obtain ⟨hrows, rfl⟩ := h.of_points hpoints (hcovers.column_le hcolumn.le)
    exact ⟨hrows, (covers_self_iff hcolumn).mp hcovers⟩
  · rintro ⟨hrows, hone⟩
    have hcolumn := h.lt_length_of_oneByte (h.getD_mem hs) hone
    exact ⟨state % width, (covers_self_iff hcolumn).mpr hone,
      h.points_of_isCell hrows ((h.isCell_iff hs).mpr hcolumn)⟩

end Rectangle

/-! ## Frames of a lake that is built -/

/-- A call keeps the picture. -/
theorem picture_call (c : EnvCall) (e : Tabular) : (Env.call c e).2.picture = e.picture := by
  cases c with
  | seed s => rfl
  | reset =>
    show (Tabular.reset e).2.picture = _
    rcases hr : (Tabular.reset e).1 with f | o
    · obtain ⟨random, hafter⟩ := Tabular.of_reset_eq_error hr
      rw [hafter]
    · obtain ⟨random, state, -, -, hafter⟩ := Tabular.of_reset_eq_ok hr
      rw [hafter]
  | step a =>
    show (Tabular.step a e).2.picture = _
    rcases hs : (Tabular.step a e).1 with f | r
    · obtain ⟨random, hafter⟩ := Tabular.of_step_eq_error hs
      rw [hafter]
    · obtain ⟨_, _, _, _, random, -, -, -, -, -, hafter⟩ := Tabular.of_step_eq_ok hs
      rw [hafter]
  | render => rfl

/-- A lake that is built has its map for a picture. -/
theorem picture_of_build_eq_ok {seed : UInt64} {e : Tabular} (he : build map slippery seed = .ok e) :
    e.picture = some map := by
  obtain ⟨width, h, hS, -⟩ := exists_rectangle_of_build_eq_ok he
  rw [h.build_eq hS] at he
  rcases hb : Tabular.build ((cellsOf map width).table slippery) (cellsOf map width).initial seed
    with f | e'
  · rw [hb] at he
    cases he
  · rw [hb] at he
    cases he
    rfl

/-- After any calls, the agent is on the map of a lake that was built, and the map is drawn. -/
theorem exists_rectangle_afterAll {seed : UInt64} {e₀ : Tabular}
    (he : build map slippery seed = .ok e₀) (calls : List EnvCall) :
    ∃ width, Rectangle map width ∧
      (Env.afterAll calls e₀).table = (cellsOf map width).table slippery ∧
      (Env.afterAll calls e₀).state < map.length * width ∧
      (Env.afterAll calls e₀).picture = some map := by
  obtain ⟨width, h, -, htable, hinitial, hstate⟩ := exists_rectangle_of_build_eq_ok he
  have hclosed := (cellsOf map width).closed_table slippery
  have hstart : Tabular.OnTable ((cellsOf map width).table slippery) (cellsOf map width).initial e₀ :=
    ⟨htable, hinitial, hstate ▸ Nat.mul_pos h.length_pos h.pos⟩
  have hon : Tabular.OnTable _ _ (Env.afterAll calls e₀) :=
    Env.afterAll_induction hstart fun c _ _ hon =>
      hon.call hclosed (cellsOf map width).length_initial c
  have hpicture : (Env.afterAll calls e₀).picture = some map :=
    Env.afterAll_induction (P := fun e : Tabular => e.picture = some map)
      (picture_of_build_eq_ok he) fun c _ e hpicture => (picture_call c e).trans hpicture
  exact ⟨width, h, hon.table, hon.state, hpicture⟩

/-- **When a frame shows where the agent is.**  A lake is built and any calls made on it.  Its frame
and the frames with any other last action show the rows of the map in order, each on a line of its
own, with those cells highlighted that have the number of the state if all rows are taken to have as
many characters as the first.  The table has rows of `width` bytes instead.  Of all cells the one in
the row and the column of the state is highlighted exactly if there is such a cell, and the row is the
first one or the first row has single bytes only.  The one with the byte of the state is highlighted
exactly if moreover the characters before it are single bytes.  So the frames of a map with single
bytes only are all right. -/
theorem frame_points_at_agent_iff {seed : UInt64} {e₀ : Tabular}
    (h : build map slippery seed = .ok e₀) (calls : List EnvCall) :
    let e := Env.afterAll calls e₀
    let text := pictureOf map e.state
    (Env.render e).1.frames = ["\n" ++ Tabular.gridText e.state e.lastAction map] ∧
    (∀ last, Tabular.gridText e.state last map = title last ++ text) ∧
    ∃ width, Rectangle map width ∧ e.table = (cellsOf map width).table slippery ∧
      e.state < map.length * width ∧
      let row := e.state / width
      let column := e.state % width
      let first := (map.headD "").toList
      let cells := (map.getD row "").toList
      (Points map row column text ↔ (row = 0 ∨ OneByte first) ∧ column < cells.length) ∧
      ((∃ c, Covers cells c column ∧ Points map row c text) ↔
        (row = 0 ∨ OneByte first) ∧ OneByte (cells.take column)) ∧
      ((∀ line ∈ map, OneByte line.toList) → Points map row column text) := by
  intro e text
  obtain ⟨width, hmap, htable, hstate, hpicture⟩ := exists_rectangle_afterAll h calls
  have hframes : (Env.render e).1.frames = [e.frame] := rfl
  refine ⟨?_, gridText_eq_pictureOf hmap.ne_nil e.state, width, hmap, htable, hstate,
    hmap.points_iff hstate, hmap.covers_and_points_iff hstate, ?_⟩
  · rw [hframes, Tabular.frame, hpicture]
  · intro hone
    refine (hmap.points_iff hstate).mpr ⟨.inr (hone _ hmap.headD_mem), ?_⟩
    apply hmap.lt_length_of_oneByte (hmap.getD_mem hstate)
    intro c hc
    exact hone _ (hmap.getD_mem hstate) c (List.mem_of_mem_take hc)

/-- After a move down from the start of a lake whose first row ends in a letter of two bytes, the agent
stands on the first cell of the second row, and the frame shows it in the hole beside. -/
theorem frame_points_at_agent_iff_accentedRow :
    ∃ e₀, build ["Sé", "FHG"] false 0 = .ok e₀ ∧
      let e := Env.afterAll [.reset, .step (.discrete 1)] e₀
      let text := "Sé\nF\x1b[41mH\x1b[0mG\n"
      e.state / 3 = 1 ∧ e.state % 3 = 0 ∧
      Tabular.gridText e.state e.lastAction ["Sé", "FHG"] = title e.lastAction ++ text ∧
      ¬ Points ["Sé", "FHG"] 1 0 text ∧ Points ["Sé", "FHG"] 1 1 text := by
  have hmap : Rectangle ["Sé", "FHG"] 3 := ⟨by decide, by decide, by decide +kernel⟩
  obtain ⟨e₀, he⟩ := exists_build_eq_ok_iff.mpr
    ⟨⟨3, hmap⟩, (by decide +kernel : HasStart ["Sé", "FHG"])⟩
  have hshown : ((build ["Sé", "FHG"] false 0).toOption.map fun e₀ =>
      (Env.afterAll [.reset, .step (.discrete 1)] e₀).state) = some 3 := by
    decide +kernel
  rw [he, Except.toOption, Option.map_some, Option.some.injEq] at hshown
  obtain ⟨-, htext, width, hwidth, -, -, hpoints, -⟩ :=
    frame_points_at_agent_iff he [.reset, .step (.discrete 1)]
  obtain rfl := hmap.unique hwidth
  have hdrawn : pictureOf ["Sé", "FHG"] 3 = "Sé\nF\x1b[41mH\x1b[0mG\n" := by decide +kernel
  simp only [hshown, hdrawn] at htext hpoints
  refine ⟨e₀, he, ?_, ?_, ?_, ?_, ?_⟩
  · rw [hshown]
  · rw [hshown]
  · rw [hshown]
    exact htext _
  · intro h
    obtain ⟨hzero | hone, -⟩ := hpoints.mp h
    · exact absurd hzero (by decide)
    · exact absurd hone (by decide)
  · exact ⟨["Sé"], "FHG", [], ['F'], 'H', ['G'], rfl, rfl, rfl, rfl, by decide +kernel⟩

end Rollout.FrozenLake
