/-
# Highlighted characters

A character is highlighted by a code before it and a code after it.  The codes are
characters too, and may stand in the text as well; so there is no reader that finds the
highlights.  Still a text in which one character is highlighted is no other text, nor the
same text with other characters highlighted: `eq_of_writtenAll_eq`.
-/
import Mathlib.Tactic.Ring
import Rollout.World.Tabular

namespace Rollout

/-- A character, and whether it is highlighted. -/
abbrev Glyph := Char × Bool

namespace Glyph

variable {c c' : Char} {k l k' l' : List Char} {gs : List Glyph}

/-! ## Writing -/

/-- The code before a highlighted character. -/
def opening : List Char := ['\x1b', '[', '4', '1', 'm']

/-- The code after a highlighted character. -/
def closing : List Char := ['\x1b', '[', '0', 'm']

/-- The characters written for one. -/
def written (g : Glyph) : List Char := if g.2 then opening ++ g.1 :: closing else [g.1]

/-- The characters written for many. -/
def writtenAll (gs : List Glyph) : List Char := gs.flatMap written

/-- Characters none of which is highlighted. -/
def unlit (cs : List Char) : List Glyph := cs.map (·, false)

/-- One character highlighted among others. -/
def lit (before : List Char) (c : Char) (after : List Char) : List Glyph :=
  unlit before ++ (c, true) :: unlit after

/-- Glyphs are written one after another. -/
@[simp] theorem writtenAll_cons (g : Glyph) (gs : List Glyph) :
    writtenAll (g :: gs) = written g ++ writtenAll gs := rfl

/-- The text of two rows of glyphs is that of the first, then that of the second. -/
@[simp] theorem writtenAll_append (gs gs' : List Glyph) :
    writtenAll (gs ++ gs') = writtenAll gs ++ writtenAll gs' := List.flatMap_append

theorem toList_cellText (here : Bool) (c : Char) :
    (Tabular.cellText here c).toList = written (c, here) := by
  cases here with
  | false => simp [Tabular.cellText, written]
  | true => simp [Tabular.cellText, written, opening, closing]

@[simp] theorem unlit_append (k l : List Char) :
    unlit (k ++ l) = unlit k ++ unlit l := List.map_append

@[simp] theorem writtenAll_unlit (cs : List Char) : writtenAll (unlit cs) = cs := by
  induction cs with
  | nil => rfl
  | cons c cs ih => exact congrArg (c :: ·) ih

/-- The codes stand around the character that is highlighted. -/
@[simp] theorem writtenAll_lit (k l : List Char) (c : Char) :
    writtenAll (lit k c l) = k ++ (opening ++ c :: closing) ++ l := by
  simp [lit, written]

@[simp] theorem map_fst_unlit (cs : List Char) : (unlit cs).map Prod.fst = cs := by
  rw [unlit, List.map_map]
  exact List.map_id cs

@[simp] theorem map_fst_lit (k l : List Char) (c : Char) :
    (lit k c l).map Prod.fst = k ++ c :: l := by
  simp [lit]

/-! ## How many are highlighted -/

@[simp] theorem countP_unlit (cs : List Char) : (unlit cs).countP Prod.snd = 0 := by
  rw [List.countP_eq_zero]
  intro g hg
  obtain ⟨c, -, rfl⟩ := List.mem_map.mp hg
  exact Bool.false_ne_true

/-- Exactly the one character is highlighted. -/
@[simp] theorem countP_lit (k l : List Char) (c : Char) : (lit k c l).countP Prod.snd = 1 := by
  simp [lit]

/-- The two codes have nine characters. -/
theorem length_writtenAll (gs : List Glyph) :
    (writtenAll gs).length = gs.length + 9 * gs.countP Prod.snd := by
  induction gs with
  | nil => rfl
  | cons g gs ih =>
    obtain ⟨c, here⟩ := g
    rw [writtenAll_cons, List.length_append, ih]
    cases here with
    | false =>
      simp [written]
      omega
    | true =>
      simp [written, opening, closing]
      omega

/-- If no character is highlighted, the text is plain. -/
theorem eq_unlit_of_countP (h : gs.countP Prod.snd = 0) : gs = unlit (gs.map Prod.fst) := by
  rw [unlit, List.map_map]
  rw [List.countP_eq_zero] at h
  refine (List.map_id gs).symm.trans (List.map_congr_left ?_)
  intro g hg
  exact Prod.ext rfl (Bool.eq_false_iff.mpr (h g hg))

/-- If one is highlighted, the others stand before and after it. -/
theorem exists_eq_lit (h : gs.countP Prod.snd = 1) : ∃ k c l, gs = lit k c l := by
  induction gs with
  | nil => cases h
  | cons g gs ih =>
    obtain ⟨c, here⟩ := g
    cases here with
    | false =>
      rw [List.countP_cons_of_neg Bool.false_ne_true] at h
      obtain ⟨k, c', l, rfl⟩ := ih h
      exact ⟨c :: k, c', l, rfl⟩
    | true =>
      rw [List.countP_cons_of_pos rfl, Nat.add_eq_right] at h
      exact ⟨[], c, gs.map Prod.fst, congrArg ((c, true) :: ·) (eq_unlit_of_countP h)⟩

/-! ## Which one is highlighted -/

/-- The sum of the positions at which a character stands. -/
def moment (x : Char) : List Char → Nat
  | [] => 0
  | _ :: l => moment x l + l.count x

/-- The moment of two texts, the second of which stands behind the first. -/
theorem moment_append (x : Char) (k l : List Char) :
    moment x (k ++ l) = moment x k + moment x l + k.length * l.count x := by
  induction k with
  | nil => simp [moment]
  | cons c k ih =>
    rw [List.cons_append, moment, moment, ih, List.count_append, List.length_cons]
    ring

/-- The codes cannot stand around an earlier character of a text instead.  They take the same
characters with them either way, but not to the same places: the sums of the positions of the
escape and of the digit four do not come out equal both. -/
theorem earlier_ne (c c' : Char) (y : List Char) :
    opening ++ c :: closing ++ (y ++ [c']) ≠ (c :: y) ++ (opening ++ c' :: closing) := by
  intro h
  have hc : c = '\x1b' := (List.cons.inj h).1.symm
  have hc' : c' = 'm' := by
    have hend : (opening ++ c :: closing ++ y) ++ [c']
        = (c :: y ++ (opening ++ [c', '\x1b', '[', '0'])) ++ ['m'] := by
      simpa [opening, closing] using h
    exact (List.cons.inj (List.append_inj' hend rfl).2).1
  subst hc hc'
  have hescape := congrArg (moment '\x1b') h
  have hfour := congrArg (moment '4') h
  simp [opening, closing, moment, moment_append] at hescape hfour
  omega

/-- With the codes around it, no character stands later than another in the same text. -/
theorem length_le_of_lit (hplain : k ++ c :: l = k' ++ c' :: l')
    (h : writtenAll (lit k c l) = writtenAll (lit k' c' l')) : k'.length ≤ k.length := by
  simp only [writtenAll_lit] at h
  by_contra hlt
  rcases List.append_eq_append_iff.mp hplain with ⟨y, rfl, hy⟩ | ⟨y, rfl, -⟩
  · cases y with
    | nil => simp at hlt
    | cons d y =>
      obtain ⟨rfl, rfl⟩ := List.cons.inj hy
      -- the texts agree before `c` and after `c'`
      apply earlier_ne c c' y
      have hafter : k ++ (opening ++ c :: closing ++ (y ++ [c'])) ++ l'
          = k ++ ((c :: y) ++ (opening ++ c' :: closing)) ++ l' := by
        simpa [List.append_assoc] using h
      exact List.append_cancel_left (List.append_cancel_right hafter)
  · rw [List.length_append] at hlt
    omega

/-- A highlighted text tells which of its characters is highlighted. -/
theorem lit_injective (hplain : k ++ c :: l = k' ++ c' :: l')
    (h : writtenAll (lit k c l) = writtenAll (lit k' c' l')) : lit k c l = lit k' c' l' := by
  have hlength : k.length = k'.length :=
    Nat.le_antisymm (length_le_of_lit hplain.symm h.symm) (length_le_of_lit hplain h)
  obtain ⟨rfl, hrest⟩ := List.append_inj hplain hlength
  obtain ⟨rfl, rfl⟩ := List.cons.inj hrest
  rfl

/-- A text with one highlighted character is no other. -/
theorem eq_of_writtenAll_eq (hplain : gs.map Prod.fst = k ++ c :: l)
    (h : writtenAll gs = writtenAll (lit k c l)) : gs = lit k c l := by
  have hcount : gs.countP Prod.snd = 1 := by
    have hlength := congrArg List.length h
    have hplainLength := congrArg List.length (hplain.trans (map_fst_lit k l c).symm)
    simp only [length_writtenAll, countP_lit] at hlength
    simp only [List.length_map] at hplainLength
    omega
  obtain ⟨k', c', l', rfl⟩ := exists_eq_lit hcount
  rw [map_fst_lit] at hplain
  exact lit_injective hplain h

end Glyph

end Rollout
