/-
# Cursors

A cursor is a place in a text: the characters that are left, and the line and
column reached.  At the end, and at a null character, there is nothing more to
read; the null character stands for the end in every test.
-/
import Rollout.Numeric.Text

namespace Rollout.Yaml

/-! ## Classes of characters -/

/-- The end of the text. -/
def isEnd (c : Char) : Bool := c == '\x00'

/-- A line break. -/
def isBreak (c : Char) : Bool := c == '\n' || c == '\r'

/-- A line break or the end. -/
def isBreakOrEnd (c : Char) : Bool := isBreak c || isEnd c

/-- A space or a tab. -/
def isBlank (c : Char) : Bool := c == ' ' || c == '\t'

/-- What separates words: a blank, a line break or the end. -/
def isGap (c : Char) : Bool := isBlank c || isBreakOrEnd c

/-- A decimal digit. -/
def isDigit (c : Char) : Bool := '0' ≤ c && c ≤ '9'

/-- A character of a name. -/
def isWord (c : Char) : Bool :=
  isDigit c || ('a' ≤ c && c ≤ 'z') || ('A' ≤ c && c ≤ 'Z') || c == '_' || c == '-'

/-- The value of a hexadecimal digit. -/
def hexValue? (c : Char) : Option Nat :=
  if isDigit c then some (c.toNat - '0'.toNat)
  else if 'a' ≤ c ∧ c ≤ 'f' then some (c.toNat - 'a'.toNat + 10)
  else if 'A' ≤ c ∧ c ≤ 'F' then some (c.toNat - 'A'.toNat + 10)
  else none

/-- A bracket, a brace or a comma. -/
def isFlow (c : Char) : Bool := [',', '[', ']', '\x7b', '\x7d'].contains c

/-- The character of a code point, if there is one. -/
def charOf? (code : Nat) : Option Char := if code.isValidChar then some (Char.ofNat code) else none

/-! ## Positions -/

/-- A place in a text: lines are counted from one, columns and characters from zero. -/
structure Position where
  index : Nat
  line : Nat
  column : Nat
  deriving DecidableEq, Repr

namespace Position

/-- The beginning of a text. -/
def start : Position := ⟨0, 1, 0⟩

/-- The position after a character. -/
def after (p : Position) (c : Char) : Position :=
  if c == '\n' then ⟨p.index + 1, p.line + 1, 0⟩ else ⟨p.index + 1, p.line, p.column + 1⟩

/-- A position in messages, where columns are counted from one. -/
def text (p : Position) : String :=
  "line " ++ Numeric.natText p.line ++ " column " ++ Numeric.natText (p.column + 1)

end Position

/-! ## Cursors -/

/-- A place in a text with the characters that are left. -/
structure Cursor where
  rest : List Char
  position : Position

namespace Cursor

/-- The cursor at the beginning of a text. -/
def ofText (s : String) : Cursor := ⟨s.toList, .start⟩

/-- The character `n` places ahead. -/
def ahead (c : Cursor) (n : Nat) : Char := c.rest.getD n '\x00'

/-- The next character. -/
def peek (c : Cursor) : Char := c.ahead 0

/-- The column of the next character. -/
def column (c : Cursor) : Nat := c.position.column

/-- The cursor after the next character. -/
def skip (c : Cursor) : Cursor := ⟨c.rest.tail, c.position.after c.peek⟩

/-- The cursor after `n` characters. -/
def skipMany : (n : Nat) → Cursor → Cursor
  | 0, c => c
  | n + 1, c => skipMany n c.skip

/-- The characters from the front that satisfy a test, and the cursor after them. -/
def takeWhile (p : Char → Bool) (c : Cursor) : List Char × Cursor :=
  let front := c.rest.takeWhile fun x => p x && !isEnd x
  (front, c.skipMany front.length)

/-- The cursor after the characters that satisfy a test. -/
def skipWhile (p : Char → Bool) (c : Cursor) : Cursor := (c.takeWhile p).2

/-- The cursor after a comment, if one begins here. -/
def skipComment (c : Cursor) : Cursor :=
  if c.peek == '#' then c.skipWhile fun x => !isBreak x else c

/-- The cursor after a line break, if there is one. -/
def skipBreak (c : Cursor) : Cursor :=
  if c.peek == '\r' && c.ahead 1 == '\n' then c.skip.skip
  else if isBreak c.peek then c.skip
  else c

/-- Whether three of a character, followed by a gap, begin a line here. -/
def marks (c : Cursor) (x : Char) : Bool :=
  c.column == 0 && c.peek == x && c.ahead 1 == x && c.ahead 2 == x && isGap (c.ahead 3)

/-- Whether the marker of the start or of the end of a document is here. -/
def marksDocument (c : Cursor) : Bool := c.marks '-' || c.marks '.'

end Cursor

end Rollout.Yaml
