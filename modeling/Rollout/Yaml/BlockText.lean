/-
# Block texts

A block text is a run of indented lines under a header.  The header says whether
line breaks are kept or folded, what happens to those at the end, and perhaps
how far the lines are indented; otherwise the first line that is not empty
decides.
-/
import Rollout.Yaml.Fault

namespace Rollout.Yaml

/-! ## Headers -/

/-- What happens to the line breaks at the end of a block text. -/
inductive Chomping where
  /-- All go. -/
  | strip
  /-- The first one stays. -/
  | clip
  /-- All stay. -/
  | keep
  deriving DecidableEq, Repr

/-- The header of a block text. -/
structure BlockHeader where
  chomping : Chomping
  /-- How much farther than its parent the text is indented, if the header says so. -/
  increment : Option Nat

/-- The chomping mark at the cursor, if there is one. -/
def readChomping (c : Cursor) : Option Chomping × Cursor :=
  if c.peek == '+' then (some .keep, c.skip)
  else if c.peek == '-' then (some .strip, c.skip)
  else (none, c)

/-- The indentation mark at the cursor, if there is one. -/
def readIncrement (start : Position) (c : Cursor) : Except Fault (Option Nat × Cursor) :=
  if c.peek == '0' then .error ⟨.blockIndentZero, start⟩
  else if isDigit c.peek then .ok (some (c.peek.toNat - '0'.toNat), c.skip)
  else .ok (none, c)

/-- The two marks of a header in any order, and the rest of its line. -/
def readHeader (start : Position) (c : Cursor) : Except Fault (BlockHeader × Cursor) := do
  let (before, c) := readChomping c
  let (increment, c) ← readIncrement start c
  let (after, c) := if before.isNone && increment.isSome then readChomping c else (none, c)
  let c := (c.skipWhile isBlank).skipComment
  if isBreakOrEnd c.peek then
    .ok (⟨(before.or after).getD .clip, increment⟩, c.skipBreak)
  else .error ⟨.blockHeaderEnd, start⟩

/-! ## Lines -/

/-- A block text that is being read. -/
structure BlockText where
  /-- The characters read, the last one first. -/
  text : List Char
  /-- Whether a line was ended. -/
  ended : Bool
  /-- The number of empty lines after it. -/
  breaks : Nat
  /-- Whether the last line began with a blank. -/
  indentedMore : Bool
  /-- The column of the lines, if it is known. -/
  indent : Option Nat
  /-- The largest column at which a line was empty. -/
  widest : Nat
  /-- Where the text begins, once the first gap is over. -/
  begun : Option Position

/-- The text with an empty line that ends at a position. -/
def BlockText.skipLine (b : BlockText) (p : Position) : BlockText :=
  { b with breaks := b.breaks + 1, widest := max b.widest p.column }

/-- How lines are joined, and the least column. -/
structure BlockContext where
  /-- Whether line breaks are kept. -/
  literal : Bool
  /-- The least column of the lines. -/
  least : Nat

namespace BlockContext

/-- What the end of the last line and the empty lines after it stand for before a line that
begins with this character, the last character first. -/
def gap (k : BlockContext) (b : BlockText) (c : Char) : List Char :=
  let folded := !k.literal && b.ended && !b.indentedMore && !isBlank c
  let first := if folded then (if b.breaks == 0 then [' '] else [])
    else if b.ended then ['\n'] else []
  List.replicate b.breaks '\n' ++ first

/-- The text with a line begun. -/
def beginLine (k : BlockContext) (b : BlockText) (c : Char) : BlockText :=
  { b with
    text := c :: (k.gap b c ++ b.text), ended := false, breaks := 0, indentedMore := isBlank c }

/-- The text with its gap over at a position. -/
def settle (k : BlockContext) (b : BlockText) (p : Position) : BlockText :=
  { b with
    indent := some (b.indent.getD (max k.least (max b.widest p.column)))
    begun := some (b.begun.getD p) }

/-- Whether a position is left of the lines. -/
def isBelow (b : BlockText) (p : Position) : Bool :=
  match b.indent with
  | none => true
  | some n => p.column < n

/-- Reads lines to the end of the text. -/
def read (k : BlockContext) :
    (inLine : Bool) → BlockText → Position → List Char → Except Fault (BlockText × Cursor)
  | true, b, p, [] => .ok (b, ⟨[], p⟩)
  | false, b, p, [] => .ok (k.settle b p, ⟨[], p⟩)
  | true, b, p, '\r' :: '\n' :: rest =>
    k.read false { b with ended := true } ((p.after '\r').after '\n') rest
  | false, b, p, '\r' :: '\n' :: rest =>
    k.read false (b.skipLine p) ((p.after '\r').after '\n') rest
  | true, b, p, c :: rest =>
    if isEnd c then .ok (b, ⟨c :: rest, p⟩)
    else if isBreak c then k.read false { b with ended := true } (p.after c) rest
    else k.read true { b with text := c :: b.text } (p.after c) rest
  | false, b, p, c :: rest =>
    if isBelow b p && c == ' ' then k.read false b (p.after c) rest
    else if isBelow b p && c == '\t' then .error ⟨.blockTab, p⟩
    else if isBreak c then k.read false (b.skipLine p) (p.after c) rest
    else
      let b := k.settle b p
      if isEnd c || b.indent != some p.column then .ok (b, ⟨c :: rest, p⟩)
      else k.read true (k.beginLine b c) (p.after c) rest

end BlockContext

/-- The text without the line breaks that its end loses. -/
def BlockText.finish (b : BlockText) (chomping : Chomping) : String :=
  let first := if b.ended then ['\n'] else []
  let tail := match chomping with
    | .strip => []
    | .clip => first
    | .keep => List.replicate b.breaks '\n' ++ first
  String.ofList (tail ++ b.text).reverse

/-- Reads a block text from after its first character.  The column of the enclosing
collection is `parent`, or -1 outside of any. -/
def readBlock (literal : Bool) (parent : Int) (start : Position) (c : Cursor) :
    Except Fault (String × Position × Cursor) := do
  let (header, c) ← readHeader start c
  let indent := header.increment.map fun n => (max parent 0).toNat + n
  let least := max (parent + 1).toNat 1
  let (b, c) ← BlockContext.read ⟨literal, least⟩ false
    ⟨[], false, 0, false, indent, 0, none⟩ c.position c.rest
  .ok (b.finish header.chomping, b.begun.getD c.position, c)

end Rollout.Yaml
