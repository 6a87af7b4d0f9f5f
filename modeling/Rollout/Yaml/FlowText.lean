/-
# Plain and quoted texts

A text may go on over several lines.  Blanks around a line break are dropped, a
single line break becomes a space, and of several the first one is dropped.
-/
import Rollout.Yaml.Fault

namespace Rollout.Yaml

/-! ## Folding lines -/

/-- A text that is being read, and the gap after its last character. -/
structure Folding where
  /-- The characters read, the last one first. -/
  text : List Char
  /-- The blanks of the gap, the last one first; none after a line break. -/
  blanks : List Char
  /-- Whether the gap has a line break, which may be escaped. -/
  broken : Bool
  /-- Whether the first line break of the gap stands for a space. -/
  spaced : Bool
  /-- The number of line breaks after the first one. -/
  breaks : Nat

namespace Folding

/-- Nothing read yet. -/
def empty : Folding := ⟨[], [], false, false, 0⟩

/-- A blank in the gap. -/
def blank (c : Char) (f : Folding) : Folding :=
  if f.broken then f else { f with blanks := c :: f.blanks }

/-- A line break in the gap. -/
def lineBreak (f : Folding) : Folding :=
  if f.broken then { f with breaks := f.breaks + 1 }
  else { f with blanks := [], broken := true, spaced := true }

/-- An escaped line break, which stands for nothing. -/
def escapedBreak (f : Folding) : Folding := { f with broken := true }

/-- What the gap stands for, the last character first. -/
def gap (f : Folding) : List Char :=
  if f.broken then
    if f.spaced && f.breaks == 0 then [' '] else List.replicate f.breaks '\n'
  else f.blanks

/-- The gap closed. -/
def join (f : Folding) : Folding := ⟨f.gap ++ f.text, [], false, false, 0⟩

/-- A character of the text. -/
def push (c : Char) (f : Folding) : Folding := { f with text := c :: f.text }

/-- The text read. -/
def toString (f : Folding) : String := String.ofList f.text.reverse

end Folding

/-! ## Plain texts -/

/-- Where a reader of a plain text is. -/
inductive PlainPlace where
  /-- Before the first character. -/
  | first
  /-- After a character. -/
  | word
  /-- After a blank or a line break. -/
  | gap
  deriving DecidableEq

/-- What ends a plain text besides its characters. -/
structure PlainContext where
  /-- Whether the text is inside brackets. -/
  inFlow : Bool
  /-- The least column of its further lines. -/
  indent : Int
  /-- Where it begins. -/
  start : Position

namespace PlainContext

/-- Whether the characters ahead end a plain text. -/
def ends (k : PlainContext) (place : PlainPlace) (c : Cursor) : Bool :=
  (place == .gap && !k.inFlow && (c.column : Int) < k.indent)
    || (place != .word && (c.marksDocument || c.peek == '#'))
    || (c.peek == ':' && (isGap (c.ahead 1) || (k.inFlow && isFlow (c.ahead 1))))
    || (k.inFlow && isFlow c.peek)

/-- Whether a tab is where the indentation should be. -/
def tabbed (k : PlainContext) (f : Folding) (c : Char) (p : Position) : Bool :=
  f.broken && c == '\t' && (p.column : Int) < k.indent

/-- Reads a plain text to its end. -/
def read (k : PlainContext) :
    PlainPlace → Folding → Position → List Char → Except Fault (Folding × Cursor)
  | _, f, p, [] => .ok (f, ⟨[], p⟩)
  | _, f, p, '\r' :: '\n' :: rest => k.read .gap f.lineBreak ((p.after '\r').after '\n') rest
  | place, f, p, c :: rest =>
    if isEnd c then .ok (f, ⟨c :: rest, p⟩)
    else if isBreak c then k.read .gap f.lineBreak (p.after c) rest
    else if isBlank c then
      if k.tabbed f c p then .error ⟨.plainTab, k.start⟩
      else k.read .gap (f.blank c) (p.after c) rest
    else if k.ends place ⟨c :: rest, p⟩ then .ok (f, ⟨c :: rest, p⟩)
    else k.read .word (f.join.push c) (p.after c) rest

end PlainContext

/-! ## Quoted texts -/

/-- The hexadecimal digits of an escape that are still to come, and the number of those
before. -/
structure HexEscape where
  left : Nat
  value : Nat

/-- The character that a one-letter escape stands for. -/
def escaped? : Char → Option Char
  | '0' => some '\x00'
  | 'a' => some '\x07'
  | 'b' => some '\x08'
  | 't' => some '\t'
  | '\t' => some '\t'
  | 'n' => some '\n'
  | 'v' => some '\x0b'
  | 'f' => some '\x0c'
  | 'r' => some '\r'
  | 'e' => some '\x1b'
  | ' ' => some ' '
  | '"' => some '"'
  | '\'' => some '\''
  | '\\' => some '\\'
  | 'N' => some '\u0085'
  | '_' => some '\u00a0'
  | 'L' => some '\u2028'
  | 'P' => some '\u2029'
  | _ => none

/-- The number of hexadecimal digits after the letter of an escape. -/
def hexDigits? : Char → Option Nat
  | 'x' => some 2
  | 'u' => some 4
  | 'U' => some 8
  | _ => none

/-- Reads a text in double quotes, from after the first one.  Inside an escape the digits to
come are given. -/
def readDouble (start : Position) :
    Option HexEscape → Folding → Position → List Char → Except Fault (Folding × Cursor)
  | some _, _, _, [] => .error ⟨.quotedHex, start⟩
  | none, _, _, [] => .error ⟨.quotedEnd, start⟩
  | some h, f, p, c :: rest =>
    match hexValue? c with
    | none => .error ⟨.quotedHex, start⟩
    | some digit =>
      let value := h.value * 16 + digit
      if 1 < h.left then readDouble start (some ⟨h.left - 1, value⟩) f (p.after c) rest
      else
        match charOf? value with
        | none => .error ⟨.quotedCharacter, start⟩
        | some x => readDouble start none (f.push x) (p.after c) rest
  | none, f, p, '\r' :: '\n' :: rest =>
    readDouble start none f.lineBreak ((p.after '\r').after '\n') rest
  | none, f, p, '\\' :: '\r' :: '\n' :: rest =>
    readDouble start none f.join.escapedBreak (((p.after '\\').after '\r').after '\n') rest
  | none, f, p, '\\' :: e :: rest =>
    let after := (p.after '\\').after e
    if isBreak e then readDouble start none f.join.escapedBreak after rest
    else
      match escaped? e, hexDigits? e with
      | some x, _ => readDouble start none (f.join.push x) after rest
      | none, some n => readDouble start (some ⟨n, 0⟩) f.join after rest
      | none, none => .error ⟨.quotedEscape, start⟩
  | none, f, p, c :: rest =>
    if isEnd c then .error ⟨.quotedEnd, start⟩
    else if isBreak c then readDouble start none f.lineBreak (p.after c) rest
    else if isBlank c then readDouble start none (f.blank c) (p.after c) rest
    else if (⟨c :: rest, p⟩ : Cursor).marksDocument then .error ⟨.quotedDocument, start⟩
    else if c == '"' then .ok (f.join, ⟨rest, p.after c⟩)
    else if c == '\\' then .error ⟨.quotedEscape, start⟩
    else readDouble start none (f.join.push c) (p.after c) rest

/-- Reads a text in single quotes, from after the first one. -/
def readSingle (start : Position) :
    Folding → Position → List Char → Except Fault (Folding × Cursor)
  | _, _, [] => .error ⟨.quotedEnd, start⟩
  | f, p, '\r' :: '\n' :: rest => readSingle start f.lineBreak ((p.after '\r').after '\n') rest
  | f, p, '\'' :: '\'' :: rest =>
    readSingle start (f.join.push '\'') ((p.after '\'').after '\'') rest
  | f, p, c :: rest =>
    if isEnd c then .error ⟨.quotedEnd, start⟩
    else if isBreak c then readSingle start f.lineBreak (p.after c) rest
    else if isBlank c then readSingle start (f.blank c) (p.after c) rest
    else if (⟨c :: rest, p⟩ : Cursor).marksDocument then .error ⟨.quotedDocument, start⟩
    else if c == '\'' then .ok (f.join, ⟨rest, p.after c⟩)
    else readSingle start (f.join.push c) (p.after c) rest

end Rollout.Yaml
