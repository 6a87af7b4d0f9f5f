/-
# Names, tags and directives

The small marks of a text: anchors and aliases, which name a node; tags, which
give its type; and directives, which stand before a document and change nothing
here.
-/
import Rollout.Yaml.Fault

namespace Rollout.Yaml

/-! ## Anchors and aliases -/

/-- Whether a character may follow a name. -/
def endsName (c : Char) : Bool :=
  isGap c || ['?', ':', ',', ']', '\x7d', '%', '@', '\x60'].contains c

/-- The name after the mark of an anchor or an alias. -/
def readName (c : Cursor) : Except Fault (String × Cursor) :=
  let (name, after) := c.skip.takeWhile isWord
  if name.isEmpty || !endsName after.peek then .error ⟨.anchorName, c.position⟩
  else .ok (String.ofList name, after)

/-! ## Tags -/

/-- A tag: the handle names a family and the suffix a type in it. -/
structure Tag where
  handle : String
  suffix : String
  deriving DecidableEq, Repr

/-- Whether a character may stand in a tag. -/
def isUri (c : Char) : Bool :=
  isWord c || [';', '/', '?', ':', '@', '&', '=', '+', '$', ',', '.', '!', '~', '*', '\'', '(',
    ')', '[', ']', '%'].contains c

/-- The number of bytes that a byte of this value begins. -/
def sequenceLength? (octet : Nat) : Option Nat :=
  if octet < 0x80 then some 1
  else if 0xc0 ≤ octet ∧ octet < 0xe0 then some 2
  else if 0xe0 ≤ octet ∧ octet < 0xf0 then some 3
  else if 0xf0 ≤ octet ∧ octet < 0xf8 then some 4
  else none

/-- Reads the characters of a tag, the last one first.  Of an escaped character `left` bytes
are to come, and those before make up `code`: byte after byte, with their marks. -/
def readUri (start : Position) :
    (left code : Nat) → List Char → Position → List Char → Except Fault (List Char × Cursor)
  | 0, _, out, p, [] => .ok (out, ⟨[], p⟩)
  | _ + 1, _, _, _, [] => .error ⟨.uriOctet, start⟩
  | left, code, out, p, '%' :: a :: b :: rest =>
    match hexValue? a, hexValue? b with
    | some high, some low =>
      let octet := high * 16 + low
      let after := ((p.after '%').after a).after b
      let step (left code : Nat) : Except Fault (List Char × Cursor) :=
        if left = 0 then
          match charOf? code with
          | some x => readUri start 0 0 (x :: out) after rest
          | none => .error ⟨.uriCharacter, start⟩
        else readUri start left code out after rest
      match left with
      | 0 =>
        match sequenceLength? octet with
        | some length => step (length - 1) octet
        | none => .error ⟨.uriLeading, start⟩
      | left + 1 =>
        if octet / 64 = 2 then step left (code * 256 + octet) else .error ⟨.uriTrailing, start⟩
    | _, _ => .error ⟨.uriOctet, start⟩
  | _ + 1, _, _, _, _ :: _ => .error ⟨.uriOctet, start⟩
  | 0, _, out, p, c :: rest =>
    if c == '%' then .error ⟨.uriOctet, start⟩
    else if isUri c then readUri start 0 0 (c :: out) (p.after c) rest
    else .ok (out, ⟨c :: rest, p⟩)

/-- The part of a tag after the characters of `head`, of which the first is no part of it. -/
def readTagSuffix (start : Position) (head : List Char) (c : Cursor) :
    Except Fault (String × Cursor) := do
  let (out, after) ← readUri start 0 0 [] c.position c.rest
  if head.isEmpty && out.isEmpty then .error ⟨.tagUri, start⟩
  else .ok (String.ofList (head.drop 1 ++ out.reverse), after)

/-- An exclamation mark, a name, and perhaps another exclamation mark. -/
def readTagHandle (inDirective : Bool) (start : Position) (c : Cursor) :
    Except Fault (List Char × Cursor) :=
  if c.peek != '!' then .error ⟨.tagMark, start⟩
  else
    let (name, after) := c.skip.takeWhile isWord
    if after.peek == '!' then .ok ('!' :: (name ++ ['!']), after.skip)
    else if inDirective && !name.isEmpty then .error ⟨.tagDirectiveMark, start⟩
    else .ok ('!' :: name, after)

/-- The tag at the cursor, without a test of what follows. -/
def readTagBody (c : Cursor) : Except Fault (Tag × Cursor) := do
  let start := c.position
  if c.ahead 1 == '<' then
    let (suffix, after) ← readTagSuffix start [] c.skip.skip
    if after.peek == '>' then .ok (⟨"", suffix⟩, after.skip)
    else .error ⟨.tagVerbatimEnd, start⟩
  else
    let (handle, after) ← readTagHandle false start c
    if 2 ≤ handle.length && handle.getLast? == some '!' then
      let (suffix, after) ← readTagSuffix start [] after
      .ok (⟨String.ofList handle, suffix⟩, after)
    else
      let (suffix, after) ← readTagSuffix start handle after
      .ok (if suffix.isEmpty then ⟨"", "!"⟩ else ⟨"!", suffix⟩, after)

/-- The tag at the cursor. -/
def readTag (c : Cursor) : Except Fault (Tag × Cursor) := do
  let (tag, after) ← readTagBody c
  if isGap after.peek then .ok (tag, after) else .error ⟨.tagEnd, c.position⟩

/-! ## Directives -/

/-- A part of a version number. -/
def readVersionPart (start : Position) (c : Cursor) : Except Fault Cursor :=
  let (digits, after) := c.takeWhile isDigit
  if 9 < digits.length then .error ⟨.versionLong, start⟩
  else if digits.isEmpty then .error ⟨.versionNumber, start⟩
  else .ok after

/-- The value of a version directive. -/
def readVersion (start : Position) (c : Cursor) : Except Fault Cursor := do
  let c ← readVersionPart start (c.skipWhile isBlank)
  if c.peek == '.' then readVersionPart start c.skip else .error ⟨.versionDot, start⟩

/-- The value of a tag directive. -/
def readTagDirective (start : Position) (c : Cursor) : Except Fault Cursor := do
  let (_, c) ← readTagHandle true start (c.skipWhile isBlank)
  let (_, c) ← readTagSuffix start [] (c.skipWhile isBlank)
  if isGap c.peek then .ok c else .error ⟨.tagDirectiveEnd, start⟩

/-- The name of a directive. -/
def readDirectiveName (c : Cursor) : Except Fault (String × Cursor) :=
  let (name, after) := c.takeWhile isWord
  if name.isEmpty then .error ⟨.directiveName, c.position⟩
  else if isGap after.peek then .ok (String.ofList name, after)
  else .error ⟨.directiveNameEnd, c.position⟩

/-- The cursor after the directive at the cursor and its line. -/
def readDirective (c : Cursor) : Except Fault Cursor := do
  let start := c.position
  let (name, after) ← readDirectiveName c.skip
  let after ←
    match name with
    | "YAML" => readVersion start after
    | "TAG" => readTagDirective start after
    | _ => .ok (after.skipWhile fun x => !isBreak x)
  let after := (after.skipWhile isBlank).skipComment
  if isBreakOrEnd after.peek then .ok after.skipBreak else .error ⟨.directiveEnd, start⟩

end Rollout.Yaml
