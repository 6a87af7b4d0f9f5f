/-
# Tokens

A text is cut into tokens.  Indentation becomes tokens too: a collection that is
told by its columns gets a start and an end.  Whether a text is a key shows only
at the colon behind it, so a place that may begin a key is kept in mind, and the
key token is put there later.
-/
import Rollout.Yaml.BlockText
import Rollout.Yaml.FlowText
import Rollout.Yaml.Property

namespace Rollout.Yaml

/-! ## Tokens -/

/-- The kinds of tokens. -/
inductive TokenKind where
  | textEnd
  | directive
  | documentStart
  | documentEnd
  | blockSequenceStart
  | blockMappingStart
  | blockEnd
  | flowSequenceStart
  | flowSequenceEnd
  | flowMappingStart
  | flowMappingEnd
  | blockEntry
  | flowEntry
  | key
  | value
  | alias (name : String)
  | anchor (name : String)
  | tag (tag : Tag)
  /-- A text; `plain` says that it is neither quoted nor a block. -/
  | scalar (text : String) (plain : Bool)
  deriving DecidableEq, Repr

/-- A token and where it begins. -/
structure Token where
  kind : TokenKind
  position : Position
  deriving DecidableEq, Repr

/-! ## The state of the cut -/

/-- A place that may begin a key. -/
structure KeyPlace where
  /-- Whether it still may. -/
  possible : Bool
  /-- Whether it must. -/
  required : Bool
  /-- The number of the token there. -/
  number : Nat
  position : Position

/-- The place that begins no key. -/
def KeyPlace.never : KeyPlace := ⟨false, false, 0, .start⟩

/-- How far a text is cut into tokens. -/
structure Lexer where
  cursor : Cursor
  tokens : Array Token
  /-- Whether a key may begin here without a mark. -/
  keyAllowed : Bool
  /-- The last place that may begin a key in the current brackets. -/
  place : KeyPlace
  /-- Such places in the brackets around them, the innermost first. -/
  outer : List KeyPlace
  /-- The column of the current collection, -1 outside of any. -/
  indent : Int
  /-- The columns of the collections around it, the innermost first. -/
  indents : List Int
  /-- The index behind the last quoted text, where a colon needs no gap. -/
  adjacent : Nat

namespace Lexer

/-- The beginning of a text. -/
def ofText (s : String) : Lexer := ⟨.ofText s, #[], true, .never, [], -1, [], 0⟩

/-- The number of brackets around the cursor. -/
def flow (l : Lexer) : Nat := l.outer.length

/-- Whether the cursor is inside brackets. -/
def inFlow (l : Lexer) : Bool := !l.outer.isEmpty

/-- A fault at the cursor. -/
def fault {α : Type} (l : Lexer) (cause : Cause) : Except Fault α :=
  .error ⟨cause, l.cursor.position⟩

/-- The state with a token added. -/
def emit (kind : TokenKind) (position : Position) (l : Lexer) : Lexer :=
  { l with tokens := l.tokens.push ⟨kind, position⟩ }

/-- The state with a token put before the one with a number. -/
def insert (number : Nat) (kind : TokenKind) (position : Position) (l : Lexer) : Lexer :=
  { l with tokens := l.tokens.insertIdxIfInBounds number ⟨kind, position⟩ }

/-- The state with a token for the next `n` characters. -/
def emitMark (kind : TokenKind) (n : Nat) (l : Lexer) : Lexer :=
  { l.emit kind l.cursor.position with cursor := l.cursor.skipMany n }

/-! ### Indentation -/

/-- Begins a collection at a column, unless one is there. -/
def rollIndent (column : Nat) (number : Option Nat) (kind : TokenKind) (position : Position)
    (l : Lexer) : Lexer :=
  if l.inFlow || (column : Int) ≤ l.indent then l
  else
    let l := match number with
      | some n => l.insert n kind position
      | none => l.emit kind position
    { l with indents := l.indent :: l.indents, indent := column }

/-- Ends the collections right of a column. -/
def unrollWithin (column : Int) : List Int → Lexer → Lexer
  | [], l => l
  | outer :: rest, l =>
    if column < l.indent then
      unrollWithin column rest
        { l.emit .blockEnd l.cursor.position with indent := outer, indents := rest }
    else l

/-- Ends the collections right of a column; brackets keep them open. -/
def unrollIndent (column : Int) (l : Lexer) : Lexer :=
  if l.inFlow then l else unrollWithin column l.indents l

/-! ### Places of keys -/

/-- Whether a place is too far back for a key that ends at the cursor. -/
def isStale (l : Lexer) (k : KeyPlace) : Bool :=
  k.possible && (k.position.line < l.cursor.position.line
    || k.position.index + 1024 < l.cursor.position.index)

/-- Gives up the places that are too far back. -/
def dropStale (l : Lexer) : Except Fault Lexer :=
  if (l.place :: l.outer).any fun k => l.isStale k && k.required then l.fault .keyWithoutColon
  else
    let drop (k : KeyPlace) : KeyPlace := if l.isStale k then { k with possible := false } else k
    .ok { l with place := drop l.place, outer := l.outer.map drop }

/-- Gives up the place in the current brackets. -/
def removeKey (l : Lexer) : Except Fault Lexer :=
  if l.place.possible && l.place.required then l.fault .keyExpected
  else .ok { l with place := { l.place with possible := false } }

/-- Keeps the cursor in mind as the place of a key, if one may begin here. -/
def saveKey (l : Lexer) : Except Fault Lexer :=
  if l.keyAllowed then do
    let required := l.inFlow && l.indent == (l.cursor.column : Int)
    let l ← l.removeKey
    .ok { l with place := ⟨true, required, l.tokens.size, l.cursor.position⟩ }
  else .ok l

/-- The number of tokens that are settled: those before the first place that may begin a
key. -/
def settled (l : Lexer) : Nat :=
  ((l.place :: l.outer).filter KeyPlace.possible).foldl (fun n k => min n k.number)
    l.tokens.size

/-! ## Cutting tokens -/

/-- Skips blanks, comments and line breaks from the front of the characters.  A tab is skipped
only where no key may begin, and after a line break a key may begin outside of brackets. -/
def skipGaps (inFlow : Bool) :
    (keyAllowed inComment : Bool) → Position → List Char → Bool × Cursor
  | keyAllowed, _, p, [] => (keyAllowed, ⟨[], p⟩)
  | keyAllowed, inComment, p, c :: rest =>
    if isEnd c then (keyAllowed, ⟨c :: rest, p⟩)
    else if isBreak c then skipGaps inFlow (keyAllowed || !inFlow) false (p.after c) rest
    else if inComment || c == ' ' || (c == '\t' && (inFlow || !keyAllowed)) then
      skipGaps inFlow keyAllowed inComment (p.after c) rest
    else if c == '#' then skipGaps inFlow keyAllowed true (p.after c) rest
    else (keyAllowed, ⟨c :: rest, p⟩)

/-- Goes to the next token. -/
def skipToToken (l : Lexer) : Lexer :=
  let (keyAllowed, cursor) := skipGaps l.inFlow l.keyAllowed false l.cursor.position l.cursor.rest
  { l with keyAllowed, cursor }

/-- Ends the text. -/
def cutEnd (l : Lexer) : Except Fault Lexer := do
  let p := l.cursor.position
  let p := if p.column = 0 then p else { p with line := p.line + 1, column := 0 }
  let l := { l with cursor := { l.cursor with position := p } }
  let l ← (l.unrollIndent (-1)).removeKey
  .ok ({ l with keyAllowed := false }.emit .textEnd p)

/-- Cuts a directive. -/
def cutDirective (l : Lexer) : Except Fault Lexer := do
  let l ← (l.unrollIndent (-1)).removeKey
  let cursor ← readDirective l.cursor
  .ok { l.emit .directive l.cursor.position with keyAllowed := false, cursor }

/-- Cuts the marker of the start or the end of a document. -/
def cutDocumentMark (kind : TokenKind) (l : Lexer) : Except Fault Lexer := do
  let l ← (l.unrollIndent (-1)).removeKey
  .ok { l.emitMark kind 3 with keyAllowed := false }

/-- The number of brackets that may lie inside one another. -/
def maxFlow : Nat := 255

/-- Cuts an opening bracket. -/
def cutOpening (kind : TokenKind) (l : Lexer) : Except Fault Lexer := do
  let l ← l.saveKey
  if l.flow = maxFlow then l.fault .tooDeep
  else .ok { l.emitMark kind 1 with
    keyAllowed := true, place := .never, outer := l.place :: l.outer }

/-- Cuts a closing bracket. -/
def cutClosing (kind : TokenKind) (l : Lexer) : Except Fault Lexer := do
  let l ← l.removeKey
  let l := { l.emitMark kind 1 with keyAllowed := false }
  .ok <| match l.outer with
    | [] => l
    | place :: outer => { l with place, outer }

/-- Cuts a comma. -/
def cutFlowEntry (l : Lexer) : Except Fault Lexer := do
  let l ← l.removeKey
  .ok { l.emitMark .flowEntry 1 with keyAllowed := true }

/-- Cuts a dash. -/
def cutBlockEntry (l : Lexer) : Except Fault Lexer := do
  if l.inFlow then l.fault .entryInFlow
  else if !l.keyAllowed then l.fault .entryNotAllowed
  else
    let l ← (l.rollIndent l.cursor.column none .blockSequenceStart l.cursor.position).removeKey
    .ok { l.emitMark .blockEntry 1 with keyAllowed := true }

/-- Cuts a question mark. -/
def cutKey (l : Lexer) : Except Fault Lexer := do
  if !l.inFlow && !l.keyAllowed then l.fault .keyNotAllowed
  else
    let l ← (l.rollIndent l.cursor.column none .blockMappingStart l.cursor.position).removeKey
    .ok { l.emitMark .key 1 with keyAllowed := !l.inFlow }

/-- Cuts a colon after a place that may begin a key. -/
def cutValueOf (k : KeyPlace) (l : Lexer) : Lexer :=
  let l := l.insert k.number .key k.position
  let l := l.rollIndent k.position.column (some k.number) .blockMappingStart l.cursor.position
  { l.emitMark .value 1 with place := { k with possible := false }, keyAllowed := false }

/-- Cuts a colon. -/
def cutValue (l : Lexer) : Except Fault Lexer :=
  if l.place.possible then .ok (l.cutValueOf l.place)
  else if !l.inFlow && !l.keyAllowed then l.fault .valueNotAllowed
  else
    let l := l.rollIndent l.cursor.column none .blockMappingStart l.cursor.position
    .ok { l.emitMark .value 1 with keyAllowed := !l.inFlow }

/-- Cuts an anchor or an alias. -/
def cutName (kind : String → TokenKind) (l : Lexer) : Except Fault Lexer := do
  let l ← l.saveKey
  let (name, cursor) ← readName l.cursor
  .ok { l.emit (kind name) l.cursor.position with keyAllowed := false, cursor }

/-- Cuts a tag. -/
def cutTag (l : Lexer) : Except Fault Lexer := do
  let l ← l.saveKey
  let (tag, cursor) ← readTag l.cursor
  .ok { l.emit (.tag tag) l.cursor.position with keyAllowed := false, cursor }

/-- Cuts a block text. -/
def cutBlock (literal : Bool) (l : Lexer) : Except Fault Lexer := do
  let l ← l.saveKey
  let (text, begun, cursor) ← readBlock literal l.indent l.cursor.position l.cursor.skip
  .ok { l.emit (.scalar text false) begun with keyAllowed := true, cursor }

/-- Cuts a quoted text. -/
def cutQuoted (double : Bool) (l : Lexer) : Except Fault Lexer := do
  let l ← l.saveKey
  let start := l.cursor.position
  let inner := l.cursor.skip
  let (text, cursor) ←
    if double then readDouble start none .empty inner.position inner.rest
    else readSingle start .empty inner.position inner.rest
  .ok { l.emit (.scalar text.toString false) start with
    keyAllowed := false, cursor, adjacent := cursor.position.index }

/-- Cuts a plain text. -/
def cutPlain (l : Lexer) : Except Fault Lexer := do
  let l ← l.saveKey
  let start := l.cursor.position
  let (text, cursor) ←
    PlainContext.read ⟨l.inFlow, l.indent + 1, start⟩ .first .empty start l.cursor.rest
  .ok { l.emit (.scalar text.toString true) start with keyAllowed := text.broken, cursor }

/-- Whether a colon at the cursor ends a key. -/
def isValueMark (l : Lexer) : Bool :=
  isGap (l.cursor.ahead 1)
    || (l.inFlow
      && (isFlow (l.cursor.ahead 1) || l.cursor.position.index == l.adjacent))

/-- Cuts the token that the next character begins. -/
def cutByCharacter (l : Lexer) : Except Fault Lexer :=
  let beforeGap := isGap (l.cursor.ahead 1)
  match l.cursor.peek with
  | '[' => l.cutOpening .flowSequenceStart
  | '\x7b' => l.cutOpening .flowMappingStart
  | ']' => l.cutClosing .flowSequenceEnd
  | '\x7d' => l.cutClosing .flowMappingEnd
  | ',' => l.cutFlowEntry
  | '-' => if beforeGap then l.cutBlockEntry else l.cutPlain
  | '?' => if beforeGap then l.cutKey else l.cutPlain
  | ':' => if l.isValueMark then l.cutValue else l.cutPlain
  | '*' => l.cutName .alias
  | '&' => l.cutName .anchor
  | '!' => l.cutTag
  | '|' => if l.inFlow then l.cutPlain else l.cutBlock true
  | '>' => if l.inFlow then l.cutPlain else l.cutBlock false
  | '\'' => l.cutQuoted false
  | '"' => l.cutQuoted true
  | '%' => l.fault (.unexpectedCharacter '%')
  | '@' => l.fault (.unexpectedCharacter '@')
  | '\x60' => l.fault (.unexpectedCharacter '\x60')
  | _ => l.cutPlain

/-- Cuts the next token. -/
def cut (l : Lexer) : Except Fault Lexer := do
  let l ← l.skipToToken.dropStale
  let l := l.unrollIndent l.cursor.column
  if isEnd l.cursor.peek then l.cutEnd
  else if l.cursor.column = 0 ∧ l.cursor.peek = '%' then l.cutDirective
  else if l.cursor.marks '-' then l.cutDocumentMark .documentStart
  else if l.cursor.marks '.' then l.cutDocumentMark .documentEnd
  else l.cutByCharacter

end Lexer

/-! ## Whole texts -/

/-- The tokens of a text, up to the first fault if there is one. -/
structure Tokens where
  tokens : List Token
  fault : Option Fault

/-- Whether the text is cut to its end. -/
def Lexer.isDone (l : Lexer) : Bool := l.tokens.back?.any fun t => t.kind == .textEnd

/-- Cuts tokens until the text ends or a fault is found.  A fault hides the tokens that were
not settled before. -/
def Lexer.run : (tries : Nat) → (settled : Nat) → Lexer → Tokens
  | 0, settled, l => ⟨l.tokens.toList.take settled, some ⟨.endOfText, l.cursor.position⟩⟩
  | tries + 1, settled, l =>
    match l.dropStale with
    | .error f => ⟨l.tokens.toList.take settled, some f⟩
    | .ok l =>
      let settled := l.settled
      if l.isDone then ⟨l.tokens.toList, none⟩
      else
        match l.cut with
        | .error f => ⟨l.tokens.toList.take settled, some f⟩
        | .ok l => l.run tries settled

/-- The tokens of a text; every cut but the last takes a character. -/
def Tokens.ofText (s : String) : Tokens := (Lexer.ofText s).run (s.length + 2) 0

end Rollout.Yaml
