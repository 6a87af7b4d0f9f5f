/-
# Nodes

The tokens of a text make up documents, and each document is a tree of nodes.  A
node may have an anchor, and an alias stands for the node with its anchor.
-/
import Rollout.Yaml.Token

namespace Rollout.Yaml

/-! ## Trees -/

/-- A text, a list, a table, or an alias of one of these. -/
inductive Node where
  /-- A text; `plain` says that it is neither quoted nor a block. -/
  | scalar (position : Position) (text : String) (plain : Bool) (tag : Option Tag)
  | sequence (position : Position) (items : List Node)
  | mapping (position : Position) (entries : List (Node × Node))
  /-- The node with the anchor of this number. -/
  | alias (position : Position) (anchor : Nat)

/-- The text of a node that is left out. -/
def Node.absent (position : Position) : Node := .scalar position "~" true none

/-- The documents of a text and the nodes that have anchors, by number. -/
structure Documents where
  nodes : List Node
  anchored : List (Nat × Node)

/-! ## Reading tokens -/

/-- The tokens that are left, and the anchors met so far. -/
structure Input where
  tokens : List Token
  /-- What is wrong after the last token. -/
  fault : Fault
  /-- The numbers of the names of the current document, the last one first. -/
  names : List (String × Nat)
  /-- The number of the next anchor. -/
  next : Nat
  /-- The nodes that have anchors. -/
  anchored : List (Nat × Node)

/-- Takes a part of a tree from the front of the tokens. -/
abbrev Parse (α : Type) := StateT Input (Except Fault) α

/-- The next token. -/
def peek : Parse Token := fun i =>
  match i.tokens with
  | [] => .error i.fault
  | t :: _ => .ok (t, i)

/-- Goes to the next token. -/
def advance : Parse Unit := fun i => .ok ((), { i with tokens := i.tokens.tail })

/-- Fails with a cause at a token. -/
def refuse {α : Type} (cause : Cause) (t : Token) : Parse α := fun _ => .error ⟨cause, t.position⟩

/-- The anchor and the tag before a node. -/
structure Properties where
  anchor : Option Nat
  tag : Option Tag

/-- Gives a number to the name of an anchor. -/
def nameAnchor (name : String) : Parse Nat := fun i =>
  .ok (i.next, { i with names := (name, i.next) :: i.names, next := i.next + 1 })

/-- Takes the anchor and the tag before a node, in any order. -/
def readProperties : Parse Properties := do
  match (← peek).kind with
  | .anchor name =>
    advance
    let n ← nameAnchor name
    match (← peek).kind with
    | .tag tag =>
      advance
      return ⟨some n, some tag⟩
    | _ => return ⟨some n, none⟩
  | .tag tag =>
    advance
    match (← peek).kind with
    | .anchor name =>
      advance
      return ⟨some (← nameAnchor name), some tag⟩
    | _ => return ⟨none, some tag⟩
  | _ => return ⟨none, none⟩

/-- The alias of a name. -/
def readAlias (name : String) (t : Token) : Parse Node := do
  advance
  match (← get).names.lookup name with
  | some n => return .alias t.position n
  | none => refuse .unknownAnchor t

/-- Keeps a node under its anchor. -/
def keep (p : Properties) (n : Node) : Parse Node := fun i =>
  match p.anchor with
  | none => .ok (n, i)
  | some k => .ok (n, { i with anchored := (k, n) :: i.anchored })

/-- Fails when a tree is deeper than its tokens allow. -/
def exhausted {α : Type} : Parse α := fun i => .error i.fault

/-! ### Where a node may be left out -/

/-- The tokens before which the key or the value of an indented table may be left out. -/
def endsBlockPart : TokenKind → Bool
  | .key | .value | .blockEnd => true
  | _ => false

/-- The tokens before which an item of an indented list may be left out. -/
def endsBlockItem : TokenKind → Bool
  | .blockEntry | .blockEnd => true
  | _ => false

/-- The tokens before which an item of a list without own indentation may be left out. -/
def endsLooseItem : TokenKind → Bool
  | .blockEntry | .key | .value | .blockEnd => true
  | _ => false

/-- The tokens before which a key in braces may be left out. -/
def endsFlowKey : TokenKind → Bool
  | .value | .flowEntry | .flowMappingEnd => true
  | _ => false

/-- The tokens before which a value in braces may be left out. -/
def endsFlowValue : TokenKind → Bool
  | .flowEntry | .flowMappingEnd => true
  | _ => false

/-- The tokens before which the key of a pair in a bracketed list may be left out. -/
def endsPairKey : TokenKind → Bool
  | .value | .flowEntry | .flowSequenceEnd => true
  | _ => false

/-- The tokens before which the value of a pair in a bracketed list may be left out. -/
def endsPairValue : TokenKind → Bool
  | .flowEntry | .flowSequenceEnd => true
  | _ => false

/-- Where a node stands. -/
inductive Place where
  /-- Inside brackets, where nothing depends on columns. -/
  | flow
  | block
  /-- In an indented table, where a list needs no indentation of its own. -/
  | blockPart
  deriving DecidableEq

/-! ### Nodes -/

/-- The empty text after an anchor or a tag; without these a node is missing. -/
def readEmpty (p : Properties) (t : Token) : Parse Node :=
  if p.anchor.isSome || p.tag.isSome then keep p (.scalar t.position "" true p.tag)
  else refuse .nodeExpected t

mutual

/-- A node. -/
def readNode (fuel : Nat) (place : Place) : Parse Node :=
  match fuel with
  | 0 => exhausted
  | fuel + 1 => do
    let first ← peek
    match first.kind with
    | .alias name => readAlias name first
    | _ =>
      let p ← readProperties
      let t ← peek
      match t.kind with
      | .scalar text plain =>
        advance
        keep p (.scalar t.position text plain p.tag)
      | .flowSequenceStart =>
        advance
        keep p (.sequence t.position (← readFlowItems fuel true))
      | .flowMappingStart =>
        advance
        keep p (.mapping t.position (← readFlowEntries fuel true))
      | .blockEntry =>
        if place = .blockPart then keep p (.sequence t.position (← readLooseItems fuel))
        else readEmpty p t
      | .blockSequenceStart =>
        if place = .flow then readEmpty p t
        else
          advance
          keep p (.sequence t.position (← readBlockItems fuel))
      | .blockMappingStart =>
        if place = .flow then readEmpty p t
        else
          advance
          keep p (.mapping t.position (← readBlockEntries fuel))
      | _ => readEmpty p t

/-- A node, or its absence before certain tokens. -/
def readOptional (fuel : Nat) (place : Place) (ends : TokenKind → Bool) : Parse Node :=
  match fuel with
  | 0 => exhausted
  | fuel + 1 => do
    let t ← peek
    if ends t.kind then return .absent t.position else readNode fuel place

/-- The items of an indented list. -/
def readBlockItems (fuel : Nat) : Parse (List Node) :=
  match fuel with
  | 0 => exhausted
  | fuel + 1 => do
    let t ← peek
    match t.kind with
    | .blockEnd =>
      advance
      return []
    | .blockEntry =>
      advance
      let item ← readOptional fuel .block endsBlockItem
      return item :: (← readBlockItems fuel)
    | _ => refuse .blockSequenceEntry t

/-- The items of a list without own indentation. -/
def readLooseItems (fuel : Nat) : Parse (List Node) :=
  match fuel with
  | 0 => exhausted
  | fuel + 1 => do
    match (← peek).kind with
    | .blockEntry =>
      advance
      let item ← readOptional fuel .block endsLooseItem
      return item :: (← readLooseItems fuel)
    | _ => return []

/-- The entries of an indented table. -/
def readBlockEntries (fuel : Nat) : Parse (List (Node × Node)) :=
  match fuel with
  | 0 => exhausted
  | fuel + 1 => do
    let t ← peek
    match t.kind with
    | .blockEnd =>
      advance
      return []
    | .key =>
      advance
      let key ← readOptional fuel .blockPart endsBlockPart
      let value ← readBlockValue fuel
      return (key, value) :: (← readBlockEntries fuel)
    | .value =>
      let value ← readBlockValue fuel
      return (.absent t.position, value) :: (← readBlockEntries fuel)
    | _ => refuse .blockMappingKey t

/-- The value of an entry of an indented table. -/
def readBlockValue (fuel : Nat) : Parse Node :=
  match fuel with
  | 0 => exhausted
  | fuel + 1 => do
    let t ← peek
    match t.kind with
    | .value =>
      advance
      readOptional fuel .blockPart endsBlockPart
    | _ => return .absent t.position

/-- The items of a bracketed list. -/
def readFlowItems (fuel : Nat) (first : Bool) : Parse (List Node) :=
  match fuel with
  | 0 => exhausted
  | fuel + 1 => do
    let t ← peek
    match t.kind, first with
    | .flowSequenceEnd, _ =>
      advance
      return []
    | _, true => readFlowItem fuel
    | .flowEntry, false =>
      advance
      readFlowItem fuel
    | _, false => refuse .flowSequenceEntry t

/-- An item of a bracketed list and those after it. -/
def readFlowItem (fuel : Nat) : Parse (List Node) :=
  match fuel with
  | 0 => exhausted
  | fuel + 1 => do
    let t ← peek
    match t.kind with
    | .flowSequenceEnd =>
      advance
      return []
    | .key =>
      advance
      let key ← readPairKey fuel
      let value ← readPairValue fuel
      return .mapping t.position [(key, value)] :: (← readFlowItems fuel false)
    | _ =>
      let item ← readNode fuel .flow
      return item :: (← readFlowItems fuel false)

/-- The key of a pair in a bracketed list.  The token before which it is left out is passed
over. -/
def readPairKey (fuel : Nat) : Parse Node :=
  match fuel with
  | 0 => exhausted
  | fuel + 1 => do
    let t ← peek
    if endsPairKey t.kind then
      advance
      return .absent t.position
    else readNode fuel .flow

/-- The value of a pair in a bracketed list. -/
def readPairValue (fuel : Nat) : Parse Node :=
  match fuel with
  | 0 => exhausted
  | fuel + 1 => do
    let t ← peek
    match t.kind with
    | .value =>
      advance
      readOptional fuel .flow endsPairValue
    | _ => return .absent t.position

/-- The entries of a table in braces. -/
def readFlowEntries (fuel : Nat) (first : Bool) : Parse (List (Node × Node)) :=
  match fuel with
  | 0 => exhausted
  | fuel + 1 => do
    let t ← peek
    match t.kind, first with
    | .flowMappingEnd, _ =>
      advance
      return []
    | _, true => readFlowPair fuel
    | .flowEntry, false =>
      advance
      readFlowPair fuel
    | _, false => refuse .flowMappingEntry t

/-- An entry of a table in braces and those after it. -/
def readFlowPair (fuel : Nat) : Parse (List (Node × Node)) :=
  match fuel with
  | 0 => exhausted
  | fuel + 1 => do
    let t ← peek
    match t.kind with
    | .flowMappingEnd =>
      advance
      return []
    | .key =>
      advance
      let key ← readOptional fuel .flow endsFlowKey
      let value ← readFlowValue fuel
      return (key, value) :: (← readFlowEntries fuel false)
    | .value =>
      let value ← readFlowValue fuel
      return (.absent t.position, value) :: (← readFlowEntries fuel false)
    | _ =>
      let key ← readNode fuel .flow
      let t ← peek
      return (key, .absent t.position) :: (← readFlowEntries fuel false)

/-- The value of an entry of a table in braces. -/
def readFlowValue (fuel : Nat) : Parse Node :=
  match fuel with
  | 0 => exhausted
  | fuel + 1 => do
    let t ← peek
    match t.kind with
    | .value =>
      advance
      let next ← peek
      if endsFlowValue next.kind then return .absent t.position else readNode fuel .flow
    | _ => return .absent t.position

end

/-! ### Documents -/

/-- Skips tokens of a kind. -/
def skipKind (kind : TokenKind) : (fuel : Nat) → Parse Unit
  | 0 => exhausted
  | fuel + 1 => do
    if (← peek).kind = kind then
      advance
      skipKind kind fuel

/-- The tokens before which the node of a marked document may be left out. -/
def endsDocument : TokenKind → Bool
  | .directive | .documentStart | .documentEnd | .textEnd => true
  | _ => false

/-- A document after directives and a marker. -/
def readMarkedDocument (fuel : Nat) : Parse Node := do
  skipKind .directive fuel
  let t ← peek
  if t.kind = .documentStart then
    advance
    readOptional fuel .block endsDocument
  else refuse .documentStart t

/-- A document; only the first one needs no marker. -/
def readDocument (fuel : Nat) (first : Bool) : Parse Node := do
  let t ← peek
  if t.kind = .directive ∨ t.kind = .documentStart ∨ !first then readMarkedDocument fuel
  else readNode fuel .block

/-- Documents to the end of the text. -/
def readDocuments (fuel : Nat) (first : Bool) : Parse (List Node) :=
  match fuel with
  | 0 => exhausted
  | fuel + 1 => do
    if !first then skipKind .documentEnd (fuel + 1)
    let t ← peek
    if t.kind = .textEnd then return []
    else
      modify fun i => { i with names := [] }
      let node ← readDocument fuel first
      let t ← peek
      if t.kind = .documentEnd then advance
      return node :: (← readDocuments fuel false)

/-- The documents of a text.  Every token is read by at most four calls inside one another. -/
def Documents.ofText (s : String) : Except Fault Documents :=
  let cut := Tokens.ofText s
  let input : Input := ⟨cut.tokens, cut.fault.getD ⟨.endOfText, .start⟩, [], 1, []⟩
  match readDocuments (4 * cut.tokens.length + 4) true input with
  | .error f => .error f
  | .ok (nodes, after) => .ok ⟨nodes, after.anchored⟩

end Rollout.Yaml
