/-
# Faults of a text

Why a text is not well formed, and where.
-/
import Rollout.Yaml.Cursor

namespace Rollout.Yaml

/-- Why a text is not well formed. -/
inductive Cause where
  | unexpectedCharacter (c : Char)
  /-- A key that must be there has no colon on its line. -/
  | keyWithoutColon
  | keyExpected
  | entryNotAllowed
  | entryInFlow
  | keyNotAllowed
  | valueNotAllowed
  /-- Brackets are nested too deeply. -/
  | tooDeep
  | directiveName
  | directiveNameEnd
  | directiveEnd
  | versionDot
  | versionLong
  | versionNumber
  | tagDirectiveEnd
  | tagDirectiveMark
  | tagMark
  | tagEnd
  | tagVerbatimEnd
  | tagUri
  | uriOctet
  | uriLeading
  | uriTrailing
  | uriCharacter
  | anchorName
  | blockIndentZero
  | blockHeaderEnd
  | blockTab
  | quotedDocument
  | quotedEnd
  | quotedEscape
  | quotedHex
  | quotedCharacter
  | plainTab
  | unknownAnchor
  | nodeExpected
  | documentStart
  | blockMappingKey
  | blockSequenceEntry
  | flowMappingEntry
  | flowSequenceEntry
  | endOfText
  deriving DecidableEq, Repr

/-- The wording of a cause. -/
def Cause.message : Cause → String
  | .unexpectedCharacter c => "unexpected character: `" ++ String.singleton c ++ "'"
  | .keyWithoutColon => "simple key expect ':'"
  | .keyExpected => "simple key expected"
  | .entryNotAllowed => "block sequence entries are not allowed in this context"
  | .entryInFlow => "\"-\" is only valid inside a block"
  | .keyNotAllowed => "mapping keys are not allowed in this context"
  | .valueNotAllowed => "mapping values are not allowed in this context"
  | .tooDeep => "recursion limit exceeded"
  | .directiveName => "while scanning a directive, could not find expected directive name"
  | .directiveNameEnd => "while scanning a directive, found unexpected non-alphabetical character"
  | .directiveEnd => "while scanning a directive, did not find expected comment or line break"
  | .versionDot =>
    "while scanning a YAML directive, did not find expected digit or '.' character"
  | .versionLong => "while scanning a YAML directive, found extremely long version number"
  | .versionNumber => "while scanning a YAML directive, did not find expected version number"
  | .tagDirectiveEnd => "while scanning TAG, did not find expected whitespace or line break"
  | .tagDirectiveMark => "while parsing a tag directive, did not find expected '!'"
  | .tagMark => "while scanning a tag, did not find expected '!'"
  | .tagEnd => "while scanning a tag, did not find expected whitespace or line break"
  | .tagVerbatimEnd => "while scanning a tag, did not find the expected '>'"
  | .tagUri => "while parsing a tag, did not find expected tag URI"
  | .uriOctet => "while parsing a tag, did not find URI escaped octet"
  | .uriLeading => "while parsing a tag, found an incorrect leading UTF-8 octet"
  | .uriTrailing => "while parsing a tag, found an incorrect trailing UTF-8 octet"
  | .uriCharacter => "while parsing a tag, found an invalid UTF-8 codepoint"
  | .anchorName =>
    "while scanning an anchor or alias, did not find expected alphabetic or numeric character"
  | .blockIndentZero =>
    "while scanning a block scalar, found an indentation indicator equal to 0"
  | .blockHeaderEnd =>
    "while scanning a block scalar, did not find expected comment or line break"
  | .blockTab =>
    "while scanning a block scalar, found a tab character where an indentation space is expected"
  | .quotedDocument => "while scanning a quoted scalar, found unexpected document indicator"
  | .quotedEnd => "while scanning a quoted scalar, found unexpected end of stream"
  | .quotedEscape => "while parsing a quoted scalar, found unknown escape character"
  | .quotedHex => "while parsing a quoted scalar, did not find expected hexadecimal number"
  | .quotedCharacter =>
    "while parsing a quoted scalar, found invalid Unicode character escape code"
  | .plainTab => "while scanning a plain scalar, found a tab"
  | .unknownAnchor => "while parsing node, found unknown anchor"
  | .nodeExpected => "while parsing a node, did not find expected node content"
  | .documentStart => "did not find expected <document start>"
  | .blockMappingKey => "while parsing a block mapping, did not find expected key"
  | .blockSequenceEntry =>
    "while parsing a block collection, did not find expected '-' indicator"
  | .flowMappingEntry =>
    "while parsing a flow mapping, did not find expected ',' or '\x7d'"
  | .flowSequenceEntry => "while parsing a flow sequence, expected ',' or ']'"
  | .endOfText => "unexpected eof"

/-- A cause and the place where it was found. -/
structure Fault where
  cause : Cause
  position : Position
  deriving DecidableEq, Repr

/-- The wording of a fault. -/
def Fault.message (f : Fault) : String := f.cause.message ++ " at " ++ f.position.text

end Rollout.Yaml
