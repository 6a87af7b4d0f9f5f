/-
# Scalars

What a text means.  A plain text without a tag may be nothing, a truth value or a
number; every other text without one of the standard tags is only a text.
-/
import Rollout.Found
import Rollout.Numeric.Read
import Rollout.Yaml.Node

namespace Rollout.Yaml

/-- The meaning of a text. -/
inductive Scalar where
  | nothing
  | bool (b : Bool)
  /-- An integer from zero to `2 ^ 64 - 1`. -/
  | natural (n : Nat)
  /-- An integer from `-2 ^ 63` to `2 ^ 63 - 1`. -/
  | integer (v : Int)
  /-- An integer that needs more than 64 bits, with the name of its type. -/
  | wide (v : Int) (type : String)
  | float (x : Numeric.Double)
  | text (s : String)
  deriving DecidableEq

namespace Scalar

/-- What a reader finds that meets the scalar. -/
def found : Scalar → Found
  | .nothing => .nothing
  | .bool b => .bool b
  | .natural n => .integer n
  | .integer v => .integer v
  | .wide v type => .wide v type
  | .float x => .float x
  | .text s => .text s

/-! ## Numbers -/

/-- The first result of several attempts. -/
def firstOf (attempts : List (Unit → Option Scalar)) : Option Scalar :=
  attempts.findSome? fun attempt => attempt ()

/-- A number after a mark of its radix, with an optional sign before the mark. -/
def ofRadix? (letter : Char) (radix : Nat) : List Char → Option Scalar
  | '0' :: c :: cs =>
    if c = letter then (Numeric.readUnsigned radix 64 cs).map .natural else none
  | '+' :: '0' :: c :: cs =>
    if c = letter then (Numeric.readUnsigned radix 64 cs).map .natural else none
  | '-' :: '0' :: c :: cs =>
    if c = letter then (Numeric.readSigned radix 64 ('-' :: cs)).map .integer else none
  | _ => none

/-- Whether the text is a number but for zeros in front, which make it a text. -/
def hasLeadingZero (cs : List Char) : Bool :=
  match cs.dropWhile fun c => c == '-' || c == '+' with
  | '0' :: c :: rest => (c :: rest).all isDigit
  | _ => false

/-- A decimal integer of the narrowest type. -/
def ofDecimal? (cs : List Char) : Option Scalar :=
  firstOf [fun _ => (Numeric.readUnsigned 10 64 cs).map .natural,
    fun _ => (Numeric.readUnsigned 10 128 cs).map fun n => .wide n "u128",
    fun _ => (Numeric.readSigned 10 64 cs).map .integer,
    fun _ => (Numeric.readSigned 10 128 cs).map fun v => .wide v "i128"]

/-- Whether a float is a finite number. -/
def isFinite (x : Numeric.Double) : Bool :=
  match x.datum with
  | .finite _ _ _ => true
  | _ => false

/-- An infinity or not-a-number. -/
def ofSpecial? (s : String) : Option Scalar :=
  let unsigned := String.ofList (s.toList.dropWhile (· == '+'))
  if [".inf", ".Inf", ".INF"].contains unsigned then
    some (.float (.ofDatum (.infinite false)))
  else if ["-.inf", "-.Inf", "-.INF"].contains s then
    some (.float (.ofDatum (.infinite true)))
  else if [".nan", ".NaN", ".NAN"].contains s then some (.float (.ofDatum .nan))
  else none

/-- A finite decimal number. -/
def ofFloat? (cs : List Char) : Option Scalar :=
  (Numeric.readDouble cs).bind fun x => if isFinite x then some (.float x) else none

/-- The number that a plain text is. -/
def ofNumber? (s : String) : Option Scalar :=
  let cs := s.toList
  firstOf [fun _ => ofRadix? 'x' 16 cs, fun _ => ofRadix? 'o' 8 cs, fun _ => ofRadix? 'b' 2 cs,
    fun _ => if hasLeadingZero cs then some (.text s) else ofDecimal? cs,
    fun _ => ofSpecial? s, fun _ => ofFloat? cs]

/-! ## Texts -/

/-- The meaning of a plain text without a tag. -/
def ofPlain (s : String) : Scalar :=
  if s = "~" ∨ s = "null" then .nothing
  else if s = "true" then .bool true
  else if s = "false" then .bool false
  else (ofNumber? s).getD (.text s)

/-- The meaning of a text under a standard tag, or what the tag wants. -/
def ofTagged (type s : String) : Except String Scalar :=
  match type with
  | "bool" =>
    if s = "true" then .ok (.bool true)
    else if s = "false" then .ok (.bool false)
    else .error "a boolean"
  | "int" =>
    match Numeric.readSigned 10 64 s.toList with
    | some v => .ok (.integer v)
    | none => .error "an integer"
  | "float" =>
    match Numeric.readDouble s.toList with
    | some x => .ok (.float x)
    | none => .error "a float"
  | "null" => if s = "~" ∨ s = "null" then .ok .nothing else .error "null"
  | _ => .ok (.text s)

/-- The meaning of a text node, or what its tag wants. -/
def ofText (s : String) (plain : Bool) (tag : Option Tag) : Except String Scalar :=
  match tag with
  | some t => if t.handle = "!!" then ofTagged t.suffix s else .ok (.text s)
  | none => .ok (if plain then ofPlain s else .text s)

end Scalar

end Rollout.Yaml
