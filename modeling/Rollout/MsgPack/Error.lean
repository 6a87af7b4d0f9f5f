/-
# Heads and decoding errors

The head of a value is what can be told from its first bytes: a whole scalar, or
the number of items of a collection.  When a reader meets a head that it does
not want, the head goes into the error.
-/
import Rollout.Found
import Rollout.MsgPack.Marker

namespace Rollout.MsgPack

/-! ## Heads -/

/-- A scalar, or the beginning of a collection. -/
inductive Head where
  | nil
  | bool (b : Bool)
  /-- An integer whose marker says that it is not negative. -/
  | uint (n : Nat)
  /-- An integer whose marker allows a sign. -/
  | int (v : Int)
  | single (x : Numeric.Single)
  | double (x : Numeric.Double)
  | text (s : String)
  /-- Bytes that were announced as a text and are none. -/
  | badText (bytes : Bytes) (fault : Text.Utf8.Fault)
  | binary (bytes : Bytes)
  | array (count : Nat)
  | map (count : Nat)
  /-- An extension, whose tag comes before its bytes. -/
  | extension (length : Nat)
  deriving DecidableEq

namespace Head

/-- Whether the value has values inside. -/
def nests : Head → Bool
  | .array _ | .map _ | .extension _ => true
  | _ => false

/-- What a reader finds that meets the head. -/
def found : Head → Found
  | .nil => .nothing
  | .bool b => .bool b
  | .uint n => .integer n
  | .int v => .integer v
  | .single x => .float x.widen
  | .double x => .float x
  | .text s => .text s
  | .badText _ _ => .bytes
  | .binary _ => .bytes
  | .array _ => .sequence
  | .map _ => .map
  | .extension _ => .extension

end Head

/-! ## Errors -/

/-- Why bytes cannot be decoded. -/
inductive Error where
  /-- The bytes end where a value should begin. -/
  | noMarker
  /-- The bytes end inside a number. -/
  | cutNumber
  /-- The bytes end inside a text or a byte string. -/
  | cutPayload
  /-- A number, a truth value or nil was wanted. -/
  | wrongMarker (m : Marker)
  /-- An array has more items than the record has fields. -/
  | tooLong (fields : Nat)
  /-- An array ends before a field that must be there. -/
  | tooShort (count : Nat) (expected : String)
  /-- A text is not UTF-8. -/
  | badText (fault : Text.Utf8.Fault)
  /-- Values are nested too deeply. -/
  | tooDeep
  /-- A value of another type was wanted. -/
  | wrongType (found : Found) (expected : String)
  /-- The type is right, but the value is out of range. -/
  | wrongValue (found : Found) (expected : String)
  | missingField (name : String)
  | duplicateField (name : String)
  /-- A value is neither a number nor nested lists of numbers. -/
  | notNested
  deriving DecidableEq

/-- The wording of a decoding error. -/
def Error.message : Error → String
  | .noMarker => "IO error while reading marker: failed to fill whole buffer"
  | .cutNumber => "IO error while reading data: failed to fill whole buffer"
  | .cutPayload => "IO error while reading data: unexpected end of file"
  | .wrongMarker m => "wrong msgpack marker " ++ m.name
  | .tooLong fields => "array had incorrect length, expected " ++ Numeric.natText fields
  | .tooShort count expected => wrongLength count expected
  | .badText fault => "string found to be invalid utf8: " ++ fault.message
  | .tooDeep => "depth limit exceeded"
  | .wrongType f expected => f.wrongType expected
  | .wrongValue f expected => f.wrongValue expected
  | .missingField field => "missing field `" ++ field ++ "`"
  | .duplicateField field => Rollout.duplicateField field
  | .notNested => "data did not match any variant of untagged enum Nested"

end Rollout.MsgPack
