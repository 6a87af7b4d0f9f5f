/-
# What a reader finds

A reader that wants a value of one type and finds another says so.  Here are the
kinds of values that can be found, and the wordings of the two complaints.
-/
import Rollout.Numeric.Text
import Rollout.Text.Quoted

namespace Rollout

/-- A value that a reader finds, as far as a message shows it. -/
inductive Found where
  | nothing
  | bool (b : Bool)
  | integer (v : Int)
  /-- An integer that needs more than 64 bits, with the name of its type. -/
  | wide (v : Int) (type : String)
  | float (x : Numeric.Double)
  | text (s : String)
  | bytes
  | sequence
  | map
  | extension
  deriving DecidableEq

namespace Found

/-- A found value in a message. -/
def describe : Found → String
  | .nothing => "unit value"
  | .bool b => if b then "boolean `true`" else "boolean `false`"
  | .integer v => "integer `" ++ Numeric.intText v ++ "`"
  | .wide v type => "integer `" ++ Numeric.intText v ++ "` as " ++ type
  | .float x => "floating point `" ++ Numeric.doubleText .message x ++ "`"
  | .text s => "string " ++ Text.quoted s
  | .bytes => "byte array"
  | .sequence => "sequence"
  | .map => "map"
  | .extension => "newtype struct"

/-- The complaint about the type of a value. -/
def wrongType (f : Found) (expected : String) : String :=
  "invalid type: " ++ f.describe ++ ", expected " ++ expected

/-- The complaint about a value of the right type. -/
def wrongValue (f : Found) (expected : String) : String :=
  "invalid value: " ++ f.describe ++ ", expected " ++ expected

end Found

/-- The complaint about a number of items. -/
def wrongLength (count : Nat) (expected : String) : String :=
  "invalid length " ++ Numeric.natText count ++ ", expected " ++ expected

/-- A number of elements in words. -/
def elements (n : Nat) : String := Numeric.natText n ++ if n = 1 then " element" else " elements"

/-- The complaint about a field that is there twice. -/
def duplicateField (name : String) : String := "duplicate field `" ++ name ++ "`"

end Rollout
