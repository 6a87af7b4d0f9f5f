/-
# Nested lists on the wire

Nested lists are written as arrays of arrays with scalars at the bottom.  Lists
of numbers are read from values of any numeric type.
-/
import Rollout.MsgPack.Record
import Rollout.Tensor.Nested

namespace Rollout.Nested

open MsgPack (Value Error Content)
open Numeric (Double)

/-! ## Writing -/

mutual

/-- Nested lists as a value. -/
def toValue {α : Type} (leaf : α → Value) : Nested α → Value
  | .scalar a => leaf a
  | .list items => .array (toValues leaf items)

/-- Nested lists as values. -/
def toValues {α : Type} (leaf : α → Value) : List (Nested α) → List Value
  | [] => []
  | n :: rest => toValue leaf n :: toValues leaf rest

end

/-! ## Reading -/

mutual

/-- The nested lists of numbers that a value holds. -/
def ofValue? : Value → Option (Nested Double)
  | .int v => some (.scalar (.ofInt v))
  | .single x => some (.scalar x.widen)
  | .double x => some (.scalar x)
  | .array items => (ofValues? items).map .list
  | _ => none

/-- The nested lists of numbers that values hold. -/
def ofValues? : List Value → Option (List (Nested Double))
  | [] => some []
  | v :: rest =>
    match ofValue? v, ofValues? rest with
    | some n, some ns => some (n :: ns)
    | _, _ => none

end

/-- Nested lists of numbers as the content of a field. -/
def content : Content (Nested Double) where
  read levels bytes :=
    match MsgPack.readValue levels bytes with
    | .error e => .error e
    | .ok (v, rest) =>
      match ofValue? v with
      | some n => .ok (n, rest)
      | none => .error .notNested
  ofByte b := .ok (.scalar (.ofInt b.toNat))

/-- The nested lists of numbers at the front of bytes. -/
def decode (bytes : Bytes) : Except Error (Nested Double) :=
  (content.read MsgPack.maxLevels bytes).map Prod.fst

/-- Nested lists of numbers as bytes. -/
def encode (n : Nested Double) : Bytes := (n.toValue .double).write

end Rollout.Nested
