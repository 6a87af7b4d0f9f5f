/-
# Markers

Every value of the binary format MessagePack begins with a marker.  It is one
byte that gives the kind of the value, and for small values the value or its
length too.  Larger values have an operand after the marker, a big-endian
number of one to eight bytes.
-/
import Rollout.Numeric.Text
import Rollout.Text.Utf8

namespace Rollout.MsgPack

/-! ## Markers -/

/-- The first byte of a value; `width` is the number of bytes of the operand. -/
inductive Marker where
  | positive (n : Nat)
  | negative (v : Int)
  | shortMap (count : Nat)
  | shortArray (count : Nat)
  | shortText (length : Nat)
  | nil
  /-- The byte that begins no value. -/
  | reserved
  | bool (b : Bool)
  | binary (width : Nat)
  | extension (width : Nat)
  | single
  | double
  | uint (width : Nat)
  | int (width : Nat)
  | fixedExtension (length : Nat)
  | text (width : Nat)
  | array (width : Nat)
  | map (width : Nat)
  deriving DecidableEq, Repr

namespace Marker

/-- The marker of a byte. -/
def ofByte (byte : UInt8) : Marker :=
  let b := byte.toNat
  if b < 0x80 then .positive b
  else if b < 0x90 then .shortMap (b - 0x80)
  else if b < 0xa0 then .shortArray (b - 0x90)
  else if b < 0xc0 then .shortText (b - 0xa0)
  else if b = 0xc0 then .nil
  else if b = 0xc1 then .reserved
  else if b < 0xc4 then .bool (b == 0xc3)
  else if b < 0xc7 then .binary (2 ^ (b - 0xc4))
  else if b < 0xca then .extension (2 ^ (b - 0xc7))
  else if b = 0xca then .single
  else if b = 0xcb then .double
  else if b < 0xd0 then .uint (2 ^ (b - 0xcc))
  else if b < 0xd4 then .int (2 ^ (b - 0xd0))
  else if b < 0xd9 then .fixedExtension (2 ^ (b - 0xd4))
  else if b < 0xdc then .text (2 ^ (b - 0xd9))
  else if b < 0xde then .array (2 ^ (b - 0xdc + 1))
  else if b < 0xe0 then .map (2 ^ (b - 0xde + 1))
  else .negative ((b : Int) - 256)

/-- The name of a kind of marker with the bits of its operand. -/
def sized (kind : String) (width : Nat) : String := kind ++ Numeric.natText (8 * width)

/-- The name of a kind of marker with the number that it holds. -/
def holding (kind number : String) : String := kind ++ "(" ++ number ++ ")"

/-- The name of a marker in messages. -/
def name : Marker → String
  | .positive n => holding "FixPos" (Numeric.natText n)
  | .negative v => holding "FixNeg" (Numeric.intText v)
  | .shortMap count => holding "FixMap" (Numeric.natText count)
  | .shortArray count => holding "FixArray" (Numeric.natText count)
  | .shortText length => holding "FixStr" (Numeric.natText length)
  | .nil => "Null"
  | .reserved => "Reserved"
  | .bool b => if b then "True" else "False"
  | .binary width => sized "Bin" width
  | .extension width => sized "Ext" width
  | .single => "F32"
  | .double => "F64"
  | .uint width => sized "U" width
  | .int width => sized "I" width
  | .fixedExtension length => "FixExt" ++ Numeric.natText length
  | .text width => sized "Str" width
  | .array width => sized "Array" width
  | .map width => sized "Map" width

/-- Whether the marker begins a number, a truth value or nil. -/
def isPlain : Marker → Bool
  | .positive _ | .negative _ | .nil | .bool _ | .single | .double | .uint _ | .int _ => true
  | _ => false

end Marker

/-! ## Big-endian numbers -/

/-- The last `width` bytes of a number, the highest first. -/
def bytesOf : (width : Nat) → Nat → Bytes
  | 0, _ => []
  | width + 1, n => bytesOf width (n / 256) ++ [UInt8.ofNat n]

/-- The number of big-endian bytes. -/
def numberOf (bytes : Bytes) : Nat := bytes.foldl (fun acc b => acc * 256 + b.toNat) 0

/-- The number of bytes in two's complement. -/
def signedOf (width n : Nat) : Int :=
  if 2 * n < 256 ^ width then (n : Int) else (n : Int) - 256 ^ width

/-- A number is written in as many bytes as its width says. -/
theorem length_bytesOf (width n : Nat) : (bytesOf width n).length = width := by
  induction width generalizing n with
  | zero => rfl
  | succ width ih => simp [bytesOf, ih]

/-- A number that fits its bytes is read back. -/
theorem numberOf_bytesOf {width n : Nat} (h : n < 256 ^ width) :
    numberOf (bytesOf width n) = n := by
  induction width generalizing n with
  | zero => simp at h; simp [bytesOf, numberOf, h]
  | succ width ih =>
    have hq : n / 256 < 256 ^ width := by
      rw [Nat.pow_succ] at h
      exact Nat.div_lt_of_lt_mul (by rw [Nat.mul_comm]; exact h)
    have := ih hq
    simp only [numberOf] at this
    simp only [bytesOf, numberOf, List.foldl_append, List.foldl_cons, List.foldl_nil, this,
      UInt8.toNat_ofNat']
    omega

end Rollout.MsgPack
