/-
# Values

A value is a tree of scalars, arrays and maps.  `Value.write` gives its bytes:
every integer, text, array and map has the shortest form that holds it.
-/
import Rollout.MsgPack.Marker

namespace Rollout.MsgPack

/-- A tree of scalars, arrays and maps. -/
inductive Value where
  | nil
  | bool (b : Bool)
  /-- An integer from `-2 ^ 63` to `2 ^ 64 - 1`. -/
  | int (v : Int)
  | single (x : Numeric.Single)
  | double (x : Numeric.Double)
  | text (s : String)
  | binary (bytes : Bytes)
  | array (items : List Value)
  | map (entries : List (Value × Value))
  /-- Bytes of an application, with a tag from `-2 ^ 7` to `2 ^ 7 - 1`. -/
  | extension (tag : Int) (bytes : Bytes)

namespace Value

/-! ## Scalars -/

/-- A marker byte and an operand of `width` bytes. -/
def sized (marker : UInt8) (width n : Nat) : Bytes := marker :: bytesOf width n

/-- An integer that is not negative. -/
def writeNat (n : Nat) : Bytes :=
  if n < 2 ^ 7 then [UInt8.ofNat n]
  else if n < 2 ^ 8 then sized 0xcc 1 n
  else if n < 2 ^ 16 then sized 0xcd 2 n
  else if n < 2 ^ 32 then sized 0xce 4 n
  else sized 0xcf 8 n

/-- The number that stands for an integer in two's complement. -/
def complement (width : Nat) (v : Int) : Nat := (v + 256 ^ width).toNat

/-- A negative integer. -/
def writeNegative (v : Int) : Bytes :=
  if -2 ^ 5 ≤ v then [UInt8.ofNat (complement 1 v)]
  else if -2 ^ 7 ≤ v then sized 0xd0 1 (complement 1 v)
  else if -2 ^ 15 ≤ v then sized 0xd1 2 (complement 2 v)
  else if -2 ^ 31 ≤ v then sized 0xd2 4 (complement 4 v)
  else sized 0xd3 8 (complement 8 v)

/-- An integer. -/
def writeInt (v : Int) : Bytes := if v < 0 then writeNegative v else writeNat v.toNat

/-! ## Lengths -/

/-- The length that is written down: it is kept in 32 bits, and what does not fit is cut off before
the form is chosen. -/
def writtenLength (n : Nat) : Nat := n % 2 ^ 32

/-- A length as an operand of one, two or four bytes; the markers of the three widths begin at
`first`. -/
def operandHeader (first length : Nat) : Bytes :=
  if length < 2 ^ 8 then sized (UInt8.ofNat first) 1 length
  else if length < 2 ^ 16 then sized (UInt8.ofNat (first + 1)) 2 length
  else sized (UInt8.ofNat (first + 2)) 4 length

/-- The beginning of a collection of `n` parts.  The markers of short ones begin at `short`, those
of the widths of an operand at `first`. -/
def collectionHeader (short first n : Nat) : Bytes :=
  let length := writtenLength n
  if length < 2 ^ 4 then [UInt8.ofNat (short + length)]
  else if length < 2 ^ 16 then sized (UInt8.ofNat first) 2 length
  else sized (UInt8.ofNat (first + 1)) 4 length

/-- The beginning of a text of `n` bytes. -/
def textHeader (n : Nat) : Bytes :=
  let length := writtenLength n
  if length < 2 ^ 5 then [UInt8.ofNat (0xa0 + length)] else operandHeader 0xd9 length

/-- The beginning of a byte string of `n` bytes. -/
def binaryHeader (n : Nat) : Bytes := operandHeader 0xc4 (writtenLength n)

/-- The beginning of an extension of `n` bytes. -/
def extensionHeader (n : Nat) : Bytes :=
  match writtenLength n with
  | 1 => [0xd4]
  | 2 => [0xd5]
  | 4 => [0xd6]
  | 8 => [0xd7]
  | 16 => [0xd8]
  | length => operandHeader 0xc7 length

/-- The beginning of an array of `n` items. -/
def arrayHeader (n : Nat) : Bytes := collectionHeader 0x90 0xdc n

/-- The beginning of a map of `n` entries. -/
def mapHeader (n : Nat) : Bytes := collectionHeader 0x80 0xde n

/-- A text with its length. -/
def writeText (s : String) : Bytes :=
  let bytes := Text.Utf8.encode s
  textHeader bytes.length ++ bytes

/-! ## Trees -/

mutual

/-- The bytes of a value. -/
def write : Value → Bytes
  | .nil => [0xc0]
  | .bool b => [if b then 0xc3 else 0xc2]
  | .int v => writeInt v
  | .single x => sized 0xca 4 x.bits.toNat
  | .double x => sized 0xcb 8 x.bits.toNat
  | .text s => writeText s
  | .binary bytes => binaryHeader bytes.length ++ bytes
  | .array items => arrayHeader items.length ++ writeAll items
  | .map entries => mapHeader entries.length ++ writeEntries entries
  | .extension tag bytes =>
    extensionHeader bytes.length ++ UInt8.ofNat (complement 1 tag) :: bytes

/-- The bytes of values, one after another. -/
def writeAll : List Value → Bytes
  | [] => []
  | v :: rest => write v ++ writeAll rest

/-- The bytes of entries, every key before its value. -/
def writeEntries : List (Value × Value) → Bytes
  | [] => []
  | (k, v) :: rest => write k ++ (write v ++ writeEntries rest)

end

/-- A map with texts as keys. -/
def record (fields : List (String × Value)) : Value := .map (fields.map fun (k, v) => (.text k, v))

/-- An array of integers. -/
def naturals (ns : List Nat) : Value := .array (ns.map fun (n : Nat) => .int n)

end Value

end Rollout.MsgPack
