/-
# UTF-8

Bytes of characters and back.  `encode` writes each character in one to four
bytes; `decode` reads the whole text or says where the first faulty sequence
starts and how long it is.
-/
import Rollout.Numeric.Binary

namespace Rollout

/-- A sequence of bytes. -/
abbrev Bytes := List UInt8

namespace Text.Utf8

/-! ## Writing -/

/-- The bytes of a character. -/
def encodeChar (c : Char) : Bytes :=
  let v := c.toNat
  let tail (shift : Nat) : UInt8 := UInt8.ofNat (0x80 + v / 2 ^ shift % 64)
  if v < 0x80 then [UInt8.ofNat v]
  else if v < 0x800 then [UInt8.ofNat (0xc0 + v / 64), tail 0]
  else if v < 0x10000 then [UInt8.ofNat (0xe0 + v / 4096), tail 6, tail 0]
  else [UInt8.ofNat (0xf0 + v / 262144), tail 12, tail 6, tail 0]

/-- The bytes of a text. -/
def encode (s : String) : Bytes := s.toList.flatMap encodeChar

/-! ## Reading -/

/-- Why bytes are not a text: the first `validUpTo` bytes are, and the sequence that starts
there is wrong after `length` bytes, or stops early. -/
structure Fault where
  validUpTo : Nat
  length : Option Nat
  deriving DecidableEq, Repr

/-- The wording of a fault. -/
def Fault.message (f : Fault) : String :=
  match f.length with
  | some n => s!"invalid utf-8 sequence of {n} bytes from index {f.validUpTo}"
  | none => s!"incomplete utf-8 byte sequence from index {f.validUpTo}"

/-- The bytes that continue a sequence. -/
def isTail (b : UInt8) : Bool := 0x80 ≤ b && b < 0xc0

/-- Whether the second byte may follow the first of a sequence of three: neither an overlong
form nor a surrogate. -/
def isThirdLead (b0 b1 : UInt8) : Bool :=
  isTail b1 && (b0 != 0xe0 || 0xa0 ≤ b1) && (b0 != 0xed || b1 < 0xa0)

/-- Whether the second byte may follow the first of a sequence of four: neither an overlong
form nor beyond the last code point. -/
def isFourthLead (b0 b1 : UInt8) : Bool :=
  isTail b1 && (b0 != 0xf0 || 0x90 ≤ b1) && (b0 != 0xf4 || b1 < 0x90)

/-- The character of the six-bit groups after a lead. -/
def join (lead : Nat) (tails : Bytes) : Char :=
  Char.ofNat (tails.foldl (fun acc b => acc * 64 + b.toNat % 64) lead)

/-- Reads characters until the end, counting the bytes read. -/
def decodeFrom (position : Nat) : Bytes → Except Fault (List Char)
  | [] => .ok []
  | b0 :: rest =>
    let fault (n : Nat) : Except Fault (List Char) := .error ⟨position, some n⟩
    let short : Except Fault (List Char) := .error ⟨position, none⟩
    if b0 < 0x80 then
      (decodeFrom (position + 1) rest).map (Char.ofNat b0.toNat :: ·)
    else if 0xc2 ≤ b0 ∧ b0 < 0xe0 then
      match rest with
      | [] => short
      | b1 :: rest =>
        if !isTail b1 then fault 1
        else (decodeFrom (position + 2) rest).map (join (b0.toNat % 32) [b1] :: ·)
    else if 0xe0 ≤ b0 ∧ b0 < 0xf0 then
      match rest with
      | [] => short
      | [b1] => if !isThirdLead b0 b1 then fault 1 else short
      | b1 :: b2 :: rest =>
        if !isThirdLead b0 b1 then fault 1
        else if !isTail b2 then fault 2
        else (decodeFrom (position + 3) rest).map (join (b0.toNat % 16) [b1, b2] :: ·)
    else if 0xf0 ≤ b0 ∧ b0 < 0xf5 then
      match rest with
      | [] => short
      | [b1] => if !isFourthLead b0 b1 then fault 1 else short
      | [b1, b2] =>
        if !isFourthLead b0 b1 then fault 1 else if !isTail b2 then fault 2 else short
      | b1 :: b2 :: b3 :: rest =>
        if !isFourthLead b0 b1 then fault 1
        else if !isTail b2 then fault 2
        else if !isTail b3 then fault 3
        else (decodeFrom (position + 4) rest).map (join (b0.toNat % 8) [b1, b2, b3] :: ·)
    else fault 1

/-- The text of the bytes. -/
def decode (bytes : Bytes) : Except Fault String := (decodeFrom 0 bytes).map String.ofList

end Text.Utf8

end Rollout
