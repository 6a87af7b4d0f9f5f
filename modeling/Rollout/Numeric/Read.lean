/-
# Numbers read from text

Readers of integers in a radix and of decimal floats.  A float text is turned
into an exact quotient and rounded once, so every text gives the nearest float.
-/
import Rollout.Numeric.Binary

namespace Rollout.Numeric

/-! ## Integers -/

/-- The value of a digit in the radix. -/
def digitValue (radix : Nat) (c : Char) : Option Nat :=
  let v :=
    if '0' ≤ c ∧ c ≤ '9' then c.toNat - '0'.toNat
    else if 'a' ≤ c ∧ c ≤ 'z' then c.toNat - 'a'.toNat + 10
    else if 'A' ≤ c ∧ c ≤ 'Z' then c.toNat - 'A'.toNat + 10
    else radix
  if v < radix then some v else none

/-- A non-empty row of digits. -/
def readDigits (radix : Nat) : List Char → Option Nat
  | [] => none
  | cs =>
    cs.foldl (fun acc c => acc.bind fun n => (digitValue radix c).map (n * radix + ·)) (some 0)

/-- An integer with an optional sign. -/
def readInt (radix : Nat) : List Char → Option Int
  | '-' :: cs => (readDigits radix cs).map fun n => -(n : Int)
  | '+' :: cs => (readDigits radix cs).map fun n => (n : Int)
  | cs => (readDigits radix cs).map fun n => (n : Int)

/-- A natural below `2 ^ bits`, with an optional plus sign. -/
def readUnsigned (radix bits : Nat) (cs : List Char) : Option Nat :=
  match cs with
  | '-' :: _ => none
  | _ => (readInt radix cs).bind fun v => if v < 2 ^ bits then some v.toNat else none

/-- An integer of `bits` bits in two's complement, with an optional sign. -/
def readSigned (radix bits : Nat) (cs : List Char) : Option Int :=
  (readInt radix cs).bind fun v =>
    if -(2 ^ (bits - 1)) ≤ v ∧ v < 2 ^ (bits - 1) then some v else none

/-! ## Floats -/

/-- The 64-bit datum nearest to `digits * 10 ^ exponent`; far exponents are settled without
computing the power. -/
def decimalWord (negative : Bool) (digits : Nat) (exponent : Int) : Nat :=
  let places : Int := (Nat.toDigits 10 digits).length + exponent
  if digits = 0 ∨ places < -400 then double.encode negative 0 1
  else if 400 < places then double.word (.infinite negative)
  else double.encode negative (digits * 10 ^ exponent.toNat) (10 ^ (-exponent).toNat)

/-- The number of a decimal text without its sign: digits with an optional point and an
optional exponent. -/
def readMagnitude (negative : Bool) (cs : List Char) : Option Double :=
  let isDigit (c : Char) := '0' ≤ c ∧ c ≤ '9'
  let whole := cs.takeWhile (isDigit ·)
  let afterWhole := cs.dropWhile (isDigit ·)
  let (places, tail) :=
    match afterWhole with
    | '.' :: r => (r.takeWhile (isDigit ·), r.dropWhile (isDigit ·))
    | r => ([], r)
  let digits := whole ++ places
  (readDigits 10 digits).bind fun n =>
    let scale : Option Int :=
      match tail with
      | [] => some 0
      | 'e' :: r => readInt 10 r
      | 'E' :: r => readInt 10 r
      | _ => none
    scale.map fun e =>
      ⟨UInt64.ofNat (decimalWord negative n (e - places.length))⟩

/-- Whether a text spells a lower-case word, in any case. -/
def spells (word : String) (cs : List Char) : Bool := cs.map Char.toLower == word.toList

/-- A float: a decimal text, an infinity or not-a-number, with an optional sign. -/
def readDouble (cs : List Char) : Option Double :=
  let (negative, body) :=
    match cs with
    | '-' :: r => (true, r)
    | '+' :: r => (false, r)
    | r => (false, r)
  if spells "inf" body || spells "infinity" body then some (.ofDatum (.infinite negative))
  else if spells "nan" body then some (.ofDatum .nan)
  else readMagnitude negative body

end Rollout.Numeric
