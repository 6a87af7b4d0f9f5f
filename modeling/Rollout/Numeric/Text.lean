/-
# Numbers as text

`Style.render` writes a float from its shortest decimal in positional or
exponent notation; the styles say where one ends and the other begins and how
whole numbers, infinities and not-a-number look.  `signedThousandths` writes the
exact value to three places with its sign.
-/
import Rollout.Numeric.Shortest

namespace Rollout.Numeric

/-- Decimal digits of a natural. -/
def digitChars (n : Nat) : List Char := Nat.toDigits 10 n

/-- A natural in decimal. -/
def natText (n : Nat) : String := String.ofList (digitChars n)

/-- An integer in decimal, with a minus sign if it is negative. -/
def intText (v : Int) : String := if v < 0 then "-" ++ natText v.natAbs else natText v.natAbs

/-! ## Styles -/

/-- How floats are written. -/
structure Style where
  /-- Which of two shortest decimals is written. -/
  tie : Tie
  /-- The numbers from `10 ^ (fst - 1)` to `10 ^ snd` are positional; all are, without it. -/
  positional : Option (Int × Int)
  /-- Whether a whole number in positional notation ends in `.0`. -/
  pointZero : Bool
  /-- Text of not-a-number. -/
  nan : String
  /-- Text of positive infinity. -/
  infinity : String

namespace Style

/-- Notation for inspecting values: a point is always shown, and exponents start at `1e16`
and below `1e-4`. -/
def inspect : Style := ⟨.up, some (-3, 16), true, "NaN", "inf"⟩

/-- Notation inside messages: always positional, with a point. -/
def message : Style := ⟨.up, none, true, "NaN", "inf"⟩

/-- Notation of configuration files: exponents start at `1e13` and below `1e-5`. -/
def config : Style := ⟨.even, some (-5, 13), true, ".nan", ".inf"⟩

/-- The positional notation of digits with the point after the first `point` places. -/
def fixedPoint (digits : List Char) (point : Int) (pointZero : Bool) : List Char :=
  if point ≤ 0 then
    '0' :: '.' :: (List.replicate (-point).toNat '0' ++ digits)
  else
    let whole := digits.take point.toNat ++ List.replicate (point.toNat - digits.length) '0'
    let rest := digits.drop point.toNat
    if rest.isEmpty then whole ++ (if pointZero then ['.', '0'] else [])
    else whole ++ '.' :: rest

/-- The exponent notation `d.ddde±x`, without the point for a single digit. -/
def exponential (digits : List Char) (point : Int) : List Char :=
  let mantissa :=
    match digits with
    | [] => ['0']
    | [d] => [d]
    | d :: rest => d :: '.' :: rest
  mantissa ++ 'e' :: (intText (point - 1)).toList

/-- A datum of the format in the style. -/
def render (s : Style) (f : Format) : Datum → String
  | .nan => s.nan
  | .infinite negative => (if negative then "-" else "") ++ s.infinity
  | .finite negative mantissa exponent =>
    let body :=
      if mantissa = 0 then fixedPoint ['0'] 1 s.pointZero
      else
        let d := f.shortest s.tie mantissa exponent
        let digits := digitChars d.digits
        let point : Int := digits.length + d.exponent
        match s.positional with
        | none => fixedPoint digits point s.pointZero
        | some (low, high) =>
          if low ≤ point ∧ point ≤ high then fixedPoint digits point s.pointZero
          else exponential digits point
    (if negative then "-" else "") ++ String.ofList body

end Style

/-- A 64-bit word in a style. -/
def doubleText (s : Style) (x : Double) : String := s.render double x.datum

/-- A 32-bit word in a style. -/
def singleText (s : Style) (x : Single) : String := s.render single x.datum

/-- A 64-bit float in a style. -/
def floatText (s : Style) (x : Float) : String := doubleText s (.ofFloat x)

/-- A 32-bit float in a style. -/
def float32Text (s : Style) (x : Float32) : String := singleText s (.ofFloat x)

/-! ## Fixed places -/

/-- A float with its sign and three decimals, rounded from the exact value, a tie going to
the even digit. -/
def signedThousandths (x : Float32) : String :=
  match (Single.ofFloat x).datum with
  | .nan => "NaN"
  | .infinite negative => (if negative then "-" else "+") ++ "inf"
  | .finite negative mantissa exponent =>
    let unit := twoPow exponent
    let n := roundDiv (mantissa * unit.1 * 1000) unit.2
    let places := digitChars (n % 1000)
    let padded := List.replicate (3 - places.length) '0' ++ places
    (if negative then "-" else "+") ++ natText (n / 1000) ++ "." ++ String.ofList padded

end Rollout.Numeric
