/-
# The shortest decimal that reads back

A word is printed with the fewest decimal digits that still round to it.  The
numbers that round to `mantissa * 2 ^ exponent` form an interval; a grid of
decimals of a given length meets that interval iff one of the two neighbours of
the number on the grid lies in it, so the first length with such a neighbour is
the least one.
-/
import Rollout.Numeric.Binary

namespace Rollout.Numeric

/-- The decimal `digits * 10 ^ exponent`. -/
structure Decimal where
  digits : Nat
  exponent : Int
  deriving DecidableEq, Repr

/-- Which of two decimals is written when the number lies in the middle between them. -/
inductive Tie where
  /-- The one farther from zero. -/
  | up
  /-- The one whose last digit is even. -/
  | even
  deriving DecidableEq, Repr

/-- Whether a tie above a decimal with these digits goes to the next one. -/
def Tie.goesUp (t : Tie) (digits : Nat) : Bool :=
  match t with
  | .up => true
  | .even => digits % 2 == 1

/-- The interval of numbers that round to a word, on a common denominator. -/
structure Neighbourhood where
  /-- The number itself. -/
  value : Nat
  /-- The lower end. -/
  low : Nat
  /-- The upper end. -/
  high : Nat
  /-- The denominator. -/
  unit : Nat
  /-- Whether the ends belong to it. -/
  closed : Bool

/-- The neighbourhood of `mantissa * 2 ^ exponent` in a format.  Below a power of two the
words lie twice as close. -/
def Format.neighbourhood (f : Format) (mantissa : Nat) (exponent : Int) : Neighbourhood :=
  let quarter := twoPow (exponent - 2)
  let tight := mantissa = 2 ^ f.fraction ∧ f.least < exponent
  { value := 4 * mantissa * quarter.1
    low := (4 * mantissa - if tight then 1 else 2) * quarter.1
    high := (4 * mantissa + 2) * quarter.1
    unit := quarter.2
    closed := mantissa % 2 = 0 }

/-- Whether `num / den` lies in the neighbourhood. -/
def Neighbourhood.holds (n : Neighbourhood) (num den : Nat) : Bool :=
  let x := num * n.unit
  if n.closed then n.low * den ≤ x && x ≤ n.high * den else n.low * den < x && x < n.high * den

/-- Ten to an integer power, as a numerator and a denominator. -/
def tenPow (e : Int) : Nat × Nat := (10 ^ e.toNat, 10 ^ (-e).toNat)

/-- The nearest multiple of `10 ^ place` that lies in the neighbourhood, if one does. -/
def Neighbourhood.onGrid (n : Neighbourhood) (tie : Tie) (place : Int) : Option Nat :=
  let step := tenPow place
  let below := n.value * step.2 / (n.unit * step.1)
  let fits (d : Nat) := n.holds (d * step.1) step.2
  -- twice the distance from the lower neighbour, against the whole step
  let past := 2 * (n.value * step.2 - below * (n.unit * step.1))
  let whole := n.unit * step.1
  let upperNearer := whole < past || (past == whole && tie.goesUp below)
  match 0 < below && fits below, fits (below + 1) with
  | true, true => some (if upperNearer then below + 1 else below)
  | true, false => some below
  | false, true => some (below + 1)
  | false, false => none

/-- The number of decimal places before the point of `num / den`, zero or less below one:
the least `p` with `num / den < 10 ^ p`, searched upwards from a lower estimate. -/
def leadingPlace (num den : Nat) : Int :=
  let estimate : Int := ((num.log2 : Int) - den.log2 - 1) * 30103 / 100000
  let below (p : Int) : Bool := num * (tenPow p).2 < den * (tenPow p).1
  if below estimate then estimate
  else if below (estimate + 1) then estimate + 1
  else if below (estimate + 2) then estimate + 2
  else estimate + 3

/-- The first grid, from `place` down, that meets the neighbourhood. -/
def Neighbourhood.firstGrid (n : Neighbourhood) (tie : Tie) :
    (tries : Nat) → (place : Int) → Decimal
  | 0, place => ⟨n.value * (tenPow place).2 / (n.unit * (tenPow place).1), place⟩
  | tries + 1, place =>
    match n.onGrid tie place with
    | some d => ⟨d, place⟩
    | none => n.firstGrid tie tries (place - 1)

/-- A decimal without trailing zeros, within a number of divisions. -/
def Decimal.strip : (tries : Nat) → Decimal → Decimal
  | 0, d => d
  | tries + 1, d => if d.digits % 10 = 0 then strip tries ⟨d.digits / 10, d.exponent + 1⟩ else d

/-- The shortest decimal that reads back as `mantissa * 2 ^ exponent`, which is not zero. -/
def Format.shortest (f : Format) (tie : Tie) (mantissa : Nat) (exponent : Int) : Decimal :=
  let n := f.neighbourhood mantissa exponent
  (n.firstGrid tie 20 (leadingPlace n.value n.unit - 1)).strip 20

end Rollout.Numeric
