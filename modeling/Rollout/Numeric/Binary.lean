/-
# Binary floating-point words

A word of a binary interchange format stands for not-a-number, an infinity or a
number `± mantissa * 2 ^ exponent`.  `Format.decode` reads that meaning off a
word and `Format.encode` rounds an exact quotient to the nearest word, a tie
going to the even one.  Every conversion between the two float types, the
integers and decimal text is built from these two functions, in exact integer
arithmetic.

Floats travel as words, `Single` and `Double`, because not-a-number has many of
them; the arithmetic is that of the float types `Float32` and `Float`.
-/
namespace Rollout.Numeric

/-! ## Powers

Where more of the library is known, a power of a whole number can also be read as one
of a monoid.  These instances come first, so that it is the power of the core library in
every module: lemmas about powers then match whatever a module imports, and a power of
literals is computed. -/

/-- The powers of the integers. -/
@[default_instance high]
instance (priority := high) intPower : Pow Int Nat := instPowNat

/-- The powers of the natural numbers. -/
@[default_instance high]
instance (priority := high) natPower : Pow Nat Nat := instPowNat

/-! ## Formats -/

/-- A binary interchange format: a sign bit, an exponent field and a fraction. -/
structure Format where
  /-- Width of the fraction field. -/
  fraction : Nat
  /-- Width of the exponent field. -/
  exponent : Nat
  deriving DecidableEq, Repr

/-- The 32-bit format. -/
def single : Format := ⟨23, 8⟩

/-- The 64-bit format. -/
def double : Format := ⟨52, 11⟩

namespace Format

/-- The exponent of the last place of the smallest numbers. -/
def least (f : Format) : Int := 2 - 2 ^ (f.exponent - 1) - f.fraction

/-- The word of positive infinity; all larger ones below the sign are not-a-number. -/
def infinity (f : Format) : Nat := (2 ^ f.exponent - 1) * 2 ^ f.fraction

/-- The word that holds nothing but the sign. -/
def signBit (f : Format) : Nat := 2 ^ (f.fraction + f.exponent)

end Format

/-! ## The meaning of a word -/

/-- What a word stands for. -/
inductive Datum where
  /-- Not a number. -/
  | nan
  /-- An infinity. -/
  | infinite (negative : Bool)
  /-- The number `± mantissa * 2 ^ exponent`; zero keeps its sign. -/
  | finite (negative : Bool) (mantissa : Nat) (exponent : Int)
  deriving DecidableEq, Repr

/-- The meaning of a word of the format. -/
def Format.decode (f : Format) (word : Nat) : Datum :=
  let negative := word / f.signBit % 2 == 1
  let field := word / 2 ^ f.fraction % 2 ^ f.exponent
  let fraction := word % 2 ^ f.fraction
  if field + 1 = 2 ^ f.exponent then
    if fraction = 0 then .infinite negative else .nan
  else if field = 0 then
    .finite negative fraction f.least
  else
    .finite negative (2 ^ f.fraction + fraction) (f.least + (field - 1 : Nat))

/-! ## Rounding to a word -/

/-- The quotient of two naturals to the nearest natural, a tie going to the even one. -/
def roundDiv (num den : Nat) : Nat :=
  let quotient := num / den
  let rest := num % den
  if den < 2 * rest ∨ (2 * rest = den ∧ quotient % 2 = 1) then quotient + 1 else quotient

/-- Two to an integer power, as a numerator and a denominator. -/
def twoPow (e : Int) : Nat × Nat := (2 ^ e.toNat, 2 ^ (-e).toNat)

/-- The exponent of the last place of the word nearest to `num / den`. -/
def Format.placeOf (f : Format) (num den : Nat) : Int :=
  let guess : Int := (num.log2 : Int) - den.log2 - (f.fraction + 1)
  let unit := twoPow guess
  let wide := 2 ^ (f.fraction + 1) ≤ num * unit.2 / (den * unit.1)
  max f.least (if wide then guess + 1 else guess)

/-- The word of `num / den` without its sign, infinity when it is too large. -/
def Format.magnitude (f : Format) (num den : Nat) : Nat :=
  if num = 0 then 0 else
    let place := f.placeOf num den
    let unit := twoPow place
    let mantissa := roundDiv (num * unit.2) (den * unit.1)
    min f.infinity ((place - f.least).toNat * 2 ^ f.fraction + mantissa)

/-- The word nearest to `± num / den`. -/
def Format.encode (f : Format) (negative : Bool) (num den : Nat) : Nat :=
  f.magnitude num den + if negative then f.signBit else 0

/-- The word of a meaning; a number that has no word of its own is rounded. -/
def Format.word (f : Format) : Datum → Nat
  | .nan => f.infinity + 2 ^ (f.fraction - 1)
  | .infinite negative => f.infinity + if negative then f.signBit else 0
  | .finite negative mantissa exponent =>
    let unit := twoPow exponent
    f.encode negative (mantissa * unit.1) unit.2

/-- An integer as a datum. -/
def Datum.ofInt (v : Int) : Datum := .finite (decide (v < 0)) v.natAbs 0

/-- A word of one format in another.  A number is rounded; a not-a-number keeps its sign and
the leading bits of its fraction, and the first of these is set. -/
def Format.convert (source target : Format) (word : Nat) : Nat :=
  match source.decode word with
  | .nan =>
    let fraction := word % 2 ^ source.fraction * 2 ^ target.fraction / 2 ^ source.fraction
    let sign := if word / source.signBit % 2 = 1 then target.signBit else 0
    sign + target.infinity + (fraction ||| 2 ^ (target.fraction - 1))
  | d => target.word d

/-! ## Words of the two formats -/

/-- A 32-bit word.  Floats are sent and kept as words, since not-a-number has many. -/
structure Single where
  bits : UInt32
  deriving DecidableEq, Repr

/-- A 64-bit word. -/
structure Double where
  bits : UInt64
  deriving DecidableEq, Repr

namespace Single

/-- The meaning of a word. -/
def datum (x : Single) : Datum := single.decode x.bits.toNat

/-- The float of a word. -/
def toFloat (x : Single) : Float32 := Float32.ofBits x.bits

/-- The word of a float. -/
def ofFloat (x : Float32) : Single := ⟨x.toBits⟩

/-- The word nearest to a meaning. -/
def ofDatum (d : Datum) : Single := ⟨UInt32.ofNat (single.word d)⟩

/-- The word of the same number in 64 bits. -/
def widen (x : Single) : Double := ⟨UInt64.ofNat (single.convert double x.bits.toNat)⟩

/-- The word nearest to a natural. -/
def ofNat (n : Nat) : Single := ofDatum (.ofInt n)

end Single

namespace Double

/-- The meaning of a word. -/
def datum (x : Double) : Datum := double.decode x.bits.toNat

/-- The float of a word. -/
def toFloat (x : Double) : Float := Float.ofBits x.bits

/-- The word of a float. -/
def ofFloat (x : Float) : Double := ⟨x.toBits⟩

/-- The word nearest to a meaning. -/
def ofDatum (d : Datum) : Double := ⟨UInt64.ofNat (double.word d)⟩

/-- The word nearest in 32 bits. -/
def narrow (x : Double) : Single := ⟨UInt32.ofNat (double.convert single x.bits.toNat)⟩

/-- The word nearest to an integer. -/
def ofInt (v : Int) : Double := ofDatum (.ofInt v)

end Double

/-! ## The two float types -/

/-- A 64-bit float rounded to 32 bits. -/
def narrow (x : Float) : Float32 := (Double.ofFloat x).narrow.toFloat

/-- A 32-bit float as the same number in 64 bits. -/
def widen (x : Float32) : Float := (Single.ofFloat x).widen.toFloat

/-- The 64-bit float nearest to an integer. -/
def doubleOfInt (v : Int) : Float := (Double.ofInt v).toFloat

/-! ## Integers from floats -/

/-- The part of `mantissa * 2 ^ exponent` before the point. -/
def wholePart (mantissa : Nat) (exponent : Int) : Nat :=
  mantissa * 2 ^ exponent.toNat / 2 ^ (-exponent).toNat

/-- The number without its fraction, clamped to the signed 64-bit range; not-a-number gives
zero. -/
def truncate (x : Double) : Int :=
  let clamp (v : Int) : Int := max (-(2 ^ 63)) (min (2 ^ 63 - 1) v)
  match x.datum with
  | .nan => 0
  | .infinite negative => if negative then -(2 ^ 63) else 2 ^ 63 - 1
  | .finite negative mantissa exponent =>
    let whole : Int := wholePart mantissa exponent
    clamp (if negative then -whole else whole)

/-- The natural nearest to a float, a tie going up, clamped to `[0, limit]`. -/
def roundToNat (x : Float32) (limit : Nat) : Nat :=
  match (Single.ofFloat x).datum with
  | .nan => 0
  | .infinite negative => if negative then 0 else limit
  | .finite negative mantissa exponent =>
    if negative then 0 else min limit ((wholePart (2 * mantissa) exponent + 1) / 2)

/-! ## Remainders -/

/-- The float that `x` leaves over a whole number of `y`s, with the sign of `x`. -/
def remainder (x y : Float32) : Float32 :=
  match (Single.ofFloat x).datum, (Single.ofFloat y).datum with
  | .finite negative m e, .finite _ n k =>
    if n = 0 then (Single.ofDatum .nan).toFloat else
      let place := min e k
      let rest := (m * 2 ^ (e - place).toNat) % (n * 2 ^ (k - place).toNat)
      (Single.ofDatum (.finite negative rest place)).toFloat
  | .finite .., .infinite _ => x
  | _, _ => (Single.ofDatum .nan).toFloat

/-- The remainder brought into `[0, |y|)` by adding `|y|` to a negative one. -/
def remainderPos (x y : Float32) : Float32 :=
  let r := remainder x y
  if r < 0 then r + y.abs else r

/-! ## Order -/

/-- The larger float; one that is not a number loses, and of equal ones the second is given:
both zeros are equal. -/
def larger (x y : Float32) : Float32 :=
  if y < x || y.isNaN then x else y

/-- The smaller float; one that is not a number loses, and of equal ones the second is given:
both zeros are equal. -/
def smaller (x y : Float32) : Float32 :=
  if x < y || y.isNaN then x else y

end Rollout.Numeric
