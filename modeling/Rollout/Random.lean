/-
# Random numbers

A generator of 64-bit words: the state advances by a constant, and a word is the
sum modulo two of the halves of a 128-bit product.  Floats in `[0, 1)` take the
leading bits of a word as the fraction of a float in `[1, 2)`.
-/
import Rollout.Numeric.Binary

namespace Rollout

/-- The state of a generator. -/
structure Generator where
  state : UInt64
  deriving DecidableEq, Repr

namespace Generator

/-- A generator started from a seed. -/
def ofSeed (seed : UInt64) : Generator := ⟨seed⟩

/-- The next word. -/
def word (g : Generator) : UInt64 × Generator :=
  let state := g.state + 0xa0761d6478bd642f
  let product := state.toNat * (state ^^^ 0xe7037ed1a0b428db).toNat
  (UInt64.ofNat (product % 2 ^ 64) ^^^ UInt64.ofNat (product / 2 ^ 64), ⟨state⟩)

/-- The next 64-bit float of `[0, 1)`. -/
def double (g : Generator) : Float × Generator :=
  let (w, g) := g.word
  (Float.ofBits ((0x3ff0000000000000 : UInt64) + (w >>> 12)) - 1.0, g)

/-- The next 32-bit float of `[0, 1)`. -/
def single (g : Generator) : Float32 × Generator :=
  let (w, g) := g.word
  (Float32.ofBits ((0x3f800000 : UInt32) + (w.toUInt32 >>> 9)) - 1.0, g)

end Generator

end Rollout
