/-
# Comparing floats

A float is compared by what its word is unpacked to.  Adding a zero to a float changes
at most the sign of a zero, which no comparison sees (`lt_add_zero_iff`), and a random
float is not below zero (`not_double_lt_zero`).
-/
import Mathlib
import Rollout.Random

namespace Rollout.Floats

open Float.Model (UnpackedFloat)
open Float.Model.Format (binary64)
open Float.Model.UnpackedFloat (Sign unpackMantissa unpackExponent unpackSign)

/-! ## The fields of a word -/

section Fields

variable (b : BitVec binary64.numBits)

theorem toNat_unpackExponent : (unpackExponent b).toNat = b.toNat / 2 ^ 52 % 2 ^ 11 := by
  simp only [unpackExponent, BitVec.toNat_cast, BitVec.extractLsb_toNat, Nat.shiftRight_eq_div_pow]

theorem toNat_unpackSign : (unpackSign b).toNat = b.toNat / 2 ^ 63 % 2 := by
  simp only [unpackSign, BitVec.toNat_cast, BitVec.extractLsb_toNat, Nat.shiftRight_eq_div_pow]

/-- The digits of a normal number are those of the word after a one. -/
theorem toNat_one_append (m : BitVec 52) : (1#1 ++ m).toNat = 2 ^ 52 + m.toNat := by
  rw [BitVec.toNat_append, ← Nat.shiftLeft_add_eq_or_of_lt m.isLt]
  rfl

end Fields

/-- A model that was unpacked is packed again as it was. -/
theorem unpack_pack_unpack (f : Float.Model) : (Float.Model.pack f.unpack).unpack = f.unpack := by
  have hbits : UnpackedFloat.pack binary64 f.unpack = f.toBits.toBitVec :=
    UnpackedFloat.pack_unpack_of_valid f.valid
  exact congrArg (UnpackedFloat.unpack binary64) hbits

/-! ## Comparisons -/

section Comparisons

variable {r x p : Float}

theorem unpack_zero : (0.0 : Float).toModel.unpack = .zero .positive := rfl

theorem unpack_one :
    (1.0 : Float).toModel.unpack = .finite .positive (2 ^ 52) (-52) (Nat.two_pow_pos 52) := rfl

/-- A float is less than another if their unpacked numbers compare so. -/
theorem lt_iff : r < x ↔ r.toModel.unpack.compare x.toModel.unpack = some .lt := by
  show Float.lt r x = true ↔ _
  rw [Float.lt, decide_eq_true_iff]
  show (r.toModel.unpack.compare x.toModel.unpack == some .lt) = true ↔ _
  exact beq_iff_eq

theorem le_iff : r ≤ x ↔ (r.toModel.unpack.compare x.toModel.unpack).any (·.isLE) = true := by
  show Float.le r x = true ↔ _
  rw [Float.le, decide_eq_true_iff]
  exact Iff.rfl

/-- A float is equal to zero exactly if it is a zero of either sign. -/
theorem beq_zero_iff : (p == 0.0) = true ↔ ∃ s, p.toModel.unpack = .zero s := by
  show (p.toModel.unpack.compare (0.0 : Float).toModel.unpack == some .eq) = true ↔ _
  rw [beq_iff_eq, unpack_zero]
  cases p.toModel.unpack with
  | zero s => exact iff_of_true rfl ⟨s, rfl⟩
  | notANumber => exact iff_of_false nofun nofun
  | infinity s => cases s <;> exact iff_of_false nofun nofun
  | finite s m e hm => cases s <;> exact iff_of_false nofun nofun

/-- A float that is not negative is positive unless it is zero. -/
theorem zero_lt_iff (h : 0.0 ≤ p) : 0.0 < p ↔ ¬ (p == 0.0) = true := by
  rw [le_iff, unpack_zero] at h
  rw [lt_iff, unpack_zero, beq_zero_iff]
  cases hp : p.toModel.unpack with
  | zero s => exact iff_of_false nofun fun hne => hne ⟨s, rfl⟩
  | notANumber =>
    rw [hp] at h
    cases h
  | infinity s =>
    rw [hp] at h
    cases s with
    | negative => cases h
    | positive => exact iff_of_true rfl nofun
  | finite s m e hm =>
    rw [hp] at h
    cases s with
    | negative => cases h
    | positive => exact iff_of_true rfl nofun

/-- A comparison does not see the sign of a zero. -/
theorem compare_zero (u : UnpackedFloat) (s s' : Sign) :
    u.compare (.zero s) = u.compare (.zero s') := by
  cases u with
  | zero t => rfl
  | notANumber => rfl
  | infinity t => cases t <;> rfl
  | finite t m e hm => cases t <;> rfl

/-- The sum of two zeros is a zero, which is packed and unpacked as such. -/
theorem exists_zero_add_zero (t s : Sign) : ∃ t',
    (Float.Model.pack (UnpackedFloat.add binary64 (.zero t) (.zero s))).unpack = .zero t' := by
  cases t <;> cases s <;> exact ⟨_, rfl⟩

/-- Adding a zero to what is no zero leaves it as it was. -/
theorem add_zero_of_ne {u : UnpackedFloat} (h : ¬ ∃ t, u = .zero t) (s : Sign) :
    UnpackedFloat.add binary64 u (.zero s) = u := by
  cases u with
  | zero t => exact absurd ⟨t, rfl⟩ h
  | _ => rfl

/-- **Adding a zero changes no comparison.** -/
theorem lt_add_zero_iff (hp : (p == 0.0) = true) : r < x + p ↔ r < x := by
  obtain ⟨s, hs⟩ := beq_zero_iff.mp hp
  have hsum : (x + p).toModel
      = Float.Model.pack (UnpackedFloat.add binary64 x.toModel.unpack p.toModel.unpack) := rfl
  rw [lt_iff, lt_iff, hsum, hs]
  by_cases hx : ∃ t, x.toModel.unpack = .zero t
  · obtain ⟨t, hx⟩ := hx
    obtain ⟨t', ht'⟩ := exists_zero_add_zero t s
    rw [hx, ht', compare_zero _ t' t]
  · rw [add_zero_of_ne hx, unpack_pack_unpack]

end Comparisons

/-! ## Random floats -/

/-- The float is not a number, or has no negative sign. -/
def Unsigned : UnpackedFloat → Prop
  | .notANumber => True
  | .infinity s | .zero s | .finite s _ _ _ => s = .positive

/-- A word without a sign is unpacked to a number without a sign. -/
theorem unsigned_unpack {b : BitVec binary64.numBits} (h : unpackSign b = 0#1) :
    Unsigned (UnpackedFloat.unpack binary64 b) := by
  have hsign : Sign.ofBitVec (unpackSign b) = .positive := by
    rw [h]
    rfl
  unfold UnpackedFloat.unpack
  simp only
  split
  · split
    · exact hsign
    · trivial
  · split
    · split
      · exact hsign
      · exact hsign
    · exact hsign

/-- A number without a sign is packed to a word without a sign. -/
theorem Unsigned.unpackSign_pack {u : UnpackedFloat} (h : Unsigned u) :
    unpackSign (UnpackedFloat.pack binary64 u) = 0#1 := by
  cases u with
  | notANumber => rfl
  | infinity s =>
    cases h
    exact UnpackedFloat.unpackSign_packComponents .positive _ _
  | zero s =>
    cases h
    exact UnpackedFloat.unpackSign_packComponents .positive _ _
  | finite s m e hm =>
    cases h
    rw [UnpackedFloat.pack]
    simp only
    split
    · exact UnpackedFloat.unpackSign_packComponents .positive _ _
    · split
      · exact UnpackedFloat.unpackSign_packComponents .positive _ _
      · exact UnpackedFloat.unpackSign_packComponents .positive _ _

/-- Rounding keeps the sign. -/
theorem unsigned_normalize {m : Int} (h : 0 ≤ m) (e : Int) :
    Unsigned (UnpackedFloat.normalize binary64 m e .positive) := by
  have hround : ∀ n, Unsigned (UnpackedFloat.round binary64 .positive n e) := by
    intro n
    unfold UnpackedFloat.round UnpackedFloat.roundWithAccuracy
    simp only
    split
    · rfl
    · rfl
  rw [UnpackedFloat.normalize]
  split
  · rename_i hlt
    exact absurd (Int.compare_eq_lt.mp hlt) (Int.not_lt.mpr h)
  · rfl
  · exact hround _

/-- No number without a sign is below zero. -/
theorem Unsigned.not_lt_zero {x : Float} {u : UnpackedFloat} (hu : Unsigned u)
    (h : x.toModel = Float.Model.pack u) : ¬ x < 0.0 := by
  have hx : Unsigned x.toModel.unpack := by
    rw [h]
    exact unsigned_unpack hu.unpackSign_pack
  rw [lt_iff, unpack_zero]
  cases hunpack : x.toModel.unpack with
  | notANumber => exact nofun
  | zero s => exact nofun
  | infinity s =>
    rw [hunpack] at hx
    cases hx
    exact nofun
  | finite s m e hm =>
    rw [hunpack] at hx
    cases hx
    exact nofun

/-- A word with the exponent of one is a number from one on. -/
theorem exists_unpack_eq {b : BitVec binary64.numBits} (hs : unpackSign b = 0#1)
    (he : unpackExponent b = 1023#11) :
    ∃ m hm, 2 ^ 52 ≤ m ∧ UnpackedFloat.unpack binary64 b = .finite .positive m (-52) hm := by
  have hfull : 2 ^ 52 ≤ (1#1 ++ unpackMantissa b).toNat := by
    rw [toNat_one_append]
    exact Nat.le_add_right _ _
  refine ⟨(1#1 ++ unpackMantissa b).toNat, by omega, hfull, ?_⟩
  unfold UnpackedFloat.unpack
  simp only [hs, he]
  rfl

/-- **A random float is not below zero.** -/
theorem not_double_lt_zero (g : Generator) : ¬ g.double.1 < 0.0 := by
  let w := g.word.1
  let b : BitVec binary64.numBits := ((0x3ff0000000000000 : UInt64) + (w >>> 12)).toBitVec
  have hw := w.toNat_lt
  have hb : b.toNat = 0x3ff0000000000000 + w.toNat / 2 ^ 12 := by
    show ((0x3ff0000000000000 : UInt64) + (w >>> 12)).toNat = _
    rw [UInt64.toNat_add, UInt64.toNat_shiftRight]
    show (0x3ff0000000000000 + w.toNat >>> 12) % 2 ^ 64 = _
    rw [Nat.shiftRight_eq_div_pow]
    omega
  have hs : unpackSign b = 0#1 := by
    apply BitVec.eq_of_toNat_eq
    rw [toNat_unpackSign, hb]
    show _ = 0
    omega
  have he : unpackExponent b = 1023#11 := by
    apply BitVec.eq_of_toNat_eq
    rw [toNat_unpackExponent, hb]
    show _ = 1023
    omega
  have hvalid : binary64.Valid b := ⟨fun hones => by rw [he] at hones; cases hones⟩
  -- the word is unpacked to a number that is not below one, and one is taken off
  obtain ⟨m, hm, hle, hunpack⟩ := exists_unpack_eq hs he
  have hdraw : (Float.ofBits ((0x3ff0000000000000 : UInt64) + (w >>> 12))).toModel.unpack
      = .finite .positive m (-52) hm :=
    (congrArg (UnpackedFloat.unpack binary64)
      (UnpackedFloat.pack_unpack_of_valid hvalid)).trans hunpack
  have hrest : Unsigned (UnpackedFloat.sub binary64
      (Float.ofBits ((0x3ff0000000000000 : UInt64) + (w >>> 12))).toModel.unpack
      (1.0 : Float).toModel.unpack) := by
    rw [hdraw, unpack_one]
    refine unsigned_normalize ?_ _
    show 0 ≤ ((m <<< 0 : Nat) : Int) - ((2 ^ 52 <<< 0 : Nat) : Int)
    rw [Nat.shiftLeft_zero, Nat.shiftLeft_zero]
    omega
  exact hrest.not_lt_zero rfl

end Rollout.Floats
