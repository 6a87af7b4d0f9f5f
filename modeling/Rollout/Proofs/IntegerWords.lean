/-
# Integers as words

An integer of at most 64 bits is sent as a float: it is rounded to a word of 53
significant bits, and cut to an integer again.  Below `2 ^ 53` it comes back as it
was (`truncate_ofInt`).  Beyond that it may change, but it stays beyond, and it keeps
its sign, so it does not come to lie below a smaller bound (`truncate_ofInt_bounds`).
In 32 bits a natural is exact below `2 ^ 24` (`natural?_ofNat`).
-/
import Rollout.Numeric.Binary

namespace Rollout.Numeric

/-! ## Rounding -/

theorem roundDiv_one (n : Nat) : roundDiv n 1 = n := by
  simp only [roundDiv, Nat.div_one, Nat.mod_one]
  exact if_neg (by omega)

/-- Rounding adds one to the quotient at most. -/
theorem roundDiv_bounds (num den : Nat) :
    num / den ≤ roundDiv num den ∧ roundDiv num den ≤ num / den + 1 := by
  simp only [roundDiv]
  split
  · omega
  · omega

theorem wholePart_sub (d m n : Nat) :
    wholePart d ((m : Int) - n) = d * 2 ^ (m - n) / 2 ^ (n - m) := by
  have hm : ((m : Int) - n).toNat = m - n := by omega
  have hn : (-((m : Int) - n)).toNat = n - m := by omega
  rw [wholePart, hm, hn]

theorem twoPow_sub (m n : Nat) : twoPow ((m : Int) - n) = (2 ^ (m - n), 2 ^ (n - m)) := by
  have hm : ((m : Int) - n).toNat = m - n := by omega
  have hn : (-((m : Int) - n)).toNat = n - m := by omega
  rw [twoPow, hm, hn]

/-! ## The word of a natural -/

section Natural

variable {k : Nat}

/-- Powers of two around a natural, with any shift of the places. -/
theorem shifted_bounds (hk : k ≠ 0) (p : Nat) :
    2 ^ p * 2 ^ (k.log2 - p) ≤ k * 2 ^ (p - k.log2) ∧
      k * 2 ^ (p - k.log2) < 2 ^ (p + 1) * 2 ^ (k.log2 - p) := by
  have hlo : 2 ^ k.log2 ≤ k := Nat.log2_self_le hk
  have hhi : k < 2 ^ (k.log2 + 1) := Nat.lt_log2_self
  rcases Nat.le_total k.log2 p with h | h
  · have hp : 2 ^ p = 2 ^ k.log2 * 2 ^ (p - k.log2) := by rw [← Nat.pow_add, Nat.add_sub_cancel' h]
    rw [Nat.sub_eq_zero_of_le h, Nat.pow_zero, Nat.mul_one, Nat.mul_one, Nat.pow_succ, hp,
      Nat.mul_right_comm]
    exact ⟨Nat.mul_le_mul_right _ hlo, Nat.mul_lt_mul_of_pos_right hhi (Nat.two_pow_pos _)⟩
  · rw [Nat.sub_eq_zero_of_le h, Nat.pow_zero, Nat.mul_one, ← Nat.pow_add, ← Nat.pow_add,
      Nat.add_sub_cancel' h, Nat.add_right_comm, Nat.add_sub_cancel' h]
    exact ⟨hlo, hhi⟩

/-- The last place of the word of a natural is as far below its first one as the fraction is wide. -/
theorem placeOf_natural {f : Format} (hf : f.least ≤ -f.fraction) (hk : k ≠ 0) :
    f.placeOf k 1 = (k.log2 : Int) - f.fraction := by
  have hwide : 2 ^ (f.fraction + 1) ≤
      k * 2 ^ (f.fraction + 1 - k.log2) / (1 * 2 ^ (k.log2 - (f.fraction + 1))) := by
    rw [Nat.one_mul, Nat.le_div_iff_mul_le (Nat.two_pow_pos _)]
    exact (shifted_bounds hk (f.fraction + 1)).1
  have hone : Nat.log2 1 = 0 := by decide
  have hguess : (k.log2 : Int) - (Nat.log2 1 : Nat) - ((f.fraction : Int) + 1)
      = (k.log2 : Int) - (f.fraction + 1 : Nat) := by
    rw [hone]
    omega
  simp only [Format.placeOf, hguess, twoPow_sub]
  rw [if_pos hwide]
  omega

/-- The word of a natural without its sign. -/
theorem magnitude_natural {f : Format} (hf : f.least ≤ -f.fraction) (hk : k ≠ 0) :
    f.magnitude k 1 = min f.infinity
      (((k.log2 : Int) - f.fraction - f.least).toNat * 2 ^ f.fraction
        + roundDiv (k * 2 ^ (f.fraction - k.log2)) (2 ^ (k.log2 - f.fraction))) := by
  simp only [Format.magnitude, if_neg hk, placeOf_natural hf hk, twoPow_sub, Nat.one_mul]

/-- The digits of the word of a natural. -/
def digits (k : Nat) : Nat := roundDiv (k * 2 ^ (52 - k.log2)) (2 ^ (k.log2 - 52))

/-- The rounded digits of a number fill a mantissa, or are its end. -/
theorem digits_bounds (hk : k ≠ 0) : 2 ^ 52 ≤ digits k ∧ digits k ≤ 2 ^ 53 := by
  obtain ⟨hlo, hhi⟩ := shifted_bounds hk 52
  obtain ⟨hdown, hup⟩ := roundDiv_bounds (k * 2 ^ (52 - k.log2)) (2 ^ (k.log2 - 52))
  have hpos : 0 < 2 ^ (k.log2 - 52) := Nat.two_pow_pos _
  have hle := (Nat.le_div_iff_mul_le hpos).mpr hlo
  have hlt := (Nat.div_lt_iff_lt_mul hpos).mpr hhi
  exact ⟨Nat.le_trans hle hdown, by rw [digits]; omega⟩

/-- Naturals below `2 ^ 53` are not rounded. -/
theorem digits_of_lt (hk : k.log2 ≤ 52) : digits k = k * 2 ^ (52 - k.log2) := by
  rw [digits, Nat.sub_eq_zero_of_le hk, Nat.pow_zero, roundDiv_one]

/-- A number of at most 53 bits has digits below that end. -/
theorem digits_lt_of_lt (hk : k ≠ 0) (h : k.log2 ≤ 52) : digits k < 2 ^ 53 := by
  have hhi := (shifted_bounds hk 52).2
  rwa [← digits_of_lt h, Nat.sub_eq_zero_of_le h, Nat.pow_zero, Nat.mul_one] at hhi

/-- The word of a number is made of its exponent and its digits. -/
theorem magnitude_double (hk : k ≠ 0) (h : k < 2 ^ 64) :
    double.magnitude k 1 = (k.log2 + 1022) * 2 ^ 52 + digits k := by
  have hlog : k.log2 < 64 := (Nat.log2_lt hk).mpr h
  have hplace : ((k.log2 : Int) - (52 : Nat) - double.least).toNat = k.log2 + 1022 := by
    have hleast : double.least = -1074 := by decide
    rw [hleast]
    omega
  have hdigits := (digits_bounds hk).2
  have hinfinity : double.infinity = 2047 * 2 ^ 52 := by decide
  rw [magnitude_natural (by decide) hk, hinfinity]
  show min _ (((k.log2 : Int) - (52 : Nat) - double.least).toNat * 2 ^ 52 + digits k) = _
  rw [hplace]
  omega

/-- Naturals below `2 ^ 24` are not rounded to 32 bits. -/
theorem magnitude_single (hk : k ≠ 0) (h : k < 2 ^ 24) :
    single.magnitude k 1 = (k.log2 + 126) * 2 ^ 23 + k * 2 ^ (23 - k.log2) := by
  have hlog : k.log2 < 24 := (Nat.log2_lt hk).mpr h
  have hplace : ((k.log2 : Int) - (23 : Nat) - single.least).toNat = k.log2 + 126 := by
    have hleast : single.least = -149 := by decide
    rw [hleast]
    omega
  have hzero : k.log2 - 23 = 0 := by omega
  have hdigits := (shifted_bounds hk 23).2
  have hinfinity : single.infinity = 255 * 2 ^ 23 := by decide
  rw [magnitude_natural (by decide) hk, hinfinity]
  show min _ (((k.log2 : Int) - (23 : Nat) - single.least).toNat * 2 ^ 23
    + roundDiv (k * 2 ^ (23 - k.log2)) (2 ^ (k.log2 - 23))) = _
  rw [hplace, hzero, Nat.pow_zero, roundDiv_one]
  rw [hzero, Nat.pow_zero, Nat.mul_one] at hdigits
  omega

end Natural

/-! ## The meaning of the word -/

/-- A word is told from its fields. -/
theorem decode_fields {f : Format} {negative : Bool} {field fraction : Nat} (hpos : 0 < field)
    (hfield : field + 1 < 2 ^ f.exponent) (hfraction : fraction < 2 ^ f.fraction) :
    f.decode (field * 2 ^ f.fraction + fraction + if negative then f.signBit else 0)
      = .finite negative (2 ^ f.fraction + fraction) (f.least + (field - 1 : Nat)) := by
  have hbit : f.signBit = 2 ^ f.exponent * 2 ^ f.fraction := by
    rw [Format.signBit, Nat.pow_add, Nat.mul_comm]
  -- the sign stands on top of the exponent field, and both on top of the fraction
  have hword : (field * 2 ^ f.fraction + fraction + if negative then f.signBit else 0)
      = (field + if negative then 2 ^ f.exponent else 0) * 2 ^ f.fraction + fraction := by
    rw [hbit]
    cases negative with
    | false => rfl
    | true =>
      rw [if_pos rfl, if_pos rfl, Nat.add_mul]
      omega
  obtain ⟨word, hdef⟩ :
      ∃ word, word = field * 2 ^ f.fraction + fraction + if negative then f.signBit else 0 :=
    ⟨_, rfl⟩
  have hrest : word % 2 ^ f.fraction = fraction := by
    rw [hdef, hword, Nat.mul_comm, Nat.mul_add_mod, Nat.mod_eq_of_lt hfraction]
  have htop : word / 2 ^ f.fraction = field + if negative then 2 ^ f.exponent else 0 := by
    rw [hdef, hword, Nat.mul_comm, Nat.mul_add_div (Nat.two_pow_pos _), Nat.div_eq_of_lt hfraction,
      Nat.add_zero]
  have hlt : field < 2 ^ f.exponent := Nat.lt_of_succ_lt hfield
  have hexponent : word / 2 ^ f.fraction % 2 ^ f.exponent = field := by
    rw [htop]
    cases negative with
    | false => exact Nat.mod_eq_of_lt hlt
    | true => rw [if_pos rfl, Nat.add_mod_right, Nat.mod_eq_of_lt hlt]
  have hsign : (word / f.signBit % 2 == 1) = negative := by
    rw [hbit, Nat.mul_comm, ← Nat.div_div_eq_div_mul, htop]
    cases negative with
    | false =>
      rw [if_neg Bool.false_ne_true, Nat.add_zero, Nat.div_eq_of_lt hlt]
      rfl
    | true =>
      rw [if_pos rfl, Nat.add_div_right _ (Nat.two_pow_pos _), Nat.div_eq_of_lt hlt]
      rfl
  rw [← hdef]
  simp only [Format.decode, hexponent, hrest, hsign]
  rw [if_neg (Nat.ne_of_lt hfield), if_neg (Nat.ne_of_gt hpos)]

/-- What a word with this field and this fraction stands for. -/
theorem decode_double {negative : Bool} {field fraction : Nat} (hpos : 0 < field)
    (hfield : field < 2047) (hfraction : fraction < 2 ^ 52) :
    double.decode (field * 2 ^ 52 + fraction + if negative then double.signBit else 0)
      = .finite negative (2 ^ 52 + fraction) ((field : Int) - 1075) := by
  have hplace : double.least + (field - 1 : Nat) = (field : Int) - 1075 := by
    have hleast : double.least = -1074 := by decide
    rw [hleast]
    omega
  rw [← hplace]
  exact decode_fields hpos (Nat.succ_lt_succ hfield) hfraction

section Integer

variable {v : Int}

/-- The word of an integer. -/
theorem toNat_bits_ofInt (hv : v ≠ 0) (h : v.natAbs < 2 ^ 64) :
    (Double.ofInt v).bits.toNat
      = (v.natAbs.log2 + 1022) * 2 ^ 52 + digits v.natAbs
        + if decide (v < 0) then double.signBit else 0 := by
  have hk : v.natAbs ≠ 0 := by omega
  have hlog : v.natAbs.log2 < 64 := (Nat.log2_lt hk).mpr h
  have hdigits := (digits_bounds hk).2
  have hbit : double.signBit = 2 ^ 63 := rfl
  have hword : double.word (.ofInt v) = double.magnitude v.natAbs 1
      + if decide (v < 0) then double.signBit else 0 := by
    show double.encode _ (v.natAbs * 2 ^ 0) (2 ^ 0) = _
    rw [Nat.pow_zero, Nat.mul_one, Format.encode]
  show (UInt64.ofNat (double.word (.ofInt v))).toNat = _
  rw [hword, magnitude_double hk h, UInt64.toNat_ofNat', hbit]
  split
  · omega
  · omega

/-- The meaning of the word of an integer: the integer itself if it is below `2 ^ 53`, and else
a number beyond it, of the same sign. -/
theorem exists_datum_ofInt (hv : v ≠ 0) (h : v.natAbs < 2 ^ 64) :
    ∃ mantissa exponent, (Double.ofInt v).datum = .finite (decide (v < 0)) mantissa exponent ∧
      (v.natAbs < 2 ^ 53 → wholePart mantissa exponent = v.natAbs) ∧
      (2 ^ 53 ≤ v.natAbs → 2 ^ 53 ≤ wholePart mantissa exponent) := by
  have hk : v.natAbs ≠ 0 := by omega
  have hlog : v.natAbs.log2 < 64 := (Nat.log2_lt hk).mpr h
  have hbits := toNat_bits_ofInt hv h
  obtain ⟨hlo, hhi⟩ := digits_bounds hk
  rw [Double.datum, hbits]
  rcases Nat.lt_or_eq_of_le hhi with hlt | heq
  · -- the digits fill the mantissa
    obtain ⟨fraction, hfraction⟩ := Nat.exists_eq_add_of_le hlo
    have hfields : (v.natAbs.log2 + 1022) * 2 ^ 52 + digits v.natAbs
        = (v.natAbs.log2 + 1023) * 2 ^ 52 + fraction := by omega
    have hplace : ((v.natAbs.log2 + 1023 : Nat) : Int) - 1075
        = (v.natAbs.log2 : Int) - (52 : Nat) := by omega
    rw [hfields, decode_double (by omega) (by omega) (by omega), hplace, ← hfraction]
    refine ⟨_, _, rfl, ?_, ?_⟩
    · intro hsmall
      have hlog : v.natAbs.log2 ≤ 52 := Nat.le_of_lt_succ ((Nat.log2_lt hk).mpr hsmall)
      rw [wholePart_sub, digits_of_lt hlog, Nat.sub_eq_zero_of_le hlog, Nat.pow_zero, Nat.mul_one,
        Nat.mul_div_cancel _ (Nat.two_pow_pos _)]
    · intro hlarge
      have hlog : 53 ≤ v.natAbs.log2 := (Nat.le_log2 hk).mpr hlarge
      have hpow : 2 ^ 1 ≤ 2 ^ (v.natAbs.log2 - 52) := Nat.pow_le_pow_right (by omega) (by omega)
      rw [wholePart_sub, Nat.sub_eq_zero_of_le (by omega : 52 ≤ v.natAbs.log2), Nat.pow_zero,
        Nat.div_one]
      exact Nat.mul_le_mul hlo hpow
  · -- the digits were rounded up to the next power of two
    have hlarge : 53 ≤ v.natAbs.log2 := by
      refine Nat.succ_le_of_lt (Nat.lt_of_not_ge fun hlog => ?_)
      exact absurd heq (Nat.ne_of_lt (digits_lt_of_lt hk hlog))
    have hfields : (v.natAbs.log2 + 1022) * 2 ^ 52 + digits v.natAbs
        = (v.natAbs.log2 + 1024) * 2 ^ 52 + 0 := by omega
    have hplace : ((v.natAbs.log2 + 1024 : Nat) : Int) - 1075
        = (v.natAbs.log2 : Int) - (51 : Nat) := by omega
    rw [hfields, decode_double (by omega) (by omega) (by omega), hplace]
    refine ⟨_, _, rfl, ?_, ?_⟩
    · intro hsmall
      have hlog := (Nat.log2_lt hk).mpr hsmall
      omega
    · intro _
      have hpow : 2 ^ 1 ≤ 2 ^ (v.natAbs.log2 - 51) := Nat.pow_le_pow_right (by omega) (by omega)
      rw [wholePart_sub, Nat.sub_eq_zero_of_le (by omega : 51 ≤ v.natAbs.log2), Nat.pow_zero,
        Nat.div_one]
      exact Nat.mul_le_mul (Nat.le_refl (2 ^ 52)) hpow

/-! ## There and back -/

/-- **Integers below `2 ^ 53` are not changed** by the word they are sent as. -/
theorem truncate_ofInt (h : v.natAbs < 2 ^ 53) : truncate (.ofInt v) = v := by
  by_cases hv : v = 0
  · rw [hv]
    decide +kernel
  · obtain ⟨mantissa, exponent, hdatum, hsmall, -⟩ := exists_datum_ofInt hv (by omega)
    simp only [truncate, hdatum, hsmall h]
    split
    · rename_i hneg
      have hneg := of_decide_eq_true hneg
      omega
    · rename_i hneg
      have hneg := of_decide_eq_false (Bool.eq_false_iff.mpr hneg)
      omega

/-- Integers from `2 ^ 53` on stay there. -/
theorem le_truncate_ofInt (hlo : 2 ^ 53 ≤ v) (hhi : v < 2 ^ 64) : 2 ^ 53 ≤ truncate (.ofInt v) := by
  obtain ⟨mantissa, exponent, hdatum, -, hlarge⟩ :=
    exists_datum_ofInt (v := v) (by omega) (by omega)
  have hwhole := hlarge (by omega)
  simp only [truncate, hdatum, if_neg (by simp; omega : ¬decide (v < 0) = true)]
  omega

/-- Negative integers stay negative. -/
theorem truncate_ofInt_neg (hlo : -2 ^ 63 ≤ v) (hhi : v < 0) : truncate (.ofInt v) < 0 := by
  obtain ⟨mantissa, exponent, hdatum, hsmall, hlarge⟩ :=
    exists_datum_ofInt (v := v) (by omega) (by omega)
  have hwhole : 0 < wholePart mantissa exponent := by
    rcases Nat.lt_or_ge v.natAbs (2 ^ 53) with h | h
    · rw [hsmall h]
      omega
    · exact Nat.lt_of_lt_of_le (Nat.two_pow_pos 53) (hlarge h)
  simp only [truncate, hdatum, if_pos (decide_eq_true hhi)]
  omega

/-- **An integer is below a bound that is no larger than `2 ^ 53` exactly if what is left of it
is**, and then nothing is lost. -/
theorem truncate_ofInt_bounds {n : Nat} (hn : n ≤ 2 ^ 53) (hlo : -2 ^ 63 ≤ v) (hhi : v < 2 ^ 64) :
    (0 ≤ truncate (.ofInt v) ∧ truncate (.ofInt v) < n) ↔ (0 ≤ v ∧ v < n) := by
  by_cases hneg : v < 0
  · have htruncate := truncate_ofInt_neg hlo hneg
    omega
  · by_cases hsmall : v < 2 ^ 53
    · rw [truncate_ofInt (by omega)]
    · have htruncate := le_truncate_ofInt (Int.not_lt.mp hsmall) hhi
      omega

end Integer

/-! ## Naturals in 32 bits -/

/-- The natural that a datum is, if it is one. -/
def Datum.natural? : Datum → Option Nat
  | .finite false mantissa exponent =>
    if 2 ^ (-exponent).toNat ∣ mantissa then some (wholePart mantissa exponent) else none
  | _ => none

theorem datum_ofNat {k : Nat} (hk : k ≠ 0) (h : k < 2 ^ 24) :
    (Single.ofNat k).datum = .finite false (k * 2 ^ (23 - k.log2)) ((k.log2 : Int) - (23 : Nat)) := by
  have hlog : k.log2 < 24 := (Nat.log2_lt hk).mpr h
  have hbounds := shifted_bounds hk 23
  rw [Nat.sub_eq_zero_of_le (by omega : k.log2 ≤ 23), Nat.pow_zero, Nat.mul_one] at hbounds
  obtain ⟨fraction, hfraction⟩ := Nat.exists_eq_add_of_le hbounds.1
  have hword : single.word (.ofInt k) = (k.log2 + 127) * 2 ^ 23 + fraction := by
    show single.magnitude (k * 2 ^ 0) (2 ^ 0) + (if decide ((k : Int) < 0) then _ else 0) = _
    rw [Nat.pow_zero, Nat.mul_one, magnitude_single hk h,
      if_neg (by rw [decide_eq_true_iff]; omega)]
    omega
  have hbits : (Single.ofNat k).bits.toNat
      = (k.log2 + 127) * 2 ^ 23 + fraction + if false then single.signBit else 0 := by
    show (UInt32.ofNat (single.word (.ofInt k))).toNat = _
    rw [hword, UInt32.toNat_ofNat', if_neg Bool.false_ne_true]
    omega
  have hfield : k.log2 + 127 + 1 < 2 ^ single.exponent := by
    show k.log2 + 127 + 1 < 2 ^ 8
    omega
  have hrest : fraction < 2 ^ single.fraction := by
    show fraction < 2 ^ 23
    omega
  have hplace : single.least + ((k.log2 + 127 - 1 : Nat) : Int) = (k.log2 : Int) - (23 : Nat) := by
    have hleast : single.least = -149 := by decide
    rw [hleast]
    omega
  rw [Single.datum, hbits, hfraction, ← hplace]
  exact decode_fields (by omega) hfield hrest

/-- **Naturals below `2 ^ 24` are the numbers** that their words stand for. -/
theorem natural?_ofNat {k : Nat} (h : k < 2 ^ 24) : (Single.ofNat k).datum.natural? = some k := by
  by_cases hk : k = 0
  · rw [hk]
    decide +kernel
  · have hlog : k.log2 ≤ 23 := Nat.le_of_lt_succ ((Nat.log2_lt hk).mpr h)
    have hexponent : (-((k.log2 : Int) - (23 : Nat))).toNat = 23 - k.log2 := by omega
    rw [datum_ofNat hk h]
    simp only [Datum.natural?, hexponent, wholePart_sub]
    rw [if_pos (Nat.dvd_mul_left _ _), Nat.sub_eq_zero_of_le hlog, Nat.pow_zero, Nat.mul_one,
      Nat.mul_div_cancel _ (Nat.two_pow_pos _)]

end Rollout.Numeric
