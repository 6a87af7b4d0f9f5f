/-
# Reading UTF-8 back

Every text is read back from its bytes, and bytes that are read as a text are the
bytes of that text: `decode_encode` and `encode_of_decode_eq_ok`.  Writing and
reading meet at `Sequence`, the well-formed sequences of one to four bytes with the
characters that they stand for.
-/
import Rollout.Text.Utf8

namespace Rollout.Text.Utf8

/-! ## Numbers of characters -/

theorem toNat_ofNat {n : Nat} (h : n.isValidChar) : (Char.ofNat n).toNat = n := by
  unfold Char.ofNat
  rw [dif_pos h]
  rfl

/-- The character that six-bit groups after a lead stand for. -/
theorem toNat_join {lead : Nat} {tails : Bytes}
    (h : (tails.foldl (fun acc b => acc * 64 + b.toNat % 64) lead).isValidChar) :
    (join lead tails).toNat = tails.foldl (fun acc b => acc * 64 + b.toNat % 64) lead :=
  toNat_ofNat h

/-! ## Bounds of bytes -/

variable {b0 b1 b2 b3 : UInt8}

/-- A range of bytes is a range of numbers. -/
theorem between_iff {lo hi b : UInt8} :
    lo ≤ b ∧ b < hi ↔ lo.toNat ≤ b.toNat ∧ b.toNat < hi.toNat := by
  rw [UInt8.le_iff_toNat_le, UInt8.lt_iff_toNat_lt]

theorem isTail_iff : isTail b1 = true ↔ 0x80 ≤ b1.toNat ∧ b1.toNat < 0xc0 := by
  rw [isTail, Bool.and_eq_true, decide_eq_true_iff, decide_eq_true_iff, between_iff]
  rfl

/-- The second byte of a sequence of three rules out overlong forms and surrogates. -/
theorem isThirdLead_iff : isThirdLead b0 b1 = true ↔ isTail b1 = true ∧
    (b0.toNat = 0xe0 → 0xa0 ≤ b1.toNat) ∧ (b0.toNat = 0xed → b1.toNat < 0xa0) := by
  simp only [isThirdLead, Bool.and_eq_true, Bool.or_eq_true, bne_iff_ne, ne_eq, decide_eq_true_iff,
    UInt8.le_iff_toNat_le, UInt8.lt_iff_toNat_lt, ← UInt8.toNat_inj, UInt8.reduceToNat,
    and_assoc, Decidable.imp_iff_not_or]

/-- The second byte of a sequence of four rules out overlong forms and numbers beyond the last
code point. -/
theorem isFourthLead_iff : isFourthLead b0 b1 = true ↔ isTail b1 = true ∧
    (b0.toNat = 0xf0 → 0x90 ≤ b1.toNat) ∧ (b0.toNat = 0xf4 → b1.toNat < 0x90) := by
  simp only [isFourthLead, Bool.and_eq_true, Bool.or_eq_true, bne_iff_ne, ne_eq, decide_eq_true_iff,
    UInt8.le_iff_toNat_le, UInt8.lt_iff_toNat_lt, ← UInt8.toNat_inj, UInt8.reduceToNat,
    and_assoc, Decidable.imp_iff_not_or]

/-- A byte is known by its number. -/
theorem ofNat_eq_of_toNat_eq {n : Nat} {b : UInt8} (h : n = b.toNat) : UInt8.ofNat n = b := by
  rw [h, UInt8.ofNat_toNat]

/-! ## Sequences -/

/-- A well-formed sequence of bytes and the character that it stands for. -/
inductive Sequence : Bytes → Char → Prop
  | one {b0 : UInt8} (h0 : b0 < 0x80) : Sequence [b0] (Char.ofNat b0.toNat)
  | two {b0 b1 : UInt8} (h0 : 0xc2 ≤ b0 ∧ b0 < 0xe0) (h1 : isTail b1 = true) :
    Sequence [b0, b1] (join (b0.toNat % 32) [b1])
  | three {b0 b1 b2 : UInt8} (h0 : 0xe0 ≤ b0 ∧ b0 < 0xf0) (h1 : isThirdLead b0 b1 = true)
    (h2 : isTail b2 = true) : Sequence [b0, b1, b2] (join (b0.toNat % 16) [b1, b2])
  | four {b0 b1 b2 b3 : UInt8} (h0 : 0xf0 ≤ b0 ∧ b0 < 0xf5) (h1 : isFourthLead b0 b1 = true)
    (h2 : isTail b2 = true) (h3 : isTail b3 = true) :
    Sequence [b0, b1, b2, b3] (join (b0.toNat % 8) [b1, b2, b3])

/-! ### Writing a sequence -/

/-- A character of one byte is written as it was read. -/
theorem encodeChar_one (h : b0 < 0x80) : encodeChar (Char.ofNat b0.toNat) = [b0] := by
  have h : b0.toNat < 0x80 := UInt8.lt_iff_toNat_lt.mp h
  have hv : (Char.ofNat b0.toNat).toNat = b0.toNat := toNat_ofNat (Or.inl (by omega))
  simp only [encodeChar, hv]
  rw [if_pos h, UInt8.ofNat_toNat]

/-- A character of two bytes is written as it was read. -/
theorem encodeChar_two (h0 : 0xc2 ≤ b0 ∧ b0 < 0xe0) (h1 : isTail b1 = true) :
    encodeChar (join (b0.toNat % 32) [b1]) = [b0, b1] := by
  have h0 : 0xc2 ≤ b0.toNat ∧ b0.toNat < 0xe0 := between_iff.mp h0
  rw [isTail_iff] at h1
  have hv : (join (b0.toNat % 32) [b1]).toNat = (b0.toNat - 0xc0) * 64 + (b1.toNat - 0x80) := by
    rw [toNat_join]
    · simp only [List.foldl_cons, List.foldl_nil]
      omega
    · simp only [List.foldl_cons, List.foldl_nil]
      left
      omega
  simp only [encodeChar, hv]
  rw [if_neg (by omega), if_pos (by omega)]
  simp only [List.cons.injEq, and_true]
  exact ⟨ofNat_eq_of_toNat_eq (by omega), ofNat_eq_of_toNat_eq (by omega)⟩

/-- A character of three bytes is written as it was read. -/
theorem encodeChar_three (h0 : 0xe0 ≤ b0 ∧ b0 < 0xf0) (h1 : isThirdLead b0 b1 = true)
    (h2 : isTail b2 = true) : encodeChar (join (b0.toNat % 16) [b1, b2]) = [b0, b1, b2] := by
  have h0 : 0xe0 ≤ b0.toNat ∧ b0.toNat < 0xf0 := between_iff.mp h0
  rw [isThirdLead_iff, isTail_iff] at h1
  rw [isTail_iff] at h2
  have hv : (join (b0.toNat % 16) [b1, b2]).toNat
      = (b0.toNat - 0xe0) * 4096 + (b1.toNat - 0x80) * 64 + (b2.toNat - 0x80) := by
    rw [toNat_join]
    · simp only [List.foldl_cons, List.foldl_nil]
      omega
    · simp only [List.foldl_cons, List.foldl_nil, Nat.isValidChar]
      omega
  simp only [encodeChar, hv]
  rw [if_neg (by omega), if_neg (by omega), if_pos (by omega)]
  simp only [List.cons.injEq, and_true]
  exact ⟨ofNat_eq_of_toNat_eq (by omega), ofNat_eq_of_toNat_eq (by omega),
    ofNat_eq_of_toNat_eq (by omega)⟩

/-- A character of four bytes is written as it was read. -/
theorem encodeChar_four (h0 : 0xf0 ≤ b0 ∧ b0 < 0xf5) (h1 : isFourthLead b0 b1 = true)
    (h2 : isTail b2 = true) (h3 : isTail b3 = true) :
    encodeChar (join (b0.toNat % 8) [b1, b2, b3]) = [b0, b1, b2, b3] := by
  have h0 : 0xf0 ≤ b0.toNat ∧ b0.toNat < 0xf5 := between_iff.mp h0
  rw [isFourthLead_iff, isTail_iff] at h1
  rw [isTail_iff] at h2 h3
  have hv : (join (b0.toNat % 8) [b1, b2, b3]).toNat
      = (b0.toNat - 0xf0) * 262144 + (b1.toNat - 0x80) * 4096 + (b2.toNat - 0x80) * 64
        + (b3.toNat - 0x80) := by
    rw [toNat_join]
    · simp only [List.foldl_cons, List.foldl_nil]
      omega
    · simp only [List.foldl_cons, List.foldl_nil, Nat.isValidChar]
      omega
  simp only [encodeChar, hv]
  rw [if_neg (by omega), if_neg (by omega), if_neg (by omega)]
  simp only [List.cons.injEq, and_true]
  exact ⟨ofNat_eq_of_toNat_eq (by omega), ofNat_eq_of_toNat_eq (by omega),
    ofNat_eq_of_toNat_eq (by omega), ofNat_eq_of_toNat_eq (by omega)⟩

/-- The character of a sequence is written as that sequence. -/
theorem Sequence.encodeChar_eq {bytes : Bytes} {c : Char} (h : Sequence bytes c) :
    encodeChar c = bytes := by
  cases h with
  | one h0 => exact encodeChar_one h0
  | two h0 h1 => exact encodeChar_two h0 h1
  | three h0 h1 h2 => exact encodeChar_three h0 h1 h2
  | four h0 h1 h2 h3 => exact encodeChar_four h0 h1 h2 h3

/-- A tail holds the six bits that it was made of. -/
@[simp] theorem toNat_tail (n : Nat) : (UInt8.ofNat (0x80 + n % 64)).toNat = 0x80 + n % 64 := by
  rw [UInt8.toNat_ofNat']
  omega

/-- The lower bits of a character are written as bytes that continue it. -/
@[simp] theorem isTail_tail (n : Nat) : isTail (UInt8.ofNat (0x80 + n % 64)) = true := by
  rw [isTail_iff, toNat_tail]
  omega

/-- A lead holds the bits that it was made of. -/
theorem toNat_lead {n : Nat} (h : n < 256) : (UInt8.ofNat n).toNat = n := by
  rw [UInt8.toNat_ofNat']
  omega

theorem Sequence.congr {bytes : Bytes} {c c' : Char} (h : Sequence bytes c) (hc : c = c') :
    Sequence bytes c' := hc ▸ h

/-- Six-bit groups after a lead stand for the character whose number they make up. -/
theorem join_eq {c : Char} {lead : Nat} {tails : Bytes}
    (h : tails.foldl (fun acc b => acc * 64 + b.toNat % 64) lead = c.toNat) :
    join lead tails = c := by
  rw [join, h, Char.ofNat_toNat]

section

variable {c : Char}

theorem sequence_one (hi : c.toNat < 0x80) : Sequence [UInt8.ofNat c.toNat] c := by
  have hlead : UInt8.ofNat c.toNat < 0x80 := by
    rw [UInt8.lt_iff_toNat_lt, toNat_lead (by omega)]
    exact hi
  refine (Sequence.one hlead).congr ?_
  rw [toNat_lead (by omega), Char.ofNat_toNat]

theorem sequence_two (lo : 0x80 ≤ c.toNat) (hi : c.toNat < 0x800) :
    Sequence [UInt8.ofNat (0xc0 + c.toNat / 64), UInt8.ofNat (0x80 + c.toNat / 2 ^ 0 % 64)] c := by
  have hlead : 0xc2 ≤ UInt8.ofNat (0xc0 + c.toNat / 64) ∧
      UInt8.ofNat (0xc0 + c.toNat / 64) < 0xe0 := by
    rw [between_iff, toNat_lead (by omega)]
    exact ⟨show 0xc2 ≤ _ by omega, show _ < 0xe0 by omega⟩
  refine (Sequence.two hlead (isTail_tail _)).congr (join_eq ?_)
  rw [List.foldl_cons, List.foldl_nil, toNat_tail, toNat_lead (by omega)]
  omega

/-- A character of three bytes is no surrogate. -/
theorem sequence_three (lo : 0x800 ≤ c.toNat) (hi : c.toNat < 0x10000)
    (hc : c.toNat < 0xd800 ∨ 0xdfff < c.toNat) :
    Sequence [UInt8.ofNat (0xe0 + c.toNat / 4096), UInt8.ofNat (0x80 + c.toNat / 2 ^ 6 % 64),
      UInt8.ofNat (0x80 + c.toNat / 2 ^ 0 % 64)] c := by
  have hlead : 0xe0 ≤ UInt8.ofNat (0xe0 + c.toNat / 4096) ∧
      UInt8.ofNat (0xe0 + c.toNat / 4096) < 0xf0 := by
    rw [between_iff, toNat_lead (by omega)]
    exact ⟨show 0xe0 ≤ _ by omega, show _ < 0xf0 by omega⟩
  have hsecond : isThirdLead (UInt8.ofNat (0xe0 + c.toNat / 4096))
      (UInt8.ofNat (0x80 + c.toNat / 2 ^ 6 % 64)) = true := by
    rw [isThirdLead_iff, toNat_lead (by omega), toNat_tail]
    exact ⟨isTail_tail _, by omega, by omega⟩
  refine (Sequence.three hlead hsecond (isTail_tail _)).congr (join_eq ?_)
  rw [List.foldl_cons, List.foldl_cons, List.foldl_nil, toNat_tail, toNat_tail,
    toNat_lead (by omega)]
  omega

theorem sequence_four (lo : 0x10000 ≤ c.toNat) (hi : c.toNat < 0x110000) :
    Sequence [UInt8.ofNat (0xf0 + c.toNat / 262144), UInt8.ofNat (0x80 + c.toNat / 2 ^ 12 % 64),
      UInt8.ofNat (0x80 + c.toNat / 2 ^ 6 % 64), UInt8.ofNat (0x80 + c.toNat / 2 ^ 0 % 64)] c := by
  have hlead : 0xf0 ≤ UInt8.ofNat (0xf0 + c.toNat / 262144) ∧
      UInt8.ofNat (0xf0 + c.toNat / 262144) < 0xf5 := by
    rw [between_iff, toNat_lead (by omega)]
    exact ⟨show 0xf0 ≤ _ by omega, show _ < 0xf5 by omega⟩
  have hsecond : isFourthLead (UInt8.ofNat (0xf0 + c.toNat / 262144))
      (UInt8.ofNat (0x80 + c.toNat / 2 ^ 12 % 64)) = true := by
    rw [isFourthLead_iff, toNat_lead (by omega), toNat_tail]
    exact ⟨isTail_tail _, by omega, by omega⟩
  refine (Sequence.four hlead hsecond (isTail_tail _) (isTail_tail _)).congr (join_eq ?_)
  rw [List.foldl_cons, List.foldl_cons, List.foldl_cons, List.foldl_nil, toNat_tail, toNat_tail,
    toNat_tail, toNat_lead (by omega)]
  omega

end

/-- Every character is written as one of its sequences. -/
theorem sequence_encodeChar (c : Char) : Sequence (encodeChar c) c := by
  have hc : c.toNat < 0xd800 ∨ (0xdfff < c.toNat ∧ c.toNat < 0x110000) := c.valid
  simp only [encodeChar]
  split
  · exact sequence_one ‹_›
  split
  · exact sequence_two (by omega) ‹_›
  split
  · exact sequence_three (by omega) ‹_› (by omega)
  · exact sequence_four (by omega) (by omega)

/-! ### Reading a sequence -/

/-- Leads of one range are none of a lower one. -/
theorem not_lt_of_le {lo hi b : UInt8} (h : hi ≤ b) (hlo : lo ≤ hi) : ¬ b < lo :=
  UInt8.not_lt.mpr (UInt8.le_trans hlo h)

/-- A sequence at the front is read as its character. -/
theorem Sequence.decodeFrom_append {bytes : Bytes} {c : Char} (h : Sequence bytes c)
    (position : Nat) (rest : Bytes) : decodeFrom position (bytes ++ rest)
      = (decodeFrom (position + bytes.length) rest).map (c :: ·) := by
  cases h with
  | @one b0 h0 =>
    show decodeFrom position (b0 :: rest) = _
    rw [decodeFrom.eq_def]
    exact if_pos h0
  | @two b0 b1 h0 h1 =>
    have hn : ¬ b0 < 0x80 := not_lt_of_le h0.1 (by decide)
    show decodeFrom position (b0 :: b1 :: rest) = _
    simp only [decodeFrom, if_neg hn, if_pos h0, h1]
    rfl
  | @three b0 b1 b2 h0 h1 h2 =>
    have hn : ¬ b0 < 0x80 := not_lt_of_le h0.1 (by decide)
    have hn2 : ¬ (0xc2 ≤ b0 ∧ b0 < 0xe0) := fun h => not_lt_of_le h0.1 (by decide) h.2
    show decodeFrom position (b0 :: b1 :: b2 :: rest) = _
    simp only [decodeFrom, if_neg hn, if_neg hn2, if_pos h0, h1, h2]
    rfl
  | @four b0 b1 b2 b3 h0 h1 h2 h3 =>
    have hn : ¬ b0 < 0x80 := not_lt_of_le h0.1 (by decide)
    have hn2 : ¬ (0xc2 ≤ b0 ∧ b0 < 0xe0) := fun h => not_lt_of_le h0.1 (by decide) h.2
    have hn3 : ¬ (0xe0 ≤ b0 ∧ b0 < 0xf0) := fun h => not_lt_of_le h0.1 (by decide) h.2
    show decodeFrom position (b0 :: b1 :: b2 :: b3 :: rest) = _
    simp only [decodeFrom, if_neg hn, if_neg hn2, if_neg hn3, if_pos h0, h1, h2, h3]
    rfl

/-- A first character was read in front of the others. -/
theorem exists_of_map_cons_eq_ok {x : Except Fault (List Char)} {c : Char} {cs : List Char}
    (h : x.map (c :: ·) = .ok cs) : ∃ cs', x = .ok cs' ∧ cs = c :: cs' := by
  rcases x with e | cs'
  · cases h
  · cases h
    exact ⟨cs', rfl, rfl⟩

/-- What is read as a text is empty or begins with a sequence. -/
theorem cases_of_decodeFrom_eq_ok {position : Nat} {bytes : Bytes} {cs : List Char}
    (h : decodeFrom position bytes = .ok cs) : (bytes = [] ∧ cs = []) ∨
      ∃ front rest c cs', bytes = front ++ rest ∧ Sequence front c ∧
        decodeFrom (position + front.length) rest = .ok cs' ∧ cs = c :: cs' := by
  unfold decodeFrom at h
  split at h
  · cases h
    exact Or.inl ⟨rfl, rfl⟩
  · rename_i b0 rest
    right
    split at h
    · rename_i h0
      exact ⟨[b0], rest, _, _, rfl, .one h0, (exists_of_map_cons_eq_ok h).choose_spec⟩
    split at h
    · rename_i h0
      split at h
      · cases h
      · rename_i b1 rest
        split at h
        · cases h
        · rename_i h1
          rw [Bool.not_eq_true', Bool.not_eq_false] at h1
          exact ⟨[b0, b1], rest, _, _, rfl, .two h0 h1, (exists_of_map_cons_eq_ok h).choose_spec⟩
    split at h
    · rename_i h0
      split at h
      · cases h
      · split at h <;> cases h
      · rename_i b1 b2 rest
        split at h
        · cases h
        split at h
        · cases h
        · rename_i h1 h2
          rw [Bool.not_eq_true', Bool.not_eq_false] at h1 h2
          exact ⟨[b0, b1, b2], rest, _, _, rfl, .three h0 h1 h2,
            (exists_of_map_cons_eq_ok h).choose_spec⟩
    split at h
    · rename_i h0
      split at h
      · cases h
      · split at h <;> cases h
      · split at h
        · cases h
        · split at h <;> cases h
      · rename_i b1 b2 b3 rest
        split at h
        · cases h
        split at h
        · cases h
        split at h
        · cases h
        · rename_i h1 h2 h3
          rw [Bool.not_eq_true', Bool.not_eq_false] at h1 h2 h3
          exact ⟨[b0, b1, b2, b3], rest, _, _, rfl, .four h0 h1 h2 h3,
            (exists_of_map_cons_eq_ok h).choose_spec⟩
    · cases h

/-! ## Texts -/

/-- Characters are read back from their sequences. -/
theorem decodeFrom_flatMap (cs : List Char) (position : Nat) :
    decodeFrom position (cs.flatMap encodeChar) = .ok cs := by
  induction cs generalizing position with
  | nil => rfl
  | cons c cs ih =>
    rw [List.flatMap_cons, (sequence_encodeChar c).decodeFrom_append, ih]
    rfl

/-- Characters that are read were written as the bytes. -/
theorem flatMap_of_decodeFrom_eq_ok {position : Nat} {bytes : Bytes} {cs : List Char}
    (h : decodeFrom position bytes = .ok cs) : cs.flatMap encodeChar = bytes := by
  induction cs generalizing position bytes with
  | nil =>
    rcases cases_of_decodeFrom_eq_ok h with ⟨rfl, -⟩ | ⟨_, _, _, _, -, -, -, hcs⟩
    · rfl
    · cases hcs
  | cons c cs ih =>
    rcases cases_of_decodeFrom_eq_ok h with ⟨-, hcs⟩ | ⟨front, rest, _, _, rfl, hseq, hrest, hcs⟩
    · cases hcs
    · cases hcs
      rw [List.flatMap_cons, hseq.encodeChar_eq, ih hrest]

/-- **Every text is read back.** -/
@[simp] theorem decode_encode (s : String) : decode (encode s) = .ok s := by
  rw [decode, encode, decodeFrom_flatMap]
  show Except.ok (String.ofList s.toList) = _
  rw [String.ofList_toList]

/-- **Only the bytes of a text are read as it.** -/
theorem encode_of_decode_eq_ok {bytes : Bytes} {s : String} (h : decode bytes = .ok s) :
    encode s = bytes := by
  rw [decode] at h
  rcases hd : decodeFrom 0 bytes with fault | cs
  · rw [hd] at h
    cases h
  · rw [hd] at h
    cases h
    rw [encode, String.toList_ofList, flatMap_of_decodeFrom_eq_ok hd]

end Rollout.Text.Utf8
