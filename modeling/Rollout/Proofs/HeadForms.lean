/-
# Forms of heads

A head may be written in several ways: a small number and a short length fit into
the marker, all others have an operand of one to eight bytes.  `Head.Form` lists the
forms.  Every form is read as its head, whatever comes after it, and the writer uses
the shortest of them.
-/
import Rollout.MsgPack.Reader
import Rollout.Proofs.Utf8RoundTrip

namespace Rollout.MsgPack

open Text.Utf8 (encode)
open Value (sized)

/-! ## Forms -/

/-- The bytes that a head may be written as.  In the forms with an operand, `2 ^ k` is its number
of bytes. -/
inductive Head.Form : Head → Bytes → Prop
  | nil : Form .nil [0xc0]
  | bool (b : Bool) : Form (.bool b) [if b then 0xc3 else 0xc2]
  | positive {n : Nat} (h : n < 2 ^ 7) : Form (.uint n) [UInt8.ofNat n]
  | negative {v : Int} (lo : -2 ^ 5 ≤ v) (hi : v < 0) :
    Form (.int v) [UInt8.ofNat (Value.complement 1 v)]
  | uint {k n : Nat} (hk : k < 4) (h : n < 256 ^ 2 ^ k) :
    Form (.uint n) (sized (UInt8.ofNat (0xcc + k)) (2 ^ k) n)
  | int {k n : Nat} (hk : k < 4) (h : n < 256 ^ 2 ^ k) :
    Form (.int (signedOf (2 ^ k) n)) (sized (UInt8.ofNat (0xd0 + k)) (2 ^ k) n)
  | single (x : Numeric.Single) : Form (.single x) (sized 0xca 4 x.bits.toNat)
  | double (x : Numeric.Double) : Form (.double x) (sized 0xcb 8 x.bits.toNat)
  | shortText {s : String} (h : (encode s).length < 2 ^ 5) :
    Form (.text s) (UInt8.ofNat (0xa0 + (encode s).length) :: encode s)
  | text {k : Nat} {s : String} (hk : k < 3) (h : (encode s).length < 256 ^ 2 ^ k) :
    Form (.text s) (sized (UInt8.ofNat (0xd9 + k)) (2 ^ k) (encode s).length ++ encode s)
  | badShortText {bytes : Bytes} {fault : Text.Utf8.Fault} (h : bytes.length < 2 ^ 5)
    (bad : Text.Utf8.decode bytes = .error fault) :
    Form (.badText bytes fault) (UInt8.ofNat (0xa0 + bytes.length) :: bytes)
  | badText {k : Nat} {bytes : Bytes} {fault : Text.Utf8.Fault} (hk : k < 3)
    (h : bytes.length < 256 ^ 2 ^ k) (bad : Text.Utf8.decode bytes = .error fault) :
    Form (.badText bytes fault)
      (sized (UInt8.ofNat (0xd9 + k)) (2 ^ k) bytes.length ++ bytes)
  | binary {k : Nat} {bytes : Bytes} (hk : k < 3) (h : bytes.length < 256 ^ 2 ^ k) :
    Form (.binary bytes) (sized (UInt8.ofNat (0xc4 + k)) (2 ^ k) bytes.length ++ bytes)
  | shortArray {n : Nat} (h : n < 2 ^ 4) : Form (.array n) [UInt8.ofNat (0x90 + n)]
  | array {k n : Nat} (hk : k < 2) (h : n < 256 ^ 2 ^ (k + 1)) :
    Form (.array n) (sized (UInt8.ofNat (0xdc + k)) (2 ^ (k + 1)) n)
  | shortMap {n : Nat} (h : n < 2 ^ 4) : Form (.map n) [UInt8.ofNat (0x80 + n)]
  | map {k n : Nat} (hk : k < 2) (h : n < 256 ^ 2 ^ (k + 1)) :
    Form (.map n) (sized (UInt8.ofNat (0xde + k)) (2 ^ (k + 1)) n)
  | fixedExtension {k : Nat} (hk : k < 5) : Form (.extension (2 ^ k)) [UInt8.ofNat (0xd4 + k)]
  | extension {k n : Nat} (hk : k < 3) (h : n < 256 ^ 2 ^ k) :
    Form (.extension n) (sized (UInt8.ofNat (0xc7 + k)) (2 ^ k) n)

/-- Whether the head is a number, a truth value or nil. -/
def Head.isPlain : Head → Bool
  | .nil | .bool _ | .uint _ | .int _ | .single _ | .double _ => true
  | _ => false

/-! ## Operands -/

/-- A number is read from its bytes. -/
theorem readNumber_append {width n : Nat} (h : n < 256 ^ width) (rest : Bytes) :
    readNumber width (bytesOf width n ++ rest) = .ok (n, rest) := by
  have ht := takeBytes_append (bytesOf width n) rest
  rw [length_bytesOf] at ht
  rw [readNumber, ht]
  exact congrArg (fun n => Except.ok (n, rest)) (numberOf_bytesOf h)

/-- A payload is read up to its length. -/
@[simp] theorem readPayload_append (front rest : Bytes) :
    readPayload front.length (front ++ rest) = .ok (front, rest) := by
  rw [readPayload, takeBytes_append]

/-- What a reader finds is found with the function applied. -/
theorem Reader.map_of_eq_ok {α β : Type} {read : Reader α} {bytes rest : Bytes} {a : α}
    (h : read bytes = .ok (a, rest)) (f : α → β) : read.map f bytes = .ok (f a, rest) := by
  rw [Reader.map, h]

/-- A payload is read after its length. -/
theorem readLong_append {width : Nat} {bytes : Bytes} (h : bytes.length < 256 ^ width)
    (head : Bytes → Head) (rest : Bytes) :
    readLong width head (bytesOf width bytes.length ++ (bytes ++ rest))
      = .ok (head bytes, rest) := by
  rw [readLong, readNumber_append h]
  exact Reader.map_of_eq_ok (readPayload_append bytes rest) head

/-- The bytes of a text are a text. -/
theorem textHead_encode (s : String) : textHead (encode s) = .text s := by
  rw [textHead, Text.Utf8.decode_encode]

/-- Bytes that are not UTF-8 are no text. -/
theorem textHead_of_bad {bytes : Bytes} {fault : Text.Utf8.Fault}
    (h : Text.Utf8.decode bytes = .error fault) : textHead bytes = .badText bytes fault := by
  rw [textHead, h]

/-! ## Kinds of markers -/

/-- The kinds of markers.  The markers of one kind are bytes in a row. -/
inductive Marker.Kind where
  | positive | shortMap | shortArray | shortText
  | nil | reserved | bool
  | binary | extension | single | double | uint | int | fixedExtension | text | array | map
  | negative

namespace Marker.Kind

/-- The first byte of a kind. -/
def first : Kind → Nat
  | positive => 0x00
  | shortMap => 0x80
  | shortArray => 0x90
  | shortText => 0xa0
  | nil => 0xc0
  | reserved => 0xc1
  | bool => 0xc2
  | binary => 0xc4
  | extension => 0xc7
  | single => 0xca
  | double => 0xcb
  | uint => 0xcc
  | int => 0xd0
  | fixedExtension => 0xd4
  | text => 0xd9
  | array => 0xdc
  | map => 0xde
  | negative => 0xe0

/-- The number of bytes of a kind. -/
def count : Kind → Nat
  | positive => 2 ^ 7
  | shortText | negative => 2 ^ 5
  | shortMap | shortArray => 2 ^ 4
  | fixedExtension => 5
  | uint | int => 4
  | binary | extension | text => 3
  | bool | array | map => 2
  | nil | reserved | single | double => 1

/-- The marker in this place among those of the kind. -/
def marker : Kind → Nat → Marker
  | positive, k => .positive k
  | shortMap, k => .shortMap k
  | shortArray, k => .shortArray k
  | shortText, k => .shortText k
  | nil, _ => .nil
  | reserved, _ => .reserved
  | bool, k => .bool (k == 1)
  | binary, k => .binary (2 ^ k)
  | extension, k => .extension (2 ^ k)
  | single, _ => .single
  | double, _ => .double
  | uint, k => .uint (2 ^ k)
  | int, k => .int (2 ^ k)
  | fixedExtension, k => .fixedExtension (2 ^ k)
  | text, k => .text (2 ^ k)
  | array, k => .array (2 ^ (k + 1))
  | map, k => .map (2 ^ (k + 1))
  | negative, k => .negative ((k : Int) - 2 ^ 5)

/-- The byte in this place among those of the kind. -/
def byte (kind : Kind) (k : Nat) : UInt8 := UInt8.ofNat (kind.first + k)

/-- All kinds, in the order of their bytes. -/
def all : List Kind :=
  [positive, shortMap, shortArray, shortText, nil, reserved, bool, binary, extension, single, double,
    uint, int, fixedExtension, text, array, map, negative]

/-- **The table of markers**: the byte of a place is read as the marker of the place. -/
theorem ofByte_byte (kind : Kind) {k : Nat} (h : k < kind.count) :
    ofByte (kind.byte k) = kind.marker k := by
  revert k
  cases kind
  all_goals decide +kernel

/-- The table has a place for every byte. -/
theorem exists_byte_eq (b : UInt8) : ∃ (kind : Kind) (k : Nat), k < kind.count ∧ kind.byte k = b := by
  have hall : ∀ n < 256, ∃ kind ∈ all, kind.first ≤ n ∧ n < kind.first + kind.count := by
    decide +kernel
  obtain ⟨kind, -, hle, hlt⟩ := hall b.toNat b.toNat_lt
  refine ⟨kind, b.toNat - kind.first, by omega, ?_⟩
  rw [byte, Nat.add_sub_cancel' hle, UInt8.ofNat_toNat]

/-- A small number is its own marker. -/
theorem byte_positive (n : Nat) : positive.byte n = UInt8.ofNat n := congrArg _ (Nat.zero_add n)

/-- A small negative number is its own marker, in two's complement. -/
theorem byte_negative (k : Nat) :
    negative.byte k = UInt8.ofNat (Value.complement 1 ((k : Int) - 2 ^ 5)) := by
  have hk : Value.complement 1 ((k : Int) - 2 ^ 5) = negative.first + k := by
    rw [Value.complement, first]
    omega
  rw [hk, byte]

end Marker.Kind

open Marker (Kind)

/-! ## Reading a form -/

/-- The byte of a place with a payload that is read as the head. -/
theorem exists_marker (kind : Kind) {k : Nat} (hk : k < kind.count) {payload rest : Bytes} {h : Head}
    (hr : readHeadOf (kind.marker k) (payload ++ rest) = .ok (h, rest))
    (hplain : (kind.marker k).isPlain = h.isPlain) :
    ∃ b payload', kind.byte k :: payload = b :: payload' ∧
      readHeadOf (.ofByte b) (payload' ++ rest) = .ok (h, rest) ∧
      (Marker.ofByte b).isPlain = h.isPlain := by
  rw [← kind.ofByte_byte hk] at hr hplain
  exact ⟨kind.byte k, payload, rfl, hr, hplain⟩

/-- A form is a marker, whose payload is read as the head. -/
theorem Head.Form.read {h : Head} {front : Bytes} (hf : h.Form front) (rest : Bytes) :
    ∃ b payload, front = b :: payload ∧
      readHeadOf (.ofByte b) (payload ++ rest) = .ok (h, rest) ∧
      (Marker.ofByte b).isPlain = h.isPlain := by
  cases hf with
  | nil => exact exists_marker .nil (k := 0) (by decide) rfl rfl
  | bool b =>
    cases b with
    | false => exact exists_marker .bool (k := 0) (by decide) rfl rfl
    | true => exact exists_marker .bool (k := 1) (by decide) rfl rfl
  | @positive n h =>
    rw [← Kind.byte_positive]
    exact exists_marker .positive h rfl rfl
  | @negative v lo hi =>
    obtain ⟨k, rfl⟩ : ∃ k : Nat, v = (k : Int) - 2 ^ 5 := ⟨(v + 2 ^ 5).toNat, by omega⟩
    rw [← Kind.byte_negative]
    exact exists_marker .negative (show k < 2 ^ 5 by omega) rfl rfl
  | uint hk h =>
    exact exists_marker .uint hk (Reader.map_of_eq_ok (readNumber_append h rest) _) rfl
  | int hk h =>
    exact exists_marker .int hk (Reader.map_of_eq_ok (readNumber_append h rest) _) rfl
  | single x =>
    have hlt : x.bits.toNat < 256 ^ 4 := x.bits.toNat_lt
    have hx := Reader.map_of_eq_ok (readNumber_append hlt rest)
      fun n => Head.single ⟨UInt32.ofNat n⟩
    rw [UInt32.ofNat_toNat] at hx
    exact exists_marker .single (k := 0) (by decide) hx rfl
  | double x =>
    have hlt : x.bits.toNat < 256 ^ 8 := x.bits.toNat_lt
    have hx := Reader.map_of_eq_ok (readNumber_append hlt rest)
      fun n => Head.double ⟨UInt64.ofNat n⟩
    rw [UInt64.ofNat_toNat] at hx
    exact exists_marker .double (k := 0) (by decide) hx rfl
  | @shortText s h =>
    have hs := Reader.map_of_eq_ok (readPayload_append (encode s) rest) textHead
    rw [textHead_encode] at hs
    exact exists_marker .shortText h hs rfl
  | @text k s hk h =>
    have hs := readLong_append h textHead rest
    rw [textHead_encode, ← List.append_assoc] at hs
    exact exists_marker .text hk hs rfl
  | @badShortText bytes fault h bad =>
    have hs := Reader.map_of_eq_ok (readPayload_append bytes rest) textHead
    rw [textHead_of_bad bad] at hs
    exact exists_marker .shortText h hs rfl
  | @badText k bytes fault hk h bad =>
    have hs := readLong_append h textHead rest
    rw [textHead_of_bad bad, ← List.append_assoc] at hs
    exact exists_marker .text hk hs rfl
  | binary hk h =>
    have hb := readLong_append h Head.binary rest
    rw [← List.append_assoc] at hb
    exact exists_marker .binary hk hb rfl
  | shortArray h => exact exists_marker .shortArray h rfl rfl
  | array hk h =>
    exact exists_marker .array hk (Reader.map_of_eq_ok (readNumber_append h rest) _) rfl
  | shortMap h => exact exists_marker .shortMap h rfl rfl
  | map hk h =>
    exact exists_marker .map hk (Reader.map_of_eq_ok (readNumber_append h rest) _) rfl
  | fixedExtension hk => exact exists_marker .fixedExtension hk rfl rfl
  | extension hk h =>
    exact exists_marker .extension hk
      (Reader.map_of_eq_ok (readNumber_append h rest) _) rfl

/-- What is read from a form depends only on its head and on whether a collection may still be
entered. -/
theorem Head.Form.readHead_eq {h : Head} {front : Bytes} (hf : h.Form front) (levels : Nat)
    (rest : Bytes) : MsgPack.readHead levels (front ++ rest)
      = if h.nests && levels == 0 then .error .tooDeep else .ok (h, rest) := by
  obtain ⟨b, payload, rfl, hr, -⟩ := hf.read rest
  show MsgPack.readHead levels (b :: (payload ++ rest)) = _
  simp only [MsgPack.readHead, readMarker, hr]

/-- **Every form is read as its head**, if a collection may still be entered. -/
theorem Head.Form.readHead {h : Head} {front : Bytes} (hf : h.Form front) {levels : Nat}
    (hl : h.nests = true → levels ≠ 0) (rest : Bytes) :
    readHead levels (front ++ rest) = .ok (h, rest) := by
  have hdeep : (h.nests && levels == 0) = false := by
    rw [Bool.and_eq_false_imp]
    intro hn
    exact beq_false_of_ne (hl hn)
  rw [hf.readHead_eq, hdeep]
  rfl

/-- A form is read as no other head. -/
theorem Head.Form.eq_of_readHead {h h' : Head} {front : Bytes} (hf : h.Form front) {levels : Nat}
    {rest mid : Bytes} (hr : MsgPack.readHead levels (front ++ rest) = .ok (h', mid)) :
    h' = h ∧ mid = rest := by
  rw [hf.readHead_eq] at hr
  split at hr
  · cases hr
  · cases hr
    exact ⟨rfl, rfl⟩

/-- Every form of a number, a truth value or nil is read as its head. -/
theorem Head.Form.readPlain {h : Head} {front : Bytes} (hf : h.Form front)
    (hp : h.isPlain = true) (rest : Bytes) : readPlain (front ++ rest) = .ok (h, rest) := by
  obtain ⟨b, payload, rfl, hr, hplain⟩ := hf.read rest
  show MsgPack.readPlain (b :: (payload ++ rest)) = _
  simp only [MsgPack.readPlain, readMarker, hr, hplain, hp, if_true]

/-- Only nil begins like nil. -/
theorem Head.Form.exists_cons {h : Head} {front : Bytes} (hf : h.Form front) (hnil : h ≠ .nil) :
    ∃ b payload, front = b :: payload ∧ b ≠ 0xc0 := by
  obtain ⟨b, payload, hfront, hr, -⟩ := hf.read []
  refine ⟨b, payload, hfront, ?_⟩
  rintro rfl
  rw [List.append_nil] at hr
  have hr : Except.ok (Head.nil, payload) = (Except.ok (h, []) : Except Error (Head × Bytes)) := hr
  cases hr
  exact hnil rfl

/-! ## Heads that are read -/

/-- The numbers and lengths of a head fit into the widest operand. -/
def Head.Bounded : Head → Prop
  | .uint n => n < 2 ^ 64
  | .int v => -2 ^ 63 ≤ v ∧ v < 2 ^ 63
  | .text s => (encode s).length < 2 ^ 32
  | .badText bytes _ | .binary bytes => bytes.length < 2 ^ 32
  | .array n | .map n | .extension n => n < 2 ^ 32
  | .nil | .bool _ | .single _ | .double _ => True

/-- A number in two's complement lies in the signed range of its width. -/
theorem signedOf_bounds {width n : Nat} (hw : width ≤ 8) (h : n < 256 ^ width) :
    -2 ^ 63 ≤ signedOf width n ∧ signedOf width n < 2 ^ 63 := by
  have hpow : 256 ^ width ≤ 256 ^ 8 := Nat.pow_le_pow_right (by decide) hw
  have hcast : ((256 ^ width : Nat) : Int) = (256 : Int) ^ width := Int.natCast_pow 256 width
  rw [signedOf, ← hcast]
  split
  · omega
  · omega

/-- What has a form is bounded. -/
theorem Head.Form.bounded {h : Head} {front : Bytes} (hf : h.Form front) : h.Bounded := by
  -- the operands of at most four bytes are lengths, those of at most eight are integers
  have hlength : ∀ {k n : Nat}, k < 3 → n < 256 ^ 2 ^ k → n < 2 ^ 32 := by
    intro k n hk hn
    have hwidth : 2 ^ k ≤ 2 ^ 2 := Nat.pow_le_pow_right (by decide) (by omega)
    exact Nat.lt_of_lt_of_le hn (Nat.pow_le_pow_right (by decide) hwidth : _ ≤ 256 ^ 4)
  have hwidth : ∀ {k : Nat}, k < 4 → 2 ^ k ≤ 8 := by
    intro k hk
    exact (Nat.pow_le_pow_right (by decide) (by omega) : 2 ^ k ≤ 2 ^ 3)
  cases hf with
  | nil => trivial
  | bool b => trivial
  | positive h => exact Nat.lt_trans h (by decide)
  | negative lo hi =>
    show -2 ^ 63 ≤ _ ∧ _ < 2 ^ 63
    omega
  | uint hk h =>
    exact Nat.lt_of_lt_of_le h (Nat.pow_le_pow_right (by decide) (hwidth hk) : _ ≤ 256 ^ 8)
  | int hk h => exact signedOf_bounds (hwidth hk) h
  | single x => trivial
  | double x => trivial
  | shortText h => exact Nat.lt_trans h (by decide)
  | text hk h => exact hlength hk h
  | badShortText h bad => exact Nat.lt_trans h (by decide)
  | badText hk h bad => exact hlength hk h
  | binary hk h => exact hlength hk h
  | shortArray h => exact Nat.lt_trans h (by decide)
  | array hk h => exact hlength (by omega) h
  | shortMap h => exact Nat.lt_trans h (by decide)
  | map hk h => exact hlength (by omega) h
  | @fixedExtension k hk =>
    have hpow : 2 ^ k ≤ 2 ^ 4 := Nat.pow_le_pow_right (by decide) (by omega)
    exact Nat.lt_of_le_of_lt hpow (by decide)
  | extension hk h => exact hlength hk h

/-! ### Operands that are read -/

/-- A mapped reader has read what it gives. -/
theorem Reader.exists_of_map_eq_ok {α β : Type} {read : Reader α} {f : α → β}
    {bytes rest : Bytes} {b : β} (h : read.map f bytes = .ok (b, rest)) :
    ∃ a, read bytes = .ok (a, rest) ∧ f a = b := by
  rw [Reader.map] at h
  split at h
  · cases h
  · rename_i a rest' hr
    cases h
    exact ⟨a, hr, rfl⟩

/-- Bytes that are taken stood in front of the others. -/
theorem of_takeBytes_eq_some {n : Nat} {bytes front rest : Bytes}
    (h : takeBytes n bytes = some (front, rest)) : bytes = front ++ rest ∧ front.length = n := by
  induction n generalizing bytes front with
  | zero =>
    cases h
    exact ⟨rfl, rfl⟩
  | succ n ih =>
    cases bytes with
    | nil => cases h
    | cons b bytes =>
      rw [takeBytes, Option.map_eq_some_iff] at h
      obtain ⟨⟨front', rest'⟩, ht, heq⟩ := h
      cases heq
      obtain ⟨rfl, rfl⟩ := ih ht
      exact ⟨rfl, rfl⟩

/-- Bytes are told from their number. -/
theorem bytesOf_numberOf (front : Bytes) :
    bytesOf front.length (numberOf front) = front ∧ numberOf front < 256 ^ front.length := by
  -- the number grows at its end, so the induction goes over the bytes from the last one
  induction hlength : front.length generalizing front with
  | zero =>
    cases List.length_eq_zero_iff.mp hlength
    exact ⟨rfl, Nat.one_pos⟩
  | succ n ih =>
    rcases List.eq_nil_or_concat front with rfl | ⟨init, b, rfl⟩
    · cases hlength
    · rw [List.concat_eq_append] at hlength ⊢
      rw [List.length_append, List.length_singleton] at hlength
      obtain ⟨hinit, hlt⟩ := ih init (by omega)
      have hb : b.toNat < 256 := b.toNat_lt
      have hnumber : numberOf (init ++ [b]) = numberOf init * 256 + b.toNat := by
        rw [numberOf, List.foldl_append]
        rfl
      constructor
      · rw [hnumber, bytesOf, show (numberOf init * 256 + b.toNat) / 256 = numberOf init by omega,
          hinit]
        congr 2
        apply UInt8.toNat_inj.mp
        rw [UInt8.toNat_ofNat']
        omega
      · rw [hnumber, Nat.pow_succ]
        omega

/-- A number that is read is told from the bytes. -/
theorem of_readNumber_eq_ok {width n : Nat} {bytes rest : Bytes}
    (h : readNumber width bytes = .ok (n, rest)) :
    bytes = bytesOf width n ++ rest ∧ n < 256 ^ width := by
  rw [readNumber] at h
  split at h
  · cases h
  · rename_i front rest' ht
    cases h
    obtain ⟨rfl, rfl⟩ := of_takeBytes_eq_some ht
    obtain ⟨hbytes, hlt⟩ := bytesOf_numberOf front
    rw [hbytes]
    exact ⟨rfl, hlt⟩

/-- A payload that is read stood in front of the other bytes. -/
theorem of_readPayload_eq_ok {length : Nat} {bytes front rest : Bytes}
    (h : readPayload length bytes = .ok (front, rest)) :
    bytes = front ++ rest ∧ front.length = length := by
  rw [readPayload] at h
  split at h
  · cases h
  · rename_i found ht
    cases h
    exact of_takeBytes_eq_some ht

/-! ### Forms that are read -/

/-- Bytes with their length before them are a form of the text that they are, or of none. -/
theorem form_textHead {payload front : Bytes}
    (hgood : ∀ s, payload = encode s → (Head.text s).Form front)
    (hbad : ∀ fault, Text.Utf8.decode payload = .error fault →
      (Head.badText payload fault).Form front) :
    (textHead payload).Form front := by
  unfold textHead
  split
  · rename_i s hs
    exact hgood s (Text.Utf8.encode_of_decode_eq_ok hs).symm
  · rename_i fault hfault
    exact hbad fault hfault

/-- A marker of its own is read as its head. -/
theorem form_of_alone {b : UInt8} {h h' : Head} {bytes rest : Bytes} (hform : h'.Form [b])
    (hr : Except.ok (h', bytes) = (Except.ok (h, rest) : Except Error (Head × Bytes))) :
    ∃ payload, bytes = payload ++ rest ∧ h.Form (b :: payload) := by
  cases hr
  exact ⟨[], rfl, hform⟩

/-- A marker with an operand is read as the head of the operand. -/
theorem form_of_operand {b : UInt8} {width : Nat} {head : Nat → Head}
    (hform : ∀ {n}, n < 256 ^ width → (head n).Form (sized b width n)) {h : Head}
    {bytes rest : Bytes} (hr : (readNumber width).map head bytes = .ok (h, rest)) :
    ∃ payload, bytes = payload ++ rest ∧ h.Form (b :: payload) := by
  obtain ⟨n, hn, rfl⟩ := Reader.exists_of_map_eq_ok hr
  obtain ⟨rfl, hlt⟩ := of_readNumber_eq_ok hn
  exact ⟨_, rfl, hform hlt⟩

/-- A marker with a length is read as the head of the bytes after it. -/
theorem form_of_long {b : UInt8} {width : Nat} {head : Bytes → Head}
    (hform : ∀ {payload : Bytes}, payload.length < 256 ^ width →
      (head payload).Form (sized b width payload.length ++ payload)) {h : Head}
    {bytes rest : Bytes} (hr : readLong width head bytes = .ok (h, rest)) :
    ∃ payload, bytes = payload ++ rest ∧ h.Form (b :: payload) := by
  rw [readLong] at hr
  split at hr
  · cases hr
  · rename_i length mid hn
    obtain ⟨payload, hp, rfl⟩ := Reader.exists_of_map_eq_ok hr
    obtain ⟨rfl, hlt⟩ := of_readNumber_eq_ok hn
    obtain ⟨rfl, rfl⟩ := of_readPayload_eq_ok hp
    exact ⟨_, (List.append_assoc _ _ _).symm, hform hlt⟩

/-- Four bytes are a number with a fraction. -/
theorem form_single {n : Nat} (h : n < 256 ^ 4) :
    (Head.single ⟨UInt32.ofNat n⟩).Form (sized 0xca 4 n) := by
  have hform := Head.Form.single ⟨UInt32.ofNat n⟩
  rwa [UInt32.toNat_ofNat_of_lt' h] at hform

/-- Eight bytes are a number with a fraction. -/
theorem form_double {n : Nat} (h : n < 256 ^ 8) :
    (Head.double ⟨UInt64.ofNat n⟩).Form (sized 0xcb 8 n) := by
  have hform := Head.Form.double ⟨UInt64.ofNat n⟩
  rwa [UInt64.toNat_ofNat_of_lt' h] at hform

/-- The two truth values have a byte each. -/
theorem form_bool {k : Nat} (h : k < 2) : (Head.bool (k == 1)).Form [Kind.bool.byte k] := by
  obtain rfl | rfl : k = 0 ∨ k = 1 := by omega
  · exact .bool false
  · exact .bool true

/-- What follows a marker is read only if it makes a form with the marker. -/
theorem form_of_readHeadOf {kind : Kind} {k : Nat} (hk : k < kind.count) {h : Head}
    {bytes rest : Bytes} (hr : readHeadOf (kind.marker k) bytes = .ok (h, rest)) :
    ∃ payload, bytes = payload ++ rest ∧ h.Form (kind.byte k :: payload) := by
  cases kind with
  | positive =>
    rw [Kind.byte_positive]
    exact form_of_alone (.positive hk) hr
  | negative =>
    have hlt : k < 2 ^ 5 := hk
    rw [Kind.byte_negative]
    exact form_of_alone (.negative (by omega) (by omega)) hr
  | shortMap => exact form_of_alone (.shortMap hk) hr
  | shortArray => exact form_of_alone (.shortArray hk) hr
  | shortText =>
    obtain ⟨payload, hp, rfl⟩ := Reader.exists_of_map_eq_ok hr
    obtain ⟨rfl, rfl⟩ := of_readPayload_eq_ok hp
    refine ⟨payload, rfl, form_textHead ?_ fun _ bad => .badShortText hk bad⟩
    rintro s rfl
    exact .shortText hk
  | nil =>
    obtain rfl : k = 0 := Nat.lt_one_iff.mp hk
    exact form_of_alone .nil hr
  | reserved => cases hr
  | bool => exact form_of_alone (form_bool hk) hr
  | binary => exact form_of_long (.binary hk) hr
  | extension => exact form_of_operand (.extension hk) hr
  | single =>
    obtain rfl : k = 0 := Nat.lt_one_iff.mp hk
    exact form_of_operand form_single hr
  | double =>
    obtain rfl : k = 0 := Nat.lt_one_iff.mp hk
    exact form_of_operand form_double hr
  | uint => exact form_of_operand (.uint hk) hr
  | int => exact form_of_operand (.int hk) hr
  | fixedExtension => exact form_of_alone (.fixedExtension hk) hr
  | text =>
    refine form_of_long (fun {payload} hlt => form_textHead ?_ fun _ bad => .badText hk hlt bad) hr
    rintro s rfl
    exact .text hk hlt
  | array => exact form_of_operand (.array hk) hr
  | map => exact form_of_operand (.map hk) hr

/-- What a byte begins is read only if it makes a form with the byte. -/
theorem form_of_readHeadOf_ofByte {b : UInt8} {h : Head} {bytes rest : Bytes}
    (hr : readHeadOf (.ofByte b) bytes = .ok (h, rest)) :
    ∃ payload, bytes = payload ++ rest ∧ h.Form (b :: payload) := by
  obtain ⟨kind, k, hk, rfl⟩ := Kind.exists_byte_eq b
  rw [kind.ofByte_byte hk] at hr
  exact form_of_readHeadOf hk hr

/-- **Only forms are read as heads**, and those of collections only with a level left. -/
theorem of_readHead_eq_ok {levels : Nat} {bytes rest : Bytes} {h : Head}
    (hr : readHead levels bytes = .ok (h, rest)) :
    (h.nests = true → levels ≠ 0) ∧ ∃ front, bytes = front ++ rest ∧ h.Form front := by
  cases bytes with
  | nil => cases hr
  | cons b bytes =>
    simp only [readHead, readMarker] at hr
    rcases hm : readHeadOf (.ofByte b) bytes with e | ⟨h', rest'⟩
    · simp only [hm] at hr
      cases hr
    · simp only [hm] at hr
      split at hr
      · cases hr
      · rename_i hdeep
        cases hr
        obtain ⟨payload, rfl, hform⟩ := form_of_readHeadOf_ofByte hm
        refine ⟨?_, b :: payload, rfl, hform⟩
        rintro hn rfl
        exact hdeep (by rw [hn]; rfl)

/-- A head that is read is bounded. -/
theorem bounded_of_readHead_eq_ok {levels : Nat} {bytes rest : Bytes} {h : Head}
    (hr : readHead levels bytes = .ok (h, rest)) : h.Bounded := by
  obtain ⟨-, front, -, hform⟩ := of_readHead_eq_ok hr
  exact hform.bounded

/-- Only forms of numbers, truth values and nil are read as such. -/
theorem of_readPlain_eq_ok {bytes rest : Bytes} {h : Head} (hr : readPlain bytes = .ok (h, rest)) :
    h.isPlain = true ∧ ∃ front, bytes = front ++ rest ∧ h.Form front := by
  cases bytes with
  | nil => cases hr
  | cons b bytes =>
    simp only [readPlain, readMarker] at hr
    split at hr
    · rename_i hm
      obtain ⟨payload, rfl, hform⟩ := form_of_readHeadOf_ofByte hr
      refine ⟨?_, b :: payload, rfl, hform⟩
      obtain ⟨b', payload', hfront, -, hplain⟩ := hform.read []
      cases hfront
      rw [← hplain, hm]
    · cases hr

/-! ## Writing a form -/

namespace Value

/-- An integer that is not negative is written in one of its forms. -/
theorem form_writeNat {n : Nat} (h : n < 2 ^ 64) : (Head.uint n).Form (writeNat n) := by
  unfold writeNat
  split
  · exact .positive ‹_›
  split
  · exact .uint (k := 0) (by omega) ‹_›
  split
  · exact .uint (k := 1) (by omega) ‹_›
  split
  · exact .uint (k := 2) (by omega) ‹_›
  · exact .uint (k := 3) (by omega) h

/-- A negative integer is told from its complement. -/
theorem signedOf_complement {width : Nat} {v : Int} (lo : -256 ^ width ≤ 2 * v) (hi : v < 0) :
    complement width v < 256 ^ width ∧ signedOf width (complement width v) = v := by
  have hpow : ((256 ^ width : Nat) : Int) = (256 : Int) ^ width := Int.natCast_pow 256 width
  have hn : (complement width v : Int) = v + (256 : Int) ^ width := by
    rw [complement]
    omega
  rw [signedOf, hn]
  rw [← hpow] at hn lo ⊢
  refine ⟨by omega, ?_⟩
  rw [if_neg (by omega)]
  omega

/-- A negative integer is written in one of its forms. -/
theorem form_writeNegative {v : Int} (lo : -2 ^ 63 ≤ v) (hi : v < 0) :
    (Head.int v).Form (writeNegative v) := by
  unfold writeNegative
  -- an operand of `2 ^ k` bytes holds the complement, from which the integer is told
  have hform : ∀ k < 4, -256 ^ 2 ^ k ≤ 2 * v →
      (Head.int v).Form (sized (UInt8.ofNat (0xd0 + k)) (2 ^ k) (complement (2 ^ k) v)) := by
    intro k hk hlo
    obtain ⟨hlt, hv⟩ := signedOf_complement hlo hi
    have hint := Head.Form.int hk hlt
    rwa [hv] at hint
  split
  · exact .negative ‹_› hi
  split
  · exact hform 0 (by omega) (by omega)
  split
  · exact hform 1 (by omega) (by omega)
  split
  · exact hform 2 (by omega) (by omega)
  · exact hform 3 (by omega) (by omega)

/-- An integer is written with a sign only if it is negative. -/
theorem form_writeInt {v : Int} (lo : -2 ^ 63 ≤ v) (hi : v < 2 ^ 64) :
    (v < 0 ∧ (Head.int v).Form (writeInt v)) ∨
    ∃ n : Nat, v = n ∧ (Head.uint n).Form (writeInt v) := by
  unfold writeInt
  split
  · exact Or.inl ⟨‹_›, form_writeNegative lo ‹_›⟩
  · exact Or.inr ⟨v.toNat, by omega, form_writeNat (by omega)⟩

/-- A length that fits is written as it is. -/
theorem writtenLength_of_lt {n : Nat} (h : n < 2 ^ 32) : writtenLength n = n := Nat.mod_eq_of_lt h

/-- A length that fits four bytes is written as an operand, if each width makes a form. -/
theorem form_operandHeader {h : Head} {first n : Nat} {payload : Bytes}
    (hform : ∀ {k}, k < 3 → n < 256 ^ 2 ^ k →
      h.Form (sized (UInt8.ofNat (first + k)) (2 ^ k) n ++ payload))
    (hn : n < 2 ^ 32) : h.Form (operandHeader first n ++ payload) := by
  unfold operandHeader
  split
  · exact hform (k := 0) (by omega) ‹_›
  split
  · exact hform (k := 1) (by omega) ‹_›
  · exact hform (k := 2) (by omega) hn

/-- A collection of any length is written in one of the forms for the length that is written. -/
theorem form_collectionHeader (head : Nat → Head) {short first : Nat}
    (hshort : ∀ {n}, n < 2 ^ 4 → (head n).Form [UInt8.ofNat (short + n)])
    (hlong : ∀ {k n}, k < 2 → n < 256 ^ 2 ^ (k + 1) →
      (head n).Form (sized (UInt8.ofNat (first + k)) (2 ^ (k + 1)) n)) (n : Nat) :
    (head (writtenLength n)).Form (collectionHeader short first n) := by
  unfold collectionHeader
  dsimp only
  split
  · exact hshort ‹_›
  split
  · exact hlong (k := 0) (by omega) ‹_›
  · exact hlong (k := 1) (by omega) (Nat.mod_lt n (by decide))

/-- A text whose length fits is written in one of its forms. -/
theorem form_writeText {s : String} (h : (encode s).length < 2 ^ 32) :
    (Head.text s).Form (writeText s) := by
  unfold writeText textHeader
  dsimp only
  rw [writtenLength_of_lt h]
  split
  · exact .shortText ‹_›
  · exact form_operandHeader .text h

/-- A byte string whose length fits is written in one of its forms. -/
theorem form_binaryHeader {bytes : Bytes} (h : bytes.length < 2 ^ 32) :
    (Head.binary bytes).Form (binaryHeader bytes.length ++ bytes) := by
  rw [binaryHeader, writtenLength_of_lt h]
  exact form_operandHeader .binary h

/-- An array begins with one of the forms of the length that is written. -/
theorem form_arrayHeader_written (n : Nat) : (Head.array (writtenLength n)).Form (arrayHeader n) :=
  form_collectionHeader .array .shortArray .array n

/-- An array whose length fits begins with one of its forms. -/
theorem form_arrayHeader {n : Nat} (h : n < 2 ^ 32) : (Head.array n).Form (arrayHeader n) := by
  have hform := form_arrayHeader_written n
  rwa [writtenLength_of_lt h] at hform

/-- A map whose length fits begins with one of its forms. -/
theorem form_mapHeader {n : Nat} (h : n < 2 ^ 32) : (Head.map n).Form (mapHeader n) := by
  have hform := form_collectionHeader .map .shortMap .map n
  rwa [writtenLength_of_lt h] at hform

/-- An extension whose length fits begins with one of its forms. -/
theorem form_extensionHeader {n : Nat} (h : n < 2 ^ 32) :
    (Head.extension n).Form (extensionHeader n) := by
  unfold extensionHeader
  rw [writtenLength_of_lt h]
  split
  · exact .fixedExtension (k := 0) (by omega)
  · exact .fixedExtension (k := 1) (by omega)
  · exact .fixedExtension (k := 2) (by omega)
  · exact .fixedExtension (k := 3) (by omega)
  · exact .fixedExtension (k := 4) (by omega)
  · have hform : (Head.extension n).Form (operandHeader 0xc7 n ++ []) := by
      refine form_operandHeader ?_ h
      intro k hk hn
      rw [List.append_nil]
      exact .extension hk hn
    rwa [List.append_nil] at hform

end Value

end Rollout.MsgPack
