/-
# Forms of values

A value may be written in many ways: every integer and every length in it has the
choice of its forms, independently of the others.  `Value.Form` lists the ways.  The
reader takes all of them and nothing else: `readValue_eq_ok_iff`.
-/
import Rollout.Proofs.ValueRoundTrip

namespace Rollout.MsgPack

/-! ## Forms -/

/-- The bytes that a value may be written as.  A collection is the head of its length and, one
after another, a form of each of its items. -/
inductive Value.Form : Value → Bytes → Prop
  | whole {h : Head} {v : Value} {front : Bytes} (value : h.whole? = some v)
    (head : h.Form front) : Form v front
  | array {items : List (Value × Bytes)} {front : Bytes}
    (head : (Head.array items.length).Form front) (all : ∀ i ∈ items, Form i.1 i.2) :
    Form (.array (items.map Prod.fst)) (front ++ items.flatMap Prod.snd)
  | map {entries : List ((Value × Bytes) × (Value × Bytes))} {front : Bytes}
    (head : (Head.map entries.length).Form front) (keys : ∀ e ∈ entries, Form e.1.1 e.1.2)
    (values : ∀ e ∈ entries, Form e.2.1 e.2.2) :
    Form (.map (entries.map fun e => (e.1.1, e.2.1)))
      (front ++ entries.flatMap fun e => e.1.2 ++ e.2.2)
  | extension {tag : Int} {bytes front : Bytes} (lo : -2 ^ 7 ≤ tag) (hi : tag < 2 ^ 7)
    (head : (Head.extension bytes.length).Form front) :
    Form (.extension tag bytes) (front ++ UInt8.ofNat (complement 1 tag) :: bytes)

theorem nests_eq_false_of_whole {h : Head} {v : Value} (hv : h.whole? = some v) :
    h.nests = false := by
  cases h with
  | array count => cases hv
  | map count => cases hv
  | extension length => cases hv
  | _ => rfl

/-- A value that is the whole of a head has no items and no payload. -/
theorem ne_collection_of_whole {h : Head} {v : Value} (hv : h.whole? = some v) :
    (∀ items, v ≠ .array items) ∧ (∀ entries, v ≠ .map entries) ∧
      ∀ tag payload, v ≠ .extension tag payload := by
  cases h with
  | array count => cases hv
  | map count => cases hv
  | extension length => cases hv
  | _ => cases hv; exact ⟨nofun, nofun, nofun⟩

/-! ## Reading forms -/

/-- **Every form of a value that fits is read as the value**, whatever comes after it. -/
theorem Value.Form.readValue {n : Nat} {v : Value} {front : Bytes} (hf : v.Form front)
    (hfits : v.Fits n) (rest : Bytes) : readValue n (front ++ rest) = .ok (v, rest) := by
  -- the induction is on the form; the items of a collection fit one level less
  induction hf generalizing n rest with
  | @whole h v front value head =>
    have hnests := nests_eq_false_of_whole value
    exact readValue_of_whole (head.readHead (by rw [hnests]; exact nofun) rest) value
  | @array items front head all ih =>
    cases hfits with
    | @array n _ length fits =>
      have hitems : ∀ i ∈ items, ∀ rest, MsgPack.readValue n (i.2 ++ rest) = .ok (i.1, rest) :=
        fun i hi => ih i hi (fits i.1 (List.mem_map_of_mem hi))
      rw [List.append_assoc,
        readValue_of_array (head.readHead (fun _ => n.succ_ne_zero) _)]
      exact Reader.map_of_eq_ok (readMany_run hitems rest) Value.array
  | @map entries front head keys values ihkeys ihvalues =>
    cases hfits with
    | @map n _ length fitkeys fitvalues =>
      have hentries : ∀ e ∈ entries, ∀ rest,
          readPair (MsgPack.readValue n) (MsgPack.readValue n) ((e.1.2 ++ e.2.2) ++ rest)
            = .ok ((e.1.1, e.2.1), rest) := by
        intro e he rest
        have hmem := List.mem_map_of_mem (f := fun e => (e.1.1, e.2.1)) he
        rw [List.append_assoc, readPair, ihkeys e he (fitkeys _ hmem)]
        exact Reader.map_of_eq_ok (ihvalues e he (fitvalues _ hmem) rest) _
      rw [List.append_assoc,
        readValue_of_map (head.readHead (fun _ => n.succ_ne_zero) _)]
      exact Reader.map_of_eq_ok (readMany_run hentries rest) Value.map
  | @extension tag bytes front lo hi head =>
    cases hfits with
    | @extension n =>
      rw [List.append_assoc,
        readValue_of_extension (head.readHead (fun _ => n.succ_ne_zero) _)]
      exact readExtension_append lo hi bytes rest

/-! ## Forms that are read -/

/-- The bytes of an extension that is read are its tag and its payload. -/
theorem of_readExtension_eq_ok {length : Nat} {bytes rest : Bytes} {v : Value}
    (h : readExtension length bytes = .ok (v, rest)) :
    ∃ (tag : Int) (payload : Bytes), (-2 ^ 7 ≤ tag ∧ tag < 2 ^ 7) ∧ payload.length = length ∧
      v = .extension tag payload ∧
      bytes = UInt8.ofNat (Value.complement 1 tag) :: payload ++ rest := by
  rw [readExtension] at h
  split at h
  · cases h
  · rename_i n mid htag
    obtain ⟨payload, hp, rfl⟩ := Reader.exists_of_map_eq_ok h
    obtain ⟨rfl, hlt⟩ := of_readNumber_eq_ok htag
    obtain ⟨rfl, hlength⟩ := of_readPayload_eq_ok hp
    have htag : (-2 ^ 7 ≤ signedOf 1 n ∧ signedOf 1 n < 2 ^ 7) ∧
        UInt8.ofNat (Value.complement 1 (signedOf 1 n)) = UInt8.ofNat n := by
      rw [signedOf, Value.complement]
      split
      · refine ⟨by omega, UInt8.toNat_inj.mp ?_⟩
        rw [UInt8.toNat_ofNat', UInt8.toNat_ofNat']
        omega
      · refine ⟨by omega, UInt8.toNat_inj.mp ?_⟩
        rw [UInt8.toNat_ofNat', UInt8.toNat_ofNat']
        omega
    refine ⟨signedOf 1 n, payload, htag.1, hlength, rfl, ?_⟩
    rw [htag.2]
    rfl

/-- **Only forms are read as values.** -/
theorem exists_form_of_readValue {n : Nat} {bytes rest : Bytes} {v : Value}
    (h : readValue n bytes = .ok (v, rest)) : ∃ front, bytes = front ++ rest ∧ v.Form front := by
  induction n generalizing bytes rest v with
  | zero =>
    obtain ⟨h, mid, hr, hcase⟩ := readValue_cases h
    obtain ⟨hnests, front, rfl, hform⟩ := of_readHead_eq_ok hr
    rcases hcase with ⟨hw, rfl⟩ | ⟨n, _, _, hn, -⟩ | ⟨n, _, _, hn, -⟩ | ⟨length, rfl, -⟩
    · exact ⟨front, rfl, .whole hw hform⟩
    · cases hn
    · cases hn
    · exact absurd rfl (hnests rfl)
  | succ n ih =>
    obtain ⟨h, mid, hr, hcase⟩ := readValue_cases h
    obtain ⟨-, front, rfl, hform⟩ := of_readHead_eq_ok hr
    rcases hcase with ⟨hw, rfl⟩ | ⟨n, count, items, hn, rfl, rfl, hitems⟩ |
      ⟨n, count, entries, hn, rfl, rfl, hentries⟩ | ⟨length, rfl, hext⟩
    · exact ⟨front, rfl, .whole hw hform⟩
    · cases hn
      have hitem : ∀ {bytes v rest}, readValue n bytes = .ok (v, rest) →
          ∃ i : Value × Bytes, i.1.Form i.2 ∧ i.1 = v ∧ bytes = i.2 ++ rest := by
        intro bytes v rest hv
        obtain ⟨front, rfl, hform⟩ := ih hv
        exact ⟨(v, front), hform, rfl, rfl⟩
      obtain ⟨items, rfl, hall, rfl, rfl⟩ := exists_run_of_readMany hitem hitems
      exact ⟨_, (List.append_assoc _ _ _).symm, .array hform hall⟩
    · cases hn
      have hentry : ∀ {bytes kv rest}, readPair (readValue n) (readValue n) bytes = .ok (kv, rest) →
          ∃ e : (Value × Bytes) × (Value × Bytes), (e.1.1.Form e.1.2 ∧ e.2.1.Form e.2.2) ∧
            (e.1.1, e.2.1) = kv ∧ bytes = (e.1.2 ++ e.2.2) ++ rest := by
        intro bytes kv rest hkv
        rw [readPair] at hkv
        split at hkv
        · cases hkv
        · rename_i k mid hk
          obtain ⟨v, hv, rfl⟩ := Reader.exists_of_map_eq_ok hkv
          obtain ⟨kfront, rfl, hkform⟩ := ih hk
          obtain ⟨vfront, rfl, hvform⟩ := ih hv
          exact ⟨((k, kfront), (v, vfront)), ⟨hkform, hvform⟩, rfl, (List.append_assoc _ _ _).symm⟩
      obtain ⟨entries, rfl, hall, rfl, rfl⟩ := exists_run_of_readMany hentry hentries
      exact ⟨_, (List.append_assoc _ _ _).symm,
        .map hform (fun e he => (hall e he).1) fun e he => (hall e he).2⟩
    · obtain ⟨tag, payload, ⟨lo, hi⟩, rfl, rfl, rfl⟩ := of_readExtension_eq_ok hext
      exact ⟨_, (List.append_assoc _ _ _).symm, .extension lo hi hform⟩

/-- **The reader takes the forms of the values that fit, and nothing else.** -/
theorem readValue_eq_ok_iff {n : Nat} {bytes rest : Bytes} {v : Value} :
    readValue n bytes = .ok (v, rest) ↔
      v.Fits n ∧ ∃ front, bytes = front ++ rest ∧ v.Form front := by
  constructor
  · intro h
    exact ⟨fits_of_readValue h, exists_form_of_readValue h⟩
  · rintro ⟨hfits, front, rfl, hform⟩
    exact hform.readValue hfits rest

/-! ## Forms tell values apart -/

theorem exists_fits_all {ι : Type} {value : ι → Value} {items : List ι}
    (h : ∀ i ∈ items, ∃ n, (value i).Fits n) : ∃ n, ∀ i ∈ items, (value i).Fits n := by
  induction items with
  | nil => exact ⟨0, fun i hi => absurd hi List.not_mem_nil⟩
  | cons i items ih =>
    obtain ⟨n, hn⟩ := h i List.mem_cons_self
    obtain ⟨m, hm⟩ := ih fun j hj => h j (List.mem_cons_of_mem i hj)
    refine ⟨max n m, List.forall_mem_cons.mpr ⟨hn.mono (Nat.le_max_left n m), ?_⟩⟩
    intro j hj
    exact (hm j hj).mono (Nat.le_max_right n m)

/-- What has a form fits as many levels as it is deep. -/
theorem Value.Form.exists_fits {v : Value} {front : Bytes} (hf : v.Form front) :
    ∃ n, v.Fits n := by
  induction hf with
  | whole value head => exact ⟨0, Value.fits_of_whole head.bounded value 0⟩
  | @array items front head all ih =>
    obtain ⟨n, hn⟩ := exists_fits_all ih
    refine ⟨n + 1, .array (by rw [List.length_map]; exact head.bounded) ?_⟩
    intro v hv
    obtain ⟨i, hi, rfl⟩ := List.mem_map.mp hv
    exact hn i hi
  | @map entries front head keys values ihkeys ihvalues =>
    obtain ⟨n, hn⟩ := exists_fits_all ihkeys
    obtain ⟨m, hm⟩ := exists_fits_all ihvalues
    refine ⟨max n m + 1, .map (by rw [List.length_map]; exact head.bounded) ?_ ?_⟩
    · intro e he
      obtain ⟨e, hmem, rfl⟩ := List.mem_map.mp he
      exact (hn e hmem).mono (Nat.le_max_left n m)
    · intro e he
      obtain ⟨e, hmem, rfl⟩ := List.mem_map.mp he
      exact (hm e hmem).mono (Nat.le_max_right n m)
  | extension lo hi head => exact ⟨1, .extension lo hi head.bounded⟩

/-- **A form is read as no other value**, however many levels there are. -/
theorem Value.Form.eq_of_readValue {n : Nat} {v v' : Value} {front rest mid : Bytes}
    (hf : v.Form front) (hr : MsgPack.readValue n (front ++ rest) = .ok (v', mid)) :
    v' = v ∧ mid = rest := by
  -- with levels enough for both values both readings succeed
  obtain ⟨m, hm⟩ := hf.exists_fits
  obtain ⟨hfits, front', hfront, hform⟩ := readValue_eq_ok_iff.mp hr
  have hv := hf.readValue (hm.mono (Nat.le_max_right n m)) rest
  have hv' := hform.readValue (hfits.mono (Nat.le_max_left n m)) mid
  rw [← hfront, hv] at hv'
  cases hv'
  exact ⟨rfl, rfl⟩

/-- The shortest way to write a value is a form of it. -/
theorem Value.Fits.form_write {n : Nat} {v : Value} (h : v.Fits n) : v.Form v.write := by
  obtain ⟨front, hfront, hform⟩ := exists_form_of_readValue (readValue_write h [])
  rw [List.append_nil, List.append_nil] at hfront
  rwa [hfront]

/-! ### Maps of texts -/

/-- The entries of a map of texts, every key and every value with the bytes that it is written
as. -/
abbrev Written := List ((String × Bytes) × (Value × Bytes))

/-- The entries that are written. -/
def Written.entries (w : Written) : List (String × Value) := w.map fun e => (e.1.1, e.2.1)

/-- The bytes of the entries. -/
def Written.bytes (w : Written) : Bytes := w.flatMap fun e => e.1.2 ++ e.2.2

/-- A map of texts is written as its length and, one after another, its keys and values. -/
theorem Written.form {w : Written} {front : Bytes} (head : (Head.map w.length).Form front)
    (keys : ∀ e ∈ w, (Head.text e.1.1).Form e.1.2) (values : ∀ e ∈ w, e.2.1.Form e.2.2) :
    (Value.record w.entries).Form (front ++ w.bytes) := by
  let pair (e : (String × Bytes) × (Value × Bytes)) := ((Value.text e.1.1, e.1.2), e.2)
  have hform : (Value.map ((w.map pair).map fun e => (e.1.1, e.2.1))).Form
      (front ++ (w.map pair).flatMap fun e => e.1.2 ++ e.2.2) := by
    refine .map (by rwa [List.length_map]) ?_ ?_
    · intro e he
      obtain ⟨e, hmem, rfl⟩ := List.mem_map.mp he
      exact .whole rfl (keys e hmem)
    · intro e he
      obtain ⟨e, hmem, rfl⟩ := List.mem_map.mp he
      exact values e hmem
  rw [List.map_map, List.flatMap_map] at hform
  rw [Value.record, entries, List.map_map]
  exact hform

end Rollout.MsgPack
