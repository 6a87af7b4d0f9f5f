/-
# Reading values back

A value fits a number of levels if its collections are nested no deeper and all its
numbers and lengths can be written.  Exactly such values come out of the reader, and
every one of them is read back from its bytes, whatever comes after them:
`readValue_write` and `fits_of_readValue`.
-/
import Rollout.Proofs.HeadForms

namespace Rollout.MsgPack

open Text.Utf8 (encode)

/-! ## Counted runs -/

section Runs

variable {α : Type} {read : Reader α} {write : α → Bytes}

/-- Items that are read one by one, whatever follows them, are read together. -/
theorem readMany_run {ι : Type} {value : ι → α} {bytes : ι → Bytes} {items : List ι}
    (h : ∀ i ∈ items, ∀ rest, read (bytes i ++ rest) = .ok (value i, rest)) (rest : Bytes) :
    readMany read items.length (items.flatMap bytes ++ rest) = .ok (items.map value, rest) := by
  induction items with
  | nil => rfl
  | cons i items ih =>
    have hi := h i List.mem_cons_self (items.flatMap bytes ++ rest)
    have hitems := ih fun j hj => h j (List.mem_cons_of_mem i hj)
    rw [List.flatMap_cons, List.append_assoc, List.length_cons, readMany, hi]
    exact Reader.map_of_eq_ok hitems _

/-- Items that are read back one by one are read back together. -/
theorem readMany_flatMap {as : List α}
    (h : ∀ a ∈ as, ∀ rest, read (write a ++ rest) = .ok (a, rest)) (rest : Bytes) :
    readMany read as.length (as.flatMap write ++ rest) = .ok (as, rest) := by
  have hrun : readMany read as.length (as.flatMap write ++ rest) = .ok (as.map id, rest) :=
    readMany_run h rest
  rwa [List.map_id] at hrun

/-- A run of items that are read is made of what every reading takes. -/
theorem exists_run_of_readMany {ι : Type} {value : ι → α} {bytes : ι → Bytes} {P : ι → Prop}
    (h : ∀ {front a rest}, read front = .ok (a, rest) →
      ∃ i, P i ∧ value i = a ∧ front = bytes i ++ rest)
    {count : Nat} {front rest : Bytes} {as : List α}
    (hr : readMany read count front = .ok (as, rest)) :
    ∃ items : List ι, items.length = count ∧ (∀ i ∈ items, P i) ∧ items.map value = as ∧
      front = items.flatMap bytes ++ rest := by
  induction count generalizing front as with
  | zero =>
    cases hr
    exact ⟨[], rfl, fun i hi => absurd hi List.not_mem_nil, rfl, rfl⟩
  | succ count ih =>
    rw [readMany] at hr
    split at hr
    · cases hr
    · rename_i a mid ha
      obtain ⟨as', has, rfl⟩ := Reader.exists_of_map_eq_ok hr
      obtain ⟨i, hi, rfl, rfl⟩ := h ha
      obtain ⟨items, rfl, hall, rfl, rfl⟩ := ih has
      refine ⟨i :: items, rfl, List.forall_mem_cons.mpr ⟨hi, hall⟩, rfl, ?_⟩
      rw [List.flatMap_cons, List.append_assoc]

/-- Every item of a run was read somewhere. -/
theorem of_readMany_eq_ok {count : Nat} {bytes rest : Bytes} {as : List α}
    (h : readMany read count bytes = .ok (as, rest)) :
    as.length = count ∧ ∀ a ∈ as, ∃ bytes rest, read bytes = .ok (a, rest) := by
  induction count generalizing bytes as with
  | zero =>
    cases h
    exact ⟨rfl, fun a ha => absurd ha List.not_mem_nil⟩
  | succ count ih =>
    rw [readMany] at h
    split at h
    · cases h
    · rename_i a rest' ha
      obtain ⟨as', has, rfl⟩ := Reader.exists_of_map_eq_ok h
      obtain ⟨hlength, hall⟩ := ih has
      refine ⟨congrArg (· + 1) hlength, ?_⟩
      intro b hb
      rcases List.mem_cons.mp hb with rfl | hb
      · exact ⟨_, _, ha⟩
      · exact hall b hb

end Runs

/-! ## Values that fit -/

/-- The collections of a value are nested at most `n` deep, and its numbers and lengths can be
written. -/
inductive Value.Fits : (n : Nat) → Value → Prop
  | nil {n : Nat} : Fits n .nil
  | bool {n : Nat} (b : Bool) : Fits n (.bool b)
  | int {n : Nat} {v : Int} (lo : -2 ^ 63 ≤ v) (hi : v < 2 ^ 64) : Fits n (.int v)
  | single {n : Nat} (x : Numeric.Single) : Fits n (.single x)
  | double {n : Nat} (x : Numeric.Double) : Fits n (.double x)
  | text {n : Nat} {s : String} (length : (encode s).length < 2 ^ 32) : Fits n (.text s)
  | binary {n : Nat} {bytes : Bytes} (length : bytes.length < 2 ^ 32) : Fits n (.binary bytes)
  | array {n : Nat} {items : List Value} (length : items.length < 2 ^ 32)
    (all : ∀ v ∈ items, Fits n v) : Fits (n + 1) (.array items)
  | map {n : Nat} {entries : List (Value × Value)} (length : entries.length < 2 ^ 32)
    (keys : ∀ e ∈ entries, Fits n e.1) (values : ∀ e ∈ entries, Fits n e.2) :
    Fits (n + 1) (.map entries)
  | extension {n : Nat} {tag : Int} {bytes : Bytes} (lo : -2 ^ 7 ≤ tag) (hi : tag < 2 ^ 7)
    (length : bytes.length < 2 ^ 32) : Fits (n + 1) (.extension tag bytes)

/-- What fits some levels fits more of them. -/
theorem Value.Fits.mono {n m : Nat} {v : Value} (h : Fits n v) (hnm : n ≤ m) : Fits m v := by
  induction h generalizing m with
  | nil => exact .nil
  | bool b => exact .bool b
  | int lo hi => exact .int lo hi
  | single x => exact .single x
  | double x => exact .double x
  | text length => exact .text length
  | binary length => exact .binary length
  | array length _ ih =>
    obtain ⟨m, rfl⟩ : ∃ k, m = k + 1 := ⟨m - 1, by omega⟩
    exact .array length fun v hv => ih v hv (by omega)
  | map length _ _ ihkeys ihvalues =>
    obtain ⟨m, rfl⟩ : ∃ k, m = k + 1 := ⟨m - 1, by omega⟩
    exact .map length (fun e he => ihkeys e he (by omega)) fun e he => ihvalues e he (by omega)
  | extension lo hi length =>
    obtain ⟨m, rfl⟩ : ∃ k, m = k + 1 := ⟨m - 1, by omega⟩
    exact .extension lo hi length

theorem Value.Fits.word {n : Nat} (k : UInt64) : Fits n (.int k.toNat) := by
  have hk := k.toNat_lt
  exact .int (by omega) (by omega)

theorem Value.Fits.signed {n : Nat} (a : Int64) : Fits n (.int a.toInt) := by
  have hlo := a.le_toInt
  have hhi := a.toInt_lt
  exact .int (by omega) (by omega)

/-! ### Records -/

/-- A record tells its entries. -/
theorem Value.record_injective {es es' : List (String × Value)} (h : record es = record es') :
    es = es' := by
  refine (List.map_inj_right ?_).mp (Value.map.inj h)
  rintro ⟨key, v⟩ ⟨key', v'⟩ heq
  cases heq
  rfl

/-- The keys of a record can be written, and its values fit. -/
def Value.FieldsFit (n : Nat) (es : List (String × Value)) : Prop :=
  ∀ e ∈ es, (encode e.1).length < 2 ^ 32 ∧ e.2.Fits n

namespace Value.FieldsFit

variable {n : Nat} {es es' : List (String × Value)}

theorem nil : FieldsFit n [] := nofun

theorem cons {key : String} {v : Value} (short : (encode key).length < 2 ^ 32) (fits : v.Fits n)
    (tail : FieldsFit n es) : FieldsFit n ((key, v) :: es) :=
  List.forall_mem_cons.mpr ⟨⟨short, fits⟩, tail⟩

theorem append (h : FieldsFit n es) (h' : FieldsFit n es') : FieldsFit n (es ++ es') :=
  List.forall_mem_append.mpr ⟨h, h'⟩

/-- A record whose fields fit one level less fits. -/
theorem record (h : FieldsFit n es) (length : es.length < 2 ^ 32) :
    (Value.record es).Fits (n + 1) := by
  refine .map (by rwa [List.length_map]) ?_ ?_
  · intro e he
    obtain ⟨e, hmem, rfl⟩ := List.mem_map.mp he
    exact .text (h e hmem).1
  · intro e he
    obtain ⟨e, hmem, rfl⟩ := List.mem_map.mp he
    exact (h e hmem).2

/-- The fields of a record that fits fit. -/
theorem of_record (h : (Value.record es).Fits (n + 1)) : FieldsFit n es ∧ es.length < 2 ^ 32 := by
  cases h with
  | map length keys values =>
    rw [List.length_map] at length
    refine ⟨?_, length⟩
    intro e he
    have hmem := List.mem_map_of_mem (f := fun e : String × Value => (Value.text e.1, e.2)) he
    cases keys _ hmem with
    | text short => exact ⟨short, values _ hmem⟩

end Value.FieldsFit

/-! ## Reading what was written -/

/-- Items are written one after another. -/
theorem Value.writeAll_eq (items : List Value) : writeAll items = items.flatMap write := by
  induction items with
  | nil => rw [writeAll, List.flatMap_nil]
  | cons v items ih => rw [writeAll, List.flatMap_cons, ih]

theorem Value.writeEntries_eq (entries : List (Value × Value)) :
    writeEntries entries = entries.flatMap fun e => write e.1 ++ write e.2 := by
  induction entries with
  | nil => rw [writeEntries, List.flatMap_nil]
  | cons e entries ih => rw [writeEntries, List.flatMap_cons, ih, List.append_assoc]

/-- The value of a head that is a value as a whole. -/
def Head.whole? : Head → Option Value
  | .nil => some .nil
  | .bool b => some (.bool b)
  | .uint n => some (.int n)
  | .int v => some (.int v)
  | .single x => some (.single x)
  | .double x => some (.double x)
  | .text s => some (.text s)
  | .badText payload _ => some (.binary payload)
  | .binary payload => some (.binary payload)
  | .array _ | .map _ | .extension _ => none

section ReadValue

variable {levels count : Nat} {bytes rest : Bytes}

/-- A head that is a value as a whole is read as this value. -/
theorem readValue_of_whole {h : Head} {v : Value} (hr : readHead levels bytes = .ok (h, rest))
    (hv : h.whole? = some v) : readValue levels bytes = .ok (v, rest) := by
  rw [readValue.eq_def]
  simp only [hr]
  cases h with
  | array count => cases hv
  | map count => cases hv
  | extension length => cases hv
  | _ => cases hv; rfl

/-- After the head of an array its items are read, with one level less. -/
theorem readValue_of_array (hr : readHead (levels + 1) bytes = .ok (.array count, rest)) :
    readValue (levels + 1) bytes = (readMany (readValue levels) count).map .array rest := by
  rw [readValue.eq_def]
  simp only [hr]

theorem readValue_of_map (hr : readHead (levels + 1) bytes = .ok (.map count, rest)) :
    readValue (levels + 1) bytes
      = (readMany (readPair (readValue levels) (readValue levels)) count).map .map rest := by
  rw [readValue.eq_def]
  simp only [hr]

theorem readValue_of_extension {length : Nat}
    (hr : readHead levels bytes = .ok (.extension length, rest)) :
    readValue levels bytes = readExtension length rest := by
  rw [readValue.eq_def]
  simp only [hr]

/-- A value that is read is the whole of its head, or a collection one level further in. -/
theorem readValue_cases {v : Value} (hv : readValue levels bytes = .ok (v, rest)) :
    ∃ h mid, readHead levels bytes = .ok (h, mid) ∧
      ((h.whole? = some v ∧ mid = rest) ∨
      (∃ n count items, levels = n + 1 ∧ h = .array count ∧ v = .array items ∧
        readMany (readValue n) count mid = .ok (items, rest)) ∨
      (∃ n count entries, levels = n + 1 ∧ h = .map count ∧ v = .map entries ∧
        readMany (readPair (readValue n) (readValue n)) count mid = .ok (entries, rest)) ∨
      ∃ length, h = .extension length ∧ readExtension length mid = .ok (v, rest)) := by
  rcases hr : readHead levels bytes with e | ⟨h, mid⟩
  · rw [readValue.eq_def] at hv
    simp only [hr] at hv
    cases hv
  · refine ⟨h, mid, rfl, ?_⟩
    rcases hw : h.whole? with _ | w
    · right
      have hlevels : h.nests = true → ∃ n, levels = n + 1 := by
        intro hn
        have hne := (of_readHead_eq_ok hr).1 hn
        exact ⟨levels - 1, by omega⟩
      cases h with
      | array count =>
        obtain ⟨n, rfl⟩ := hlevels rfl
        rw [readValue_of_array hr] at hv
        obtain ⟨items, hitems, rfl⟩ := Reader.exists_of_map_eq_ok hv
        exact Or.inl ⟨n, count, items, rfl, rfl, rfl, hitems⟩
      | map count =>
        obtain ⟨n, rfl⟩ := hlevels rfl
        rw [readValue_of_map hr] at hv
        obtain ⟨entries, hentries, rfl⟩ := Reader.exists_of_map_eq_ok hv
        exact Or.inr (Or.inl ⟨n, count, entries, rfl, rfl, rfl, hentries⟩)
      | extension length =>
        rw [readValue_of_extension hr] at hv
        exact Or.inr (Or.inr ⟨length, rfl, hv⟩)
      | _ => cases hw
    · rw [readValue_of_whole hr hw] at hv
      cases hv
      exact Or.inl ⟨rfl, rfl⟩

end ReadValue

/-- An extension is read back from its tag and its bytes. -/
theorem readExtension_append {tag : Int} (lo : -2 ^ 7 ≤ tag) (hi : tag < 2 ^ 7)
    (bytes rest : Bytes) :
    readExtension bytes.length (UInt8.ofNat (Value.complement 1 tag) :: bytes ++ rest)
      = .ok (.extension tag bytes, rest) := by
  have hread : ∀ (b : UInt8) (rest : Bytes),
      readNumber 1 (b :: rest) = .ok (0 * 256 + b.toNat, rest) := fun _ _ => rfl
  have htag : signedOf 1 (0 * 256 + (UInt8.ofNat (Value.complement 1 tag)).toNat) = tag := by
    rw [UInt8.toNat_ofNat', signedOf, Value.complement]
    split
    · omega
    · omega
  rw [List.cons_append, readExtension, hread]
  dsimp only
  rw [htag]
  exact Reader.map_of_eq_ok (readPayload_append bytes rest) _

/-- **Every value that fits is read back**, whatever comes after it. -/
theorem readValue_write {n : Nat} {v : Value} (h : v.Fits n) (rest : Bytes) :
    readValue n (v.write ++ rest) = .ok (v, rest) := by
  -- the head of every value is a form; a collection has a level left, and its items fit the rest
  induction h generalizing rest with
  | nil => exact readValue_of_whole (Head.Form.nil.readHead nofun rest) rfl
  | bool b => exact readValue_of_whole ((Head.Form.bool b).readHead nofun rest) rfl
  | int lo hi =>
    rw [Value.write]
    rcases Value.form_writeInt lo hi with ⟨-, hform⟩ | ⟨n, rfl, hform⟩
    · exact readValue_of_whole (hform.readHead nofun rest) rfl
    · exact readValue_of_whole (hform.readHead nofun rest) rfl
  | single x => exact readValue_of_whole ((Head.Form.single x).readHead nofun rest) rfl
  | double x => exact readValue_of_whole ((Head.Form.double x).readHead nofun rest) rfl
  | text length =>
    rw [Value.write]
    exact readValue_of_whole ((Value.form_writeText length).readHead nofun rest) rfl
  | binary length =>
    rw [Value.write]
    exact readValue_of_whole ((Value.form_binaryHeader length).readHead nofun rest) rfl
  | @array n items length _ ih =>
    rw [Value.write, Value.writeAll_eq, List.append_assoc]
    rw [readValue_of_array ((Value.form_arrayHeader length).readHead (fun _ => n.succ_ne_zero) _)]
    exact Reader.map_of_eq_ok (readMany_flatMap ih rest) Value.array
  | @map n entries length _ _ ihkeys ihvalues =>
    have hpair : ∀ e ∈ entries, ∀ rest, readPair (readValue n) (readValue n)
        ((e.1.write ++ e.2.write) ++ rest) = .ok (e, rest) := by
      intro e he rest
      rw [List.append_assoc, readPair, ihkeys e he]
      exact Reader.map_of_eq_ok (ihvalues e he rest) _
    rw [Value.write, Value.writeEntries_eq, List.append_assoc]
    rw [readValue_of_map ((Value.form_mapHeader length).readHead (fun _ => n.succ_ne_zero) _)]
    exact Reader.map_of_eq_ok (readMany_flatMap hpair rest) Value.map
  | @extension n tag bytes lo hi length =>
    rw [Value.write, List.append_assoc]
    rw [readValue_of_extension
      ((Value.form_extensionHeader length).readHead (fun _ => n.succ_ne_zero) _)]
    exact readExtension_append lo hi bytes rest

/-- Only nil begins like nil. -/
theorem Value.Fits.exists_cons {n : Nat} {v : Value} (h : v.Fits n) (hnil : v ≠ .nil) :
    ∃ b bytes, v.write = b :: bytes ∧ b ≠ 0xc0 := by
  have hread := readValue_write h []
  rw [List.append_nil] at hread
  cases hw : v.write with
  | nil =>
    rw [hw, readValue.eq_def] at hread
    cases hread
  | cons b bytes =>
    refine ⟨b, bytes, rfl, ?_⟩
    rintro rfl
    rw [hw, readValue_of_whole (h := .nil) rfl rfl] at hread
    cases hread
    exact hnil rfl

/-! ## What is read -/

/-- What a bounded head is as a whole fits without any level. -/
theorem Value.fits_of_whole {h : Head} (hb : h.Bounded) {v : Value} (hv : h.whole? = some v)
    (n : Nat) : v.Fits n := by
  cases h with
  | nil =>
    cases hv
    exact .nil
  | bool b =>
    cases hv
    exact .bool b
  | uint k =>
    cases hv
    have hk : k < 2 ^ 64 := hb
    exact .int (by omega) (by omega)
  | int v =>
    cases hv
    have hv : -2 ^ 63 ≤ v ∧ v < 2 ^ 63 := hb
    exact .int hv.1 (by omega)
  | single x =>
    cases hv
    exact .single x
  | double x =>
    cases hv
    exact .double x
  | text s =>
    cases hv
    exact .text hb
  | badText payload fault =>
    cases hv
    exact .binary hb
  | binary payload =>
    cases hv
    exact .binary hb
  | array count => cases hv
  | map count => cases hv
  | extension length => cases hv

/-- An extension that is read has a tag of one byte and fits. -/
theorem fits_of_readExtension {length : Nat} (hl : length < 2 ^ 32) {bytes rest : Bytes} {v : Value}
    (h : readExtension length bytes = .ok (v, rest)) (n : Nat) : v.Fits (n + 1) := by
  rw [readExtension] at h
  split at h
  · cases h
  · rename_i tag mid htag
    obtain ⟨payload, hp, rfl⟩ := Reader.exists_of_map_eq_ok h
    have hlt := (of_readNumber_eq_ok htag).2
    rw [← (of_readPayload_eq_ok hp).2] at hl
    have hbounds : -2 ^ 7 ≤ signedOf 1 tag ∧ signedOf 1 tag < 2 ^ 7 := by
      rw [signedOf]
      split
      · omega
      · omega
    exact .extension hbounds.1 hbounds.2 hl

/-- **Every value that is read fits.** -/
theorem fits_of_readValue {n : Nat} {bytes rest : Bytes} {v : Value}
    (h : readValue n bytes = .ok (v, rest)) : v.Fits n := by
  -- the items of a collection are read with one level less, wherever they begin
  induction n generalizing bytes rest v with
  | zero =>
    obtain ⟨h, mid, hr, hcase⟩ := readValue_cases h
    have hnests := (of_readHead_eq_ok hr).1
    have hb := bounded_of_readHead_eq_ok hr
    rcases hcase with ⟨hw, -⟩ | ⟨n, _, _, hn, -⟩ | ⟨n, _, _, hn, -⟩ | ⟨length, rfl, -⟩
    · exact Value.fits_of_whole hb hw 0
    · cases hn
    · cases hn
    · exact absurd rfl (hnests rfl)
  | succ n ih =>
    obtain ⟨h, mid, hr, hcase⟩ := readValue_cases h
    have hb := bounded_of_readHead_eq_ok hr
    rcases hcase with ⟨hw, -⟩ | ⟨n, count, items, hn, rfl, rfl, hitems⟩ |
      ⟨n, count, entries, hn, rfl, rfl, hentries⟩ | ⟨length, rfl, hext⟩
    · exact Value.fits_of_whole hb hw (n + 1)
    · cases hn
      obtain ⟨rfl, hall⟩ := of_readMany_eq_ok hitems
      refine .array hb ?_
      intro v hv
      obtain ⟨bytes, rest, hread⟩ := hall v hv
      exact ih hread
    · cases hn
      obtain ⟨rfl, hall⟩ := of_readMany_eq_ok hentries
      have hboth : ∀ e ∈ entries, e.1.Fits n ∧ e.2.Fits n := by
        intro e he
        obtain ⟨bytes, rest, hread⟩ := hall e he
        rw [readPair] at hread
        split at hread
        · cases hread
        · rename_i k mid' hk
          obtain ⟨v, hv, rfl⟩ := Reader.exists_of_map_eq_ok hread
          exact ⟨ih hk, ih hv⟩
      exact .map hb (fun e he => (hboth e he).1) fun e he => (hboth e he).2
    · exact fits_of_readExtension hb hext n

end Rollout.MsgPack
