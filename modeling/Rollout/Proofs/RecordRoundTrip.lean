/-
# Reading records back

A record that was written as a map is read entry by entry: an entry fills its field,
or has no field and is passed over.  `Record.Fills` says what the entries of a map
make of a draft, and `Record.Fills.readsBack` that the reader does the same.  The other
way round, `Record.of_readDraft_eq_ok` carries what every field keeps to the whole
draft, whatever form the record had.
-/
import Rollout.MsgPack.Record
import Rollout.Proofs.ValueRoundTrip

namespace Rollout.MsgPack

open Text.Utf8 (encode)

/-! ## Contents -/

namespace Content

variable {α β : Type} {levels : Nat}

/-- The bytes of the value are read as the content, whatever comes after them. -/
def ReadsBack (c : Content α) (levels : Nat) (v : Value) (a : α) : Prop :=
  ∀ rest, c.read levels (v.write ++ rest) = .ok (a, rest)

theorem readOf_of_eq_ok {head : Reader Head} {convert : Head → Except Error α}
    {bytes rest : Bytes} {h : Head} {a : α} (hr : head bytes = .ok (h, rest))
    (hc : convert h = .ok a) : readOf head convert bytes = .ok (a, rest) := by
  simp only [readOf, hr, hc]

/-- A content that its head settles was converted from one. -/
theorem exists_of_readOf_eq_ok {head : Reader Head} {convert : Head → Except Error α}
    {bytes rest : Bytes} {a : α} (hr : readOf head convert bytes = .ok (a, rest)) :
    ∃ h, head bytes = .ok (h, rest) ∧ convert h = .ok a := by
  simp only [readOf] at hr
  split at hr
  · cases hr
  · rename_i h mid hhead
    split at hr
    · cases hr
    · rename_i a' hconvert
      cases hr
      exact ⟨h, hhead, hconvert⟩

/-- A text that can be written is read back. -/
theorem readsBack_text {s : String} (h : (encode s).length < 2 ^ 32) :
    text.ReadsBack levels (.text s) s := by
  intro rest
  rw [Value.write]
  exact readOf_of_eq_ok ((Value.form_writeText h).readHead (by intro h; cases h) rest) rfl

theorem readsBack_word (n : UInt64) : word.ReadsBack levels (.int n.toNat) n := by
  intro rest
  have hn := n.toNat_lt
  rw [Value.write]
  rcases Value.form_writeInt (v := n.toNat) (by omega) (by omega) with ⟨hneg, -⟩ | ⟨k, hk, hform⟩
  · omega
  · cases Int.ofNat.inj hk
    refine readOf_of_eq_ok (hform.readPlain rfl rest) ?_
    rw [wordOf, UInt64.ofNat_toNat]

theorem readsBack_signed (a : Int64) : signed.ReadsBack levels (.int a.toInt) a := by
  intro rest
  have hlo := a.le_toInt
  have hhi := a.toInt_lt
  rw [Value.write]
  rcases Value.form_writeInt (v := a.toInt) (by omega) (by omega) with ⟨-, hform⟩ | ⟨k, hk, hform⟩
  · refine readOf_of_eq_ok (hform.readPlain rfl rest) ?_
    rw [signedOf, Int64.ofInt_toInt]
  · refine readOf_of_eq_ok (hform.readPlain rfl rest) ?_
    rw [signedOf, if_pos (by omega), ← hk, Int64.ofInt_toInt]

theorem readsBack_flag (b : Bool) : flag.ReadsBack levels (.bool b) b := by
  intro rest
  exact readOf_of_eq_ok ((Head.Form.bool b).readPlain rfl rest) rfl

/-- A value that does not begin like nil is read as an optional content. -/
theorem ReadsBack.optional {c : Content α} {v : Value} {a : α} (h : c.ReadsBack levels v a)
    {b : UInt8} {bytes : Bytes} (hv : v.write = b :: bytes) (hb : b ≠ 0xc0) :
    c.optional.ReadsBack levels v (some a) := by
  intro rest
  have hr := Reader.map_of_eq_ok (h rest) some
  rw [hv, List.cons_append] at hr ⊢
  simp only [Content.optional]
  split
  · rename_i heq
    cases heq
    exact absurd rfl hb
  · exact hr

/-- An optional content is nil or the content. -/
theorem of_optional_eq_ok {c : Content α} {bytes rest : Bytes} {o : Option α}
    (h : c.optional.read levels bytes = .ok (o, rest)) :
    (bytes = 0xc0 :: rest ∧ o = none) ∨ ∃ a, c.read levels bytes = .ok (a, rest) ∧ some a = o := by
  simp only [Content.optional] at h
  split at h
  · cases h
    exact Or.inl ⟨rfl, rfl⟩
  · exact Or.inr (Reader.exists_of_map_eq_ok h)

/-! ### What contents give -/

/-- Whatever is read as the content, also from a single byte, has the property. -/
structure Gives (c : Content α) (levels : Nat) (Q : α → Prop) : Prop where
  read : ∀ {bytes rest a}, c.read levels bytes = .ok (a, rest) → Q a
  byte : ∀ {b a}, c.ofByte b = .ok a → Q a

theorem gives_true (c : Content α) (levels : Nat) : c.Gives levels fun _ => True :=
  ⟨fun _ => trivial, fun _ => trivial⟩

/-- A text that is read is as short as the bytes that held it. -/
theorem gives_text (levels : Nat) : text.Gives levels fun s => (encode s).length < 2 ^ 32 where
  read {bytes rest s} h := by
    obtain ⟨head, hr, hs⟩ := exists_of_readOf_eq_ok h
    have hb := bounded_of_readHead_eq_ok hr
    cases head with
    | text s =>
      cases hs
      exact hb
    | binary payload =>
      simp only [textOf] at hs
      split at hs
      · rename_i s hd
        cases hs
        rw [Text.Utf8.encode_of_decode_eq_ok hd]
        exact hb
      · cases hs
    | _ => cases hs
  byte h := by cases h

/-- What may be nil gives nothing else than the content gives. -/
theorem Gives.optional {c : Content α} {Q : α → Prop} (h : c.Gives levels Q) :
    c.optional.Gives levels fun o => ∀ a, o = some a → Q a where
  read {bytes rest o} hr := by
    rcases of_optional_eq_ok hr with ⟨-, rfl⟩ | ⟨a, ha, rfl⟩
    · exact nofun
    · rintro _ ⟨⟩
      exact h.read ha
  byte h := by cases h

/-! ### Fields -/

variable {δ : Type} {name : String} {required : Bool} {get : δ → Option α} {set : α → δ → δ}

/-- A field is filled with what its content is read back as. -/
theorem ReadsBack.fill {c : Content α} {v : Value} {a : α} (h : c.ReadsBack levels v a) (d : δ)
    (rest : Bytes) : (c.field name required get set).fill levels d (v.write ++ rest)
      = .ok (set a d, rest) :=
  Reader.map_of_eq_ok (h rest) (set · d)

end Content

/-- Reading into the field, also a single byte, keeps a property of the draft. -/
structure Field.Keeps {δ : Type} (f : Field δ) (levels : Nat) (P : δ → Prop) : Prop where
  fill : ∀ {d d' bytes rest}, P d → f.fill levels d bytes = .ok (d', rest) → P d'
  byte : ∀ {b d d'}, P d → f.fillByte b d = .ok d' → P d'

/-- A field keeps what its content and its change keep. -/
theorem Content.Gives.keeps {α δ : Type} {c : Content α} {levels : Nat} {Q : α → Prop}
    (h : c.Gives levels Q) {P : δ → Prop} {name : String} {required : Bool} {get : δ → Option α}
    {set : α → δ → δ} (hset : ∀ {d a}, P d → Q a → P (set a d)) :
    (c.field name required get set).Keeps levels P where
  fill {d d' bytes rest} hd hf := by
    obtain ⟨a, ha, rfl⟩ := Reader.exists_of_map_eq_ok hf
    exact hset hd (h.read ha)
  byte {b d d'} hd hf := by
    rcases ha : c.ofByte b with e | a
    · simp only [Content.field, ha] at hf
      cases hf
    · simp only [Content.field, ha] at hf
      cases hf
      exact hset hd (h.byte ha)

namespace Record

variable {δ α : Type} {r : Record δ α} {levels : Nat}

/-! ## Written maps -/

/-- The entries of a map make the second draft of the first one: every entry fills a field that
is still free, or has no field and is passed over. -/
inductive Fills (r : Record δ α) (levels : Nat) : List (String × Value) → δ → δ → Prop
  | nil (d : δ) : Fills r levels [] d d
  | filled {key : String} {v : Value} {es : List (String × Value)} {f : Field δ} {d d' d'' : δ}
    (short : (encode key).length < 2 ^ 32) (named : r.named? key = some f)
    (free : f.filled d = false)
    (fill : ∀ rest, f.fill levels d (v.write ++ rest) = .ok (d', rest))
    (tail : Fills r levels es d' d'') : Fills r levels ((key, v) :: es) d d''
  | passed {key : String} {v : Value} {es : List (String × Value)} {d d'' : δ}
    (short : (encode key).length < 2 ^ 32) (unnamed : r.named? key = none) (fits : v.Fits levels)
    (tail : Fills r levels es d d'') : Fills r levels ((key, v) :: es) d d''

/-- Entries fill a draft one after another. -/
theorem Fills.append {es es' : List (String × Value)} {d d' d'' : δ} (h : r.Fills levels es d d')
    (h' : r.Fills levels es' d' d'') : r.Fills levels (es ++ es') d d'' := by
  induction h with
  | nil d => exact h'
  | filled short named free fill _ ih => exact .filled short named free fill (ih h')
  | passed short unnamed fits _ ih => exact .passed short unnamed fits (ih h')

/-- The bytes of entries with texts as keys. -/
def writeFields (es : List (String × Value)) : Bytes :=
  Value.writeEntries (es.map fun (k, v) => (.text k, v))

theorem writeFields_cons (key : String) (v : Value) (es : List (String × Value)) (rest : Bytes) :
    writeFields ((key, v) :: es) ++ rest
      = Value.writeText key ++ (v.write ++ (writeFields es ++ rest)) := by
  rw [writeFields, List.map_cons, Value.writeEntries, Value.write, List.append_assoc,
    List.append_assoc]
  rfl

theorem writeFields_append (es es' : List (String × Value)) :
    writeFields (es ++ es') = writeFields es ++ writeFields es' := by
  simp only [writeFields, Value.writeEntries_eq, List.map_append, List.flatMap_append]

theorem write_record (es : List (String × Value)) :
    (Value.record es).write = Value.mapHeader es.length ++ writeFields es := by
  rw [Value.record, Value.write, List.length_map]
  rfl

/-- A key is read as its field, in whatever form it is. -/
theorem readKey {key : String} {front : Bytes} (hkey : (Head.text key).Form front) (rest : Bytes) :
    Content.readOf (readHead levels) r.fieldOf (front ++ rest) = .ok (r.named? key, rest) :=
  Content.readOf_of_eq_ok (hkey.readHead nofun rest) rfl

/-- An entry that is read has a key that stands for a field or for none. -/
theorem exists_key_of_readEntry_eq_ok {d d' : δ} {bytes rest : Bytes}
    (h : r.readEntry levels d bytes = .ok (d', rest)) :
    ∃ key mid f, readHead levels bytes = .ok (key, mid) ∧ r.fieldOf key = .ok f := by
  simp only [readEntry] at h
  split at h
  · cases h
  · rename_i mid hkey
    obtain ⟨key, hhead, hf⟩ := Content.exists_of_readOf_eq_ok hkey
    exact ⟨key, mid, none, hhead, hf⟩
  · rename_i f mid hkey
    obtain ⟨key, hhead, hf⟩ := Content.exists_of_readOf_eq_ok hkey
    exact ⟨key, mid, some f, hhead, hf⟩

/-- An entry whose field is free is read into it. -/
theorem readEntry_of_named {key : String} {front : Bytes} (hkey : (Head.text key).Form front)
    {f : Field δ} (named : r.named? key = some f) {d : δ} (free : f.filled d = false)
    (rest : Bytes) : r.readEntry levels d (front ++ rest) = f.fill levels d rest := by
  simp only [readEntry, readKey hkey, named, free]
  rfl

/-- An entry without a field is passed over. -/
theorem readEntry_of_unnamed {key : String} {front : Bytes} (hkey : (Head.text key).Form front)
    (unnamed : r.named? key = none) (d : δ) (rest : Bytes) :
    r.readEntry levels d (front ++ rest) = (readValue levels).map (fun _ => d) rest := by
  simp only [readEntry, readKey hkey, unnamed]

theorem readEntries_one (d : δ) (bytes : Bytes) :
    r.readEntries levels 1 d bytes = r.readEntry levels d bytes := by
  rw [Record.readEntries]
  rcases r.readEntry levels d bytes with e | ⟨d', rest⟩
  · rfl
  · rfl

/-- Entries that fill a draft leave the entries after them to fill it further. -/
theorem Fills.readEntries_append {es : List (String × Value)} {d d' : δ}
    (h : r.Fills levels es d d') (count : Nat) (rest : Bytes) :
    r.readEntries levels (es.length + count) d (writeFields es ++ rest)
      = r.readEntries levels count d' rest := by
  induction h with
  | nil d =>
    rw [List.length_nil, Nat.zero_add]
    rfl
  | filled short named free fill _ ih =>
    rw [writeFields_cons, List.length_cons, Nat.add_right_comm, Record.readEntries,
      readEntry_of_named (Value.form_writeText short) named free, fill]
    exact ih
  | @passed key v es d d'' short unnamed fits _ ih =>
    have hpass := Reader.map_of_eq_ok (readValue_write fits (writeFields es ++ rest)) fun _ => d
    rw [writeFields_cons, List.length_cons, Nat.add_right_comm, Record.readEntries,
      readEntry_of_unnamed (Value.form_writeText short) unnamed, hpass]
    exact ih

/-- Entries that fill a draft are read, whatever follows them. -/
theorem Fills.readEntries {es : List (String × Value)} {d d' : δ} (h : r.Fills levels es d d')
    (rest : Bytes) : r.readEntries levels es.length d (writeFields es ++ rest) = .ok (d', rest) :=
  h.readEntries_append 0 rest

/-! ### Forms of records -/

/-- A map is read entry by entry. -/
theorem readDraft_of_map {bytes rest : Bytes} {count : Nat}
    (h : readHead (levels + 1) bytes = .ok (.map count, rest)) :
    r.readDraft (levels + 1) bytes = r.readEntries levels count r.empty rest := by
  simp only [readDraft, h]
  rfl

/-- A record is made of the draft that was read. -/
theorem read_eq_ok_iff {bytes rest : Bytes} {a : α} :
    r.read levels bytes = .ok (a, rest) ↔
      ∃ d, r.readDraft levels bytes = .ok (d, rest) ∧ r.finish d = .ok a := by
  unfold read
  rcases r.readDraft levels bytes with e | ⟨d, mid⟩
  · constructor
    · intro h
      cases h
    · rintro ⟨d, h, -⟩
      cases h
  · rcases hf : r.finish d with e | a'
    · constructor
      · intro h
        simp only [hf] at h
        cases h
      · rintro ⟨_, ⟨⟩, h⟩
        rw [hf] at h
        cases h
    · constructor
      · intro h
        simp only [hf] at h
        cases h
        exact ⟨d, rfl, hf⟩
      · rintro ⟨_, ⟨⟩, h⟩
        simp only [h]

/-- A record that was written as a map is read back. -/
theorem Fills.readsBack {es : List (String × Value)} {d : δ} {a : α}
    (h : r.Fills levels es r.empty d) (hlength : es.length < 2 ^ 32) (hd : r.finish d = .ok a) :
    r.content.ReadsBack (levels + 1) (.record es) a := by
  intro rest
  have hhead := (Value.form_mapHeader hlength).readHead
    (fun _ => levels.succ_ne_zero) (writeFields es ++ rest)
  rw [write_record, List.append_assoc]
  refine read_eq_ok_iff.mpr ⟨d, ?_, hd⟩
  rw [readDraft_of_map hhead]
  exact h.readEntries rest

/-- Two contents that are read back are read back as a pair, if their names can be told apart. -/
theorem readsBack_pair {α β γ : Type} {title : String} {first : String × Content α}
    {second : String × Content β} {make : α → β → γ} {v w : Value} {a : α} {b : β}
    (hfirst : (encode first.1).length < 2 ^ 32) (hsecond : (encode second.1).length < 2 ^ 32)
    (hne : first.1 ≠ second.1) (ha : first.2.ReadsBack levels v a)
    (hb : second.2.ReadsBack levels w b) :
    (pair title first second make).content.ReadsBack (levels + 1)
      (.record [(first.1, v), (second.1, w)]) (make a b) := by
  have hsecondNamed : (pair title first second make).named? second.1
      = some (second.2.field second.1 true Prod.snd fun b d => (d.1, some b)) := by
    have hother : ¬ (first.1 == second.1) = true := fun heq => hne (beq_iff_eq.mp heq)
    have hself : (second.1 == second.1) = true := beq_self_eq_true second.1
    exact (List.find?_cons_of_neg (p := fun f : Field _ => f.name == second.1) hother).trans
      (List.find?_cons_of_pos (p := fun f : Field _ => f.name == second.1) hself)
  have hfills : (pair title first second make).Fills levels [(first.1, v), (second.1, w)]
      (none, none) (some a, some b) :=
    .filled hfirst (List.find?_cons_of_pos (beq_self_eq_true first.1)) rfl (ha.fill _)
      (.filled hsecond hsecondNamed rfl (hb.fill _) (.nil _))
  exact hfills.readsBack (by decide : 2 < 2 ^ 32) rfl

/-- A record that is read back is all that its bytes hold. -/
theorem read_write {v : Value} {a : α} (h : r.content.ReadsBack levels v a) :
    r.read levels v.write = .ok (a, []) := by
  have hread := h []
  rwa [List.append_nil] at hread

/-! ## Records that are read -/

theorem mem_of_fieldOf_eq_ok {h : Head} {f : Field δ} (hf : r.fieldOf h = .ok (some f)) :
    f ∈ r.fields := by
  cases h with
  | text s => exact List.mem_of_find?_eq_some (Except.ok.inj hf)
  | binary bytes => exact List.mem_of_find?_eq_some (Except.ok.inj hf)
  | uint n => exact List.mem_of_getElem? (Except.ok.inj hf)
  | badText bytes fault => cases hf
  | _ => cases hf

variable {P : δ → Prop}

/-- An entry is read into a field, or leaves the draft as it was. -/
theorem of_readEntry_eq_ok (hfields : ∀ f ∈ r.fields, f.Keeps levels P) {d d' : δ}
    {bytes rest : Bytes} (hd : P d) (h : r.readEntry levels d bytes = .ok (d', rest)) : P d' := by
  simp only [readEntry] at h
  split at h
  · cases h
  · obtain ⟨v, -, rfl⟩ := Reader.exists_of_map_eq_ok h
    exact hd
  · rename_i f mid hkey
    obtain ⟨head, -, hf⟩ := Content.exists_of_readOf_eq_ok hkey
    split at h
    · cases h
    · exact (hfields f (mem_of_fieldOf_eq_ok hf)).fill hd h

/-- What all fields keep holds of a draft after the entries of a map. -/
theorem of_readEntries_eq_ok (hfields : ∀ f ∈ r.fields, f.Keeps levels P) {count : Nat} {d d' : δ}
    {bytes rest : Bytes} (hd : P d) (h : r.readEntries levels count d bytes = .ok (d', rest)) :
    P d' := by
  induction count generalizing d bytes with
  | zero =>
    cases h
    exact hd
  | succ count ih =>
    rw [readEntries] at h
    split at h
    · cases h
    · rename_i d1 mid hentry
      exact ih (of_readEntry_eq_ok hfields hd hentry) h

/-- What all fields keep holds of a draft after the items of an array. -/
theorem of_readItems_eq_ok {fields : List (Field δ)} (hfields : ∀ f ∈ fields, f.Keeps levels P)
    {index count : Nat} {d d' : δ} {bytes rest : Bytes} (hd : P d)
    (h : r.readItems levels fields index count d bytes = .ok (d', rest)) : P d' := by
  induction fields generalizing index count d bytes with
  | nil =>
    cases count with
    | zero =>
      cases h
      exact hd
    | succ count => cases h
  | cons f fields ih =>
    have hrest : ∀ g ∈ fields, g.Keeps levels P := fun g hg => hfields g (List.mem_cons_of_mem f hg)
    cases count with
    | zero =>
      rw [readItems] at h
      split at h
      · cases h
      · exact ih hrest hd h
    | succ count =>
      rw [readItems] at h
      split at h
      · cases h
      · rename_i d1 mid hf
        exact ih hrest ((hfields f List.mem_cons_self).fill hd hf) h

/-- What all fields keep holds of a draft after the bytes of a byte string. -/
theorem of_fillBytes_eq_ok {fields : List (Field δ)} (hfields : ∀ f ∈ fields, f.Keeps levels P)
    {index : Nat} {bytes : Bytes} {d d' : δ} (hd : P d)
    (h : r.fillBytes fields index bytes d = .ok d') : P d' := by
  induction fields generalizing index bytes d with
  | nil =>
    cases h
    exact hd
  | cons f fields ih =>
    have hrest : ∀ g ∈ fields, g.Keeps levels P := fun g hg => hfields g (List.mem_cons_of_mem f hg)
    cases bytes with
    | nil =>
      rw [fillBytes] at h
      split at h
      · cases h
      · exact ih hrest hd h
    | cons b bytes =>
      rw [fillBytes] at h
      split at h
      · cases h
      · rename_i d1 hf
        exact ih hrest ((hfields f List.mem_cons_self).byte hd hf) h

/-- **What every field keeps holds of the whole draft**, in whatever form the record was read. -/
theorem of_readDraft_eq_ok (hempty : P r.empty)
    (hfields : ∀ f ∈ r.fields, f.Keeps (levels - 1) P) {d : δ} {bytes rest : Bytes}
    (h : r.readDraft levels bytes = .ok (d, rest)) : P d := by
  simp only [readDraft] at h
  split at h
  · cases h
  · exact of_readItems_eq_ok hfields hempty h
  · exact of_readEntries_eq_ok hfields hempty h
  · split at h
    · cases h
    · rename_i d1 hd
      cases h
      exact of_fillBytes_eq_ok hfields hempty hd
  · cases h
  · cases h

/-- What a record gives is made of a draft that has the property of all drafts. -/
theorem gives_content {Q : α → Prop} (hempty : P r.empty)
    (hfields : ∀ f ∈ r.fields, f.Keeps (levels - 1) P)
    (hfinish : ∀ {d a}, P d → r.finish d = .ok a → Q a) : r.content.Gives levels Q where
  read {bytes rest a} h := by
    obtain ⟨d, hd, ha⟩ := read_eq_ok_iff.mp h
    exact hfinish (of_readDraft_eq_ok hempty hfields hd) ha
  byte h := by cases h

end Record

end Rollout.MsgPack
