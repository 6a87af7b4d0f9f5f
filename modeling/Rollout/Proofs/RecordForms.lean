/-
# Records in any form

A record is read from a map in whatever form the map is, in whatever order its entries
are, and whatever entries it has besides the fields.  `Record.Accepts` says what the
entries make of a draft without saying how they are written; the reader does the same
with every form of the map.
-/
import Mathlib.Data.List.Pairwise
import Rollout.Proofs.ContentForms

namespace Rollout.MsgPack

variable {δ α : Type} {levels : Nat}

/-! ## Fields -/

namespace Field

/-- Every form of the value is read into the field, as a change of the draft. -/
def Takes (f : Field δ) (levels : Nat) (v : Value) (change : δ → δ) : Prop :=
  ∀ ⦃bytes rest : Bytes⦄, readValue levels bytes = .ok (v, rest) →
    ∀ d, f.fill levels d bytes = .ok (change d, rest)

/-- What one form of the value makes of the draft, all do. -/
def Blind (f : Field δ) (levels : Nat) (v : Value) : Prop :=
  ∀ ⦃bytes rest mid : Bytes⦄ ⦃d d' : δ⦄, readValue levels bytes = .ok (v, rest) →
    f.fill levels d bytes = .ok (d', mid) →
      mid = rest ∧ ∃ change, f.Takes levels v change ∧ change d = d'

/-- A change of the draft by some bytes in the field. -/
def Change (f : Field δ) (change : δ → δ) : Prop :=
  ∃ levels bytes rest, ∀ d, f.fill levels d bytes = .ok (change d, rest)

theorem Takes.change {f : Field δ} {v : Value} {change : δ → δ} (h : f.Takes levels v change)
    (hv : v.Fits levels) : f.Change change := by
  have hread := readValue_write hv []
  exact ⟨levels, v.write ++ [], [], h hread⟩

/-- After its changes the draft has the field. -/
def Marks (f : Field δ) : Prop := ∀ ⦃change⦄, f.Change change → ∀ d, f.filled (change d) = true

/-- Neither of the fields sees the changes of the other one. -/
structure Apart (f g : Field δ) : Prop where
  comm : ∀ {s t}, f.Change s → g.Change t → ∀ d, s (t d) = t (s d)
  left : ∀ {t}, g.Change t → ∀ d, f.filled (t d) = f.filled d
  right : ∀ {s}, f.Change s → ∀ d, g.filled (s d) = g.filled d

instance : Std.Symm (Apart (δ := δ)) where
  symm _ _ h := ⟨fun hs ht d => (h.comm ht hs d).symm, h.right, h.left⟩

end Field

namespace Content

variable {β : Type} {c : Content α} {c' : Content β} {name name' : String}
  {required required' : Bool} {get : δ → Option α} {get' : δ → Option β} {set : α → δ → δ}
  {set' : β → δ → δ} {v : Value}

theorem Takes.field {a : α} (h : c.Takes levels v a) :
    (c.field name required get set).Takes levels v (set a) :=
  fun _ _ hv d => Reader.map_of_eq_ok (h hv) (set · d)

/-- A field is blind to the form of a value if its content is. -/
theorem Blind.field (h : c.Blind levels v) : (c.field name required get set).Blind levels v := by
  intro bytes rest mid d d' hv hr
  obtain ⟨a, ha, rfl⟩ := Reader.exists_of_map_eq_ok hr
  obtain ⟨rfl, htakes⟩ := h hv ha
  exact ⟨rfl, set a, htakes.field, rfl⟩

/-- What is read into the field is read as its content. -/
theorem exists_takes_of_field (hblind : c.Blind levels v) (hfits : v.Fits levels)
    {change : δ → δ} (h : (c.field name required get set).Takes levels v change) (d : δ) :
    ∃ a, c.Takes levels v a ∧ set a d = change d := by
  have hv := readValue_write hfits []
  obtain ⟨a, ha, hset⟩ := Reader.exists_of_map_eq_ok (h hv d)
  exact ⟨a, (hblind hv ha).2, hset⟩

/-- The changes by a content are those that set it. -/
theorem exists_set_of_change [Nonempty δ] {change : δ → δ}
    (h : (c.field name required get set).Change change) : ∃ a, change = set a := by
  obtain ⟨levels, bytes, rest, hfill⟩ := h
  obtain ⟨d0⟩ := ‹Nonempty δ›
  obtain ⟨a, ha, -⟩ := Reader.exists_of_map_eq_ok (hfill d0)
  refine ⟨a, funext fun d => ?_⟩
  obtain ⟨b, hb, hset⟩ := Reader.exists_of_map_eq_ok (hfill d)
  cases ha.symm.trans hb
  exact hset.symm

/-- Fields that set different parts of a draft are apart. -/
theorem apart_field [Nonempty δ] (hcomm : ∀ a b d, set a (set' b d) = set' b (set a d))
    (hget : ∀ b d, get (set' b d) = get d) (hget' : ∀ a d, get' (set a d) = get' d) :
    (c.field name required get set).Apart (c'.field name' required' get' set') where
  comm hs ht d := by
    obtain ⟨a, rfl⟩ := exists_set_of_change hs
    obtain ⟨b, rfl⟩ := exists_set_of_change ht
    exact hcomm a b d
  left ht d := by
    obtain ⟨b, rfl⟩ := exists_set_of_change ht
    exact congrArg Option.isSome (hget b d)
  right hs d := by
    obtain ⟨a, rfl⟩ := exists_set_of_change hs
    exact congrArg Option.isSome (hget' a d)

/-- A field that was set shows it. -/
theorem marks_field [Nonempty δ] (hset : ∀ a d, get (set a d) = some a) :
    (c.field name required get set).Marks := by
  intro change h d
  obtain ⟨a, rfl⟩ := exists_set_of_change h
  exact congrArg Option.isSome (hset a d)

end Content

namespace Record

variable {r : Record δ α} {es es' : List (String × Value)} {d d' : δ}

/-! ## Entries -/

/-- The entries of a map make the second draft of the first one, whatever their forms are: every
entry changes a field that is still free, or has no field and is passed over. -/
inductive Accepts (r : Record δ α) (levels : Nat) : List (String × Value) → δ → δ → Prop
  | nil (d : δ) : Accepts r levels [] d d
  | filled {key : String} {v : Value} {es : List (String × Value)} {f : Field δ}
    {change : δ → δ} {d d' : δ} (named : r.named? key = some f) (free : f.filled d = false)
    (fits : v.Fits levels) (takes : f.Takes levels v change)
    (tail : Accepts r levels es (change d) d') : Accepts r levels ((key, v) :: es) d d'
  | passed {key : String} {v : Value} {es : List (String × Value)} {d d' : δ}
    (unnamed : r.named? key = none) (fits : v.Fits levels) (tail : Accepts r levels es d d') :
    Accepts r levels ((key, v) :: es) d d'

/-- The entries of a map of texts. -/
def textEntries (es : List (String × Value)) : List (Value × Value) :=
  es.map fun (k, v) => (.text k, v)

/-- The first entry of a map is a form of its key and one of its value. -/
theorem of_readMany_cons {key : String} {v : Value} {bytes rest : Bytes}
    (h : readMany (readPair (readValue levels) (readValue levels)) (es.length + 1) bytes
      = .ok (textEntries ((key, v) :: es), rest)) :
    ∃ front mid mid', bytes = front ++ mid ∧ (Head.text key).Form front ∧
      readValue levels mid = .ok (v, mid') ∧
      readMany (readPair (readValue levels) (readValue levels)) es.length mid'
        = .ok (textEntries es, rest) := by
  rw [readMany] at h
  split at h
  · cases h
  · rename_i kv mid' hkv
    obtain ⟨tail, htail, heq⟩ := Reader.exists_of_map_eq_ok h
    cases heq
    rw [readPair] at hkv
    split at hkv
    · cases hkv
    · rename_i k mid hk
      obtain ⟨w, hw, heq⟩ := Reader.exists_of_map_eq_ok hkv
      cases heq
      obtain ⟨h', front, -, hwhole, rfl, hform⟩ :=
        exists_head_of_readValue (h := .text key) rfl hk
      have htext : h' = .text key := by
        cases h' with
        | text s =>
          cases hwhole
          rfl
        | _ => cases hwhole
      rw [htext] at hform
      exact ⟨front, mid, mid', rfl, hform, hw, htail⟩

/-- What the reader makes of one form of the entries, they make in all forms. -/
theorem accepts_of_readEntries
    (hblind : ∀ e ∈ es, ∀ f, r.named? e.1 = some f → f.Blind levels e.2) {bytes rest mid : Bytes}
    (hv : readMany (readPair (readValue levels) (readValue levels)) es.length bytes
      = .ok (textEntries es, rest))
    (hr : r.readEntries levels es.length d bytes = .ok (d', mid)) :
    mid = rest ∧ r.Accepts levels es d d' := by
  induction es generalizing d bytes with
  | nil =>
    cases hv
    cases hr
    exact ⟨rfl, .nil d'⟩
  | cons e es ih =>
    obtain ⟨key, v⟩ := e
    have hlater := fun e he => hblind e (List.mem_cons_of_mem (key, v) he)
    obtain ⟨front, bytes, bytes', rfl, hkey, hvalue, htail⟩ := of_readMany_cons hv
    rw [List.length_cons, readEntries] at hr
    split at hr
    · cases hr
    · rename_i d1 mid' hentry
      rcases hnamed : r.named? key with _ | f
      · rw [readEntry_of_unnamed hkey hnamed] at hentry
        obtain ⟨w, hw, rfl⟩ := Reader.exists_of_map_eq_ok hentry
        cases hvalue.symm.trans hw
        obtain ⟨rfl, haccepts⟩ := ih hlater htail hr
        exact ⟨rfl, .passed hnamed (fits_of_readValue hvalue) haccepts⟩
      · rcases free : f.filled d with _ | _
        · rw [readEntry_of_named hkey hnamed free] at hentry
          obtain ⟨rfl, change, htakes, rfl⟩ :=
            hblind _ List.mem_cons_self f hnamed hvalue hentry
          obtain ⟨rfl, haccepts⟩ := ih hlater htail hr
          exact ⟨rfl, .filled hnamed free (fits_of_readValue hvalue) htakes haccepts⟩
        · simp only [readEntry, readKey hkey, hnamed, free] at hentry
          cases hentry

/-- The reader makes of every form of the entries what they make. -/
theorem Accepts.readEntries (h : r.Accepts levels es d d') {bytes rest : Bytes}
    (hv : readMany (readPair (readValue levels) (readValue levels)) es.length bytes
      = .ok (textEntries es, rest)) :
    r.readEntries levels es.length d bytes = .ok (d', rest) := by
  induction h generalizing bytes with
  | nil d =>
    cases hv
    rfl
  | filled named free fits takes _ ih =>
    obtain ⟨front, mid, mid', rfl, hkey, hvalue, htail⟩ := of_readMany_cons hv
    rw [List.length_cons, Record.readEntries, readEntry_of_named hkey named free, takes hvalue]
    exact ih htail
  | passed unnamed fits _ ih =>
    obtain ⟨front, mid, mid', rfl, hkey, hvalue, htail⟩ := of_readMany_cons hv
    rw [List.length_cons, Record.readEntries, readEntry_of_unnamed hkey unnamed,
      Reader.map_of_eq_ok hvalue]
    exact ih htail

/-! ## The order of the entries -/

/-- A field that has been read is no longer free, and different fields do not see each other. -/
structure Orderly (r : Record δ α) : Prop where
  marks : ∀ f ∈ r.fields, f.Marks
  apart : r.fields.Pairwise Field.Apart

theorem of_named?_eq_some {key : String} {f : Field δ} (h : r.named? key = some f) :
    f ∈ r.fields ∧ f.name = key :=
  ⟨List.mem_of_find?_eq_some h, by simpa using List.find?_some h⟩

/-- The order of the entries makes no difference. -/
theorem Accepts.perm (ho : r.Orderly) (hperm : es.Perm es') (h : r.Accepts levels es d d') :
    r.Accepts levels es' d d' := by
  induction hperm generalizing d with
  | nil => exact h
  | cons e _ ih =>
    cases h with
    | filled named free fits takes tail => exact .filled named free fits takes (ih tail)
    | passed unnamed fits tail => exact .passed unnamed fits (ih tail)
  | swap e e' es =>
    cases h with
    | @filled key v _ f s d _ named free fits takes tail =>
      cases tail with
      | @filled key' v' _ g t _ _ named' free' fits' takes' tail =>
        obtain ⟨hf, rfl⟩ := of_named?_eq_some named
        obtain ⟨hg, rfl⟩ := of_named?_eq_some named'
        have hs := takes.change fits
        have ht := takes'.change fits'
        have hne : f ≠ g := by
          rintro rfl
          rw [ho.marks f hf hs] at free'
          cases free'
        have hapart := ho.apart.forall hf hg hne
        rw [hapart.right hs] at free'
        rw [← hapart.comm hs ht] at tail
        refine .filled named' free' fits' takes' (.filled named ?_ fits takes tail)
        rw [hapart.left ht, free]
      | passed unnamed' fits' tail =>
        exact .passed unnamed' fits' (.filled named free fits takes tail)
    | passed unnamed fits tail =>
      cases tail with
      | filled named' free' fits' takes' tail =>
        exact .filled named' free' fits' takes' (.passed unnamed fits tail)
      | passed unnamed' fits' tail => exact .passed unnamed' fits' (.passed unnamed fits tail)
  | trans _ _ ih ih' => exact ih' (ih h)

/-! ## Other entries -/

/-- The entries with these keys. -/
def atKeys (keys : List String) (es : List (String × Value)) : List (String × Value) :=
  es.filter fun e => keys.contains e.1

theorem atKeys_cons_of_mem {keys : List String} {e : String × Value}
    (h : keys.contains e.1 = true) : atKeys keys (e :: es) = e :: atKeys keys es :=
  List.filter_cons_of_pos h

theorem atKeys_cons_of_not_mem {keys : List String} {e : String × Value}
    (h : keys.contains e.1 = false) : atKeys keys (e :: es) = atKeys keys es :=
  List.filter_cons_of_neg (by rw [h]; exact nofun)

/-- The entries at some keys are those whose key is one of them. -/
theorem mem_atKeys {keys : List String} {e : String × Value} :
    e ∈ atKeys keys es ↔ e ∈ es ∧ keys.contains e.1 = true :=
  List.mem_filter

theorem atKeys_atKeys {keys keys' : List String} (h : ∀ k ∈ keys, k ∈ keys')
    (es : List (String × Value)) : atKeys keys (atKeys keys' es) = atKeys keys es := by
  rw [atKeys, atKeys, List.filter_filter]
  refine List.filter_congr fun e _ => ?_
  rw [Bool.and_eq_left_iff_imp]
  intro hk
  exact List.contains_iff_mem.mpr (h e.1 (List.contains_iff_mem.mp hk))

/-- Entries that are the same up to their order are so at fewer keys. -/
theorem atKeys_perm {keys keys' : List String} (h : ∀ k ∈ keys, k ∈ keys')
    (hes : (atKeys keys' es).Perm es') : (atKeys keys es).Perm (atKeys keys es') := by
  have hfilter := hes.filter fun e => keys.contains e.1
  rwa [← atKeys, atKeys_atKeys h] at hfilter

/-- The names of the fields. -/
def names (r : Record δ α) : List String := r.fields.map Field.name

/-- A record names exactly the keys that it has a field for. -/
theorem contains_names {key : String} :
    r.names.contains key = (r.named? key).isSome := by
  rw [named?, List.isSome_find?, names, List.contains_eq_any_beq, List.any_map]
  exact congrArg r.fields.any (funext fun f => BEq.comm)

/-- Only the entries of the fields count. -/
theorem Accepts.atNames (h : r.Accepts levels es d d') :
    r.Accepts levels (atKeys r.names es) d d' := by
  induction h with
  | nil d => exact .nil d
  | @filled key v es f change d d' named free fits takes _ ih =>
    have hkey : r.names.contains key = true := by rw [contains_names, named]; rfl
    rw [atKeys_cons_of_mem hkey]
    exact .filled named free fits takes ih
  | @passed key v es d d' unnamed fits _ ih =>
    have hkey : r.names.contains key = false := by rw [contains_names, unnamed]; rfl
    rw [atKeys_cons_of_not_mem hkey]
    exact ih

/-- Other entries are passed over if they can be read. -/
theorem Accepts.of_atNames (h : r.Accepts levels (atKeys r.names es) d d')
    (hothers : ∀ e ∈ es, r.names.contains e.1 = false → e.2.Fits levels) :
    r.Accepts levels es d d' := by
  induction es generalizing d with
  | nil => exact h
  | cons e es ih =>
    obtain ⟨key, v⟩ := e
    have hlater := fun e he => hothers e (List.mem_cons_of_mem (key, v) he)
    rcases hkey : r.names.contains key with _ | _
    · rw [atKeys_cons_of_not_mem hkey] at h
      refine .passed ?_ (hothers _ List.mem_cons_self hkey) (ih h hlater)
      rw [contains_names] at hkey
      exact Option.isNone_iff_eq_none.mp (Option.isSome_eq_false_iff.mp hkey)
    · rw [atKeys_cons_of_mem hkey] at h
      cases h with
      | filled named free fits takes tail => exact .filled named free fits takes (ih tail hlater)
      | passed unnamed fits tail => exact .passed unnamed fits (ih tail hlater)

/-- **The entries of the fields decide**, in whatever order they are and whatever other entries
there are. -/
theorem Accepts.of_same (ho : r.Orderly) (h : r.Accepts levels es d d')
    (hsame : (atKeys r.names es).Perm (atKeys r.names es'))
    (hothers : ∀ e ∈ es', r.names.contains e.1 = false → e.2.Fits levels) :
    r.Accepts levels es' d d' :=
  (h.atNames.perm ho hsame).of_atNames hothers

/-! ## Records -/

/-- A map is read as its length and its entries. -/
theorem of_readValue_map {entries : List (Value × Value)} {bytes rest : Bytes}
    (hv : readValue (levels + 1) bytes = .ok (.map entries, rest)) :
    ∃ mid, readHead (levels + 1) bytes = .ok (.map entries.length, mid) ∧
      readMany (readPair (readValue levels) (readValue levels)) entries.length mid
        = .ok (entries, rest) := by
  obtain ⟨h, mid, hr, hcase⟩ := readValue_cases hv
  rcases hcase with ⟨hw, -⟩ | ⟨_, _, items, _, _, hmap, _⟩ |
    ⟨n, count, _, hn, rfl, hmap, hentries⟩ | ⟨length, _, hext⟩
  · exact absurd rfl ((ne_collection_of_whole hw).2.1 entries)
  · cases hmap
  · cases hmap
    cases hn
    obtain ⟨rfl, -⟩ := of_readMany_eq_ok hentries
    exact ⟨mid, hr, hentries⟩
  · obtain ⟨tag, payload, -, -, hmap, -⟩ := of_readExtension_eq_ok hext
    cases hmap

theorem of_readValue_record {bytes rest : Bytes}
    (hv : readValue (levels + 1) bytes = .ok (.record es, rest)) :
    ∃ mid, readHead (levels + 1) bytes = .ok (.map es.length, mid) ∧
      readMany (readPair (readValue levels) (readValue levels)) es.length mid
        = .ok (textEntries es, rest) := by
  have hmap := of_readValue_map hv
  rwa [List.length_map] at hmap

/-- A record that is read from one form of a map is made of a draft that the entries make. -/
theorem accepts_of_read
    (hblind : ∀ e ∈ es, ∀ f, r.named? e.1 = some f → f.Blind levels e.2) {bytes rest mid : Bytes}
    {a : α} (hv : readValue (levels + 1) bytes = .ok (.record es, rest))
    (hr : r.read (levels + 1) bytes = .ok (a, mid)) :
    mid = rest ∧ ∃ d, r.Accepts levels es r.empty d ∧ r.finish d = .ok a := by
  obtain ⟨front, hhead, hentries⟩ := of_readValue_record hv
  obtain ⟨d, hd, ha⟩ := read_eq_ok_iff.mp hr
  rw [readDraft_of_map hhead] at hd
  obtain ⟨rfl, haccepts⟩ := accepts_of_readEntries hblind hentries hd
  exact ⟨rfl, d, haccepts, ha⟩

/-- A record is read from every form of a map whose entries make a draft of it. -/
theorem Accepts.takes {a : α} (h : r.Accepts levels es r.empty d) (ha : r.finish d = .ok a) :
    r.content.Takes (levels + 1) (.record es) a := by
  intro bytes rest hv
  obtain ⟨front, hhead, hentries⟩ := of_readValue_record hv
  refine read_eq_ok_iff.mpr ⟨d, ?_, ha⟩
  rw [readDraft_of_map hhead]
  exact h.readEntries hentries

/-- **A record is read from all forms of a map or from none.** -/
theorem blind_record (hblind : ∀ e ∈ es, ∀ f, r.named? e.1 = some f → f.Blind levels e.2) :
    r.content.Blind (levels + 1) (.record es) := by
  intro bytes rest mid a hv hr
  obtain ⟨rfl, d, haccepts, ha⟩ := accepts_of_read hblind hv hr
  exact ⟨rfl, haccepts.takes ha⟩

/-! ## Records that are read are maps -/

/-- Whatever is read as a key is a value. -/
theorem exists_readValue_of_key {f : Option (Field δ)} {bytes rest : Bytes}
    (h : Content.readOf (readHead levels) r.fieldOf bytes = .ok (f, rest)) :
    ∃ k, readValue levels bytes = .ok (k, rest) := by
  obtain ⟨head, hhead, hf⟩ := Content.exists_of_readOf_eq_ok h
  cases head with
  | text s => exact ⟨_, readValue_of_whole hhead rfl⟩
  | badText payload fault => exact ⟨_, readValue_of_whole hhead rfl⟩
  | binary payload => exact ⟨_, readValue_of_whole hhead rfl⟩
  | uint n => exact ⟨_, readValue_of_whole hhead rfl⟩
  | _ => cases hf

/-- Entries that are read are values if the contents of the fields are. -/
theorem exists_readMany_of_readEntries
    (hfields : ∀ f ∈ r.fields, ∀ {d d' bytes rest}, f.fill levels d bytes = .ok (d', rest) →
      ∃ v, readValue levels bytes = .ok (v, rest)) {count : Nat} {bytes rest : Bytes}
    (hr : r.readEntries levels count d bytes = .ok (d', rest)) :
    ∃ entries, readMany (readPair (readValue levels) (readValue levels)) count bytes
      = .ok (entries, rest) := by
  induction count generalizing d bytes with
  | zero =>
    cases hr
    exact ⟨[], rfl⟩
  | succ count ih =>
    rw [Record.readEntries] at hr
    split at hr
    · cases hr
    · rename_i d1 mid hentry
      obtain ⟨entries, hentries⟩ := ih hr
      have hentry : ∃ k v mid', readValue levels bytes = .ok (k, mid') ∧
          readValue levels mid' = .ok (v, mid) := by
        simp only [readEntry] at hentry
        split at hentry
        · cases hentry
        · rename_i mid' hkey
          obtain ⟨k, hk⟩ := exists_readValue_of_key hkey
          obtain ⟨v, hv, -⟩ := Reader.exists_of_map_eq_ok hentry
          exact ⟨k, v, mid', hk, hv⟩
        · rename_i f mid' hkey
          obtain ⟨k, hk⟩ := exists_readValue_of_key hkey
          obtain ⟨head, -, hf⟩ := Content.exists_of_readOf_eq_ok hkey
          split at hentry
          · cases hentry
          · obtain ⟨v, hv⟩ := hfields f (mem_of_fieldOf_eq_ok hf) hentry
            exact ⟨k, v, mid', hk, hv⟩
      obtain ⟨k, v, mid', hk, hv⟩ := hentry
      have hpair : readPair (readValue levels) (readValue levels) bytes = .ok ((k, v), mid) := by
        rw [readPair, hk]
        exact Reader.map_of_eq_ok hv _
      refine ⟨(k, v) :: entries, ?_⟩
      rw [readMany, hpair]
      exact Reader.map_of_eq_ok hentries _

/-- A form of a map begins with the head of its length. -/
theorem exists_head_of_form {entries : List (Value × Value)} {front : Bytes}
    (hf : (Value.map entries).Form front) :
    ∃ head body, front = head ++ body ∧ (Head.map entries.length).Form head := by
  generalize hv : Value.map entries = v at hf
  cases hf with
  | whole value head => exact absurd hv.symm ((ne_collection_of_whole value).2.1 entries)
  | array head all => cases hv
  | @map written front head keys values =>
    cases hv
    rw [List.length_map]
    exact ⟨front, _, rfl, head⟩
  | extension lo hi head => cases hv

/-- A form of a map that is read as a record is a value as a whole. -/
theorem readValue_of_read
    (hfields : ∀ f ∈ r.fields, ∀ {d d' bytes rest}, f.fill levels d bytes = .ok (d', rest) →
      ∃ v, readValue levels bytes = .ok (v, rest)) {front : Bytes}
    (hf : (Value.record es).Form front) {a : α} {rest mid : Bytes}
    (hr : r.read (levels + 1) (front ++ rest) = .ok (a, mid)) :
    readValue (levels + 1) (front ++ rest) = .ok (.record es, rest) := by
  obtain ⟨head, body, hfront, hhead⟩ := exists_head_of_form hf
  have hmap := hhead.readHead (fun _ => levels.succ_ne_zero) (body ++ rest)
  rw [← List.append_assoc, ← hfront] at hmap
  obtain ⟨d, hd, -⟩ := read_eq_ok_iff.mp hr
  rw [readDraft_of_map hmap] at hd
  obtain ⟨entries, hentries⟩ := exists_readMany_of_readEntries hfields hd
  have hv : readValue (levels + 1) (front ++ rest) = .ok (.map entries, mid) := by
    rw [readValue_of_map hmap]
    exact Reader.map_of_eq_ok hentries _
  obtain ⟨heq, rfl⟩ := hf.eq_of_readValue hv
  rw [hv, heq]

/-! ### Pairs -/

section Pairs

variable {β γ : Type} {title : String} {first : String × Content α} {second : String × Content β}
  {make : α → β → γ}

/-- The fields of a pair are blind if its contents are. -/
theorem blind_pair (hfirst : ∀ v, first.2.Blind levels v) (hsecond : ∀ v, second.2.Blind levels v) :
    ∀ f ∈ (pair title first second make).fields, ∀ v, f.Blind levels v :=
  List.forall_mem_cons.mpr ⟨fun v => (hfirst v).field,
    List.forall_mem_singleton.mpr fun v => (hsecond v).field⟩

/-- The fields of a pair mark the draft, each its own part of it. -/
theorem orderly_pair : (pair title first second make).Orderly where
  marks := by
    refine List.forall_mem_cons.mpr ⟨?_, List.forall_mem_singleton.mpr ?_⟩
    · exact Content.marks_field fun _ _ => rfl
    · exact Content.marks_field fun _ _ => rfl
  apart := by
    refine List.pairwise_pair.mpr ?_
    exact Content.apart_field (fun _ _ _ => rfl) (fun _ _ => rfl) fun _ _ => rfl

end Pairs

end Record

end Rollout.MsgPack
