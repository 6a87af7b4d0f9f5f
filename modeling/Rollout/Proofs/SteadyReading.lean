/-
# Readers look no further than they read

A reader is steady if what it takes from the front of some bytes does not depend on
the bytes after it.  Heads and values are read in their forms, whatever follows them;
the readers of records are put together from steady ones.
-/
import Rollout.Proofs.RecordRoundTrip
import Rollout.Proofs.ValueForms

namespace Rollout.MsgPack

variable {α β : Type}

/-! ## Steady readers -/

namespace Reader

/-- What is read at the front of bytes is read there whatever else follows them. -/
def Steady (read : Reader α) : Prop :=
  ∀ ⦃bytes rest : Bytes⦄ ⦃a : α⦄, read bytes = .ok (a, rest) →
    ∀ more, read (bytes ++ more) = .ok (a, rest ++ more)

/-- What always fails is steady. -/
theorem steady_error (e : Error) : Steady (fun _ => .error e : Reader α) := nofun

/-- What looks at no byte is steady. -/
theorem steady_ok (a : α) : Steady (fun bytes => .ok (a, bytes) : Reader α) := by
  intro bytes rest b h more
  cases h
  rfl

/-- A reader that goes on with what a steady one has found is steady if it goes on steadily. -/
theorem Steady.chain {first : Reader α} (h : first.Steady) {next : α → Reader β}
    (hnext : ∀ {bytes rest a}, first bytes = .ok (a, rest) → (next a).Steady) {read : Reader β}
    (herror : ∀ {bytes e}, first bytes = .error e → read bytes = .error e)
    (hok : ∀ {bytes rest a}, first bytes = .ok (a, rest) → read bytes = next a rest) :
    read.Steady := by
  intro bytes rest b hr more
  rcases ha : first bytes with e | ⟨a, mid⟩
  · rw [herror ha] at hr
    cases hr
  · rw [hok ha] at hr
    rw [hok (h ha more)]
    exact hnext ha hr more

/-- A function of what is read keeps a reader steady. -/
theorem Steady.map {read : Reader α} (h : read.Steady) (f : α → β) : (read.map f).Steady :=
  h.chain (fun _ => steady_ok (f _)) (fun ha => by rw [Reader.map, ha])
    (fun ha => by rw [Reader.map, ha])

/-- A reader that reads the forms of things, each whatever follows it, is steady. -/
theorem steady_of_forms {read : Reader α} (Form : α → Bytes → Prop)
    (hforms : ∀ {bytes rest a}, read bytes = .ok (a, rest) →
      ∃ front, bytes = front ++ rest ∧ Form a front)
    (hread : ∀ {front a}, Form a front → ∀ rest, read (front ++ rest) = .ok (a, rest)) :
    read.Steady := by
  intro bytes rest a hr more
  obtain ⟨front, rfl, hform⟩ := hforms hr
  rw [List.append_assoc]
  exact hread hform (rest ++ more)

/-- A steady reader that takes all of the bytes, if anything, takes nothing from less of them. -/
theorem Steady.exists_error {read : Reader α} (h : read.Steady) {front more : Bytes}
    (hall : ∀ a rest, read (front ++ more) = .ok (a, rest) → rest = []) (hmore : more ≠ []) :
    ∃ e, read front = .error e := by
  rcases hr : read front with e | ⟨a, rest⟩
  · exact ⟨e, rfl⟩
  · have hnil := hall a (rest ++ more) (h hr more)
    exact absurd (List.append_eq_nil_iff.mp hnil).2 hmore

end Reader

open Reader (Steady steady_ok steady_error steady_of_forms)

/-! ## Heads and values -/

/-- Heads are read whatever follows them. -/
theorem steady_readHead (levels : Nat) : Steady (readHead levels) := by
  refine steady_of_forms (fun h front => (h.nests = true → levels ≠ 0) ∧ h.Form front) ?_
    fun hform => hform.2.readHead hform.1
  intro bytes rest h hr
  obtain ⟨hnests, front, hfront, hform⟩ := of_readHead_eq_ok hr
  exact ⟨front, hfront, hnests, hform⟩

/-- Numbers, truth values and nil are read whatever follows them. -/
theorem steady_readPlain : Steady readPlain := by
  refine steady_of_forms (fun h front => h.isPlain = true ∧ h.Form front) ?_
    fun hform => hform.2.readPlain hform.1
  intro bytes rest h hr
  obtain ⟨hplain, front, hfront, hform⟩ := of_readPlain_eq_ok hr
  exact ⟨front, hfront, hplain, hform⟩

/-- **A value is read whatever follows it.** -/
theorem steady_readValue (levels : Nat) : Steady (readValue levels) := by
  refine steady_of_forms (fun v front => v.Fits levels ∧ v.Form front) ?_
    fun hform => hform.2.readValue hform.1
  intro bytes rest v hr
  obtain ⟨hfits, front, hfront, hform⟩ := readValue_eq_ok_iff.mp hr
  exact ⟨front, hfront, hfits, hform⟩

/-! ## Contents -/

namespace Content

variable {levels : Nat}

/-- A content that its head settles is read as steadily as the head. -/
theorem steady_readOf {head : Reader Head} (h : head.Steady) (convert : Head → Except Error α) :
    Steady (readOf head convert) := by
  intro bytes rest a hr more
  obtain ⟨found, hhead, hconvert⟩ := exists_of_readOf_eq_ok hr
  exact readOf_of_eq_ok (h hhead more) hconvert

/-- A text is read whatever follows it. -/
theorem steady_text : Steady (text.read levels) := steady_readOf (steady_readHead levels) _

/-- An integer is read whatever follows it. -/
theorem steady_signed : Steady (signed.read levels) := steady_readOf steady_readPlain _

/-- A truth value is read whatever follows it. -/
theorem steady_flag : Steady (flag.read levels) := steady_readOf steady_readPlain _

/-- What may be nil is read steadily if the content needs a byte at least. -/
theorem steady_optional {c : Content α} (h : Steady (c.read levels))
    (hnil : ∀ a rest, c.read levels [] ≠ .ok (a, rest)) : Steady (c.optional.read levels) := by
  intro bytes rest o ho more
  rcases of_optional_eq_ok ho with ⟨rfl, rfl⟩ | ⟨a, ha, rfl⟩
  · rfl
  · have hmore := Reader.map_of_eq_ok (h ha more) some
    cases bytes with
    | nil => exact absurd ha (hnil a rest)
    | cons b bytes =>
      simp only [optional] at ho ⊢
      split
      · rename_i heq
        cases heq
        cases ho
      · exact hmore

end Content

/-! ## Records -/

/-- Whether the field is read whatever follows its content. -/
def Field.Steady {δ : Type} (f : Field δ) (levels : Nat) : Prop := ∀ d, (f.fill levels d).Steady

/-- A field is read as steadily as its content. -/
theorem Content.steady_field {δ : Type} {c : Content α} {levels : Nat}
    (h : Reader.Steady (c.read levels)) {name : String} {required : Bool} {get : δ → Option α}
    {set : α → δ → δ} : (c.field name required get set).Steady levels :=
  fun d => h.map (set · d)

namespace Record

variable {δ : Type} {r : Record δ α} {levels : Nat}

/-- An entry is read whatever follows it. -/
theorem steady_readEntry (hfields : ∀ f ∈ r.fields, f.Steady levels) (d : δ) :
    Steady (r.readEntry levels d) := by
  intro bytes rest d' hr more
  simp only [readEntry] at hr
  split at hr
  · cases hr
  · rename_i mid hkey
    have hkey := Content.steady_readOf (steady_readHead levels) _ hkey more
    simp only [readEntry, hkey]
    exact (steady_readValue levels).map (fun _ => d) hr more
  · rename_i f mid hkey
    obtain ⟨head, -, hf⟩ := Content.exists_of_readOf_eq_ok hkey
    have hkey := Content.steady_readOf (steady_readHead levels) _ hkey more
    split at hr
    · cases hr
    · rename_i hfree
      simp only [readEntry, hkey, if_neg hfree]
      exact hfields f (mem_of_fieldOf_eq_ok hf) d hr more

/-- Entries are read whatever follows them, one after another. -/
theorem steady_readEntries (hfields : ∀ f ∈ r.fields, f.Steady levels) (count : Nat) (d : δ) :
    Steady (r.readEntries levels count d) := by
  induction count generalizing d with
  | zero => exact steady_ok d
  | succ count ih =>
    exact (steady_readEntry hfields d).chain (fun _ => ih _) (fun h => by rw [readEntries, h])
      (fun h => by rw [readEntries, h])

/-- The items of an array are read whatever follows them, each into the next field. -/
theorem steady_readItems {fields : List (Field δ)} (hfields : ∀ f ∈ fields, f.Steady levels)
    (index count : Nat) (d : δ) : Steady (r.readItems levels fields index count d) := by
  induction fields generalizing index count d with
  | nil =>
    cases count with
    | zero => exact steady_ok d
    | succ count => exact steady_error _
  | cons f fields ih =>
    have hrest : ∀ g ∈ fields, g.Steady levels := fun g hg => hfields g (List.mem_cons_of_mem f hg)
    cases count with
    | zero =>
      intro bytes rest d' hr more
      rw [readItems] at hr ⊢
      split at hr
      · cases hr
      · rename_i hrequired
        rw [if_neg hrequired]
        exact ih hrest (index + 1) 0 d hr more
    | succ count =>
      exact (hfields f List.mem_cons_self d).chain (fun _ => ih hrest (index + 1) count _)
        (fun h => by rw [readItems, h]) (fun h => by rw [readItems, h])

/-- **A record is read whatever follows it**, in every form, if its fields are. -/
theorem steady_read (hfields : ∀ f ∈ r.fields, f.Steady (levels - 1)) :
    Steady (r.read levels) := by
  have hdraft : Steady (r.readDraft levels) := by
    intro bytes rest d hr more
    simp only [readDraft] at hr
    split at hr
    · cases hr
    · rename_i count mid hhead
      simp only [readDraft, steady_readHead levels hhead more]
      exact steady_readItems hfields 0 count r.empty hr more
    · rename_i count mid hhead
      simp only [readDraft, steady_readHead levels hhead more]
      exact steady_readEntries hfields count r.empty hr more
    · rename_i payload mid hhead
      simp only [readDraft, steady_readHead levels hhead more]
      split at hr
      · cases hr
      · rename_i d' hd
        cases hr
        rfl
    · cases hr
    · cases hr
  intro bytes rest a hr more
  simp only [read] at hr
  split at hr
  · cases hr
  · rename_i d mid hd
    split at hr
    · cases hr
    · rename_i a' ha
      cases hr
      simp only [read, hdraft hd more, ha]

end Record

end Rollout.MsgPack
