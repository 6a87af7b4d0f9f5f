/-
# Contents in any form

The content of a field is read from a value in whatever form the value is.  A content
takes a value as `a` if all forms of the value are read as `a`; it is blind to the
form if it takes every value that it reads in one form.  The contents of the fields
of requests are blind.
-/
import Rollout.Proofs.RecordRoundTrip
import Rollout.Proofs.ValueForms
import Rollout.Wire.Nested

namespace Rollout.MsgPack

variable {α : Type} {levels : Nat}

/-! ## Heads of one value -/

/-- All forms of a value that is the whole of one head are such heads. -/
theorem exists_head_of_readValue {h : Head} {v : Value} {bytes rest : Bytes}
    (hw : h.whole? = some v) (hv : readValue levels bytes = .ok (v, rest)) :
    ∃ h' front, readHead levels bytes = .ok (h', rest) ∧ h'.whole? = some v ∧
      bytes = front ++ rest ∧ h'.Form front := by
  obtain ⟨harray, hmap, hextension⟩ := ne_collection_of_whole hw
  obtain ⟨h', mid, hr, hcase⟩ := readValue_cases hv
  rcases hcase with ⟨hw', rfl⟩ | ⟨_, _, items, _, _, rfl, _⟩ | ⟨_, _, entries, _, _, rfl, _⟩ |
    ⟨length, _, hext⟩
  · obtain ⟨-, front, hfront, hform⟩ := of_readHead_eq_ok hr
    exact ⟨h', front, hr, hw', hfront, hform⟩
  · exact absurd rfl (harray items)
  · exact absurd rfl (hmap entries)
  · obtain ⟨tag, payload, -, -, rfl, -⟩ := of_readExtension_eq_ok hext
    exact absurd rfl (hextension tag payload)

/-- A value that begins with a head that is a value as a whole is this value. -/
theorem whole_of_readValue {h : Head} {v : Value} {bytes rest mid : Bytes}
    (hr : readHead levels bytes = .ok (h, mid)) (hnests : h.nests = false)
    (hv : readValue levels bytes = .ok (v, rest)) : h.whole? = some v ∧ mid = rest := by
  obtain ⟨w, hw⟩ : ∃ w, h.whole? = some w := by
    cases h with
    | array count => cases hnests
    | map count => cases hnests
    | extension length => cases hnests
    | _ => exact ⟨_, rfl⟩
  rw [readValue_of_whole hr hw] at hv
  cases hv
  exact ⟨hw, rfl⟩

namespace Content

/-! ## Blind contents -/

/-- Every form of the value is read as `a`. -/
def Takes (c : Content α) (levels : Nat) (v : Value) (a : α) : Prop :=
  ∀ ⦃bytes rest : Bytes⦄, readValue levels bytes = .ok (v, rest) →
    c.read levels bytes = .ok (a, rest)

/-- What one form of the value is read as, all are. -/
def Blind (c : Content α) (levels : Nat) (v : Value) : Prop :=
  ∀ ⦃bytes rest mid : Bytes⦄ ⦃a : α⦄, readValue levels bytes = .ok (v, rest) →
    c.read levels bytes = .ok (a, mid) → mid = rest ∧ c.Takes levels v a

/-- The conversion tells heads apart only by their value. -/
def Uniform (convert : Head → Except Error α) : Prop :=
  ∀ ⦃h h' : Head⦄ ⦃front front' : Bytes⦄ ⦃v : Value⦄ ⦃a : α⦄, h.Form front → h'.Form front' →
    h.whole? = some v → h'.whole? = some v → convert h = .ok a → convert h' = .ok a

/-- A content that its head settles is blind if its conversion is uniform. -/
theorem blind_readOf {c : Content α} {head : Reader Head} {convert : Head → Except Error α}
    (hread : c.read levels = readOf head convert) (huniform : Uniform convert)
    (hnests : ∀ {h front a}, Head.Form h front → convert h = .ok a → h.nests = false)
    (hsound : ∀ {bytes h rest}, head bytes = .ok (h, rest) → readHead levels bytes = .ok (h, rest))
    (hcomplete : ∀ {front h rest a}, Head.Form h front → convert h = .ok a →
      head (front ++ rest) = .ok (h, rest)) (v : Value) : c.Blind levels v := by
  intro bytes rest mid a hv hr
  rw [hread] at hr
  obtain ⟨h, hhead, hconvert⟩ := exists_of_readOf_eq_ok hr
  have hhead := hsound hhead
  obtain ⟨-, front, -, hform⟩ := of_readHead_eq_ok hhead
  obtain ⟨hw, rfl⟩ := whole_of_readValue hhead (hnests hform hconvert) hv
  refine ⟨rfl, ?_⟩
  intro bytes' rest' hv'
  obtain ⟨h', front', -, hw', rfl, hform'⟩ := exists_head_of_readValue hw hv'
  have hconvert' := huniform hform hform' hw hw' hconvert
  rw [hread]
  exact readOf_of_eq_ok (hcomplete hform' hconvert') hconvert'

/-! ### Texts -/

/-- A text is told from its value. -/
theorem uniform_textOf : Uniform textOf := by
  intro h h' front front' v a hform hform' hw hw' hconvert
  cases h with
  | text s =>
    cases hw
    cases h' with
    | text s' =>
      cases hw'
      exact hconvert
    | _ => cases hw'
  | binary payload =>
    cases hw
    cases h' with
    | binary payload' =>
      cases hw'
      exact hconvert
    | badText payload' fault =>
      -- bytes that are announced as a text and are none are none as a byte string
      cases hw'
      have hbad : Text.Utf8.decode payload = .error fault := by
        cases hform' with
        | badShortText _ bad => exact bad
        | badText _ _ bad => exact bad
      rw [textOf, hbad] at hconvert
      cases hconvert
    | _ => cases hw'
  | _ => cases hconvert

/-- A text is read in any form. -/
theorem blind_text (v : Value) : text.Blind levels v := by
  refine blind_readOf rfl uniform_textOf ?_ id ?_ v
  · intro h front a hform hconvert
    cases h with
    | text s => rfl
    | binary payload => rfl
    | _ => cases hconvert
  · intro front h rest a hform hconvert
    refine hform.readHead ?_ rest
    cases h with
    | text s => exact nofun
    | binary payload => exact nofun
    | _ => cases hconvert

/-! ### Numbers and truth values -/

/-- A content that is converted from the heads of numbers and truth values is blind if its
conversion is uniform. -/
theorem blind_plain {c : Content α} {convert : Head → Except Error α}
    (hread : c.read levels = readOf readPlain convert) (huniform : Uniform convert)
    (hplain : ∀ {h front a}, Head.Form h front → convert h = .ok a → h.isPlain = true) (v : Value) :
    c.Blind levels v := by
  have hnests : ∀ {h : Head}, h.isPlain = true → h.nests = false := by
    intro h hh
    cases h with
    | array count => cases hh
    | map count => cases hh
    | extension length => cases hh
    | _ => rfl
  refine blind_readOf hread huniform (fun hform hconvert => hnests (hplain hform hconvert)) ?_ ?_ v
  · intro bytes h rest hr
    obtain ⟨hh, front, rfl, hform⟩ := of_readPlain_eq_ok hr
    exact hform.readHead (by rw [hnests hh]; exact nofun) rest
  · intro front h rest a hform hconvert
    exact hform.readPlain (hplain hform hconvert) rest

/-- The integer of a head, with or without a sign. -/
def integer? : Head → Option Int
  | .uint n => some n
  | .int k => some k
  | _ => none

/-- A content that is converted from the integer of its head is blind. -/
theorem blind_integer {c : Content α} {convert : Head → Except Error α} (of : Int → Except Error α)
    (hread : c.read levels = readOf readPlain convert)
    (hof : ∀ {h front a}, Head.Form h front →
      (convert h = .ok a ↔ ∃ k, integer? h = some k ∧ of k = .ok a)) (v : Value) :
    c.Blind levels v := by
  refine blind_plain hread ?_ ?_ v
  · intro h h' front front' v a hform hform' hw hw' hconvert
    obtain ⟨k, hk, ha⟩ := (hof hform).mp hconvert
    -- heads with an integer are the whole of a value, which tells the integer
    have hk' : integer? h' = some k := by
      cases h with
      | uint n => cases hk; cases hw; cases h' <;> cases hw' <;> rfl
      | int i => cases hk; cases hw; cases h' <;> cases hw' <;> rfl
      | _ => cases hk
    exact (hof hform').mpr ⟨k, hk', ha⟩
  · intro h front a hform hconvert
    obtain ⟨k, hk, -⟩ := (hof hform).mp hconvert
    cases h with
    | uint n => rfl
    | int k => rfl
    | _ => cases hk

/-- An integer that is not negative is read in any form. -/
theorem blind_word (v : Value) : word.Blind levels v := by
  refine blind_integer (fun k => wordOf (.int k)) rfl ?_ v
  intro h front a hform
  cases h with
  | uint n =>
    have hn : wordOf (.int n) = wordOf (.uint n) := by
      have hnot : ¬ (n : Int) < 0 := by omega
      simp only [wordOf, if_neg hnot, Int.toNat_natCast]
    simp [integer?, hn]
  | int k => simp [integer?]
  | _ =>
    constructor
    · intro hconvert
      cases hconvert
    · rintro ⟨_, ⟨⟩, -⟩

/-- An integer is read in any form. -/
theorem blind_signed (v : Value) : signed.Blind levels v := by
  refine blind_integer (fun k => if k < 2 ^ 63 then signedOf (.int k) else
    .error (.wrongValue (.integer k) "i64")) rfl ?_ v
  intro h front a hform
  cases h with
  | uint n =>
    have hn : (if (n : Int) < 2 ^ 63 then signedOf (.int n) else
        .error (.wrongValue (.integer n) "i64")) = signedOf (.uint n) := by
      have hcast : (n : Int) < 2 ^ 63 ↔ n < 2 ^ 63 := by omega
      simp only [hcast, signedOf]
    simp only [integer?, Option.some.injEq, exists_eq_left', hn]
  | int k =>
    -- an integer with a sign has eight bytes at most, so it is never too large
    have hk : -2 ^ 63 ≤ k ∧ k < 2 ^ 63 := hform.bounded
    simp only [integer?, Option.some.injEq, exists_eq_left', if_pos hk.2]
  | _ =>
    constructor
    · intro hconvert
      cases hconvert
    · rintro ⟨_, ⟨⟩, -⟩

/-- A truth value is read in any form. -/
theorem blind_flag (v : Value) : flag.Blind levels v := by
  refine blind_plain rfl ?_ ?_ v
  · intro h h' front front' v a hform hform' hw hw' hconvert
    cases h with
    | bool b =>
      cases hw
      cases h' with
      | bool b' =>
        cases hw'
        exact hconvert
      | _ => cases hw'
    | _ => cases hconvert
  · intro h front a hform hconvert
    cases h with
    | bool b => rfl
    | _ => cases hconvert

/-! ### Optional contents and nested lists -/

/-- The byte of nil is read as nil. -/
theorem readValue_nil (levels : Nat) (rest : Bytes) :
    readValue levels (0xc0 :: rest) = .ok (.nil, rest) :=
  readValue_of_whole (Head.Form.nil.readHead nofun rest) rfl

/-- Only the byte of nil is read as nil. -/
theorem eq_of_readValue_nil {bytes rest : Bytes}
    (hv : readValue levels bytes = .ok (.nil, rest)) : bytes = 0xc0 :: rest := by
  obtain ⟨-, front, rfl, hform⟩ := readValue_eq_ok_iff.mp hv
  cases hform with
  | @whole h _ _ value head =>
    cases h with
    | nil =>
      cases head
      rfl
    | _ => cases value

/-- What may be nil is read in any form if the content is. -/
theorem Blind.optional {c : Content α} {v : Value} (h : c.Blind levels v) :
    c.optional.Blind levels v := by
  intro bytes rest mid o hv hr
  rcases of_optional_eq_ok hr with ⟨rfl, rfl⟩ | ⟨a, ha, rfl⟩
  · cases (readValue_nil levels mid).symm.trans hv
    refine ⟨rfl, ?_⟩
    intro bytes' rest' hv'
    rw [eq_of_readValue_nil hv']
    rfl
  · obtain ⟨rfl, htakes⟩ := h hv ha
    refine ⟨rfl, ?_⟩
    intro bytes' rest' hv'
    have hsome := Reader.map_of_eq_ok (htakes hv') some
    simp only [Content.optional]
    split
    · -- another form of the value would be nil, but this one was not read as nil
      cases (readValue_nil levels _).symm.trans hv'
      rw [eq_of_readValue_nil hv] at hr
      cases hr
    · exact hsome

/-- Nested lists are read in any form, since they are read from a value. -/
theorem blind_nested (v : Value) : Nested.content.Blind levels v := by
  intro bytes rest mid x hv hr
  simp only [Nested.content, hv] at hr
  split at hr
  · rename_i y hy
    cases hr
    refine ⟨rfl, ?_⟩
    intro bytes' rest' hv'
    simp only [Nested.content, hv', hy]
  · cases hr

end Content

end Rollout.MsgPack
