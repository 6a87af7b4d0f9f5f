/-
# Reading requests back

The bytes of a request are read twice, once for the method and once for the
parameters; each reading passes over the entry of the other one.  A request fits
if its name can be written and its actions are nested no deeper than the reader
goes, and this is all that it takes to be read back.  Every request that is read,
from whatever bytes, fits.
-/
import Rollout.Wire.Request
import Rollout.Proofs.NestedValues
import Rollout.Proofs.RecordRoundTrip
import Rollout.Proofs.Sweep

namespace Rollout

theorem Method.short_name (m : Method) : (Text.Utf8.encode m.name).length < 2 ^ 32 := by
  cases m <;> decide

namespace Request

open MsgPack (Value Record Content maxLevels)
open Numeric (Double)

/-! ## Requests that fit -/

/-- The name of the environment can be written, and so can the actions, which are nested at most
`levels` deep. -/
def Fits (levels : Nat) : Request → Prop
  | .make p => (Text.Utf8.encode p.envName).length < 2 ^ 32
  | .step p => ∀ x, p.actions = some x → x.Fits levels
  | .info | .reset | .dynamics _ => True

theorem Fits.mono {n m : Nat} {r : Request} (h : r.Fits n) (hnm : n ≤ m) : r.Fits m := by
  cases r with
  | step p => exact fun x hx => (h x hx).mono hnm
  | _ => exact h

theorem fieldsFit_entryOf {levels : Nat} {α : Type} {name : String} {value : α → Value}
    {a : Option α} (short : (Text.Utf8.encode name).length < 2 ^ 32)
    (fits : ∀ b, a = some b → (value b).Fits levels) :
    Value.FieldsFit levels (entryOf name value a) := by
  cases a with
  | none => exact .nil
  | some b => exact .cons short (fits b rfl) .nil

theorem length_entryOf_le {α : Type} (name : String) (value : α → Value) (a : Option α) :
    (entryOf name value a).length ≤ 1 :=
  Option.length_toList_le

theorem length_paramEntries_lt (r : Request) : r.paramEntries.length < 2 ^ 32 := by
  cases r with
  | step p =>
    have hactions := length_entryOf_le "actions" (Nested.toValue .double) p.actions
    have haction := length_entryOf_le "action" (fun (a : Int64) => .int a.toInt) p.action
    rw [paramEntries, List.length_append, List.length_append, List.length_singleton]
    omega
  | info | reset => exact Nat.two_pow_pos 32
  | make p | dynamics p => exact (by decide : 2 < 2 ^ 32)

/-- The parameters of a request that fits are a value that fits. -/
theorem Fits.param {levels : Nat} {r : Request} (h : r.Fits levels) :
    (Value.record r.paramEntries).Fits (levels + 1) := by
  refine Value.FieldsFit.record ?_ r.length_paramEntries_lt
  cases r with
  | info | reset => exact .nil
  | make p => exact .cons (by decide) (.text h) (.cons (by decide) (.word p.count) .nil)
  | step p =>
    have hactions : Value.FieldsFit levels
        (entryOf "actions" (Nested.toValue .double) p.actions) :=
      fieldsFit_entryOf (by decide) fun x hx => (h x hx).toValue fun a n => .double a
    have haction : Value.FieldsFit levels
        (entryOf "action" (fun (a : Int64) => .int a.toInt) p.action) :=
      fieldsFit_entryOf (by decide) fun a _ => .signed a
    exact (hactions.append haction).append (.cons (by decide) (.bool p.render) .nil)
  | dynamics p => exact .cons (by decide) (.word p.state) (.cons (by decide) (.word p.action) .nil)

/-! ## Written parameters -/

section Parameters

variable {levels : Nat}

/-- An entry that may be absent leaves its field free or fills it. -/
theorem fills_entryOf {δ α β γ : Type} {r : Record δ α} {c : Content β} {name : String}
    {required : Bool} {value : γ → Value} {get : δ → Option β} {set : β → δ → δ} {a : Option γ}
    {d d' : δ} (short : (Text.Utf8.encode name).length < 2 ^ 32)
    (named : r.named? name = some (c.field name required get set)) (free : get d = none)
    (absent : a = none → d = d')
    (present : ∀ x, a = some x → ∃ b, c.ReadsBack levels (value x) b ∧ set b d = d') :
    r.Fills levels (entryOf name value a) d d' := by
  cases a with
  | none =>
    rw [absent rfl]
    exact .nil d'
  | some x =>
    obtain ⟨b, hback, rfl⟩ := present x rfl
    have hfree : (c.field name required get set).filled d = false :=
      congrArg Option.isSome free
    exact .filled short named hfree (hback.fill d) (.nil _)

/-- An integer is read back where nil may stand in its place. -/
theorem readsBack_optional_signed (a : Int64) :
    (Content.optional Content.signed).ReadsBack levels (.int a.toInt) (some a) := by
  obtain ⟨b, bytes, hwrite, hb⟩ := (Value.Fits.signed (n := levels) a).exists_cons nofun
  exact (Content.readsBack_signed a).optional hwrite hb

/-! ### The parameters of a method

In each of them the entries fill the draft one after another, and the record is made
of the draft that is full. -/

/-- The parameters of `make` are read back. -/
theorem readsBack_make {p : MakeParam} (h : (Request.make p).Fits levels) :
    makeRecord.content.ReadsBack (levels + 1) (.record (paramEntries (.make p))) p :=
  Record.readsBack_pair (by decide) (by decide) (by decide) (Content.readsBack_text h)
    (Content.readsBack_word p.count)

/-- The entries of a step after its actions. -/
def afterActions (p : StepParam) : List (String × Value) :=
  entryOf "action" (fun (a : Int64) => .int a.toInt) p.action ++ [("render", .bool p.render)]

theorem paramEntries_step (p : StepParam) : paramEntries (.step p)
    = entryOf "actions" (Nested.toValue .double) p.actions ++ afterActions p :=
  List.append_assoc _ _ _

/-- After the actions, the entries of a step fill the rest of the draft. -/
theorem fills_afterActions (p : StepParam) (actions : Option (Option (Nested Double))) :
    stepRecord.Fills levels (afterActions p)
      ⟨actions, none, none⟩ ⟨actions, p.action.map some, some p.render⟩ := by
  have haction : stepRecord.Fills levels
      (entryOf "action" (fun (a : Int64) => .int a.toInt) p.action)
      ⟨actions, none, none⟩ ⟨actions, p.action.map some, none⟩ := by
    refine fills_entryOf (by decide) rfl rfl (fun hnone => by rw [hnone]; rfl) ?_
    intro a ha
    exact ⟨some a, readsBack_optional_signed a, by rw [ha]; rfl⟩
  exact haction.append
    (.filled (by decide) rfl rfl ((Content.readsBack_flag p.render).fill _) (.nil _))

/-- The parameters of a step are read back. -/
theorem readsBack_step {p : StepParam} (h : (Request.step p).Fits levels) :
    stepRecord.content.ReadsBack (levels + 1) (.record (paramEntries (.step p))) p := by
  have hactions : stepRecord.Fills levels (entryOf "actions" (Nested.toValue .double) p.actions)
      stepRecord.empty ⟨p.actions.map some, none, none⟩ := by
    refine fills_entryOf (by decide) rfl rfl (fun hnone => by rw [hnone]; rfl) ?_
    intro x hx
    exact ⟨some x, Nested.readsBack_content (h x hx), by rw [hx]; rfl⟩
  have hfills : stepRecord.Fills levels (paramEntries (.step p)) stepRecord.empty
      ⟨p.actions.map some, p.action.map some, some p.render⟩ := by
    rw [paramEntries_step]
    exact hactions.append (fills_afterActions p _)
  refine hfills.readsBack (length_paramEntries_lt (.step p)) ?_
  -- an optional content that is there is not nil
  have hjoin : ∀ {α : Type} (a : Option α), (a.map some).join = a := by
    intro α a
    cases a with
    | none => rfl
    | some a => rfl
  show Except.ok (StepParam.mk (p.actions.map some).join (p.action.map some).join p.render) = _
  rw [hjoin, hjoin]

/-- The parameters of a question are read back. -/
theorem readsBack_dynamics (p : DynamicsParam) :
    dynamicsRecord.content.ReadsBack (levels + 1) (.record (paramEntries (.dynamics p))) p :=
  Record.readsBack_pair (by decide) (by decide) (by decide) (Content.readsBack_word p.state)
    (Content.readsBack_word p.action)

end Parameters

/-! ## Written requests -/

/-- What is read back is what bytes are decoded to. -/
theorem decodeRecord_write {δ α : Type} {r : Record δ α} {v : Value} {a : α}
    (h : r.content.ReadsBack maxLevels v a) : decodeRecord r v.write = .ok a := by
  rw [decodeRecord, Record.read_write h]

section Entries

variable {m : Method} {ps : List (String × Value)}

/-- The name of the method is found in the request. -/
theorem readsBack_header (h : (Value.record ps).Fits 1022) :
    header.content.ReadsBack maxLevels (.record [("method", .text m.name), ("param", .record ps)])
      m.name := by
  -- the parameters have no field in the header, so they are passed over
  have hfills : header.Fills 1022 [("method", .text m.name), ("param", .record ps)] none
      (some m.name) :=
    .filled (by decide) rfl rfl ((Content.readsBack_text m.short_name).fill none)
      (.passed (by decide) rfl h (.nil _))
  exact hfills.readsBack (by decide : 2 < 2 ^ 32) rfl

/-- Parameters that are read back are found in the request. -/
theorem decodeParam_write {δ α : Type} {param : Record δ α} {a : α}
    (h : param.content.ReadsBack 1022 (.record ps) a) :
    decodeParam param (Value.record [("method", .text m.name), ("param", .record ps)]).write
      = .ok a := by
  have hfills : (envelope param).Fills 1022
      [("method", .text m.name), ("param", .record ps)] none (some a) :=
    .passed (by decide) rfl (.text m.short_name)
      (.filled (by decide) rfl rfl (h.fill none) (.nil _))
  exact decodeRecord_write (hfills.readsBack (by decide : 2 < 2 ^ 32) rfl)

/-- A step whose parameters are read back is decoded. -/
theorem decode_write_step {p : StepParam} (hfits : (Value.record ps).Fits 1022)
    (h : stepRecord.content.ReadsBack 1022 (.record ps) p) :
    decode (Value.record [("method", .text Method.step.name), ("param", .record ps)]).write
      = .ok (.step p) := by
  have hheader := decodeRecord_write (readsBack_header (m := .step) hfits)
  have hparam := decodeParam_write (m := .step) h
  simp only [decode, hheader, Method.ofName?_name, hparam]
  rfl

end Entries

/-- Every request that fits is read back. -/
theorem Fits.decode_encode {r : Request} (h : r.Fits 1021) : decode r.encode = .ok r := by
  have hheader : decodeRecord header r.encode = .ok r.method.name :=
    decodeRecord_write (readsBack_header h.param)
  have hparam : ∀ {δ α : Type} {param : Record δ α} {a : α},
      param.content.ReadsBack 1022 (.record r.paramEntries) a →
        decodeParam param r.encode = .ok a := fun hback => decodeParam_write hback
  simp only [decode, hheader, Method.ofName?_name]
  cases r with
  | info => rfl
  | make p =>
    simp only [method, hparam (readsBack_make h)]
    rfl
  | reset => rfl
  | step p =>
    simp only [method, hparam (readsBack_step h)]
    rfl
  | dynamics p =>
    simp only [method, hparam (readsBack_dynamics p)]
    rfl

/-! ## Decoded requests -/

/-- A request whose header cannot be read is refused with the error of the reader. -/
theorem decode_of_header_error {bytes : Bytes} {e : MsgPack.Error}
    (h : header.read maxLevels bytes = .error e) : decode bytes = .error (.undecodable e) := by
  simp only [decode, decodeRecord, h]

/-- What is decoded as a record has the property of all that it gives. -/
theorem of_decodeRecord_eq_ok {δ α : Type} {r : Record δ α} {Q : α → Prop}
    (hr : r.content.Gives maxLevels Q) {bytes : Bytes} {a : α}
    (h : decodeRecord r bytes = .ok a) : Q a := by
  rw [decodeRecord] at h
  split at h
  · cases h
  · rename_i a' rest hread
    cases h
    exact hr.read hread

/-- An envelope gives what its parameters give, one level further out. -/
theorem gives_envelope {δ α : Type} {param : Record δ α} {levels : Nat} {Q : α → Prop}
    (h : param.content.Gives levels Q) : (envelope param).content.Gives (levels + 1) Q := by
  refine Record.gives_content (P := fun o => ∀ a, o = some a → Q a) nofun ?_ ?_
  · intro f hf
    cases List.mem_singleton.mp hf
    refine h.keeps ?_
    rintro _ a - ha _ ⟨⟩
    exact ha
  · intro d a hd ha
    cases d with
    | none => cases ha
    | some b => exact hd a (congrArg some (Except.ok.inj ha))

/-- The name in the parameters of `make` was a text of the bytes. -/
theorem gives_makeRecord (levels : Nat) : makeRecord.content.Gives levels fun p =>
    (Text.Utf8.encode p.envName).length < 2 ^ 32 := by
  refine Record.gives_content
    (P := fun d => ∀ s, d.1 = some s → (Text.Utf8.encode s).length < 2 ^ 32) nofun ?_ ?_
  · intro f hf
    simp only [makeRecord, Record.pair, List.mem_cons, List.not_mem_nil, or_false] at hf
    rcases hf with rfl | rfl
    · refine (Content.gives_text _).keeps ?_
      rintro d s - hs _ ⟨⟩
      exact hs
    · exact (Content.gives_true _ _).keeps fun hd _ => hd
  · rintro ⟨envName, count⟩ p hd hp
    cases envName with
    | none => cases hp
    | some s =>
      cases count with
      | none => cases hp
      | some n =>
        cases hp
        exact hd s rfl

/-- The actions in the parameters of `step` were read one level further in. -/
theorem gives_stepRecord (levels : Nat) : stepRecord.content.Gives (levels + 1) fun p =>
    ∀ x, p.actions = some x → x.Fits levels := by
  refine Record.gives_content
    (P := fun d => ∀ x, d.actions = some (some x) → x.Fits levels) nofun ?_ ?_
  · intro f hf
    simp only [stepRecord, List.mem_cons, List.not_mem_nil, or_false] at hf
    rcases hf with rfl | rfl | rfl
    · refine (Nested.gives_content levels).optional.keeps ?_
      rintro d o - ho x ⟨⟩
      exact ho x rfl
    · exact (Content.gives_true _ _).keeps fun hd _ => hd
    · exact (Content.gives_true _ _).keeps fun hd _ => hd
  · rintro d p hd hp x hx
    cases hp
    exact hd x (Option.join_eq_some_iff.mp hx)

/-- Every request that is decoded fits. -/
theorem fits_of_decode_eq_ok {bytes : Bytes} {r : Request} (h : decode bytes = .ok r) :
    r.Fits 1021 := by
  rw [decode] at h
  split at h
  · cases h
  split at h
  · cases h
  · cases h
    trivial
  · obtain ⟨p, hp, rfl⟩ := map_eq_ok_iff.mp h
    exact of_decodeRecord_eq_ok (gives_envelope (gives_makeRecord 1022)) hp
  · cases h
    trivial
  · obtain ⟨p, hp, rfl⟩ := map_eq_ok_iff.mp h
    exact of_decodeRecord_eq_ok (gives_envelope (gives_stepRecord 1021)) hp
  · obtain ⟨p, -, rfl⟩ := map_eq_ok_iff.mp h
    trivial

/-- A request is told from its bytes. -/
theorem decode_eq_ok_of_encode {bytes : Bytes} {r : Request} (hr : r.Fits 1021)
    (h : (decode bytes).toOption.map encode = some r.encode) : decode bytes = .ok r := by
  rcases hb : decode bytes with e | r'
  · rw [hb] at h
    cases h
  · rw [hb] at h
    have hencode : r'.encode = r.encode := Option.some.inj h
    rw [← (fits_of_decode_eq_ok hb).decode_encode, hencode, hr.decode_encode]

/-! ## Both ways -/

/-- **A request is read back exactly if it fits**, so also if its actions are nested a thousand
deep, and whatever is decoded from any bytes is read back from its own. -/
theorem decode_encode_iff_fits :
    (∀ r : Request, r.Fits 1000 → decode r.encode = .ok r) ∧
    (∀ r : Request, decode r.encode = .ok r ↔ r.Fits 1021) ∧
    ∀ (bytes : Bytes) (r : Request), decode bytes = .ok r → decode r.encode = .ok r := by
  refine ⟨?_, ?_, ?_⟩
  · intro r h
    exact (h.mono (by decide)).decode_encode
  · intro r
    exact ⟨fits_of_decode_eq_ok, Fits.decode_encode⟩
  · intro bytes r h
    exact (fits_of_decode_eq_ok h).decode_encode

/-- A step of two rows, one of them empty. -/
def unevenStep : Request :=
  .step ⟨some (.list [.list [.scalar ⟨0x3ff0000000000000⟩], .list []]), none, false⟩

/-- A request for three walls in an unusual form: the method is a byte string, the parameters come
in another order and with one more, their number is an integer of two bytes, and a byte is left
over. -/
def looseMake : Bytes :=
  [0x82, 0xa6] ++ Text.Utf8.encode "method" ++ [0xc4, 0x04] ++ Text.Utf8.encode "make"
    ++ [0xa5] ++ Text.Utf8.encode "param" ++ [0x83, 0xa8] ++ Text.Utf8.encode "num_envs"
    ++ [0xd1, 0x00, 0x03, 0xa1] ++ Text.Utf8.encode "?" ++ [0x91, 0xc0, 0xa8]
    ++ Text.Utf8.encode "env_name" ++ [0xa4] ++ Text.Utf8.encode "Wall" ++ [0xc1]

theorem decode_encode_iff_fits_unevenStep :
    (unevenStep.Fits 1000 ∧ decode unevenStep.encode = .ok unevenStep) ∧
    decode looseMake = .ok (.make ⟨"Wall", 3⟩) ∧
    decode (Request.make ⟨"Wall", 3⟩).encode = .ok (.make ⟨"Wall", 3⟩) := by
  have hfits : unevenStep.Fits 1000 := by
    rintro _ ⟨⟩
    refine .list (by decide) ?_
    intro row hrow
    simp only [List.mem_cons, List.not_mem_nil, or_false] at hrow
    rcases hrow with rfl | rfl
    · refine .list (by decide) ?_
      intro i hi
      cases List.mem_singleton.mp hi
      exact .scalar _
    · exact .list (by decide) nofun
  have hmake : decode (Request.make ⟨"Wall", 3⟩).encode = .ok (.make ⟨"Wall", 3⟩) :=
    decode_encode_iff_fits.1 _ (by decide : (Text.Utf8.encode "Wall").length < 2 ^ 32)
  -- it is read as a request that is written as this one is, so it is this one
  have hwritten : (decode looseMake).toOption.map Request.encode
      = some (Request.make ⟨"Wall", 3⟩).encode := by decide +kernel
  have hdecode : decode looseMake = .ok (.make ⟨"Wall", 3⟩) := by
    rcases hloose : decode looseMake with e | r
    · rw [hloose] at hwritten
      cases hwritten
    · rw [hloose] at hwritten
      have hencode : r.encode = (Request.make ⟨"Wall", 3⟩).encode := Option.some.inj hwritten
      rw [← decode_encode_iff_fits.2.2 looseMake r hloose, hencode, hmake]
  exact ⟨⟨hfits, decode_encode_iff_fits.1 unevenStep hfits⟩, hdecode,
    decode_encode_iff_fits.2.2 looseMake _ hdecode⟩

end Request

end Rollout
