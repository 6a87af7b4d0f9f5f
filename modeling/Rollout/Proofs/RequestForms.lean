/-
# Requests in any form

Clients write the same request in different ways: they choose the widths of integers
and lengths, the order of the entries, and may add entries of their own.  Bytes that
are the same request in another way are decoded to the same request:
`decode_of_sameRequest`.
-/
import Rollout.Proofs.RecordForms
import Rollout.Proofs.RequestRoundTrip

namespace Rollout.Request

open MsgPack
open MsgPack.Record (atKeys)

variable {δ α : Type} {levels : Nat}

/-! ## The records of requests -/

/-! ### Their fields are blind -/

/-- The method is read in any form. -/
theorem blind_header : ∀ f ∈ header.fields, ∀ v, f.Blind levels v :=
  List.forall_mem_singleton.mpr fun v => (Content.blind_text v).field

/-- The parameters of `make` are read in any form. -/
theorem blind_makeRecord : ∀ f ∈ makeRecord.fields, ∀ v, f.Blind levels v :=
  Record.blind_pair Content.blind_text Content.blind_word

/-- The parameters of `step` are read in any form. -/
theorem blind_stepRecord : ∀ f ∈ stepRecord.fields, ∀ v, f.Blind levels v := by
  intro f hf v
  simp only [stepRecord, List.mem_cons, List.not_mem_nil, or_false] at hf
  rcases hf with rfl | rfl | rfl
  · exact (Content.blind_nested v).optional.field
  · exact (Content.blind_signed v).optional.field
  · exact (Content.blind_flag v).field

/-- The parameters of `dynamics` are read in any form. -/
theorem blind_dynamicsRecord : ∀ f ∈ dynamicsRecord.fields, ∀ v, f.Blind levels v :=
  Record.blind_pair Content.blind_word Content.blind_word

/-! ### They are orderly -/

/-- The header has one field. -/
theorem orderly_header : header.Orderly where
  marks := List.forall_mem_singleton.mpr (Content.marks_field fun _ _ => rfl)
  apart := List.pairwise_singleton _ _

/-- The envelope has one field. -/
theorem orderly_envelope (param : Record δ α) : (envelope param).Orderly where
  marks := List.forall_mem_singleton.mpr (Content.marks_field fun _ _ => rfl)
  apart := List.pairwise_singleton _ _

instance : Nonempty StepDraft := ⟨stepRecord.empty⟩

/-- The order of the parameters of `step` makes no difference. -/
theorem orderly_stepRecord : stepRecord.Orderly where
  marks := by
    refine List.forall_mem_cons.mpr ⟨?_, List.forall_mem_cons.mpr
      ⟨?_, List.forall_mem_singleton.mpr ?_⟩⟩
    · exact Content.marks_field fun _ _ => rfl
    · exact Content.marks_field fun _ _ => rfl
    · exact Content.marks_field fun _ _ => rfl
  apart := by
    refine List.pairwise_cons.mpr ⟨List.forall_mem_cons.mpr ⟨?_, List.forall_mem_singleton.mpr ?_⟩,
      List.pairwise_pair.mpr ?_⟩
    · exact Content.apart_field (fun _ _ _ => rfl) (fun _ _ => rfl) fun _ _ => rfl
    · exact Content.apart_field (fun _ _ _ => rfl) (fun _ _ => rfl) fun _ _ => rfl
    · exact Content.apart_field (fun _ _ _ => rfl) (fun _ _ => rfl) fun _ _ => rfl

/-! ## Same entries -/

/-- The entries with these keys are the same up to their order, and what the other entries of the
second list hold is nested no deeper than a reader goes. -/
structure SameAt (keys : List String) (es es' : List (String × Value)) : Prop where
  same : (atKeys keys es).Perm (atKeys keys es')
  others : ∀ e ∈ es', keys.contains e.1 = false → e.2.Fits 1021

/-- The names of the parameters of a method. -/
def paramKeys : Method → List String
  | .info | .reset => []
  | .make => makeRecord.names
  | .step => stepRecord.names
  | .dynamics => dynamicsRecord.names

/-- Two maps are the same request, which has this method: they agree on the entries that the
method needs. -/
inductive SameRequest : Method → (es es' : List (String × Value)) → Prop
  /-- The method needs no parameters. -/
  | plain {m : Method} {es es' : List (String × Value)} (method : m = .info ∨ m = .reset)
    (same : SameAt ["method"] es es') : SameRequest m es es'
  /-- The parameters are maps, which agree on the fields of the method. -/
  | param {m : Method} {es es' ps ps' : List (String × Value)} {v : Value}
    (first : (atKeys ["method", "param"] es).Perm [("method", v), ("param", .record ps)])
    (second : (atKeys ["method", "param"] es').Perm [("method", v), ("param", .record ps')])
    (others : ∀ e ∈ es', ["method", "param"].contains e.1 = false → e.2.Fits 1021)
    (params : SameAt (paramKeys m) ps ps') : SameRequest m es es'

/-- A map that agrees with one that fits fits. -/
theorem SameAt.fits {keys : List String} {es es' : List (String × Value)} (h : SameAt keys es es')
    {n m : Nat} (hn : 1021 ≤ n) (hes : Value.FieldsFit n es) (hes' : (Value.record es').Fits m) :
    (Value.record es').Fits (n + 1) := by
  obtain ⟨hfields, hlength⟩ := Value.FieldsFit.of_record (hes'.mono m.le_succ)
  refine Value.FieldsFit.record ?_ hlength
  intro e he
  refine ⟨(hfields e he).1, ?_⟩
  rcases hkey : keys.contains e.1 with _ | _
  · exact (h.others e he hkey).mono hn
  · have hmem := h.same.mem_iff.mpr (Record.mem_atKeys.mpr ⟨he, hkey⟩)
    exact (hes e (Record.mem_atKeys.mp hmem).1).2

/-! ## Parameters -/

/-- Records that agree on the fields are read alike. -/
theorem takes_of_sameAt {param : Record δ α} (ho : param.Orderly)
    (hblind : ∀ f ∈ param.fields, ∀ v, f.Blind 1021 v) {ps ps' : List (String × Value)}
    (hps : SameAt param.names ps ps') (hfits : (Value.record ps).Fits 1022) {a : α}
    (h : param.content.Takes 1022 (.record ps) a) : param.content.Takes 1022 (.record ps') a := by
  have hv := readValue_write hfits []
  obtain ⟨-, d, haccepts, ha⟩ := Record.accepts_of_read
    (fun e _ f hf => hblind f (Record.of_named?_eq_some hf).1 e.2) hv (h hv)
  exact (haccepts.of_same ho hps.same hps.others).takes ha

/-- The parameters are read from the second envelope as from the first one. -/
theorem read_envelope {param : Record δ α} (ho : param.Orderly)
    (hblind : ∀ f ∈ param.fields, ∀ v, f.Blind 1021 v) {es es' ps ps' : List (String × Value)}
    (hes : (atKeys ["param"] es).Perm [("param", .record ps)])
    (hes' : (atKeys ["param"] es').Perm [("param", .record ps')])
    (hps : SameAt param.names ps ps') {b b' rest : Bytes} {a : α}
    (hv : readValue maxLevels b = .ok (.record es, []))
    (hv' : readValue maxLevels b' = .ok (.record es', []))
    (hr : (envelope param).read maxLevels b = .ok (a, rest)) :
    (envelope param).read maxLevels b' = .ok (a, []) := by
  have hparam : (param.content).Blind 1022 (.record ps) := Record.blind_record
    fun e _ f hf => hblind f (Record.of_named?_eq_some hf).1 e.2
  have hnamed : ∀ e ∈ es, ∀ f, (envelope param).named? e.1 = some f → f.Blind 1022 e.2 := by
    intro e he f hf
    obtain ⟨hmem, hname⟩ := Record.of_named?_eq_some hf
    cases List.mem_singleton.mp hmem
    have hkey : ["param"].contains e.1 = true := List.contains_iff_mem.mpr
      (List.mem_singleton.mpr hname.symm)
    cases List.mem_singleton.mp (hes.mem_iff.mp (Record.mem_atKeys.mpr ⟨he, hkey⟩))
    exact hparam.field
  obtain ⟨-, d, haccepts, ha⟩ := Record.accepts_of_read hnamed hv hr
  have hsingle := haccepts.atNames.perm (orderly_envelope param) hes
  have hfit := (Value.FieldsFit.of_record (fits_of_readValue hv')).1
  have hmem' : ("param", Value.record ps') ∈ es' :=
    (Record.mem_atKeys.mp (hes'.mem_iff.mpr List.mem_cons_self)).1
  cases hsingle with
  | passed unnamed => cases unnamed
  | filled named free fits takes tail =>
    cases named
    cases tail
    obtain ⟨a', htakes, hset⟩ := Content.exists_takes_of_field hparam fits takes
      (envelope param).empty
    rw [← hset] at ha
    cases ha
    have htakes' := takes_of_sameAt ho hblind hps fits htakes
    have haccepts' : (envelope param).Accepts 1022 [("param", .record ps')] none (some a) :=
      .filled rfl rfl (hfit _ hmem').2 htakes'.field (.nil _)
    exact (haccepts'.of_same (orderly_envelope param) hes'.symm fun e he _ => (hfit e he).2).takes
      rfl hv'

/-- The method is read from the second envelope as from the first one. -/
theorem read_header {es es' : List (String × Value)}
    (hsame : (atKeys ["method"] es).Perm (atKeys ["method"] es')) {b b' rest : Bytes}
    {name : String}
    (hv : readValue maxLevels b = .ok (.record es, []))
    (hv' : readValue maxLevels b' = .ok (.record es', []))
    (hr : header.read maxLevels b = .ok (name, rest)) :
    header.read maxLevels b' = .ok (name, []) := by
  obtain ⟨-, d, haccepts, ha⟩ := Record.accepts_of_read
    (fun e _ f hf => blind_header f (Record.of_named?_eq_some hf).1 e.2) hv hr
  have hfit := (Value.FieldsFit.of_record (fits_of_readValue hv')).1
  exact (haccepts.of_same orderly_header hsame fun e he _ => (hfit e he).2).takes ha hv'

/-! ## Requests -/

/-- What the header reads is a value. -/
theorem readValue_of_read_header {es : List (String × Value)} {b rest : Bytes} {name : String}
    (hb : (Value.record es).Form b) (hr : header.read maxLevels b = .ok (name, rest)) :
    readValue maxLevels b = .ok (.record es, []) := by
  have hfields : ∀ f ∈ header.fields, ∀ {d d' bytes rest}, f.fill 1022 d bytes = .ok (d', rest) →
      ∃ v, readValue 1022 bytes = .ok (v, rest) := by
    intro f hf d d' bytes rest hfill
    cases List.mem_singleton.mp hf
    obtain ⟨s, hs, -⟩ := Reader.exists_of_map_eq_ok hfill
    obtain ⟨h, hhead, hconvert⟩ := Content.exists_of_readOf_eq_ok hs
    cases h with
    | text s => exact ⟨_, readValue_of_whole hhead rfl⟩
    | binary payload => exact ⟨_, readValue_of_whole hhead rfl⟩
    | _ => cases hconvert
  rw [← List.append_nil b] at hr ⊢
  exact Record.readValue_of_read hfields hb hr

/-- Two maps that are the same request agree on the method. -/
theorem SameRequest.header {m : Method} {es es' : List (String × Value)}
    (h : SameRequest m es es') : (atKeys ["method"] es).Perm (atKeys ["method"] es') := by
  cases h with
  | plain method same => exact same.same
  | @param ps ps' v first second others params =>
    have hsub : ∀ k ∈ ["method"], k ∈ ["method", "param"] := by decide
    exact (Record.atKeys_perm hsub first).trans (Record.atKeys_perm hsub second).symm

/-- A map that is the same request as one that fits fits. -/
theorem SameRequest.fits {m : Method} {es es' : List (String × Value)} (h : SameRequest m es es')
    (hes : Value.FieldsFit 1022 es) {n : Nat} (hes' : (Value.record es').Fits n) :
    (Value.record es').Fits 1023 := by
  cases h with
  | plain method same => exact same.fits (by decide) hes hes'
  | @param ps ps' v first second others params =>
    obtain ⟨hfields, hlength⟩ := Value.FieldsFit.of_record (hes'.mono n.le_succ)
    refine Value.FieldsFit.record ?_ hlength
    intro e he
    refine ⟨(hfields e he).1, ?_⟩
    rcases hkey : ["method", "param"].contains e.1 with _ | _
    · exact (others e he hkey).mono (by decide)
    · have hfirst : ∀ e ∈ [("method", v), ("param", Value.record ps)], e.2.Fits 1022 :=
        fun e he => (hes e (Record.mem_atKeys.mp (first.mem_iff.mpr he)).1).2
      have hmem := second.mem_iff.mp (Record.mem_atKeys.mpr ⟨he, hkey⟩)
      rcases List.mem_cons.mp hmem with rfl | hmem
      · exact hfirst _ List.mem_cons_self
      · cases List.mem_singleton.mp hmem
        have hps := hfirst _ (List.mem_cons_of_mem _ List.mem_cons_self)
        exact params.fits (Nat.le_refl 1021) (Value.FieldsFit.of_record hps).1 (hfields _ he).2

/-- Parameters that are decoded are read from an envelope. -/
theorem decodeParam_eq_ok_iff {param : Record δ α} {b : Bytes} {a : α} :
    decodeParam param b = .ok a ↔ ∃ rest, (envelope param).read maxLevels b = .ok (a, rest) := by
  rw [decodeParam, decodeRecord]
  rcases (envelope param).read maxLevels b with e | ⟨a', rest⟩
  · constructor
    · intro h
      cases h
    · rintro ⟨_, ⟨⟩⟩
  · constructor
    · rintro ⟨⟩
      exact ⟨rest, rfl⟩
    · rintro ⟨_, ⟨⟩⟩
      rfl

/-- The parameters of the second of two maps that are the same request are those of the first. -/
theorem SameRequest.decodeParam {m : Method} {es es' : List (String × Value)}
    (h : SameRequest m es es') (hm : ¬(m = .info ∨ m = .reset)) {param : Record δ α}
    (hkeys : paramKeys m = param.names) (ho : param.Orderly)
    (hblind : ∀ f ∈ param.fields, ∀ v, f.Blind 1021 v) {b b' : Bytes}
    (hv : readValue maxLevels b = .ok (.record es, []))
    (hv' : readValue maxLevels b' = .ok (.record es', [])) {a : α}
    (ha : Request.decodeParam param b = .ok a) : Request.decodeParam param b' = .ok a := by
  obtain ⟨rest, hr⟩ := decodeParam_eq_ok_iff.mp ha
  cases h with
  | plain method same => exact absurd method hm
  | @param ps ps' v first second others params =>
    have hsub : ∀ k ∈ ["param"], k ∈ ["method", "param"] := by decide
    rw [hkeys] at params
    exact decodeParam_eq_ok_iff.mpr ⟨[], read_envelope ho hblind (Record.atKeys_perm hsub first)
      (Record.atKeys_perm hsub second) params hv hv' hr⟩

/-- Bytes that hold a map that is the same request as one that fits are read as this map. -/
theorem readValue_of_sameRequest {m : Method} {es es' : List (String × Value)}
    (h : SameRequest m es es') (hes : Value.FieldsFit 1022 es) {b' : Bytes}
    (hb' : (Value.record es').Form b') : readValue maxLevels b' = .ok (.record es', []) := by
  obtain ⟨n, hn⟩ := hb'.exists_fits
  have hread := hb'.readValue (h.fits hes hn) []
  rwa [List.append_nil] at hread

/-- The second of two maps that are the same request is decoded like the first. -/
theorem decode_of_readValue {es es' : List (String × Value)} {r : Request}
    (hsame : SameRequest r.method es es') {b b' : Bytes}
    (hv : readValue maxLevels b = .ok (.record es, []))
    (hv' : readValue maxLevels b' = .ok (.record es', [])) (h : decode b = .ok r) :
    decode b' = .ok r := by
  rcases hname : header.read maxLevels b with e | ⟨name, rest⟩
  · rw [decode_of_header_error hname] at h
    cases h
  have hname' := read_header hsame.header hv hv' hname
  simp only [decode, decodeRecord, hname] at h
  simp only [decode, decodeRecord, hname']
  rcases hm : Method.ofName? name with _ | m
  · rw [hm] at h
    cases h
  · rw [hm] at h
    cases m with
    | info => exact h
    | make =>
      obtain ⟨p, hp, rfl⟩ := map_eq_ok_iff.mp h
      have hmethod : SameRequest .make es es' := hsame
      exact map_eq_ok_iff.mpr
        ⟨p, hmethod.decodeParam (by decide) rfl Record.orderly_pair blind_makeRecord hv hv' hp, rfl⟩
    | reset => exact h
    | step =>
      obtain ⟨p, hp, rfl⟩ := map_eq_ok_iff.mp h
      have hmethod : SameRequest .step es es' := hsame
      exact map_eq_ok_iff.mpr
        ⟨p, hmethod.decodeParam (by decide) rfl orderly_stepRecord blind_stepRecord hv hv' hp, rfl⟩
    | dynamics =>
      obtain ⟨p, hp, rfl⟩ := map_eq_ok_iff.mp h
      have hmethod : SameRequest .dynamics es es' := hsame
      exact map_eq_ok_iff.mpr ⟨p, hmethod.decodeParam (by decide) rfl Record.orderly_pair
        blind_dynamicsRecord hv hv' hp, rfl⟩

/-- **Requests are decoded alike in all their forms.**  Bytes that are another form of a request,
with other widths of its integers and lengths, another order of its entries, and other entries
besides those that the method needs, are decoded to the same request. -/
theorem decode_of_sameRequest {es es' : List (String × Value)} {b b' : Bytes} {r : Request}
    (hb : (Value.record es).Form b) (hb' : (Value.record es').Form b')
    (hsame : SameRequest r.method es es') (h : decode b = .ok r) : decode b' = .ok r := by
  rcases hname : header.read maxLevels b with e | ⟨name, rest⟩
  · rw [decode_of_header_error hname] at h
    cases h
  -- what the header reads is a value as a whole, so the levels suffice for it
  have hv := readValue_of_read_header hb hname
  have hfields := (Value.FieldsFit.of_record (fits_of_readValue hv)).1
  exact decode_of_readValue hsame hv (readValue_of_sameRequest hsame hfields hb') h

/-- The parameters of a question for state 7 and action 2, in another order than usual, with wider
integers and with an entry of the client's own. -/
def looseParam : Written :=
  [(("action", [0xd9, 0x06] ++ Text.Utf8.encode "action"), (.int 2, [0xd1, 0x00, 0x02])),
    (("?", [0xa1] ++ Text.Utf8.encode "?"), (.nil, [0xc0])),
    (("state", [0xa5] ++ Text.Utf8.encode "state"), (.int 7, [0xce, 0x00, 0x00, 0x00, 0x07]))]

/-- The question, with the parameters before the method. -/
def looseDynamics : Written :=
  [(("param", [0xa5] ++ Text.Utf8.encode "param"),
      (.record looseParam.entries, [0xde, 0x00, 0x03] ++ looseParam.bytes)),
    (("method", [0xa6] ++ Text.Utf8.encode "method"),
      (.text "dynamics", [0xda, 0x00, 0x08] ++ Text.Utf8.encode "dynamics"))]

/-- The question has one of the forms of its entries. -/
theorem form_looseDynamics :
    (Value.record looseDynamics.entries).Form ([0x82] ++ looseDynamics.bytes) := by
  have hname : (Text.Utf8.encode "dynamics").length < 256 ^ 2 ^ 1 := by decide
  have hparam : (Value.record looseParam.entries).Form
      ([0xde, 0x00, 0x03] ++ looseParam.bytes) := by
    refine Written.form (.map (k := 0) (n := 3) (by decide) (by decide)) ?_ ?_
    · refine List.forall_mem_cons.mpr ⟨.text (k := 0) (by decide) (by decide), ?_⟩
      exact List.forall_mem_cons.mpr
        ⟨.shortText (by decide), List.forall_mem_singleton.mpr (.shortText (by decide))⟩
    · refine List.forall_mem_cons.mpr
        ⟨.whole rfl (.int (k := 1) (n := 2) (by decide) (by decide)), ?_⟩
      exact List.forall_mem_cons.mpr ⟨.whole rfl .nil, List.forall_mem_singleton.mpr
        (.whole rfl (.uint (k := 2) (n := 7) (by decide) (by decide)))⟩
  refine Written.form (.shortMap (n := 2) (by decide)) ?_ ?_
  · exact List.forall_mem_cons.mpr
      ⟨.shortText (by decide), List.forall_mem_singleton.mpr (.shortText (by decide))⟩
  · exact List.forall_mem_cons.mpr ⟨hparam, List.forall_mem_singleton.mpr
      (.whole rfl (.text (k := 1) (by decide) hname))⟩

/-- The loose request is the same as the usual one. -/
theorem sameRequest_looseDynamics : SameRequest .dynamics
    [("method", .text "dynamics"), ("param", .record [("state", .int 7), ("action", .int 2)])]
    looseDynamics.entries := by
  have hparams : SameAt dynamicsRecord.names [("state", .int 7), ("action", .int 2)]
      looseParam.entries := by
    refine ⟨.swap _ _ _, ?_⟩
    refine List.forall_mem_cons.mpr ⟨nofun, List.forall_mem_cons.mpr
      ⟨fun _ => .nil, List.forall_mem_singleton.mpr nofun⟩⟩
  refine .param (.refl _) (.swap _ _ _) ?_ hparams
  exact List.forall_mem_cons.mpr ⟨nofun, List.forall_mem_singleton.mpr nofun⟩

/-- The question is decoded like the usual one. -/
theorem decode_of_sameRequest_looseDynamics :
    (Request.dynamics ⟨7, 2⟩).toValue.Form (Request.dynamics ⟨7, 2⟩).encode ∧
    (Value.record looseDynamics.entries).Form ([0x82] ++ looseDynamics.bytes) ∧
    decode (Request.dynamics ⟨7, 2⟩).encode = .ok (.dynamics ⟨7, 2⟩) ∧
    decode ([0x82] ++ looseDynamics.bytes) = .ok (.dynamics ⟨7, 2⟩) := by
  have hfits : (Request.dynamics ⟨7, 2⟩).Fits 1021 := trivial
  have hvalue : (Request.dynamics ⟨7, 2⟩).toValue.Fits 1023 :=
    (Value.FieldsFit.cons (by decide) (.text (by decide))
      (.cons (by decide) hfits.param .nil)).record (by decide)
  have hdecode := hfits.decode_encode
  exact ⟨hvalue.form_write, form_looseDynamics, hdecode, decode_of_sameRequest
    hvalue.form_write form_looseDynamics sameRequest_looseDynamics hdecode⟩

end Rollout.Request
