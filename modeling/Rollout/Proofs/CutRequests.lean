/-
# Requests that are cut off

A request that is cut off anywhere is not decoded.  Its readers are steady, so if they
took a part of the bytes they would take the same from all of them; but they take
either all of a request or nothing.  Lists that are too long to be announced make no
exception: the items that are left over stand where a key should begin.  The name of
an environment that is too long does make one (`cut_longMake_is_decoded`).
-/
import Rollout.Proofs.RequestRoundTrip
import Rollout.Proofs.ServerCalls
import Rollout.Proofs.SteadyReading

namespace Rollout

open MsgPack

/-! ## Long lists -/

namespace Nested

open Numeric (Double)

theorem encode_list (items : List (Nested Double)) :
    encode (.list items) = Value.arrayHeader items.length ++ items.flatMap encode := by
  rw [encode, toValue, Value.write, Value.writeAll_eq, toValues_eq_map, List.length_map,
    List.flatMap_map]
  rfl

theorem readValue_scalar (levels : Nat) (x : Double) (rest : Bytes) :
    readValue levels (encode (.scalar x) ++ rest) = .ok (.double x, rest) := by
  rw [encode, toValue, Value.write]
  exact readValue_of_whole ((Head.Form.double x).readHead (fun h => by cases h) rest) rfl

/-- What the reader takes from written lists ends where one of them ends, and it is one list of
them at most. -/
def TakesOne (read : Reader Value) : Prop :=
  ∀ ⦃x : Nested Double⦄ ⦃xs : List (Nested Double)⦄ ⦃tail rest : Bytes⦄ ⦃v : Value⦄,
    read ((x :: xs).flatMap encode ++ tail) = .ok (v, rest) →
      ∃ ys : List (Nested Double), rest = ys.flatMap encode ++ tail ∧ xs.length ≤ ys.length

/-- Reading several values takes one of the lists for each of them at most. -/
theorem TakesOne.readMany {read : Reader Value} (h : TakesOne read) {count : Nat}
    {xs : List (Nested Double)} (hcount : count ≤ xs.length) {tail rest : Bytes} {vs : List Value}
    (hr : readMany read count (xs.flatMap encode ++ tail) = .ok (vs, rest)) :
    ∃ ys : List (Nested Double),
      rest = ys.flatMap encode ++ tail ∧ xs.length ≤ ys.length + count := by
  induction count generalizing xs vs with
  | zero =>
    cases hr
    exact ⟨xs, rfl, Nat.le_refl _⟩
  | succ count ih =>
    cases xs with
    | nil => cases hcount
    | cons x xs =>
      rw [MsgPack.readMany] at hr
      split at hr
      · cases hr
      · rename_i v mid hv
        obtain ⟨zs, rfl, hzs⟩ := h hv
        obtain ⟨vs, hvs, -⟩ := Reader.exists_of_map_eq_ok hr
        rw [List.length_cons] at hcount
        obtain ⟨ys, rfl, hys⟩ := ih (by omega) hvs
        refine ⟨ys, rfl, ?_⟩
        rw [List.length_cons]
        omega

/-- A written list announces no more items than it has, so no more are taken. -/
theorem takesOne_readValue (levels : Nat) : TakesOne (readValue levels) := by
  induction levels with
  | zero =>
    intro x xs tail rest v hr
    rw [List.flatMap_cons, List.append_assoc] at hr
    cases x with
    | scalar a =>
      rw [readValue_scalar] at hr
      cases hr
      exact ⟨xs, rfl, Nat.le_refl _⟩
    | list items =>
      obtain ⟨h, mid, hhead, -⟩ := readValue_cases hr
      rw [encode_list, List.append_assoc] at hhead
      obtain ⟨rfl, -⟩ := (Value.form_arrayHeader_written items.length).eq_of_readHead hhead
      exact absurd rfl ((of_readHead_eq_ok hhead).1 rfl)
  | succ n ih =>
    intro x xs tail rest v hr
    rw [List.flatMap_cons, List.append_assoc] at hr
    cases x with
    | scalar a =>
      rw [readValue_scalar] at hr
      cases hr
      exact ⟨xs, rfl, Nat.le_refl _⟩
    | list items =>
      have hhead := (Value.form_arrayHeader_written items.length).readHead (fun _ => n.succ_ne_zero)
        (items.flatMap encode ++ (xs.flatMap encode ++ tail))
      rw [encode_list, List.append_assoc, readValue_of_array hhead, ← List.append_assoc,
        ← List.flatMap_append] at hr
      obtain ⟨vs, hvs, -⟩ := Reader.exists_of_map_eq_ok hr
      have hwritten : Value.writtenLength items.length ≤ items.length := Nat.mod_le _ _
      have hlength : (items ++ xs).length = items.length + xs.length := List.length_append
      obtain ⟨ys, rfl, hys⟩ := ih.readMany (by omega) hvs
      exact ⟨ys, rfl, by omega⟩

/-- Written lists are no key. -/
theorem readEntry_ne_ok {δ α : Type} {r : Record δ α} {levels : Nat} {d d' : δ}
    {x : Nested Double} {bytes rest : Bytes} :
    r.readEntry levels d (encode x ++ bytes) ≠ .ok (d', rest) := by
  intro h
  obtain ⟨key, mid, f, hhead, hf⟩ := Record.exists_key_of_readEntry_eq_ok h
  cases x with
  | scalar a =>
    rw [encode, toValue, Value.write] at hhead
    obtain ⟨rfl, -⟩ := (Head.Form.double a).eq_of_readHead hhead
    cases hf
  | list items =>
    rw [encode_list, List.append_assoc] at hhead
    obtain ⟨rfl, -⟩ := (Value.form_arrayHeader_written items.length).eq_of_readHead hhead
    cases hf

end Nested

namespace Request

open Numeric (Double)

variable {δ α : Type} {levels : Nat}

/-! ## Written requests to the end -/

/-- Lists of actions leave a part of themselves for the entries after them. -/
theorem rest_of_actions {items : List (Nested Double)} {bytes mid : Bytes}
    {o : Option (Nested Double)} (h : (Content.optional Nested.content).read levels
      (Nested.encode (.list items) ++ bytes) = .ok (o, mid)) :
    ∃ ys : List (Nested Double), mid = ys.flatMap Nested.encode ++ bytes := by
  rcases Content.of_optional_eq_ok h with ⟨hnil, -⟩ | ⟨a, ha, -⟩
  · obtain ⟨b, payload, hheader, hb⟩ := (Value.form_arrayHeader_written items.length).exists_cons nofun
    rw [Nested.encode_list, hheader] at hnil
    exact absurd (List.cons.inj hnil).1 hb
  · simp only [Nested.content] at ha
    split at ha
    · cases ha
    · rename_i v mid' hv
      split at ha
      · cases ha
        rw [← List.flatMap_singleton Nested.encode (.list items)] at hv
        obtain ⟨ys, rfl, -⟩ := Nested.takesOne_readValue levels hv
        exact ⟨ys, rfl⟩
      · cases ha

/-- A step with lists of actions is read to its end, if at all. -/
theorem rest_of_stepRecord {p : StepParam} {items : List (Nested Double)}
    (hlist : p.actions = some (.list items)) {a : StepParam} {rest mid : Bytes}
    (h : stepRecord.read (levels + 1) ((Value.record (paramEntries (.step p))).write ++ rest)
      = .ok (a, mid)) : mid = rest := by
  have hentries : paramEntries (.step p)
      = ("actions", (Nested.list items).toValue .double) :: afterActions p := by
    rw [paramEntries_step, hlist]
    rfl
  have hcount : ∃ k, (afterActions p).length = k + 1 :=
    ⟨_, by rw [afterActions, List.length_append, List.length_singleton]⟩
  have hhead := (Value.form_mapHeader (length_paramEntries_lt (.step p))).readHead
    (fun _ => levels.succ_ne_zero) (Record.writeFields (paramEntries (.step p)) ++ rest)
  obtain ⟨d, hd, -⟩ := Record.read_eq_ok_iff.mp h
  rw [Record.write_record, List.append_assoc, Record.readDraft_of_map hhead, hentries,
    Record.writeFields_cons, List.length_cons, Record.readEntries,
    Record.readEntry_of_named (Value.form_writeText (by decide)) rfl rfl] at hd
  split at hd
  · cases hd
  · rename_i d1 mid1 hfill
    obtain ⟨o, ho, rfl⟩ := Reader.exists_of_map_eq_ok hfill
    obtain ⟨ys, rfl⟩ := rest_of_actions ho
    cases ys with
    | nil =>
      have hlater : stepRecord.readEntries levels (afterActions p).length ⟨some o, none, none⟩ _
          = .ok _ := (fills_afterActions p (some o)).readEntries rest
      rw [List.flatMap_nil, List.nil_append] at hd
      cases hlater.symm.trans hd
      rfl
    | cons y ys =>
      obtain ⟨k, hk⟩ := hcount
      rw [hk, Record.readEntries, List.flatMap_cons, List.append_assoc] at hd
      split at hd
      · cases hd
      · rename_i hentry
        exact absurd hentry Nested.readEntry_ne_ok

/-- After the method, the entry of the parameters is read. -/
theorem readDraft_encode {record : Record δ α} {r : Request} {d : δ}
    (hmethod : record.Fills 1022 [("method", .text r.method.name)] record.empty d) :
    record.readDraft maxLevels r.encode = record.readEntry 1022 d
      (Value.writeText "param" ++ ((Value.record r.paramEntries).write ++ [])) := by
  have hhead := (Value.form_mapHeader (n := 2) (by decide)).readHead
    (fun _ => Nat.succ_ne_zero 1022) (Record.writeFields
      ([("method", .text r.method.name)] ++ [("param", .record r.paramEntries)]))
  have hentries := hmethod.readEntries_append 1
    (Record.writeFields [("param", .record r.paramEntries)])
  rw [Record.readEntries_one, ← Record.writeFields_append] at hentries
  rw [encode, toValue, Record.write_record, maxLevels]
  exact (Record.readDraft_of_map hhead).trans hentries

/-- Whatever the parameters are, the method is read as it was written. -/
theorem eq_of_read_header {r : Request} {name : String} {rest : Bytes}
    (h : header.read maxLevels r.encode = .ok (name, rest)) : name = r.method.name := by
  have hmethod : header.Fills 1022 [("method", .text r.method.name)] none (some r.method.name) :=
    .filled (by decide) rfl rfl ((Content.readsBack_text r.method.short_name).fill none) (.nil _)
  obtain ⟨d, hd, hfinish⟩ := Record.read_eq_ok_iff.mp h
  rw [readDraft_encode hmethod,
    Record.readEntry_of_unnamed (Value.form_writeText (by decide)) rfl] at hd
  obtain ⟨v, -, rfl⟩ := Reader.exists_of_map_eq_ok hd
  cases hfinish
  rfl

/-- Parameters that are read to their end leave nothing of the request. -/
theorem rest_of_envelope {param : Record δ α} {r : Request}
    (h : ∀ {a mid}, param.read 1022 ((Value.record r.paramEntries).write ++ [])
      = .ok (a, mid) → mid = []) {a : α} {rest : Bytes}
    (hr : (envelope param).read maxLevels r.encode = .ok (a, rest)) : rest = [] := by
  have hmethod : (envelope param).Fills 1022 [("method", .text r.method.name)] none none :=
    .passed (by decide) rfl (.text r.method.short_name) (.nil _)
  obtain ⟨d, hd, -⟩ := Record.read_eq_ok_iff.mp hr
  rw [readDraft_encode hmethod,
    Record.readEntry_of_named (Value.form_writeText (by decide)) rfl rfl] at hd
  obtain ⟨a, ha, -⟩ := Reader.exists_of_map_eq_ok hd
  exact h ha

/-! ## Steady readers of requests -/

/-- The reader of a header is steady. -/
theorem steady_header : (header.read maxLevels).Steady := by
  refine Record.steady_read ?_
  intro f hf
  cases List.mem_singleton.mp hf
  exact Content.steady_field Content.steady_text

/-- The reader of nested lists is steady. -/
theorem steady_content : (Nested.content.read levels).Steady := by
  intro bytes rest x h more
  simp only [Nested.content] at h
  split at h
  · cases h
  · rename_i v mid hv
    split at h
    · rename_i y hy
      cases h
      simp only [Nested.content, steady_readValue levels hv more, hy]
    · cases h

theorem content_nil_ne_ok (x : Nested Double) (rest : Bytes) :
    Nested.content.read levels [] ≠ .ok (x, rest) := by
  intro h
  simp only [Nested.content] at h
  split at h
  · cases h
  · rename_i hv
    obtain ⟨_, _, hhead, -⟩ := readValue_cases hv
    cases hhead

/-- The reader of the parameters of a step is steady. -/
theorem steady_stepRecord : (stepRecord.read (levels + 1)).Steady := by
  refine Record.steady_read ?_
  intro f hf
  have hsigned : ∀ a rest, Content.signed.read levels [] ≠ .ok (a, rest) := by
    intro a rest h
    cases h
  simp only [stepRecord, List.mem_cons, List.not_mem_nil, or_false] at hf
  rcases hf with rfl | rfl | rfl
  · exact Content.steady_field (Content.steady_optional steady_content content_nil_ne_ok)
  · exact Content.steady_field (Content.steady_optional Content.steady_signed hsigned)
  · exact Content.steady_field Content.steady_flag

/-- The reader of a request is steady if that of its parameters is. -/
theorem steady_envelope {param : Record δ α} (h : (param.read 1022).Steady) :
    ((envelope param).read maxLevels).Steady := by
  refine Record.steady_read ?_
  intro f hf
  cases List.mem_singleton.mp hf
  exact Content.steady_field h

/-! ## Cut requests -/

/-- A request does not fit only if its name is too long, or its actions are lists. -/
theorem exists_list_of_not_fits {r : Request} (h : ¬r.Fits levels)
    (hname : ∀ p, r = .make p → (Text.Utf8.encode p.envName).length < 2 ^ 32) :
    ∃ p items, r = .step p ∧ p.actions = some (.list items) := by
  cases r with
  | info => exact absurd trivial h
  | make p => exact absurd (hname p rfl) h
  | reset => exact absurd trivial h
  | step p =>
    rcases hp : p.actions with _ | x
    · refine absurd ?_ h
      intro x hx
      cases hp.symm.trans hx
    · cases x with
      | scalar a =>
        refine absurd ?_ h
        intro x hx
        cases hp.symm.trans hx
        exact .scalar a
      | list items => exact ⟨p, items, rfl, hp⟩
  | dynamics p => exact absurd trivial h

/-- A part of a request is no request. -/
theorem exists_error_of_cut {r : Request}
    (hname : ∀ p, r = .make p → (Text.Utf8.encode p.envName).length < 2 ^ 32) {cut more : Bytes}
    (hcut : cut ++ more = r.encode) (hmore : more ≠ []) :
    ∃ e, decode cut = .error (.undecodable e) := by
  rcases hheader : header.read maxLevels cut with e | ⟨name, mid⟩
  · exact ⟨e, decode_of_header_error hheader⟩
  have hfull := steady_header hheader more
  rw [hcut] at hfull
  by_cases hfits : r.Fits 1021
  · have hend : header.read maxLevels r.encode = .ok (r.method.name, []) :=
      Record.read_write (readsBack_header hfits.param)
    have hnil := congrArg Prod.snd (Except.ok.inj (hfull.symm.trans hend))
    exact absurd (List.append_eq_nil_iff.mp hnil).2 hmore
  · obtain ⟨p, items, rfl, hlist⟩ := exists_list_of_not_fits hfits hname
    have hall : ∀ a rest, (envelope stepRecord).read maxLevels (cut ++ more) = .ok (a, rest) →
        rest = [] := by
      intro a rest ha
      rw [hcut] at ha
      exact rest_of_envelope (rest_of_stepRecord hlist) ha
    obtain ⟨e, he⟩ := (steady_envelope steady_stepRecord).exists_error hall hmore
    refine ⟨e, ?_⟩
    rw [eq_of_read_header hfull] at hheader
    simp only [decode, decodeRecord, hheader, Method.ofName?_name, method, decodeParam, he]
    rfl

/-- **Cut requests are refused.**  Whatever its parameters are, and however deep and long the lists
of its actions, a request is decoded from no proper part of its bytes; a server answers the part
with an error and stays as it was.  Only the name of an environment has to be short enough for
its length to be written. -/
theorem cut_requests_are_refused {r : Request}
    (hname : ∀ p, r = .make p → (Text.Utf8.encode p.envName).length < 2 ^ 32) {cut : Bytes}
    (hcut : cut <+: r.encode) (hproper : cut ≠ r.encode) :
    ∃ e, decode cut = .error (.undecodable e) ∧
      ∀ {σ : Type} [Env σ] (s : Server σ),
        (s.handle cut).reply = some (Response.error (Rejection.undecodable e).message).encode ∧
        (s.handle cut).after = s := by
  obtain ⟨more, hmore⟩ := hcut
  have hne : more ≠ [] := by
    rintro rfl
    rw [List.append_nil] at hmore
    exact hproper hmore
  obtain ⟨e, he⟩ := exists_error_of_cut hname hmore hne
  refine ⟨e, he, fun {σ} _ s => ?_⟩
  have hdispatch := Server.dispatch_of_undecodable he s
  constructor
  · rw [Server.reply_of_error (e := .undecodable e) (by rw [hdispatch]; rfl), if_neg nofun]
  · rw [Server.after_handle, hdispatch]
    rfl

/-- A step of two rows, which also has an action of its own. -/
def rowsStep : Request := .step ⟨some (.list [.list [.scalar ⟨0x3ff0000000000000⟩],
  .list [.scalar ⟨0x4000000000000000⟩]]), some (-1), true⟩

/-- After fifty bytes it is cut off inside the number of the second row. -/
theorem cut_requests_are_refused_rowsStep :
    (∀ p, rowsStep = .make p → (Text.Utf8.encode p.envName).length < 2 ^ 32) ∧
    rowsStep.encode.take 50 <+: rowsStep.encode ∧ rowsStep.encode.take 50 ≠ rowsStep.encode ∧
    ∃ e, decode (rowsStep.encode.take 50) = .error (.undecodable e) ∧
      ∀ {σ : Type} [Env σ] (s : Server σ),
        (s.handle (rowsStep.encode.take 50)).reply
          = some (Response.error (Rejection.undecodable e).message).encode ∧
        (s.handle (rowsStep.encode.take 50)).after = s := by
  have hname : ∀ p, rowsStep = .make p → (Text.Utf8.encode p.envName).length < 2 ^ 32 := nofun
  have hcut : rowsStep.encode.take 50 <+: rowsStep.encode := List.take_prefix 50 _
  have hproper : rowsStep.encode.take 50 ≠ rowsStep.encode := by decide +kernel
  exact ⟨hname, hcut, hproper, cut_requests_are_refused hname hcut hproper⟩

/-! ## Names that are too long -/

/-- The bytes of `make` before the name of the environment. -/
def makeFront : Bytes :=
  [0x82, 0xa6] ++ Text.Utf8.encode "method" ++ [0xa4] ++ Text.Utf8.encode "make"
    ++ [0xa5] ++ Text.Utf8.encode "param" ++ [0x82, 0xa8] ++ Text.Utf8.encode "env_name"

/-- The bytes of a make end with the name and the number of instances. -/
theorem encode_make (p : MakeParam) : (make p).encode = makeFront ++ (Value.writeText p.envName
    ++ (Value.writeText "num_envs" ++ (Value.int p.count.toNat).write)) := by
  have hrecord : ∀ es, (Value.record es).write
      = Value.mapHeader es.length ++ (Record.writeFields es ++ []) := by
    intro es
    rw [List.append_nil, Record.write_record]
  have hname : (Value.text p.envName).write = Value.writeText p.envName := by rw [Value.write]
  have hmethod : (Value.text (make p).method.name).write = Value.writeText "make" := by
    rw [Value.write]
    rfl
  rw [encode, toValue, hrecord, Record.writeFields_cons, Record.writeFields_cons, hmethod,
    paramEntries, hrecord, Record.writeFields_cons, Record.writeFields_cons, hname]
  have hfront : makeFront = Value.mapHeader 2 ++ (Value.writeText "method"
      ++ (Value.writeText "make" ++ (Value.writeText "param"
      ++ (Value.mapHeader 2 ++ Value.writeText "env_name")))) := by decide +kernel
  have hnil : Record.writeFields [] = [] := rfl
  simp only [hfront, hnil, List.append_assoc, List.append_nil, List.length_cons, List.length_nil]

/-- A request for the environment of a long name. -/
def longMake (filler : Nat) : Request :=
  .make ⟨String.ofList ('\x01' :: '\x05' :: List.replicate filler 'a'), 1⟩

/-- The bytes of a request whose name is `2 ^ 32` bytes long, up to the second byte of the name.
The length that is written is zero, so the bytes of the name stand where the next entry should be:
the position of the field `num_envs` and a five. -/
def longMakeCut : Bytes := makeFront ++ [0xa0, 0x01, 0x05]

theorem encode_replicate (n : Nat) : (List.replicate n 'a').flatMap Text.Utf8.encodeChar
    = List.replicate n 0x61 := by
  induction n with
  | zero => rfl
  | succ n ih =>
    rw [List.replicate_succ, List.flatMap_cons, ih]
    rfl

/-- Of a name whose length is cut to zero the header says that it is empty. -/
theorem writeText_longName {filler : Nat} (h : filler + 2 = 2 ^ 32) :
    Value.writeText (String.ofList ('\x01' :: '\x05' :: List.replicate filler 'a'))
      = [0xa0, 0x01, 0x05] ++ List.replicate filler 0x61 := by
  have hname : Text.Utf8.encode (String.ofList ('\x01' :: '\x05' :: List.replicate filler 'a'))
      = 0x01 :: 0x05 :: List.replicate filler 0x61 := by
    rw [Text.Utf8.encode, String.toList_ofList, List.flatMap_cons, List.flatMap_cons,
      encode_replicate]
    rfl
  rw [Value.writeText, hname, List.length_cons, List.length_cons, List.length_replicate, h]
  rfl

/-- The first bytes of a request with such a name are another request. -/
theorem cut_longMake_is_decoded :
    longMakeCut <+: (longMake (2 ^ 32 - 2)).encode ∧ longMakeCut ≠ (longMake (2 ^ 32 - 2)).encode ∧
    decode longMakeCut = .ok (.make ⟨"", 5⟩) := by
  obtain ⟨filler, hfiller⟩ : ∃ filler, filler = 2 ^ 32 - 2 := ⟨_, rfl⟩
  have hfull : (longMake filler).encode = longMakeCut ++ (List.replicate filler 0x61
      ++ (Value.writeText "num_envs" ++ (Value.int 1).write)) := by
    rw [longMake, encode_make, writeText_longName (by omega), longMakeCut]
    simp only [List.append_assoc]
    rfl
  rw [← hfiller, hfull]
  refine ⟨List.prefix_append _ _, ?_, ?_⟩
  · intro heq
    have hnil := List.self_eq_append_right.mp heq
    cases (List.append_eq_nil_iff.mp (List.append_eq_nil_iff.mp hnil).2).1
  · exact decode_eq_ok_of_encode (by decide : (Text.Utf8.encode "").length < 2 ^ 32)
      (by decide +kernel)

end Request

end Rollout
