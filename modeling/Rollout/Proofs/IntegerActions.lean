/-
# Integer actions

Clients send the actions of numbered spaces as integers.  On the way to the instances
they become words, a tensor, integers again and at last indices.  An index that
belongs to the space arrives as it was sent, and one that does not is refused
(`integers_arrive_unchanged`): what rounding and clamping make of it never lies below
the size of the space.
-/
import Rollout.Proofs.IntegerWords
import Rollout.Proofs.RectangularLists
import Rollout.Proofs.RequestForms
import Rollout.Proofs.Runs
import Rollout.Proofs.ServerCalls
import Rollout.Proofs.SessionCalls
import Rollout.World.Standard

namespace Rollout

open MsgPack
open Numeric (Double)

/-! ## Steps as they are given -/

namespace Request

/-- The parameters of a step as a client gives them.  Each may be missing, and the actions and the
action may be nil. -/
structure GivenStep where
  actions : Option (Option Value)
  action : Option (Option Int64)
  render : Option Bool

namespace GivenStep

variable {g : GivenStep} {b : Bytes} {levels : Nat} {x : Option (Nested Double)}

/-- An integer, or nil. -/
def actionValue : Option Int64 → Value
  | some a => .int a.toInt
  | none => .nil

/-- The entries of the parameters. -/
def entries (g : GivenStep) : List (String × Value) :=
  entryOf "actions" (·.getD .nil) g.actions ++ entryOf "action" actionValue g.action
    ++ entryOf "render" .bool g.render

/-- The entries of the request. -/
def request (g : GivenStep) : List (String × Value) :=
  [("method", .text Method.step.name), ("param", .record g.entries)]

/-- The bytes ask for the step, in whatever form. -/
def AskedBy (g : GivenStep) (b : Bytes) : Prop :=
  ∃ es, (Value.record es).Form b ∧ SameRequest .step g.request es

/-- The parameters as they are read, if the actions are read as these. -/
def param (g : GivenStep) (x : Option (Nested Double)) : StepParam :=
  ⟨x, g.action.join, g.render.getD false⟩

theorem length_entries_lt (g : GivenStep) : g.entries.length < 2 ^ 32 := by
  have hactions := length_entryOf_le "actions" (·.getD .nil) g.actions
  have haction := length_entryOf_le "action" actionValue g.action
  have hrender := length_entryOf_le "render" .bool g.render
  rw [entries, List.length_append, List.length_append]
  omega

/-- The parameters fit if the actions do. -/
theorem fits_entries (h : ∀ o, g.actions = some o → (o.getD .nil).Fits levels) :
    (Value.record g.entries).Fits (levels + 1) := by
  refine Value.FieldsFit.record ?_ g.length_entries_lt
  have hactions : Value.FieldsFit levels (entryOf "actions" (·.getD .nil) g.actions) :=
    fieldsFit_entryOf (by decide) h
  have haction : Value.FieldsFit levels (entryOf "action" actionValue g.action) := by
    refine fieldsFit_entryOf (by decide) fun a _ => ?_
    cases a with
    | none => exact .nil
    | some a => exact .signed a
  have hrender : Value.FieldsFit levels (entryOf "render" .bool g.render) :=
    fieldsFit_entryOf (by decide) fun r _ => .bool r
  exact (hactions.append haction).append hrender

/-- The action is read as it is given, be it an integer or nil. -/
theorem readsBack_actionValue (a : Option Int64) :
    (Content.optional Content.signed).ReadsBack levels (actionValue a) a := by
  cases a with
  | none =>
    intro rest
    rfl
  | some a => exact readsBack_optional_signed a

/-- The parameters are read as they are given. -/
theorem readsBack_entries (hnone : g.actions = none → x = none)
    (hx : ∀ o, g.actions = some o →
      (Content.optional Nested.content).ReadsBack levels (o.getD .nil) x) :
    stepRecord.content.ReadsBack (levels + 1) (.record g.entries) (g.param x) := by
  let actions := g.actions.map fun _ => x
  have hactions : stepRecord.Fills levels (entryOf "actions" (·.getD .nil) g.actions)
      stepRecord.empty ⟨actions, none, none⟩ := by
    refine fills_entryOf (by decide) rfl rfl (fun hg => by simp only [actions, hg]; rfl) ?_
    intro o ho
    exact ⟨x, hx o ho, by simp only [actions, ho]; rfl⟩
  have haction : stepRecord.Fills levels (entryOf "action" actionValue g.action)
      ⟨actions, none, none⟩ ⟨actions, g.action, none⟩ := by
    refine fills_entryOf (by decide) rfl rfl (fun hg => by rw [hg]) ?_
    intro a ha
    exact ⟨a, readsBack_actionValue a, by rw [ha]⟩
  have hrender : stepRecord.Fills levels (entryOf "render" .bool g.render)
      ⟨actions, g.action, none⟩ ⟨actions, g.action, g.render⟩ := by
    refine fills_entryOf (by decide) rfl rfl (fun hg => by rw [hg]) ?_
    intro r hr
    exact ⟨r, Content.readsBack_flag r, by rw [hr]⟩
  have hjoin : actions.join = x := by
    cases hg : g.actions with
    | none =>
      simp only [actions, hg, hnone hg]
      rfl
    | some o =>
      simp only [actions, hg]
      rfl
  refine ((hactions.append haction).append hrender).readsBack g.length_entries_lt ?_
  show Except.ok (StepParam.mk actions.join g.action.join (g.render.getD false)) = _
  rw [hjoin]
  rfl

/-- A step that is asked for is decoded with the parameters as they are given. -/
theorem AskedBy.decode_eq (h : g.AskedBy b)
    (hfits : ∀ o, g.actions = some o → (o.getD .nil).Fits 1021)
    (hnone : g.actions = none → x = none)
    (hx : ∀ o, g.actions = some o →
      (Content.optional Nested.content).ReadsBack 1021 (o.getD .nil) x) :
    decode b = .ok (.step (g.param x)) := by
  obtain ⟨es, hform, hsame⟩ := h
  have hentries : Value.FieldsFit 1022 g.request :=
    .cons (by decide) (.text (by decide)) (.cons (by decide) (fits_entries hfits) .nil)
  have hrequest : (Value.record g.request).Fits 1023 := hentries.record (by decide : 2 < 2 ^ 32)
  have hread := readValue_write hrequest []
  rw [List.append_nil] at hread
  exact decode_of_readValue (r := .step (g.param x)) hsame hread
    (readValue_of_sameRequest hsame hentries hform)
    (decode_write_step (fits_entries hfits) (readsBack_entries hnone hx))

/-- Without actions nothing but the action is left. -/
theorem AskedBy.decode_of_no_actions (h : g.AskedBy b) (hg : g.actions.join = none) :
    decode b = .ok (.step (g.param none)) := by
  have hnil : ∀ o, g.actions = some o → o.getD .nil = Value.nil := by
    intro o ho
    rw [ho] at hg
    cases o with
    | none => rfl
    | some v => cases hg
  refine h.decode_eq ?_ (fun _ => rfl) ?_
  · intro o ho
    rw [hnil o ho]
    exact .nil
  · intro o ho rest
    rw [hnil o ho]
    rfl

/-- Actions that are asked for fit some number of levels, since they have a form. -/
theorem AskedBy.exists_fits (h : g.AskedBy b) {v : Value} (hv : g.actions = some (some v)) :
    ∃ n, v.Fits n := by
  obtain ⟨es, hform, hsame⟩ := h
  obtain ⟨n, hn⟩ := hform.exists_fits
  cases hsame with
  | plain method _ => rcases method with method | method <;> cases method
  | @param ps ps' w first second others params =>
    have hrequest :
        ("param", Value.record g.entries) ∈ Record.atKeys ["method", "param"] g.request :=
      Record.mem_atKeys.mpr ⟨List.mem_cons_of_mem _ List.mem_cons_self, rfl⟩
    have hentries : g.entries = ps := by
      rcases List.mem_cons.mp (first.mem_iff.mp hrequest) with hmem | hmem
      · exact absurd (congrArg Prod.fst hmem) (by decide : "param" ≠ "method")
      · exact Value.record_injective (congrArg Prod.snd (List.mem_singleton.mp hmem))
    have hactions : ("actions", v) ∈ g.entries := by
      rw [entries, hv]
      exact List.mem_append_left _ (List.mem_append_left _ List.mem_cons_self)
    rw [hentries] at hactions
    have hparam : ("param", Value.record ps') ∈ es :=
      (Record.mem_atKeys.mp
        (second.mem_iff.mpr (List.mem_cons_of_mem _ List.mem_cons_self))).1
    have hactions' : ("actions", v) ∈ ps' :=
      (Record.mem_atKeys.mp (params.same.mem_iff.mp (Record.mem_atKeys.mpr ⟨hactions, rfl⟩))).1
    -- the map has a form, so it fits; then its parameters fit, and so do the actions in them
    have hps' := (Value.FieldsFit.of_record (hn.mono n.le_succ)).1 _ hparam
    exact ⟨n, ((Value.FieldsFit.of_record (hps'.2.mono n.le_succ)).1 _ hactions').2⟩

/-- Actions that are asked for are decoded as the nested lists that they hold.  Whatever is asked for
has lengths and numbers that can be written, so only its depth is left to bound. -/
theorem AskedBy.decode_of_actions (h : g.AskedBy b) {v : Value} (hg : g.actions = some (some v))
    (hfits : ∀ vs, v = .array vs → ∀ w ∈ vs, w.Fits 1020) {n : Nested Double}
    (hn : Nested.ofValue? v = some n) : decode b = .ok (.step (g.param (some n))) := by
  obtain ⟨m, hm⟩ := h.exists_fits hg
  have hv : v.Fits 1021 := by
    cases hm with
    | int lo hi => exact .int lo hi
    | single x => exact .single x
    | double x => exact .double x
    | array length _ => exact .array length (hfits _ rfl)
    | _ =>
      simp only [Nested.ofValue?] at hn
      cases hn
  have hactions : ∀ o, g.actions = some o → o.getD .nil = v := by
    intro o ho
    rw [hg] at ho
    cases ho
    rfl
  refine h.decode_eq ?_ (fun hnone => absurd (hg.symm.trans hnone) nofun) ?_
  · intro o ho
    rwa [hactions o ho]
  · intro o ho
    rw [hactions o ho]
    exact Nested.readsBack_optional hv hn

end GivenStep

end Request

/-! ## Lists of integers -/

/-- The integers in a list, or in a list of rows of one. -/
def Listed (is : List Int) (vs : List Value) : Prop :=
  vs = is.map .int ∨ vs = is.map fun i => .array [.int i]

/-- All integers can be sent. -/
def Sendable (is : List Int) : Prop := ∀ i ∈ is, -2 ^ 63 ≤ i ∧ i < 2 ^ 64

section Lists

variable {is : List Int} {vs : List Value}

theorem Listed.fits (h : Listed is vs) (hs : Sendable is) {levels : Nat} :
    ∀ v ∈ vs, v.Fits (levels + 1) := by
  have hint : ∀ i ∈ is, ∀ n, (Value.int i).Fits n := fun i hi n => .int (hs i hi).1 (hs i hi).2
  intro v hv
  rcases h with rfl | rfl
  · obtain ⟨i, hi, rfl⟩ := List.mem_map.mp hv
    exact hint i hi _
  · obtain ⟨i, hi, rfl⟩ := List.mem_map.mp hv
    exact .array (by decide : 1 < 2 ^ 32) (List.forall_mem_singleton.mpr (hint i hi levels))

theorem Nested.ofValues?_map {ι : Type} {f : ι → Value} {g : ι → Nested Double}
    (h : ∀ i, ofValue? (f i) = some (g i)) (is : List ι) :
    ofValues? (is.map f) = some (is.map g) := by
  induction is with
  | nil => rfl
  | cons i is ih => rw [List.map_cons, ofValues?, h, ih, List.map_cons]

/-- Items of one shape, each with one scalar, are a tensor with these scalars. -/
theorem Nested.exists_toTensor_map {ι : Type} {g : ι → Nested Double} {inner : List Nat}
    {word : ι → Double} (hshape : ∀ i, (g i).Follows inner) (hleaves : ∀ i, (g i).leaves = [word i])
    (is : List ι) : ∃ t, (Nested.list (is.map g)).toTensor = .ok t ∧
      t.shape = cut (is.length :: inner) ∧ t.data = is.map word := by
  have hfollows : (Nested.list (is.map g)).Follows (is.length :: inner) := by
    refine follows_list_iff.mpr ⟨inner, by rw [List.length_map], ?_⟩
    intro n hn
    obtain ⟨i, -, rfl⟩ := List.mem_map.mp hn
    exact hshape i
  obtain ⟨t, ht⟩ := exists_toTensor_eq_ok_iff.mpr hfollows.rectangular
  obtain ⟨-, ht', hdata⟩ := toTensor_eq_ok_iff.mp ht
  refine ⟨t, ht, ht'.trans hfollows.shape_eq, ?_⟩
  rw [hdata, leaves, leavesAll_eq_flatMap, List.flatMap_map, List.map_eq_flatMap]
  simp only [hleaves]

/-- The integers are read as a tensor with one row or one column, which holds their words. -/
theorem Listed.exists_tensor (h : Listed is vs) :
    ∃ n t, Nested.ofValue? (.array vs) = some n ∧ n.toTensor = .ok t ∧
      (t.shape = [is.length] ∨ t.shape = [is.length, 1]) ∧ t.data = is.map .ofInt := by
  have hscalar : ∀ i, (Nested.scalar (Double.ofInt i)).Follows [] := fun i =>
    Nested.follows_scalar_iff.mpr rfl
  rcases h with rfl | rfl
  · have hread : ∀ i : Int, Nested.ofValue? (.int i) = some (.scalar (.ofInt i)) := fun i => by
      rw [Nested.ofValue?]
    obtain ⟨t, ht, hshape, hdata⟩ :=
      Nested.exists_toTensor_map hscalar (fun i => by rw [Nested.leaves]) is
    refine ⟨_, t, ?_, ht, Or.inl ?_, hdata⟩
    · rw [Nested.ofValue?, Nested.ofValues?_map hread]
      rfl
    · rw [hshape]
      exact Nested.cut_eq_self fun k hk => absurd hk List.not_mem_nil
  · have hread : ∀ i : Int, Nested.ofValue? (.array [.int i])
        = some (.list [.scalar (.ofInt i)]) := fun i => by
      simp only [Nested.ofValue?, Nested.ofValues?]
      rfl
    have hrow : ∀ i, (Nested.list [Nested.scalar (Double.ofInt i)]).Follows [1] := fun i =>
      Nested.follows_list_iff.mpr ⟨[], rfl, List.forall_mem_singleton.mpr (hscalar i)⟩
    have hleaves : ∀ i, (Nested.list [Nested.scalar (Double.ofInt i)]).leaves = [Double.ofInt i] :=
      fun i => by simp only [Nested.leaves, Nested.leavesAll, List.append_nil]
    obtain ⟨t, ht, hshape, hdata⟩ := Nested.exists_toTensor_map hrow hleaves is
    refine ⟨_, t, ?_, ht, ?_, hdata⟩
    · rw [Nested.ofValue?, Nested.ofValues?_map hread]
      rfl
    · -- without integers nothing shows that the rows would have one column
      rw [hshape]
      cases is with
      | nil => exact Or.inl rfl
      | cons i is => exact Or.inr rfl

/-- The integers belong to the space, and there is one for each instance. -/
def Fitting (size count : Nat) (is : List Int) : Prop :=
  is.length = count ∧ ∀ i ∈ is, 0 ≤ i ∧ i < size

/-- Nothing else than fitting integers is made fitting on the way. -/
theorem fitting_truncated_iff {size count : Nat} (hsize : size ≤ 2 ^ 53) (hs : Sendable is) :
    Fitting size count (is.map fun i => Numeric.truncate (.ofInt i)) ↔ Fitting size count is := by
  rw [Fitting, Fitting, List.length_map, List.forall_mem_map]
  refine and_congr_right fun _ => forall₂_congr fun i hi => ?_
  exact Numeric.truncate_ofInt_bounds hsize (hs i hi).1 (hs i hi).2

/-- Fitting integers are not changed on the way. -/
theorem Fitting.map_truncate {size count : Nat} (h : Fitting size count is)
    (hsize : size ≤ 2 ^ 53) : is.map (fun i => Numeric.truncate (.ofInt i)) = is := by
  have hmap : is.map (fun i => Numeric.truncate (.ofInt i)) = is.map id := by
    refine List.map_congr_left fun i hi => ?_
    have hlo := (h.2 i hi).1
    have hhi := (h.2 i hi).2
    exact Numeric.truncate_ofInt (by omega)
  rw [hmap, List.map_id]

end Lists

/-! ## Steps of a server -/

variable {σ : Type} [Env σ]

/-- A step of all instances of the current environment with these actions. -/
def Session.stepBatch (a : Active σ) (act : BatchAction) (render : Bool) (s : Session σ) :
    Call (Session σ) SessionStep :=
  match a.batch.step act with
  | (.error f, batch) => .refuse (.env f) (s.withBatch a batch)
  | (.ok step, batch) =>
    if render then draw a batch step s else .give (.ofBatch step) (s.withBatch a batch)

namespace Server

variable {s : Server σ} {a : Active σ} {act : BatchAction} {render : Bool} {b : Bytes}

/-- A step of all instances of the current environment with these actions, and its response. -/
def stepBatch (a : Active σ) (act : BatchAction) (render : Bool) (s : Server σ) :
    Call (Server σ) Response :=
  let call := s.session.stepBatch a act render
  ⟨call.result.map fun r => .step (stepReport r), { s with session := call.after }, call.log⟩

/-- A step whose parameters are actions is a step of all instances with them. -/
theorem dispatch_of_step (hready : s.lifecycle = .ready) (ha : s.session.active = some a)
    {p : StepParam} (hb : Request.decode b = .ok (.step p))
    (hsingle : (isSingle p && s.session.count? != some 1) = false) {t : Tensor Double}
    (ht : p.tensor = .ok t) (hact : Session.batchAction a.batch.actionSpace t = .ok act) :
    s.dispatch b = s.stepBatch a act p.render := by
  have hstep : s.session.step t p.render = s.session.stepBatch a act p.render := by
    rcases hs : a.batch.step act with ⟨f | r, batch⟩
    · simp only [Session.step, ha, hact, hs, Session.stepBatch]
    · simp only [Session.step, ha, hact, hs, Session.stepBatch]
  have haccept : s.lifecycle.accept .step = .ok () := by rw [hready]; rfl
  have hrespond : respond (.step p) s.session
      = ⟨(s.session.stepBatch a act p.render).result.map fun r => .step (stepReport r),
        (s.session.stepBatch a act p.render).after, (s.session.stepBatch a act p.render).log⟩ := by
    simp only [respond, step, hsingle, ht, hstep]
    rfl
  simp only [dispatch, hb, carryOut, Request.method, haccept, hrespond, stepBatch]
  rcases (s.session.stepBatch a act p.render).result with e | r
  · rfl
  · rfl

/-- Actions that do not fit are refused before any instance is stepped. -/
theorem stepBatch_of_not_fits (ha : s.session.active = some a) (h : ¬ Batch.Fits act a.batch) :
    ∃ f, s.stepBatch a act render = .refuse (.env f) s := by
  obtain ⟨f, hf⟩ := Batch.step_of_not_fits h
  refine ⟨f, ?_⟩
  simp only [stepBatch, Session.stepBatch, hf, Call.refuse, Session.withBatch_self ha]
  rfl

/-- A request that is refused is answered with an error. -/
theorem handle_of_refuse {e : Rejection} (h : s.dispatch b = .refuse e s)
    (he : e ≠ .param .capacity) :
    (s.handle b).reply = some (Response.error e.message).encode ∧ (s.handle b).after = s := by
  have hresult : (s.dispatch b).result = .error e := by rw [h]; rfl
  constructor
  · rw [reply_of_error hresult, if_neg he]
  · rw [after_handle, h]
    rfl

/-- The request steps the instances with exactly these integers as indices, each with its own, if
they are fitting; otherwise it is answered with an error, and no instance is stepped. -/
def StepsExactly (a : Active σ) (size : Nat) (is : List Int) (render : Bool) (b : Bytes)
    (s : Server σ) : Prop :=
  (Fitting size a.batch.count is →
    s.dispatch b = s.stepBatch a (.discrete is) render ∧
      (a.batch.step (.discrete is)).2.instances
        = (sweep stepOrRestart (is.map Action.discrete) a.batch.instances).2) ∧
  (¬ Fitting size a.batch.count is →
    ∃ e : Rejection, (s.handle b).reply = some (Response.error e.message).encode ∧
      (s.handle b).after = s)

/-- The words of integers step the instances with exactly the integers. -/
theorem stepsExactly_of_words (hready : s.lifecycle = .ready) (ha : s.session.active = some a)
    {size : Nat} (hspace : a.batch.actionSpace = .discrete size) (hsize : size ≤ 2 ^ 53)
    {p : StepParam} (hb : Request.decode b = .ok (.step p))
    (hsingle : (isSingle p && s.session.count? != some 1) = false) {t : Tensor Double}
    (ht : p.tensor = .ok t) {is : List Int} (hs : Sendable is)
    (hshape : t.shape = [is.length] ∨ t.shape = [is.length, 1]) (hdata : t.data = is.map .ofInt) :
    s.StepsExactly a size is p.render b := by
  have hindices : Session.discreteActions t
      = .ok (is.map fun i => Numeric.truncate (.ofInt i)) := by
    refine Session.discreteActions_eq_ok_iff.mpr ⟨⟨_, hshape⟩, ?_⟩
    rw [hdata, List.map_map]
    rfl
  have hact : Session.batchAction a.batch.actionSpace t
      = .ok (.discrete (is.map fun i => Numeric.truncate (.ofInt i))) := by
    rw [hspace]
    exact map_eq_ok_iff.mpr ⟨_, hindices, rfl⟩
  have hdispatch := dispatch_of_step hready ha hb hsingle ht hact
  constructor
  · intro hfit
    rw [hfit.map_truncate hsize] at hdispatch
    exact ⟨hdispatch, Batch.instances_step_of_fits ((Batch.fits_discrete_iff hspace).mpr hfit)⟩
  · intro hnot
    rw [← fitting_truncated_iff hsize hs] at hnot
    obtain ⟨f, hf⟩ := stepBatch_of_not_fits ha (mt (Batch.fits_discrete_iff hspace).mp hnot)
    exact ⟨.env f, handle_of_refuse (hdispatch.trans hf) nofun⟩

/-- Besides actions that are read, in lists or as a bare number, a single action changes nothing. -/
theorem handle_of_action {g : Request.GivenStep} (hb : g.AskedBy b) {v : Value}
    (hfits : ∀ vs, v = .array vs → ∀ w ∈ vs, w.Fits 1020) {n : Nested Double}
    (hn : Nested.ofValue? v = some n) (hg : g.actions = some (some v))
    {other : Option (Option Int64)} {b' : Bytes}
    (hb' : ({ g with action := other } : Request.GivenStep).AskedBy b') :
    s.handle b' = s.handle b := by
  have hdispatch : s.dispatch b' = s.dispatch b := by
    simp only [dispatch, hb.decode_of_actions hg hfits hn, hb'.decode_of_actions hg hfits hn]
    rfl
  rw [handle, handle, hdispatch]

/-- Integers in lists, or in rows of one, step the instances with exactly these. -/
theorem stepsExactly_of_list (hready : s.lifecycle = .ready) (ha : s.session.active = some a)
    {size : Nat} (hspace : a.batch.actionSpace = .discrete size) (hsize : size ≤ 2 ^ 53)
    {g : Request.GivenStep} (hb : g.AskedBy b) {is : List Int} {vs : List Value}
    (hs : Sendable is) (hlisted : Listed is vs) (hg : g.actions = some (some (.array vs))) :
    s.StepsExactly a size is (g.render.getD false) b := by
  obtain ⟨n, t, hn, ht, hshape, hdata⟩ := hlisted.exists_tensor
  have hfits : ∀ ws, Value.array vs = .array ws → ∀ w ∈ ws, w.Fits 1020 := by
    rintro ws ⟨⟩
    exact hlisted.fits hs
  have hdecode := hb.decode_of_actions hg hfits hn
  have htensor : (g.param (some n)).tensor = .ok t := by
    simp only [Request.GivenStep.param, StepParam.tensor, ht]
  exact stepsExactly_of_words hready ha hspace hsize hdecode rfl htensor hs hshape hdata

/-- A single integer without a list is refused unless there is a single instance. -/
theorem dispatch_of_single (hready : s.lifecycle = .ready) (ha : s.session.active = some a)
    {p : StepParam} (hb : Request.decode b = .ok (.step p)) (hsingle : isSingle p = true)
    (hcount : a.batch.count ≠ 1) : s.dispatch b = .refuse (.param .singleAction) s := by
  have haccept : s.lifecycle.accept .step = .ok () := by rw [hready]; rfl
  have hnot : (isSingle p && s.session.count? != some 1) = true := by
    rw [hsingle, Session.count?, ha, Bool.true_and, bne_iff_ne, ne_eq, Option.map_some,
      Option.some.injEq]
    exact hcount
  simp only [dispatch, hb, carryOut, Request.method, haccept, respond, step, hnot]
  rfl

/-- A single integer without a list steps a single instance with exactly this one. -/
theorem stepsExactly_of_single (hready : s.lifecycle = .ready) (ha : s.session.active = some a)
    {size : Nat} (hspace : a.batch.actionSpace = .discrete size) (hsize : size ≤ 2 ^ 53)
    {g : Request.GivenStep} (hb : g.AskedBy b) {k : Int64} (hg : g.actions.join = none)
    (hk : g.action = some (some k)) :
    s.StepsExactly a size [k.toInt] (g.render.getD false) b ∧
      (a.batch.count ≠ 1 → s.dispatch b = .refuse (.param .singleAction) s) := by
  have hdecode := hb.decode_of_no_actions hg
  have haction : (g.param none).action = some k := by
    simp only [Request.GivenStep.param, hk]
    rfl
  have hsingle : isSingle (g.param none) = true := by
    rw [isSingle, haction]
    rfl
  by_cases hone : a.batch.count = 1
  · refine ⟨?_, fun hne => absurd hone hne⟩
    have htensor : (g.param none).tensor = .ok (.fill [1, 1] (.ofInt k.toInt)) := by
      rw [StepParam.tensor, haction]
      rfl
    have hs : Sendable [k.toInt] := by
      have hlo := k.le_toInt
      have hhi := k.toInt_lt
      exact List.forall_mem_singleton.mpr ⟨by omega, by omega⟩
    have hcount : s.session.count? = some 1 := by
      rw [Session.count?, ha, ← hone]
      rfl
    refine stepsExactly_of_words hready ha hspace hsize hdecode ?_ htensor hs (Or.inr rfl) rfl
    rw [hsingle, hcount]
    rfl
  · have hrefused := dispatch_of_single hready ha hdecode hsingle hone
    refine ⟨⟨fun hfit => absurd hfit.1.symm hone, fun _ => ?_⟩, fun _ => hrefused⟩
    exact ⟨_, handle_of_refuse hrefused (by decide)⟩

/-- **Integers arrive unchanged.**  A step of a numbered space asks for its actions by integers, in
a list or in rows of one, or by a single integer without a list, in whatever form it is sent.  The
instances are stepped with exactly these integers if there is one for each instance and all belong
to the space; otherwise the step is answered with an error, and no instance is stepped.  A single
integer is always refused unless there is a single instance, and besides actions that can be read,
in lists as deep as the reader goes or as a bare number, it changes nothing. -/
theorem integers_arrive_unchanged (hready : s.lifecycle = .ready)
    (ha : s.session.active = some a) {size : Nat} (hspace : a.batch.actionSpace = .discrete size)
    (hsize : size ≤ 2 ^ 53) {g : Request.GivenStep} (hb : g.AskedBy b) :
    (∀ is vs, Sendable is → Listed is vs → g.actions = some (some (.array vs)) →
      s.StepsExactly a size is (g.render.getD false) b) ∧
    (∀ k, g.actions.join = none → g.action = some (some k) →
      s.StepsExactly a size [k.toInt] (g.render.getD false) b ∧
        (a.batch.count ≠ 1 → s.dispatch b = .refuse (.param .singleAction) s)) ∧
    (∀ v n, (∀ vs, v = .array vs → ∀ w ∈ vs, w.Fits 1020) → Nested.ofValue? v = some n →
      g.actions = some (some v) → ∀ other b',
        ({ g with action := other } : Request.GivenStep).AskedBy b' →
          s.handle b' = s.handle b) := by
  refine ⟨?_, ?_, ?_⟩
  · intro is vs hs hlisted hg
    exact stepsExactly_of_list hready ha hspace hsize hb hs hlisted hg
  · intro k hg hk
    exact stepsExactly_of_single hready ha hspace hsize hb hg hk
  · intro v n hfits hn hg other b' hb'
    exact handle_of_action hb hfits hn hg hb'

/-- The indices three and zero as rows, the first as an integer of eight bytes and the second in a
list with a length of four. -/
def wideRows : List (Value × Bytes) :=
  [(.array [.int 3], [0x91, 0xcf, 0, 0, 0, 0, 0, 0, 0, 3]),
    (.array [.int 0], [0xdd, 0, 0, 0, 1, 0xd0, 0])]

/-- The parameters of a step with these rows and an action that is passed over. -/
def wideParam : Written :=
  [(("action", [0xa6] ++ Text.Utf8.encode "action"), (.int 9, [0xd3, 0, 0, 0, 0, 0, 0, 0, 9])),
    (("actions", [0xd9, 7] ++ Text.Utf8.encode "actions"),
      (.array (wideRows.map Prod.fst), [0xdc, 0, 2] ++ wideRows.flatMap Prod.snd))]

/-- The step, with an entry of the client's own. -/
def wideStep : Written :=
  [(("param", [0xa5] ++ Text.Utf8.encode "param"),
      (.record wideParam.entries, [0x82] ++ wideParam.bytes)),
    (("?", [0xa1] ++ Text.Utf8.encode "?"), (.nil, [0xc0])),
    (("method", [0xa6] ++ Text.Utf8.encode "method"),
      (.text "step", [0xa4] ++ Text.Utf8.encode "step"))]

theorem form_wideStep : (Value.record wideStep.entries).Form ([0x83] ++ wideStep.bytes) := by
  have hthree : (Value.array (List.map Prod.fst [(Value.int 3, _)])).Form
      ([0x91] ++ List.flatMap Prod.snd [(_, [0xcf, 0, 0, 0, 0, 0, 0, 0, 3])]) :=
    .array (.shortArray (n := 1) (by decide))
      (List.forall_mem_singleton.mpr (.whole rfl (.uint (k := 3) (n := 3) (by decide) (by decide))))
  have hzero : (Value.array (List.map Prod.fst [(Value.int 0, _)])).Form
      ([0xdd, 0, 0, 0, 1] ++ List.flatMap Prod.snd [(_, [0xd0, 0])]) :=
    .array (.array (k := 1) (n := 1) (by decide) (by decide))
      (List.forall_mem_singleton.mpr (.whole rfl (.int (k := 0) (n := 0) (by decide) (by decide))))
  have hrows : (Value.array (wideRows.map Prod.fst)).Form
      ([0xdc, 0, 2] ++ wideRows.flatMap Prod.snd) :=
    .array (.array (k := 0) (n := 2) (by decide) (by decide))
      (List.forall_mem_cons.mpr ⟨hthree, List.forall_mem_singleton.mpr hzero⟩)
  have hparam : (Value.record wideParam.entries).Form ([0x82] ++ wideParam.bytes) := by
    refine Written.form (.shortMap (n := 2) (by decide)) ?_ ?_
    · exact List.forall_mem_cons.mpr ⟨.shortText (by decide),
        List.forall_mem_singleton.mpr (.text (k := 0) (by decide) (by decide))⟩
    · exact List.forall_mem_cons.mpr
        ⟨.whole rfl (.int (k := 3) (n := 9) (by decide) (by decide)),
          List.forall_mem_singleton.mpr hrows⟩
  refine Written.form (.shortMap (n := 3) (by decide)) ?_ ?_
  · refine List.forall_mem_cons.mpr ⟨.shortText (by decide), List.forall_mem_cons.mpr ⟨?_, ?_⟩⟩
    · exact .shortText (by decide)
    · exact List.forall_mem_singleton.mpr (.shortText (by decide))
  · have hname : (Text.Utf8.encode "step").length < 2 ^ 5 := by decide
    refine List.forall_mem_cons.mpr ⟨hparam, List.forall_mem_cons.mpr ⟨.whole rfl .nil, ?_⟩⟩
    exact List.forall_mem_singleton.mpr (.whole rfl (.shortText hname))

/-- Two grids are stepped by these indices. -/
theorem integers_arrive_unchanged_wideStep :
    let s := (Server.start (.start World.registry .usual)).afterAll
      [(Request.make ⟨"GridWorld-v0", 2⟩).encode]
    ∃ a, s.session.active = some a ∧
      s.dispatch ([0x83] ++ wideStep.bytes) = s.stepBatch a (.discrete [3, 0]) false := by
  intro s
  have hready : s.lifecycle = .ready := by decide +kernel
  have hactive : s.session.active.map (fun a => (a.batch.actionSpace, a.batch.count))
      = some (.discrete 4, 2) := by decide +kernel
  obtain ⟨a, ha, hbatch⟩ := Option.map_eq_some_iff.mp hactive
  obtain ⟨hspace, hcount⟩ := Prod.mk.inj hbatch
  let g : Request.GivenStep := ⟨some (some (.array (wideRows.map Prod.fst))), some (some 9), none⟩
  have hparams : Request.SameAt Request.stepRecord.names g.entries wideParam.entries := by
    refine ⟨.swap _ _ _, ?_⟩
    exact List.forall_mem_cons.mpr ⟨nofun, List.forall_mem_singleton.mpr nofun⟩
  have hsame : Request.SameRequest .step g.request wideStep.entries := by
    refine .param (.refl _) (.swap _ _ _) ?_ hparams
    exact List.forall_mem_cons.mpr ⟨nofun, List.forall_mem_cons.mpr
      ⟨fun _ => .nil, List.forall_mem_singleton.mpr nofun⟩⟩
  have hs : Sendable [3, 0] := by
    intro i hi
    simp only [List.mem_cons, List.not_mem_nil, or_false] at hi
    omega
  have hfitting : Fitting 4 a.batch.count [3, 0] := ⟨hcount.symm, by decide⟩
  have hexactly := (integers_arrive_unchanged hready ha hspace (by decide)
    ⟨_, form_wideStep, hsame⟩).1 [3, 0] _ hs (Or.inr rfl) rfl
  exact ⟨a, ha, (hexactly.1 hfitting).1⟩

end Server

end Rollout
