/-
# Every reply is a map with the keys of its method

A request is refused or carried out.  Refused, it is answered by a map with the one key
`error`; carried out, by a map with the keys of its method.  There is no reply exactly
if the actions of a step claim more memory than there is: `reply_of_request`.
-/
import Rollout.Proofs.FaithfulResponses
import Rollout.Proofs.RequestRoundTrip
import Rollout.Proofs.ServerCalls
import Rollout.Proofs.ServingFold

namespace Rollout

open MsgPack (Value readValue)
open Numeric (Single)

/-! ## Keys -/

/-- The keys of the response to a method, in the order in which they are written. -/
def Method.replyKeys : Method → List String
  | .info => ["action_space_type", "action_space_shape", "observation_space_type",
      "observation_space_shape", "observation_space_size"]
  | .make => ["result"]
  | .reset => ["observation"]
  | .step => ["observation", "reward", "done", "real_reward"]
  | .dynamics => ["probability", "next_state", "reward", "done"]

/-- The bytes are one map with these entries, whose keys are texts that differ, and nothing more. -/
def MsgPack.IsMap (bytes : Bytes) (entries : List (String × Value)) : Prop :=
  (∃ levels, readValue levels bytes = .ok (.record entries, [])) ∧ (entries.map Prod.fst).Nodup

namespace Response

/-- All texts and lists of a response are shorter than `2 ^ 32`, and its integers are words. -/
def Writable (r : Response) : Prop := ∃ levels, r.toValue.Fits levels

/-- A response that fits can be written. -/
theorem Fits.writable {r : Response} (h : r.Fits) : r.Writable := by
  have hlength : r.entries.length < 2 ^ 32 := by
    cases r with
    | _ =>
      simp only [Response.entries, List.length_cons, List.length_nil]
      decide
  exact ⟨_, h.entries.record hlength⟩

/-- The keys of a response are those of its method. -/
theorem keys_entries {r : Response} {m : Method} (h : r.method? = some m) :
    r.entries.map Prod.fst = m.replyKeys := by
  cases r with
  | error message => cases h
  | _ =>
    cases h
    rfl

/-- A response that can be written is a map. -/
theorem Writable.isMap {r : Response} (h : r.Writable) : MsgPack.IsMap r.encode r.entries := by
  obtain ⟨levels, hfits⟩ := h
  constructor
  · have hread := MsgPack.readValue_write hfits []
    rw [List.append_nil] at hread
    exact ⟨levels, hread⟩
  · rw [r.matches_entries.keys]
    exact r.nodup_layout

end Response

/-! ## Refusals -/

namespace Request

/-- A fault of the parameters is found only after decoding. -/
theorem decode_ne_param (b : Bytes) (fault : ParamFault) : decode b ≠ .error (.param fault) := by
  have hrecord : ∀ {δ α : Type} (r : MsgPack.Record δ α), decodeRecord r b ≠ .error (.param fault) := by
    intro δ α r h
    unfold decodeRecord at h
    split at h
    · cases h
    · cases h
  intro h
  unfold decode at h
  split at h
  · rename_i e he
    cases h
    exact hrecord _ he
  · split at h
    · cases h
    · cases h
    · exact hrecord _ (map_eq_error_iff.mp h)
    · cases h
    · exact hrecord _ (map_eq_error_iff.mp h)
    · exact hrecord _ (map_eq_error_iff.mp h)

end Request

/-! ## Memory

Only the lists of actions claim memory before they are looked at; no call of a session does. -/

/-- Only actions that are given as lists can ask for more memory than there is. -/
theorem StepParam.tensor_eq_capacity_iff (p : StepParam) : p.tensor = .error (.param .capacity) ↔
    ∃ actions, p.actions = some actions ∧ actions.toTensor = .error .capacity := by
  constructor
  · intro h
    unfold tensor at h
    split at h
    · rename_i actions hactions
      refine ⟨actions, hactions, ?_⟩
      rcases ht : actions.toTensor with (_ | _) | t
      · rw [ht] at h
        cases h
      · rfl
      · rw [ht] at h
        cases h
    · cases h
    · cases h
  · rintro ⟨actions, hactions, hcapacity⟩
    simp only [tensor, hactions, hcapacity]
    rfl

namespace Session

variable {σ : Type} [Env σ]

/-- A make never asks for more memory than there is. -/
theorem make_ne_capacity (name : String) (count : UInt64) (s : Session σ) :
    (s.make name count).result ≠ .error (.param .capacity) := by
  unfold make
  split
  · nofun
  · simp only
    split
    · nofun
    · nofun

omit [Env σ] in
theorem batchAction_ne_capacity (space : Space) (t : Tensor Numeric.Double) :
    batchAction space t ≠ .error .capacity := by
  unfold batchAction
  split
  · intro h
    have hactions := map_eq_error_iff.mp h
    unfold discreteActions at hactions
    split at hactions
    · cases hactions
    · cases hactions
  · nofun

/-- A reset never asks for more memory than there is. -/
theorem reset_ne_capacity (s : Session σ) : s.reset.result ≠ .error (.param .capacity) := by
  unfold reset
  split
  · nofun
  · split
    · nofun
    · nofun

/-- A step whose actions have been read asks for no more memory than there is. -/
theorem step_ne_capacity (t : Tensor Numeric.Double) (render : Bool) (s : Session σ) :
    (s.step t render).result ≠ .error (.param .capacity) := by
  unfold step
  split
  · nofun
  · rename_i a ha
    split
    · rename_i fault hfault
      intro h
      cases h
      exact batchAction_ne_capacity _ t hfault
    · split
      · nofun
      · split
        · unfold draw
          split
          · nofun
          · nofun
        · nofun

theorem info_ne_capacity (s : Session σ) : s.info ≠ .error (.param .capacity) := by
  unfold info
  split
  · nofun
  · nofun

theorem dynamics_ne_capacity (state action : UInt64) (s : Session σ) :
    s.dynamics state action ≠ .error (.param .capacity) := by
  unfold dynamics
  split
  · nofun
  · split
    · nofun
    · split
      · nofun
      · nofun

end Session

namespace Server

variable {σ : Type} [Env σ] {s : Server σ} {b : Bytes} {e : Rejection}

/-- **Refusals.**  The bytes are no request or name no method, the method is not accepted now, or
it fails. -/
inductive Refuses (s : Server σ) (b : Bytes) : Rejection → Prop
  | undecodable {e : Rejection} (decoded : Request.decode b = .error e) : Refuses s b e
  | notAccepted {r : Request} {e : Rejection} (decoded : Request.decode b = .ok r)
    (accepted : s.lifecycle.accept r.method = .error e) : Refuses s b e
  | failed {r : Request} {e : Rejection} (decoded : Request.decode b = .ok r)
    (accepted : s.lifecycle.accept r.method = .ok ())
    (result : (respond r s.session).result = .error e) : Refuses s b e

/-- A request is carried out: it is decoded, accepted, and has a response. -/
structure CarriesOut (s : Server σ) (b : Bytes) (r : Request) (response : Response) : Prop where
  decoded : Request.decode b = .ok r
  accepted : s.lifecycle.accept r.method = .ok ()
  result : (respond r s.session).result = .ok response

/-- Each of these refusals is the result of the dispatch. -/
theorem result_of_refuses (h : s.Refuses b e) : (s.dispatch b).result = .error e := by
  cases h with
  | undecodable decoded => rw [dispatch_of_undecodable decoded]; rfl
  | notAccepted decoded accepted => rw [dispatch_of_not_accepted decoded accepted]; rfl
  | failed decoded accepted result => exact (dispatch_of_error decoded accepted result).1

/-- Every request is refused or carried out. -/
theorem refuses_or_carriesOut (s : Server σ) (b : Bytes) :
    (∃ e, s.Refuses b e) ∨ ∃ r response, s.CarriesOut b r response := by
  rcases dispatch_cases b s with ⟨e, hb⟩ | ⟨r, e, hb, ha⟩ | ⟨r, e, hb, ha, hr⟩ | ⟨r, rp, hb, ha, hr⟩
  · exact Or.inl ⟨e, .undecodable hb⟩
  · exact Or.inl ⟨e, .notAccepted hb ha⟩
  · exact Or.inl ⟨e, .failed hb ha hr⟩
  · exact Or.inr ⟨r, rp, hb, ha, hr⟩

/-- A request that is carried out has its response as a result. -/
theorem CarriesOut.dispatch {r : Request} {response : Response} (h : s.CarriesOut b r response) :
    (s.dispatch b).result = .ok response :=
  (dispatch_of_ok h.decoded h.accepted h.result).1

/-- There is one way in which a request goes. -/
theorem refuses_iff : s.Refuses b e ↔ (s.dispatch b).result = .error e := by
  refine ⟨result_of_refuses, ?_⟩
  intro h
  rcases refuses_or_carriesOut s b with ⟨e', he⟩ | ⟨r, response, hr⟩
  · have heq := (result_of_refuses he).symm.trans h
    cases heq
    exact he
  · have heq := hr.dispatch.symm.trans h
    cases heq

/-- Memory runs out over the actions of a step and nowhere else. -/
theorem respond_eq_capacity_iff {r : Request} {s : Session σ} :
    (respond r s).result = .error (.param .capacity) ↔
      ∃ p actions, r = .step p ∧ p.actions = some actions ∧
        actions.toTensor = .error .capacity := by
  constructor
  · intro h
    cases r with
    | info =>
      rw [respond, (info_eq s).1] at h
      exact absurd (map_eq_error_iff.mp h) s.info_ne_capacity
    | make p => exact absurd (map_eq_error_iff.mp h) (s.make_ne_capacity p.envName p.count)
    | reset => exact absurd (map_eq_error_iff.mp h) s.reset_ne_capacity
    | dynamics p =>
      rw [respond, (dynamics_eq p s).1] at h
      exact absurd (map_eq_error_iff.mp h) (s.dynamics_ne_capacity p.state p.action)
    | step p =>
      have hstep : (step p s).result = .error (.param .capacity) := h
      unfold step at hstep
      split at hstep
      · cases hstep
      · split at hstep
        · rename_i fault hfault
          cases hstep
          obtain ⟨actions, hactions, hcapacity⟩ := p.tensor_eq_capacity_iff.mp hfault
          exact ⟨p, actions, rfl, hactions, hcapacity⟩
        · exact absurd (map_eq_error_iff.mp hstep) (s.step_ne_capacity _ _)
  · rintro ⟨p, actions, rfl, hactions, hcapacity⟩
    have hsingle : isSingle p = false := by
      unfold isSingle
      rw [hactions]
      rfl
    have htensor : p.tensor = .error (.param .capacity) :=
      p.tensor_eq_capacity_iff.mpr ⟨actions, hactions, hcapacity⟩
    simp only [respond, step, hsingle, htensor]
    rfl

/-- A server has no reply exactly if memory runs out. -/
theorem reply_eq_none_iff : (s.handle b).reply = none ↔ s.Refuses b (.param .capacity) := by
  rcases refuses_or_carriesOut s b with ⟨e, he⟩ | ⟨r, response, h⟩
  · have hresult := refuses_iff.mp he
    rw [reply_of_error hresult, refuses_iff, hresult]
    by_cases hc : e = .param .capacity
    · rw [if_pos hc, hc]
      exact ⟨fun _ => rfl, fun _ => rfl⟩
    · rw [if_neg hc]
      exact ⟨nofun, fun h => absurd (Except.error.inj h) hc⟩
  · rw [reply_of_ok h.dispatch, refuses_iff, h.dispatch]
    exact ⟨nofun, nofun⟩

/-- Memory runs out exactly if a server that is ready is asked for a step whose actions claim more
than can be reserved. -/
theorem refuses_capacity_iff : s.Refuses b (.param .capacity) ↔
    ∃ p actions, Request.decode b = .ok (.step p) ∧ s.lifecycle = .ready ∧
      p.actions = some actions ∧ actions.toTensor = .error .capacity := by
  constructor
  · intro h
    cases h with
    | undecodable decoded => exact absurd decoded (Request.decode_ne_param b .capacity)
    | notAccepted decoded accepted =>
      unfold Lifecycle.accept at accepted
      split at accepted
      · cases accepted
      · cases accepted
      · cases accepted
    | failed decoded accepted result =>
      obtain ⟨p, actions, rfl, hactions, hcapacity⟩ := respond_eq_capacity_iff.mp result
      have hready : s.lifecycle = .ready := by
        rcases (s.lifecycle.accept_eq_ok_iff _).mp accepted with h | h
        · exact h
        · cases h
      exact ⟨p, actions, decoded, hready, hactions, hcapacity⟩
  · rintro ⟨p, actions, hb, hready, hactions, hcapacity⟩
    exact .failed hb ((s.lifecycle.accept_eq_ok_iff _).mpr (Or.inl hready))
      (respond_eq_capacity_iff.mpr ⟨p, actions, rfl, hactions, hcapacity⟩)

/-- **Replies.**  A request that is refused has an error message as its reply, unless memory runs
out; one that is carried out has the map of its method.  Memory runs out exactly if a server that
is ready is asked for a step whose actions are ragged and claim more than can be reserved; what
they claim is as much of the product of their shape as a word holds. -/
theorem reply_of_request (s : Server σ) (b : Bytes) :
    (∀ e, s.Refuses b e → e ≠ .param .capacity → (Response.error e.message).Writable →
      ∃ reply, (s.handle b).reply = some reply ∧
        MsgPack.IsMap reply [("error", .text e.message)]) ∧
    (∀ r response, s.CarriesOut b r response → response.Writable →
      ∃ reply entries, (s.handle b).reply = some reply ∧ MsgPack.IsMap reply entries ∧
        entries.map Prod.fst = r.method.replyKeys) ∧
    ((∃ e, s.Refuses b e) ∨ ∃ r response, s.CarriesOut b r response) ∧
    ((s.handle b).reply = none ↔ ∃ p actions, Request.decode b = .ok (.step p) ∧
      s.lifecycle = .ready ∧ p.actions = some actions ∧ actions.toTensor = .error .capacity) := by
  refine ⟨?_, ?_, refuses_or_carriesOut s b, reply_eq_none_iff.trans refuses_capacity_iff⟩
  · intro e he hne hw
    refine ⟨_, ?_, hw.isMap⟩
    rw [reply_of_error (refuses_iff.mp he), if_neg hne]
  · intro r response h hw
    exact ⟨_, _, reply_of_ok h.dispatch, hw.isMap,
      Response.keys_entries (method?_of_respond_eq_ok h.result)⟩

/-- Pairs are nested as deep as they say. -/
theorem fits_raggedPairs (depth : Nat) : (Serving.raggedPairs depth).Fits depth := by
  induction depth with
  | zero => exact .scalar _
  | succ depth ih =>
    refine .list (by decide : 2 < 2 ^ 32) ?_
    intro x hx
    rcases List.mem_cons.mp hx with rfl | hx
    · exact ih
    · rw [List.mem_singleton.mp hx]
      exact .scalar _

/-- A server with a grid answers a reserved byte with an error message and a reset with a frame, and
a step with pairs nested sixty deep not at all. -/
theorem reply_of_request_gridServer :
    let make := (Request.make ⟨"GridWorld-v0", 1⟩).encode
    let s := (Server.start (.start World.registry .usual)).afterAll [make]
    (∃ reply, (s.handle [0xc1]).reply = some reply ∧ MsgPack.IsMap reply
      [("error", .text "Failed to decode request: wrong msgpack marker Reserved")]) ∧
    (∃ reply entries, (s.handle Request.reset.encode).reply = some reply ∧
      MsgPack.IsMap reply entries ∧ entries.map Prod.fst = ["observation"]) ∧
    (s.handle (Request.step ⟨some (Serving.raggedPairs 60), none, false⟩).encode).reply = none := by
  intro make s
  have hready : s.lifecycle = .ready := by decide +kernel
  refine ⟨?_, ?_, ?_⟩
  · have hb : Request.decode [0xc1] = .error (.undecodable (.wrongMarker .reserved)) := rfl
    have hlength : (Text.Utf8.encode
        "Failed to decode request: wrong msgpack marker Reserved").length < 2 ^ 32 := by decide
    exact (reply_of_request s [0xc1]).1 _ (.undecodable hb) (by intro h; cases h)
      (Response.Fits.writable hlength)
  · let frame : Tensor Single := .fill [1, 1] (.ofNat 0)
    have hr : (respond .reset s.session).result.toOption.any (· == .reset (.array frame)) = true := by
      decide +kernel
    rcases hs : (respond .reset s.session).result with e | response
    · rw [hs] at hr
      cases hr
    · rw [hs] at hr
      cases eq_of_beq hr
      have ha : s.lifecycle.accept Method.reset = .ok () :=
        (s.lifecycle.accept_eq_ok_iff _).mpr (Or.inl hready)
      have hfits : frame.Fits := ⟨by decide, by decide⟩
      have hdecode : Request.decode Request.reset.encode = .ok .reset :=
        Request.Fits.decode_encode (r := .reset) trivial
      exact (reply_of_request s _).2.1 .reset _ ⟨hdecode, ha, hs⟩ (Response.Fits.writable hfits)
  · have hfits : (Request.step ⟨some (Serving.raggedPairs 60), none, false⟩).Fits 1021 := by
      intro x hx
      cases hx
      exact (fits_raggedPairs 60).mono (by decide)
    have hcapacity : (Serving.raggedPairs 60).toTensor = .error .capacity := rfl
    exact (reply_of_request s _).2.2.2.mpr ⟨_, _, hfits.decode_encode, hready, rfl, hcapacity⟩

end Server

end Rollout
