/-
# The calls of a server

How a request is answered.  `dispatch_cases` lists the ways in which a request can
go, with the server after each of them; the first two bytes of a reply tell which
kind of response it is, so that the replies `OK` and `error` stand for what they say.
-/
import Rollout.Proofs.Sweep
import Rollout.Server

namespace Rollout

/-! ## The first bytes of a response -/

namespace Response

/-- The first two bytes of a response: the number of its entries and the length of its first
key. -/
def head : Response → Bytes
  | .info _ => [0x85, 0xb1]
  | .dynamics _ => [0x84, 0xab]
  | .made => [0x81, 0xa6]
  | .reset _ => [0x81, 0xab]
  | .step _ => [0x84, 0xab]
  | .error _ => [0x81, 0xa5]

/-- Every response begins with its own two bytes. -/
theorem take_encode (r : Response) : r.encode.take 2 = r.head := by
  cases r with
  | info report => rfl
  | dynamics outcomes => rfl
  | made => rfl
  | reset observation => rfl
  | step report => rfl
  | error message => rfl

/-- The method that gives a response; an error is given by none. -/
def method? : Response → Option Method
  | .info _ => some .info
  | .dynamics _ => some .dynamics
  | .made => some .make
  | .reset _ => some .reset
  | .step _ => some .step
  | .error _ => none

/-- Only an error is written like an error. -/
theorem eq_error_of_encode_eq {r : Response} {m : String} (h : r.encode = (error m).encode) :
    ∃ m', r = .error m' := by
  have hhead : r.head = (error m).head := by rw [← take_encode, ← take_encode, h]
  cases r with
  | error m' => exact ⟨m', rfl⟩
  | _ => cases hhead

/-- Only the response to a successful `make` is written like it. -/
theorem encode_eq_made_iff {r : Response} : r.encode = made.encode ↔ r = .made := by
  constructor
  · intro h
    have hhead : r.head = made.head := by rw [← take_encode, ← take_encode, h]
    cases r with
    | made => rfl
    | _ => cases hhead
  · rintro rfl
    rfl

end Response

namespace Server

variable {σ : Type} [Env σ] {s : Server σ} {b : Bytes} {r : Request} {e : Rejection}
  {response : Response}

/-! ## Methods -/

/-- A step is refused at once, or it is a step of the session with the tensor of its actions. -/
theorem step_cases (p : StepParam) (s : Session σ) :
    (∃ e, step p s = .refuse e s) ∨
    ∃ t, p.tensor = .ok t ∧
      (step p s).result = (s.step t p.render).result.map (fun r => .step (stepReport r)) ∧
      (step p s).after = (s.step t p.render).after := by
  rw [step]
  split
  · exact Or.inl ⟨_, rfl⟩
  · rcases p.tensor with e | t
    · exact Or.inl ⟨e, rfl⟩
    · exact Or.inr ⟨t, rfl, rfl, rfl⟩

/-- A question for the spaces changes nothing. -/
theorem info_eq (s : Session σ) :
    (info s).result = s.info.map (fun spaces => .info (.ofSpaces spaces.1 spaces.2)) ∧
      (info s).after = s := by
  rw [info]
  rcases s.info with e | ⟨action, observation⟩
  · exact ⟨rfl, rfl⟩
  · exact ⟨rfl, rfl⟩

/-- A question for the dynamics changes nothing. -/
theorem dynamics_eq (p : DynamicsParam) (s : Session σ) :
    (dynamics p s).result = (s.dynamics p.state p.action).map .dynamics ∧
      (dynamics p s).after = s := by
  rw [dynamics]
  rcases s.dynamics p.state p.action with e | d
  · exact ⟨rfl, rfl⟩
  · exact ⟨rfl, rfl⟩

/-- Every method has a response of its own. -/
theorem method?_of_respond_eq_ok {s : Session σ} (h : (respond r s).result = .ok response) :
    response.method? = some r.method := by
  cases r with
  | info =>
    rw [respond, (info_eq s).1] at h
    obtain ⟨spaces, -, rfl⟩ := map_eq_ok_iff.mp h
    rfl
  | make p =>
    obtain ⟨u, -, rfl⟩ := map_eq_ok_iff.mp h
    rfl
  | reset =>
    obtain ⟨o, -, rfl⟩ := map_eq_ok_iff.mp h
    rfl
  | step p =>
    rcases step_cases p s with ⟨e, hs⟩ | ⟨t, -, hs, -⟩
    · rw [respond, hs] at h
      cases h
    · rw [respond, hs] at h
      obtain ⟨o, -, rfl⟩ := map_eq_ok_iff.mp h
      rfl
  | dynamics p =>
    rw [respond, (dynamics_eq p s).1] at h
    obtain ⟨d, -, rfl⟩ := map_eq_ok_iff.mp h
    rfl

/-! ## Requests -/

theorem dispatch_of_undecodable (h : Request.decode b = .error e) (s : Server σ) :
    s.dispatch b = .refuse e s := by
  rw [dispatch, h]

theorem dispatch_of_not_accepted (h : Request.decode b = .ok r)
    (ha : s.lifecycle.accept r.method = .error e) : s.dispatch b = .refuse e s := by
  simp only [dispatch, h, carryOut, ha]

/-- A request that the session refuses keeps the lifecycle. -/
theorem dispatch_of_error (h : Request.decode b = .ok r)
    (ha : s.lifecycle.accept r.method = .ok ()) (hr : (respond r s.session).result = .error e) :
    (s.dispatch b).result = .error e ∧
      (s.dispatch b).after = { s with session := (respond r s.session).after } := by
  simp only [dispatch, h, carryOut, ha, hr, and_self]

/-- A request that the session carries out moves the lifecycle. -/
theorem dispatch_of_ok (h : Request.decode b = .ok r)
    (ha : s.lifecycle.accept r.method = .ok ())
    (hr : (respond r s.session).result = .ok response) :
    (s.dispatch b).result = .ok response ∧
      (s.dispatch b).after = ⟨(respond r s.session).after, s.lifecycle.after r.method⟩ := by
  simp only [dispatch, h, carryOut, ha, hr, and_self]

/-- **Requests.**  Bytes are no request, or a request that is not accepted, or one that fails, or
one that is carried out. -/
theorem dispatch_cases (b : Bytes) (s : Server σ) :
    (∃ e, Request.decode b = .error e) ∨
    (∃ r e, Request.decode b = .ok r ∧ s.lifecycle.accept r.method = .error e) ∨
    (∃ r e, Request.decode b = .ok r ∧ s.lifecycle.accept r.method = .ok () ∧
      (respond r s.session).result = .error e) ∨
    ∃ r response, Request.decode b = .ok r ∧ s.lifecycle.accept r.method = .ok () ∧
      (respond r s.session).result = .ok response := by
  rcases Request.decode b with e | r
  · exact Or.inl ⟨e, rfl⟩
  · rcases ha : s.lifecycle.accept r.method with e | u
    · exact Or.inr (Or.inl ⟨r, e, rfl, ha⟩)
    · rcases hr : (respond r s.session).result with e | response
      · exact Or.inr (Or.inr (Or.inl ⟨r, e, rfl, ha, hr⟩))
      · exact Or.inr (Or.inr (Or.inr ⟨r, response, rfl, ha, hr⟩))

/-- A request that succeeds was accepted and carried out. -/
theorem dispatch_eq_ok (h : (s.dispatch b).result = .ok response) :
    ∃ r, Request.decode b = .ok r ∧ s.lifecycle.accept r.method = .ok () ∧
      (respond r s.session).result = .ok response := by
  rcases dispatch_cases b s with ⟨e, hb⟩ | ⟨r, e, hb, ha⟩ | ⟨r, e, hb, ha, hr⟩ | ⟨r, rp, hb, ha, hr⟩
  · rw [dispatch_of_undecodable hb] at h
    cases h
  · rw [dispatch_of_not_accepted hb ha] at h
    cases h
  · rw [(dispatch_of_error hb ha hr).1] at h
    cases h
  · rw [(dispatch_of_ok hb ha hr).1] at h
    cases h
    exact ⟨r, hb, ha, hr⟩

/-! ## Replies -/

/-- A request leaves the server as its dispatch does. -/
theorem after_handle (b : Bytes) (s : Server σ) : (s.handle b).after = (s.dispatch b).after := by
  simp only [handle]
  split
  · rfl
  · rfl
  · rfl

theorem reply_of_ok (h : (s.dispatch b).result = .ok response) :
    (s.handle b).reply = some response.encode := by
  simp only [handle, h]

/-- Every rejection is answered, except that memory runs out. -/
theorem reply_of_error (h : (s.dispatch b).result = .error e) :
    (s.handle b).reply
      = if e = .param .capacity then none else some (Response.error e.message).encode := by
  simp only [handle, h]
  split
  · rename_i hc
    cases hc
  · rename_i hc
    cases hc
    rw [if_pos rfl]
  · rename_i hne hc
    cases hc
    rw [if_neg hne]

/-- An error message is the reply to a rejection. -/
theorem exists_rejection_of_reply {m : String}
    (h : (s.handle b).reply = some (Response.error m).encode) :
    ∃ e, (s.dispatch b).result = .error e ∧ e ≠ .param .capacity := by
  -- the first bytes of the reply rule out that a method was carried out
  rcases hd : (s.dispatch b).result with e | response
  · refine ⟨e, rfl, ?_⟩
    rintro rfl
    rw [reply_of_error hd, if_pos rfl] at h
    cases h
  · rw [reply_of_ok hd, Option.some.injEq] at h
    obtain ⟨m', rfl⟩ := Response.eq_error_of_encode_eq h
    obtain ⟨r, -, -, hr⟩ := dispatch_eq_ok hd
    cases method?_of_respond_eq_ok hr

/-- `OK` is the reply to a request that made an environment. -/
theorem reply_eq_made_iff : (s.handle b).reply = some Response.made.encode ↔
    ∃ p, Request.decode b = .ok (.make p) ∧ (s.session.make p.envName p.count).result = .ok () := by
  constructor
  · intro h
    rcases hd : (s.dispatch b).result with e | response
    · rw [reply_of_error hd] at h
      split at h
      · cases h
      · rw [Option.some.injEq] at h
        cases Response.encode_eq_made_iff.mp h
    · rw [reply_of_ok hd, Option.some.injEq, Response.encode_eq_made_iff] at h
      subst h
      obtain ⟨r, hb, -, hr⟩ := dispatch_eq_ok hd
      have hm := method?_of_respond_eq_ok hr
      cases r with
      | make p =>
        obtain ⟨u, hu, -⟩ := map_eq_ok_iff.mp hr
        exact ⟨p, hb, hu⟩
      | _ => cases hm
  · rintro ⟨p, hb, hp⟩
    have hr : (respond (.make p) s.session).result = .ok .made := map_eq_ok_iff.mpr ⟨(), hp, rfl⟩
    exact reply_of_ok (dispatch_of_ok hb s.lifecycle.accept_make hr).1

end Server

end Rollout
