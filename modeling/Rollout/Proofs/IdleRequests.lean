/-
# Requests that leave no trace

A request that is answered with an error message, or that only asks for the spaces
or the dynamics, leaves a server of dependable environments exactly as it was.  So
these requests can be taken out of a run, and all other replies stay the same.  The
main statement, `idle_requests_leave_no_trace`, is about the standard environments.
-/
import Rollout.Proofs.Runs
import Rollout.Proofs.ServerCalls
import Rollout.Proofs.StandardWorlds

namespace Rollout.Server

variable {σ : Type} [Env σ] {s : Server σ} {b : Bytes}

/-! ## Idle requests -/

/-- A request is idle if it is answered with an error message, or if it is a question. -/
def Idle (b : Bytes) (s : Server σ) : Prop :=
  (∃ m, (s.handle b).reply = some (Response.error m).encode) ∨
    Request.decode b = .ok .info ∨ ∃ p, Request.decode b = .ok (.dynamics p)

/-- Whether a request is rejected while there is memory. -/
def rejects (b : Bytes) (s : Server σ) : Bool :=
  match (s.dispatch b).result with
  | .error e => e != .param .capacity
  | .ok _ => false

/-- Whether a request is a question. -/
def isQuestion (b : Bytes) : Bool :=
  match Request.decode b with
  | .ok .info => true
  | .ok (.dynamics _) => true
  | _ => false

theorem rejects_iff :
    s.rejects b = true ↔ ∃ m, (s.handle b).reply = some (Response.error m).encode := by
  rw [rejects]
  constructor
  · intro h
    rcases hd : (s.dispatch b).result with e | response
    · rw [hd] at h
      rw [reply_of_error hd, if_neg (bne_iff_ne.mp h)]
      exact ⟨e.message, rfl⟩
    · rw [hd] at h
      cases h
  · rintro ⟨m, hm⟩
    obtain ⟨e, he, hne⟩ := exists_rejection_of_reply hm
    rw [he]
    exact bne_iff_ne.mpr hne

theorem isQuestion_iff : isQuestion b = true ↔
    Request.decode b = .ok .info ∨ ∃ p, Request.decode b = .ok (.dynamics p) := by
  rw [isQuestion]
  rcases Request.decode b with e | r
  · simp
  · cases r with
    | info => simp
    | make p => simp
    | reset => simp
    | step p => simp
    | dynamics p => simp

/-- Idleness can be decided. -/
instance (b : Bytes) (s : Server σ) : Decidable (s.Idle b) :=
  decidable_of_iff (s.rejects b = true ∨ isQuestion b = true)
    (or_congr rejects_iff isQuestion_iff)

/-! ## One request -/

/-- Every method keeps a session dependable, and changes nothing if it fails. -/
theorem dependable_respond {s : Session σ} (h : s.Dependable) (r : Request) :
    (respond r s).after.Dependable ∧
      ∀ e, (respond r s).result = .error e → (respond r s).after = s := by
  cases r with
  | info =>
    rw [respond, (info_eq s).2]
    exact ⟨h, fun _ _ => rfl⟩
  | make p =>
    obtain ⟨hafter, herror⟩ := h.make p.envName p.count
    exact ⟨hafter, fun e he => herror e (map_eq_error_iff.mp he)⟩
  | reset =>
    obtain ⟨hafter, herror⟩ := h.reset
    exact ⟨hafter, fun e he => herror e (map_eq_error_iff.mp he)⟩
  | step p =>
    rw [respond]
    rcases step_cases p s with ⟨e, hs⟩ | ⟨t, -, hresult, hafter⟩
    · rw [hs]
      exact ⟨h, fun _ _ => rfl⟩
    · obtain ⟨hd, herror⟩ := h.step t p.render
      rw [hresult, hafter]
      exact ⟨hd, fun e he => herror e (map_eq_error_iff.mp he)⟩
  | dynamics p =>
    rw [respond, (dynamics_eq p s).2]
    exact ⟨h, fun _ _ => rfl⟩

/-- A rejected request leaves a server of dependable environments as it was. -/
theorem dispatch_of_rejected (h : s.session.Dependable) {e : Rejection}
    (he : (s.dispatch b).result = .error e) : (s.dispatch b).after = s := by
  rcases dispatch_cases b s with ⟨f, hb⟩ | ⟨r, f, hb, ha⟩ | ⟨r, f, hb, ha, hr⟩ | ⟨r, rp, hb, ha, hr⟩
  · rw [dispatch_of_undecodable hb]
    rfl
  · rw [dispatch_of_not_accepted hb ha]
    rfl
  · rw [(dispatch_of_error hb ha hr).2, (dependable_respond h r).2 f hr]
  · rw [(dispatch_of_ok hb ha hr).1] at he
    cases he

/-- A request keeps the session of a server dependable. -/
theorem dependable_handle (h : s.session.Dependable) (b : Bytes) :
    (s.handle b).after.session.Dependable := by
  rw [after_handle]
  rcases hd : (s.dispatch b).result with e | response
  · rw [dispatch_of_rejected h hd]
    exact h
  · obtain ⟨r, hb, ha, hr⟩ := dispatch_eq_ok hd
    rw [(dispatch_of_ok hb ha hr).2]
    exact (dependable_respond h r).1

/-- A question leaves every server as it was. -/
theorem after_handle_of_question
    (h : Request.decode b = .ok .info ∨ ∃ p, Request.decode b = .ok (.dynamics p)) :
    (s.handle b).after = s := by
  have hquestion : ∃ r, Request.decode b = .ok r ∧ r.method ≠ .make ∧
      (respond r s.session).after = s.session := by
    rcases h with hb | ⟨p, hb⟩
    · exact ⟨.info, hb, nofun, (info_eq s.session).2⟩
    · exact ⟨.dynamics p, hb, nofun, (dynamics_eq p s.session).2⟩
  obtain ⟨r, hb, hm, hafter⟩ := hquestion
  rw [after_handle]
  rcases ha : s.lifecycle.accept r.method with e | u
  · rw [dispatch_of_not_accepted hb ha]
    rfl
  · rcases hr : (respond r s.session).result with e | response
    · rw [(dispatch_of_error hb ha hr).2, hafter]
    · rw [(dispatch_of_ok hb ha hr).2, hafter, s.lifecycle.after_of_ne_make hm]

/-- An idle request leaves a server of dependable environments as it was. -/
theorem after_handle_of_idle (h : s.session.Dependable) (hi : s.Idle b) :
    (s.handle b).after = s := by
  rcases hi with ⟨m, hm⟩ | hq
  · obtain ⟨e, he, -⟩ := exists_rejection_of_reply hm
    rw [after_handle]
    exact dispatch_of_rejected h he
  · exact after_handle_of_question hq

/-! ## Runs -/

/-- The requests of a run that are not idle, with their replies. -/
def effective : (requests : List Bytes) → Server σ → List (Bytes × Option Bytes)
  | [], _ => []
  | b :: bs, s =>
    if s.Idle b then effective bs (s.handle b).after
    else (b, (s.handle b).reply) :: effective bs (s.handle b).after

/-- Without its idle requests, a run of dependable environments has the same replies to all
others, and the same end. -/
theorem run_effective (h : s.session.Dependable) (requests : List Bytes) :
    s.replies ((s.effective requests).map Prod.fst) = (s.effective requests).map Prod.snd ∧
      s.afterAll ((s.effective requests).map Prod.fst) = s.afterAll requests := by
  induction requests generalizing s with
  | nil => exact ⟨rfl, rfl⟩
  | cons b bs ih =>
    obtain ⟨hreplies, hafter⟩ := ih (dependable_handle h b)
    by_cases hi : s.Idle b
    · -- the server has not moved, so the rest of the run starts where the whole one does
      have hs : (s.handle b).after = s := after_handle_of_idle h hi
      rw [hs] at hreplies hafter
      rw [effective, if_pos hi, afterAll, hs]
      exact ⟨hreplies, hafter⟩
    · rw [effective, if_neg hi, List.map_cons, List.map_cons, replies, afterAll, afterAll,
        hreplies, hafter]
      exact ⟨rfl, rfl⟩

/-- **Idle requests leave no trace.**  After any requests to a new server of the standard
environments, a request that is answered with an error message, or that is a question, leaves the
server exactly as it is; and without all such requests, a run has the same replies to the others,
and the same end. -/
theorem idle_requests_leave_no_trace (config : SessionConfig) (requests : List Bytes) :
    let fresh := Server.start (.start World.registry config)
    let s := fresh.afterAll requests
    (∀ b, s.Idle b → (s.handle b).after = s) ∧
    fresh.replies ((fresh.effective requests).map Prod.fst)
      = (fresh.effective requests).map Prod.snd ∧
    fresh.afterAll ((fresh.effective requests).map Prod.fst) = s := by
  intro fresh s
  have hfresh : fresh.session.Dependable := .start World.dependable_registry config
  have hs : s.session.Dependable :=
    afterAll_induction (P := fun s => s.session.Dependable)
      (fun b _ h => dependable_handle h b) requests hfresh
  refine ⟨?_, run_effective hfresh requests⟩
  intro b hi
  exact after_handle_of_idle hs hi

/-- Two lakes are made, asked for an entry of their table, stepped with one action, reset, and
sent bytes that are no request. -/
def lakeRequests : List Bytes :=
  [Request.make ⟨"FrozenLake-v1", 2⟩, .dynamics ⟨0, 1⟩, .step ⟨none, some 1, false⟩,
    .reset].map Request.encode ++ [[0xc0]]

/-- Only the make and the reset of the two lakes leave a trace. -/
theorem idle_requests_leave_no_trace_lakeRequests :
    let fresh := Server.start (.start World.registry .usual)
    let rest := [Request.make ⟨"FrozenLake-v1", 2⟩, .reset].map Request.encode
    (fresh.effective lakeRequests).map Prod.fst = rest ∧
      fresh.replies rest = (fresh.effective lakeRequests).map Prod.snd ∧
      fresh.afterAll rest = fresh.afterAll lakeRequests := by
  intro fresh rest
  have hrest : (fresh.effective lakeRequests).map Prod.fst = rest := by decide +kernel
  obtain ⟨-, hreplies, hafter⟩ := idle_requests_leave_no_trace .usual lakeRequests
  rw [← hrest]
  exact ⟨rfl, hreplies, hafter⟩

end Rollout.Server
