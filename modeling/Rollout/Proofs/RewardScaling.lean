/-
# Scaling feeds nothing back

A batch hands its rewards to the scaler, and nothing else looks at the scaler.  Here
scaling is taken out of a server: `Server.unscaled` forgets the scaler of the current
environment and turns scaling off in the settings.  Every call commutes with this, up
to the rewards that are handed out.  So servers that differ only in how they scale
rewards stay alike in all else, whatever they are asked: `scaling_feeds_nothing_back`.
-/
import Mathlib.Data.List.Forall2
import Rollout.Proofs.BatchCalls
import Rollout.Proofs.Runs
import Rollout.Proofs.ServerCalls

namespace Rollout

open Numeric (Single)

variable {σ : Type}

/-! ## Batches -/

/-- A step as a batch without a scaler gives it. -/
def BatchStep.unscaled (r : BatchStep) : BatchStep := { r with rewards := r.raw }

namespace Batch

/-- The batch without its scaler. -/
def unscaled (b : Batch σ) : Batch σ := { b with scaler := none }

variable [Env σ]

@[simp] theorem reset_unscaled (b : Batch σ) :
    b.unscaled.reset = (b.reset.1, b.reset.2.unscaled) := rfl

@[simp] theorem render_unscaled (b : Batch σ) :
    b.unscaled.render = (b.render.1, b.render.2.unscaled) := rfl

/-- The scaler of a batch decides about the rewards of a step and about nothing else. -/
@[simp] theorem step_unscaled (act : BatchAction) (b : Batch σ) :
    b.unscaled.step act = ((b.step act).1.map BatchStep.unscaled, (b.step act).2.unscaled) := by
  by_cases hfit : Fits act b
  · have hfit' : Fits act b.unscaled := hfit
    rw [step_of_fits hfit, step_of_fits hfit']
    rcases hs : (b.stepSweep act).1 with f | outcomes
    · have hs' : (b.unscaled.stepSweep act).1 = .error f := hs
      rw [hs']
      rfl
    · have hs' : (b.unscaled.stepSweep act).1 = .ok outcomes := hs
      rw [hs']
      show ((stackAll _).map _, _) = (((stackAll _).map _).map _, _)
      rcases stackAll (outcomes.map Outcome.observation) with f | t
      · rfl
      · rfl
  · -- the checks come first, and they do not look at the scaler
    unfold step
    show (if act.length ≠ b.count then _ else _) = _
    split
    · rfl
    · rename_i hl
      have hspace : checkAll b.unscaled.actionSpace act.toList = checkAll b.actionSpace act.toList :=
        rfl
      rw [hspace]
      rcases hc : checkAll b.actionSpace act.toList with f | u
      · rfl
      · exact absurd ⟨Decidable.not_not.mp hl, hc⟩ hfit

end Batch

/-! ## Sessions -/

/-- A call seen through a function of its value and a function of its state. -/
def Call.along {τ τ' α β : Type} (f : α → β) (g : τ → τ') (c : Call τ α) : Call τ' β :=
  ⟨c.result.map f, g c.after, c.log⟩

/-- The settings with scaling turned off and another discount. -/
def SessionConfig.unscaled (discount : Float32) (c : SessionConfig) : SessionConfig :=
  { c with scaleRewards := false, discount }

/-- A step as a session without a scaler gives it. -/
def SessionStep.unscaled (r : SessionStep) : SessionStep := { r with reward := .column r.raw }

namespace Session

variable {discount : Float32}

/-- The session that does not scale rewards, now and after a make. -/
def unscaled (discount : Float32) (s : Session σ) : Session σ where
  registry := s.registry
  config := s.config.unscaled discount
  active := s.active.map fun a => { a with batch := a.batch.unscaled }

variable [Env σ]

omit [Env σ] in
/-- The current environment without its scaler. -/
theorem active_unscaled {s : Session σ} {a : Active σ} (ha : s.active = some a) :
    (s.unscaled discount).active = some { a with batch := a.batch.unscaled } := by
  show s.active.map _ = _
  rw [ha]
  rfl

omit [Env σ] in
theorem active_unscaled_of_none {s : Session σ} (ha : s.active = none) :
    (s.unscaled discount).active = none := by
  show s.active.map _ = _
  rw [ha]
  rfl

omit [Env σ] in
/-- The name of the current environment does not depend on the scaler. -/
@[simp] theorem envName?_unscaled (s : Session σ) : (s.unscaled discount).envName? = s.envName? := by
  rcases ha : s.active with _ | a
  · rw [envName?, envName?, ha, active_unscaled_of_none ha]
  · rw [envName?, envName?, ha, active_unscaled ha]
    rfl

omit [Env σ] in
@[simp] theorem count?_unscaled (s : Session σ) : (s.unscaled discount).count? = s.count? := by
  rcases ha : s.active with _ | a
  · rw [count?, count?, ha, active_unscaled_of_none ha]
  · rw [count?, count?, ha, active_unscaled ha]
    rfl

omit [Env σ] in
/-- The instances are the same with and without the scaler. -/
@[simp] theorem instances_unscaled (s : Session σ) :
    ((s.unscaled discount).active.map fun a => a.batch.instances)
      = s.active.map fun a => a.batch.instances := by
  rcases ha : s.active with _ | a
  · rw [active_unscaled_of_none ha]
  · rw [active_unscaled ha]
    rfl

/-- A make depends on the registry and the settings that are left. -/
@[simp] theorem make_unscaled (name : String) (count : UInt64) (s : Session σ) :
    (s.unscaled discount).make name count = (s.make name count).along id (unscaled discount) := by
  unfold make
  show (if count = 0 ∨ s.config.mostInstances < count then _ else _) = _
  split
  · rfl
  · have hbuild : Batch.build (s.unscaled discount).registry name (s.unscaled discount).config.seed
        count.toNat = Batch.build s.registry name s.config.seed count.toNat := rfl
    rw [hbuild]
    rcases Batch.build s.registry name s.config.seed count.toNat with f | batch
    · rfl
    · -- the report names the environment before, with or without its scaler
      have hlog : replacedLog (s.unscaled discount).active = replacedLog s.active := by
        rcases ha : s.active with _ | a
        · rw [active_unscaled_of_none ha]
        · rw [active_unscaled ha]
          rfl
      simp only [hlog]
      rfl

/-- The spaces do not depend on the scaler. -/
@[simp] theorem info_unscaled (s : Session σ) : (s.unscaled discount).info = s.info := by
  rcases ha : s.active with _ | a
  · simp only [info, ha, active_unscaled_of_none ha]
  · simp only [info, ha, active_unscaled ha]
    rfl

/-- The table does not depend on the scaler. -/
@[simp] theorem dynamics_unscaled (state action : UInt64) (s : Session σ) :
    (s.unscaled discount).dynamics state action = s.dynamics state action := by
  rcases ha : s.active with _ | a
  · simp only [dynamics, ha, active_unscaled_of_none ha]
  · simp only [dynamics, ha, active_unscaled ha]
    rfl

@[simp] theorem reset_unscaled (s : Session σ) :
    (s.unscaled discount).reset = s.reset.along id (unscaled discount) := by
  rcases ha : s.active with _ | a
  · simp only [reset, ha, active_unscaled_of_none ha]
    rfl
  · simp only [reset, ha, active_unscaled ha, Batch.reset_unscaled]
    rcases a.batch.reset with ⟨f | o, b⟩
    · rfl
    · rfl

/-- Drawing comes after the scaler, and looks at the instances only. -/
@[simp] theorem draw_unscaled (a : Active σ) (b : Batch σ) (r : BatchStep) (s : Session σ) :
    (s.unscaled discount).draw { a with batch := a.batch.unscaled } b.unscaled r.unscaled
      = (s.draw a b r).along SessionStep.unscaled (unscaled discount) := by
  simp only [draw, Batch.render_unscaled]
  rcases b.render with ⟨⟨frames, f | u⟩, b'⟩
  · rfl
  · rfl

/-- A step of a session is the step without scaling, but for the rewards. -/
@[simp] theorem step_unscaled (actions : Tensor Numeric.Double) (render : Bool) (s : Session σ) :
    (s.unscaled discount).step actions render
      = (s.step actions render).along SessionStep.unscaled (unscaled discount) := by
  rcases ha : s.active with _ | a
  · simp only [step, ha, active_unscaled_of_none ha]
    rfl
  · simp only [step, ha, active_unscaled ha]
    have hspace : a.batch.unscaled.actionSpace = a.batch.actionSpace := rfl
    rw [hspace]
    rcases batchAction a.batch.actionSpace actions with fault | act
    · rfl
    · simp only [Batch.step_unscaled]
      rcases a.batch.step act with ⟨f | r, b⟩
      · rfl
      · cases render with
        | false => rfl
        | true => exact draw_unscaled a b r s

end Session

/-! ## Servers -/

namespace Response

/-- A response as a server that does not scale rewards gives it. -/
def unscaled : Response → Response
  | .step p => .step { p with reward := p.realReward }
  | response => response

theorem unscaled_of_ne_step {r : Response} (h : ∀ p, r ≠ .step p) : r.unscaled = r := by
  cases r with
  | step p => exact absurd rfl (h p)
  | _ => rfl

/-- Responses that differ by scaling are the same, or steps with other rewards. -/
theorem cases_of_unscaled_eq {r r' : Response} (h : r.unscaled = r'.unscaled) :
    (r' = r ∧ ∀ p, r ≠ .step p) ∨
    ∃ p p', r = .step p ∧ r' = .step p' ∧ p' = { p with reward := p'.reward } := by
  by_cases hr : ∃ p, r = .step p
  · obtain ⟨p, rfl⟩ := hr
    by_cases hr' : ∃ p', r' = .step p'
    · obtain ⟨p', rfl⟩ := hr'
      obtain ⟨observation, reward, done, real⟩ := p
      obtain ⟨observation', reward', done', real'⟩ := p'
      cases h
      exact Or.inr ⟨_, _, rfl, rfl, rfl⟩
    · rw [unscaled_of_ne_step (not_exists.mp hr')] at h
      exact absurd ⟨_, h.symm⟩ hr'
  · have hne := not_exists.mp hr
    rw [unscaled_of_ne_step hne] at h
    by_cases hr' : ∃ p', r' = .step p'
    · obtain ⟨p', rfl⟩ := hr'
      exact absurd ⟨_, h⟩ hr
    · rw [unscaled_of_ne_step (not_exists.mp hr')] at h
      exact Or.inl ⟨h.symm, hne⟩

/-- Only a step is written like a step. -/
theorem exists_eq_step_of_encode_eq {r : Response} {p : StepReport}
    (h : r.encode = (step p).encode) : ∃ p', r = .step p' := by
  -- the first key begins like `observation`, and there are four of them
  have htake : r.encode.take 3 = [0x84, 0xab, 0x6f] := by
    rw [h]
    rfl
  cases r with
  | step p' => exact ⟨p', rfl⟩
  | info report => cases htake
  | dynamics outcomes => cases htake
  | made => cases htake
  | reset observation => cases htake
  | error message => cases htake

end Response

namespace Server

variable {discount : Float32}

/-- The server that does not scale rewards, now and after a make. -/
def unscaled (discount : Float32) (s : Server σ) : Server σ :=
  { s with session := s.session.unscaled discount }

variable [Env σ] {s s' : Server σ}

/-- No method lets the scaler show in anything but the rewards of a step. -/
@[simp] theorem respond_unscaled (r : Request) (s : Session σ) :
    respond r (s.unscaled discount)
      = (respond r s).along Response.unscaled (Session.unscaled discount) := by
  cases r with
  | info =>
    show info (s.unscaled discount) = _
    simp only [info, respond, Session.info_unscaled]
    rcases s.info with e | ⟨action, observation⟩
    · rfl
    · rfl
  | make p =>
    show make p (s.unscaled discount) = _
    simp only [make, respond, Session.make_unscaled]
    rcases s.make p.envName p.count with ⟨e | u, after, log⟩
    · rfl
    · rfl
  | reset =>
    show reset (s.unscaled discount) = _
    simp only [reset, respond, Session.reset_unscaled]
    rcases s.reset with ⟨e | o, after, log⟩
    · rfl
    · rfl
  | step p =>
    show step p (s.unscaled discount) = _
    simp only [step, respond, Session.count?_unscaled]
    split
    · rfl
    · rcases p.tensor with e | t
      · rfl
      · simp only [Session.step_unscaled]
        rcases s.step t p.render with ⟨e | o, after, log⟩
        · rfl
        · rfl
  | dynamics p =>
    show dynamics p (s.unscaled discount) = _
    simp only [dynamics, respond, Session.dynamics_unscaled]
    rcases s.dynamics p.state p.action with e | d
    · rfl
    · rfl

/-- No request lets the scaler show in anything but the rewards of a step. -/
@[simp] theorem dispatch_unscaled (b : Bytes) (s : Server σ) :
    (s.unscaled discount).dispatch b
      = (s.dispatch b).along Response.unscaled (unscaled discount) := by
  unfold dispatch
  rcases Request.decode b with e | r
  · rfl
  · simp only [carryOut]
    have hlifecycle : (s.unscaled discount).lifecycle = s.lifecycle := rfl
    rw [hlifecycle]
    rcases s.lifecycle.accept r.method with e | u
    · rfl
    · have hr : respond r (s.unscaled discount).session
          = (respond r s.session).along Response.unscaled (Session.unscaled discount) :=
        respond_unscaled r s.session
      simp only [hr]
      rcases respond r s.session with ⟨e | response, after, log⟩
      · rfl
      · rfl

/-- A server that does not scale rewards is left as the server that does, without scaling. -/
@[simp] theorem after_handle_unscaled (b : Bytes) (s : Server σ) :
    ((s.unscaled discount).handle b).after = (s.handle b).after.unscaled discount := by
  rw [after_handle, after_handle, dispatch_unscaled]
  rfl

/-! ## Replies -/

/-- How the replies of two servers to one request go together when only scaling sets the servers
apart.  Either no step was taken and the replies are the same; or both report the same step, with
other rewards at most, and a server that does not scale hands out the real rewards. -/
inductive AgreesButReward (scaled scaled' : Bool) : Option Bytes → Option Bytes → Prop
  | same {reply : Option Bytes} (noStep : ∀ p, reply ≠ some (Response.step p).encode) :
    AgreesButReward scaled scaled' reply reply
  | step {p : StepReport} {reward reward' : Tensor Single}
    (real : scaled = false → reward = p.realReward)
    (real' : scaled' = false → reward' = p.realReward) :
    AgreesButReward scaled scaled' (some (Response.step { p with reward }).encode)
      (some (Response.step { p with reward := reward' }).encode)

/-- Two servers are alike but for scaling; one that does not scale has no scaler either. -/
structure Alike (scaled scaled' : Bool) (s s' : Server σ) : Prop where
  same : s.unscaled 0 = s'.unscaled 0
  plain : scaled = false → ∃ discount, s.unscaled discount = s
  plain' : scaled' = false → ∃ discount, s'.unscaled discount = s'

variable {scaled scaled' : Bool} {b : Bytes}

/-- A request to servers that are alike leaves them alike. -/
theorem Alike.handle (h : Alike scaled scaled' s s') (b : Bytes) :
    Alike scaled scaled' (s.handle b).after (s'.handle b).after := by
  have hplain : ∀ {t : Server σ}, (∃ discount, t.unscaled discount = t) →
      ∃ discount, (t.handle b).after.unscaled discount = (t.handle b).after := by
    rintro t ⟨discount, ht⟩
    refine ⟨discount, ?_⟩
    rw [← after_handle_unscaled, ht]
  refine ⟨?_, fun hs => hplain (h.plain hs), fun hs => hplain (h.plain' hs)⟩
  rw [← after_handle_unscaled, ← after_handle_unscaled, h.same]

/-- A server without a scaler hands out the real rewards. -/
theorem reward_eq_of_plain (h : ∃ discount, s.unscaled discount = s) {p : StepReport}
    (hp : (s.dispatch b).result = .ok (.step p)) : p.reward = p.realReward := by
  obtain ⟨discount, hs⟩ := h
  have hresult : (s.dispatch b).result = (s.dispatch b).result.map Response.unscaled := by
    have hdispatch : (s.unscaled discount).dispatch b = _ := dispatch_unscaled b s
    rw [hs] at hdispatch
    exact congrArg Call.result hdispatch
  rw [hp] at hresult
  have hstep : Response.step p = .step { p with reward := p.realReward } := Except.ok.inj hresult
  have hreport : p = { p with reward := p.realReward } := Response.step.inj hstep
  exact congrArg StepReport.reward hreport

/-- Servers that are alike reply alike, but for the rewards of a step. -/
theorem Alike.reply (h : Alike scaled scaled' s s') (b : Bytes) :
    AgreesButReward scaled scaled' (s.handle b).reply (s'.handle b).reply := by
  have hresult : (s.dispatch b).result.map Response.unscaled
      = (s'.dispatch b).result.map Response.unscaled := by
    have hs : (s.unscaled 0).dispatch b = _ := dispatch_unscaled b s
    have hs' : (s'.unscaled 0).dispatch b = _ := dispatch_unscaled b s'
    rw [h.same] at hs
    exact congrArg Call.result (hs.symm.trans hs')
  -- only a step is written like one, and only a step is told apart by scaling
  have hsame : ∀ r : Response, (∀ p, r ≠ .step p) →
      AgreesButReward scaled scaled' (some r.encode) (some r.encode) := by
    intro r hr
    refine .same ?_
    intro p hp
    obtain ⟨p', hp'⟩ := Response.exists_eq_step_of_encode_eq (Option.some.inj hp)
    exact hr p' hp'
  rcases hr : (s.dispatch b).result with e | r
  · rw [hr] at hresult
    have hr' : (s'.dispatch b).result = .error e := map_eq_error_iff.mp hresult.symm
    rw [reply_of_error hr, reply_of_error hr']
    split
    · exact .same nofun
    · exact hsame _ nofun
  · rw [hr] at hresult
    obtain ⟨r', hr', hunscaled⟩ := map_eq_ok_iff.mp hresult.symm
    rw [reply_of_ok hr, reply_of_ok hr']
    rcases Response.cases_of_unscaled_eq hunscaled with ⟨rfl, hne⟩ | ⟨p, p', rfl, rfl, hp⟩
    · exact hsame _ hne
    · have hreal : scaled = false → p.reward = p.realReward :=
        fun hs => reward_eq_of_plain (h.plain hs) hr
      have hreal' : scaled' = false → p'.reward = p.realReward := by
        intro hs
        have := reward_eq_of_plain (h.plain' hs) hr'
        rw [this, hp]
      rw [hp]
      exact .step (p := p) hreal hreal'

/-! ## Runs -/

/-- Servers that are alike reply alike to all requests, and are alike after them. -/
theorem Alike.run (h : Alike scaled scaled' s s') (requests : List Bytes) :
    List.Forall₂ (AgreesButReward scaled scaled') (s.replies requests) (s'.replies requests) ∧
      Alike scaled scaled' (s.afterAll requests) (s'.afterAll requests) := by
  induction requests generalizing s s' with
  | nil => exact ⟨.nil, h⟩
  | cons b bs ih =>
    obtain ⟨hreplies, hafter⟩ := ih (h.handle b)
    exact ⟨.cons (h.reply b) hreplies, hafter⟩

/-- **Scaling feeds nothing back.**  Let two new servers differ only in whether they scale rewards
and with which discount.  Whatever they are asked, their replies agree request by request in
everything but the rewards of steps, which are the real rewards for a server that does not scale;
and after all requests they have the same lifecycle and the same environment, with its name, its
number of instances and the states of all instances. -/
theorem scaling_feeds_nothing_back (registry : Registry σ) (config : SessionConfig)
    (scaled scaled' : Bool) (discount discount' : Float32) (requests : List Bytes) :
    let fresh := Server.start
      (.start registry { config with scaleRewards := scaled, discount := discount })
    let fresh' := Server.start
      (.start registry { config with scaleRewards := scaled', discount := discount' })
    let s := fresh.afterAll requests
    let s' := fresh'.afterAll requests
    List.Forall₂ (AgreesButReward scaled scaled') (fresh.replies requests)
      (fresh'.replies requests) ∧
    s.lifecycle = s'.lifecycle ∧ s.session.envName? = s'.session.envName? ∧
    s.session.count? = s'.session.count? ∧
    (s.session.active.map fun a => a.batch.instances)
      = s'.session.active.map fun a => a.batch.instances := by
  intro fresh fresh' s s'
  have hfresh : Alike scaled scaled' fresh fresh' := by
    refine ⟨rfl, ?_, ?_⟩
    · rintro rfl
      exact ⟨discount, rfl⟩
    · rintro rfl
      exact ⟨discount', rfl⟩
  obtain ⟨hreplies, hafter⟩ := hfresh.run requests
  have hsession : s.session.unscaled 0 = s'.session.unscaled 0 := congrArg Server.session hafter.same
  have hlifecycle : (s.unscaled 0).lifecycle = (s'.unscaled 0).lifecycle :=
    congrArg Server.lifecycle hafter.same
  refine ⟨hreplies, hlifecycle, ?_, ?_, ?_⟩
  · rw [← Session.envName?_unscaled, hsession, Session.envName?_unscaled]
  · rw [← Session.count?_unscaled, hsession, Session.count?_unscaled]
  · rw [← Session.instances_unscaled, hsession, Session.instances_unscaled]

end Server

end Rollout
