/-
# Calls of a single environment

An environment on its own is reseeded, reset, stepped and drawn, one call after
another.  A run is the row of its calls; it gives one reply for each of them and
leaves a state.
-/
import Rollout.Env

namespace Rollout

/-- What an environment is asked to do. -/
inductive EnvCall where
  | seed (seed : UInt64)
  | reset
  | step (a : Action)
  | render
  deriving DecidableEq

/-- The call is no step, or one with an action of the space. -/
def EnvCall.Fits (s : Space) : EnvCall → Prop
  | .step a => s.fault? a = none
  | _ => True

instance (s : Space) : (c : EnvCall) → Decidable (c.Fits s)
  | .step a => inferInstanceAs (Decidable (s.fault? a = none))
  | .seed _ | .reset | .render => .isTrue trivial

/-- What an environment gives back. -/
inductive EnvReply where
  | seeded
  /-- The frame of a reset. -/
  | frame (result : Except Failure Observation)
  | step (result : Except Failure Step)
  | drawn (drawing : Drawing)

/-- The failure that a reply reports. -/
def EnvReply.failure? : EnvReply → Option Failure
  | .seeded => none
  | .frame (.ok _) => none
  | .frame (.error f) => some f
  | .step (.ok _) => none
  | .step (.error f) => some f
  | .drawn ⟨_, .ok _⟩ => none
  | .drawn ⟨_, .error f⟩ => some f

/-- What a step that succeeded gave. -/
def EnvReply.step? : EnvReply → Option Step
  | .step (.ok r) => some r
  | _ => none

/-- A reset reports its failure. -/
theorem EnvReply.failure?_frame_eq_some_iff {result : Except Failure Observation} {f : Failure} :
    (EnvReply.frame result).failure? = some f ↔ result = .error f := by
  rcases result with g | o
  · simp [failure?]
  · simp [failure?]

theorem EnvReply.failure?_step_eq_some_iff {result : Except Failure Step} {f : Failure} :
    (EnvReply.step result).failure? = some f ↔ result = .error f := by
  rcases result with g | r
  · simp [failure?]
  · simp [failure?]

namespace Env

variable {σ : Type} [Env σ]

/-- A call of an environment. -/
def call : EnvCall → σ → EnvReply × σ
  | .seed s, e => (.seeded, Env.seed s e)
  | .reset, e => (.frame (Env.reset e).1, (Env.reset e).2)
  | .step a, e => (.step (Env.step a e).1, (Env.step a e).2)
  | .render, e => (.drawn (Env.render e).1, (Env.render e).2)

/-- The environment after calls made one after another. -/
def afterAll (calls : List EnvCall) (e : σ) : σ := calls.foldl (fun e c => (call c e).2) e

/-- The replies to calls made one after another. -/
def replies : List EnvCall → σ → List EnvReply
  | [], _ => []
  | c :: calls, e => (call c e).1 :: replies calls (call c e).2

/-- The steps of a run that succeeded, in order. -/
def steps (calls : List EnvCall) (e : σ) : List Step := (replies calls e).filterMap EnvReply.step?

@[simp] theorem afterAll_cons (c : EnvCall) (calls : List EnvCall) (e : σ) :
    afterAll (c :: calls) e = afterAll calls (call c e).2 := rfl

/-- The step of the first call, if it is one that succeeds, and then those of the others. -/
@[simp] theorem steps_cons (c : EnvCall) (calls : List EnvCall) (e : σ) :
    steps (c :: calls) e = (call c e).1.step?.toList ++ steps calls (call c e).2 := by
  rw [steps, replies, List.filterMap_cons]
  cases (call c e).1.step? with
  | none => rfl
  | some r => rfl

/-- What the calls of a run keep holds after it. -/
theorem afterAll_induction {P : σ → Prop} {calls : List EnvCall} {e : σ} (h : P e)
    (hcall : ∀ c ∈ calls, ∀ e, P e → P (call c e).2) : P (afterAll calls e) := by
  induction calls generalizing e with
  | nil => exact h
  | cons c calls ih =>
    rw [List.forall_mem_cons] at hcall
    exact ih (hcall.1 e h) hcall.2

end Env

end Rollout
