/-
# Sessions

A session owns the current environment: the batch that the last successful
`make` built.  Every call gives a result, the session after it, and what was
reported meanwhile.
-/
import Rollout.Batch
import Rollout.Config
import Rollout.Wire.Request
import Rollout.Wire.Response

namespace Rollout

open Numeric (Single Double)

/-! ## Calls -/

/-- What a call gives: its result, the state after it and the reports. -/
structure Call (τ α : Type) where
  result : Except Rejection α
  after : τ
  log : Log

/-- A call that fails without a report. -/
def Call.refuse {τ α : Type} (r : Rejection) (t : τ) : Call τ α := ⟨.error r, t, []⟩

/-- A call that gives a value without a report. -/
def Call.give {τ α : Type} (a : α) (t : τ) : Call τ α := ⟨.ok a, t, []⟩

/-! ## Sessions -/

/-- The current environment. -/
structure Active (σ : Type) where
  name : String
  batch : Batch σ

/-- The registry, the settings, and the current environment if there is one. -/
structure Session (σ : Type) where
  registry : Registry σ
  config : SessionConfig
  active : Option (Active σ)

/-- What a step of a session gives. -/
structure SessionStep where
  observation : Tensor Single
  /-- The rewards in a column. -/
  reward : Tensor Single
  /-- The ends of episodes in a column. -/
  done : Tensor Bool
  /-- The rewards before they were scaled. -/
  raw : List Single
  deriving DecidableEq

/-- A step of a batch with its lists as columns. -/
def SessionStep.ofBatch (s : BatchStep) : SessionStep :=
  ⟨s.observations, .column s.rewards, .column s.done, s.raw⟩

namespace Session

variable {σ : Type}

/-- The session without an environment. -/
def start (registry : Registry σ) (config : SessionConfig) : Session σ := ⟨registry, config, none⟩

/-- The name of the current environment. -/
def envName? (s : Session σ) : Option String := s.active.map Active.name

/-- The number of instances of the current environment. -/
def count? (s : Session σ) : Option Nat := s.active.map fun a => a.batch.instances.length

/-- The session with another batch of the current environment. -/
def withBatch (s : Session σ) (a : Active σ) (b : Batch σ) : Session σ :=
  { s with active := some { a with batch := b } }

/-! ### Actions -/

/-- The shape without a last axis of length one, if another axis is left. -/
def squeeze (shape : List Nat) : List Nat :=
  if 2 ≤ shape.length ∧ shape.getLast? = some 1 then shape.dropLast else shape

/-- The indices of numbered actions: one row or one column of numbers, cut to integers. -/
def discreteActions (t : Tensor Double) : Except ParamFault (List Int) :=
  match squeeze t.shape with
  | [_] => .ok (t.data.map Numeric.truncate)
  | shape => .error (.discreteShape shape)

/-- The actions of a batch with this action space. -/
def batchAction (space : Space) (t : Tensor Double) : Except ParamFault BatchAction :=
  match space.kind with
  | .discrete => (discreteActions t).map .discrete
  | .continuous => .ok (.continuous (t.map Double.narrow))

/-! ### Methods -/

variable [Env σ]

/-- The scaler of a new batch. -/
def newScaler (config : SessionConfig) : Option Scaler :=
  if config.scaleRewards then some (.ofDiscount config.discount) else none

/-- The report that an environment was replaced. -/
def replacedLog (previous : Option (Active σ)) : Log :=
  (previous.map fun a => LogRecord.info ("Replaced " ++ a.name)).toList

/-- Makes instances of an environment, which becomes the current one.  The one before is
given up only when the new one is there. -/
def make (name : String) (count : UInt64) (s : Session σ) : Call (Session σ) Unit :=
  if count = 0 ∨ s.config.mostInstances < count then
    .refuse (.param (.instanceCount s.config.mostInstances count)) s
  else
    let making := Batch.buildRecord name count.toNat
    match Batch.build s.registry name s.config.seed count.toNat with
    | .error f => ⟨.error (.env f), s, [making]⟩
    | .ok batch =>
      let batch := { batch with scaler := newScaler s.config }
      ⟨.ok (), { s with active := some ⟨name, batch⟩ }, making :: replacedLog s.active⟩

/-- The action and observation spaces of the current environment. -/
def info (s : Session σ) : Except Rejection (Space × Space) :=
  match s.active with
  | none => .error (.notReady .info)
  | some a => .ok (a.batch.actionSpace, a.batch.observationSpace)

/-- Starts an episode in all instances. -/
def reset (s : Session σ) : Call (Session σ) (Tensor Single) :=
  match s.active with
  | none => .refuse (.notReady .reset) s
  | some a =>
    match a.batch.reset with
    | (.error f, batch) => .refuse (.env f) (s.withBatch a batch)
    | (.ok o, batch) => .give o (s.withBatch a batch)

/-- Draws all instances after a step. -/
def draw (a : Active σ) (batch : Batch σ) (step : BatchStep) (s : Session σ) :
    Call (Session σ) SessionStep :=
  match batch.render with
  | (⟨frames, .error f⟩, batch) => ⟨.error (.env f), s.withBatch a batch, frames.map .info⟩
  | (⟨frames, .ok _⟩, batch) => ⟨.ok (.ofBatch step), s.withBatch a batch, frames.map .info⟩

/-- Steps all instances. -/
def step (actions : Tensor Double) (render : Bool) (s : Session σ) :
    Call (Session σ) SessionStep :=
  match s.active with
  | none => .refuse (.notReady .step) s
  | some a =>
    match batchAction a.batch.actionSpace actions with
    | .error fault => .refuse (.param fault) s
    | .ok act =>
      match a.batch.step act with
      | (.error f, batch) => .refuse (.env f) (s.withBatch a batch)
      | (.ok step, batch) =>
        if render then draw a batch step s else .give (.ofBatch step) (s.withBatch a batch)

/-- The outcomes of an entry of a table. -/
def dynamicsOf (outcomes : List Transition) : Dynamics :=
  ⟨outcomes.map fun o => .ofFloat o.probability, outcomes.map Transition.next,
    outcomes.map fun o => .ofFloat o.reward, outcomes.map Transition.done⟩

/-- The outcomes of a state and an action of the current environment. -/
def dynamics (state action : UInt64) (s : Session σ) : Except Rejection Dynamics :=
  match s.active with
  | none => .error (.notReady .dynamics)
  | some a =>
    match a.batch.table? with
    | none => .error (.noTable a.name)
    | some table =>
      match table.entry? state.toNat action.toNat with
      | none => .error (.noTransition state action)
      | some outcomes => .ok (dynamicsOf outcomes)

/-! ### Text -/

/-- An optional text as text. -/
def optionText : Option String → String
  | none => "None"
  | some s => "Some(" ++ s ++ ")"

/-- A session as text. -/
def inspect (s : Session σ) : String :=
  "Session \x7b config: " ++ s.config.inspect
    ++ ", env_name: " ++ optionText (s.envName?.map Text.quoted)
    ++ ", count: " ++ optionText (s.count?.map Numeric.natText) ++ " \x7d"

end Session

end Rollout
