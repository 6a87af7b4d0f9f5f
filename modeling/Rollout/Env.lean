/-
# Environments

An environment is a state machine: a reset starts an episode, a step takes an
action, and both may fail.  A failing call still leaves a next state, which may
differ from the one before.  Environments of every kind share one interface, the
class `Env` over the type of their states.
-/
import Rollout.Space
import Rollout.TransitionTable

namespace Rollout

/-! ## Failures -/

/-- Why an environment, or a batch of them, cannot do what it is asked to. -/
inductive Failure where
  /-- No environment goes by this name. -/
  | unknownName (name : String)
  /-- A batch needs an instance. -/
  | noInstance
  /-- An instance has other spaces than the first one. -/
  | spaceMismatch (index : Nat)
  /-- A batch of actions of this shape does not fit the number of instances. -/
  | batchShape (got : List Nat) (count : Nat)
  /-- An action does not belong to the action space. -/
  | action (a : Action) (fault : Action.Fault)
  /-- Observations cannot be stacked. -/
  | shape (fault : ShapeFault)
  /-- The initial distribution has not one entry per state. -/
  | initialLength (entries states : Nat)
  /-- The initial distribution is empty. -/
  | noInitialState
  /-- The state is outside the table. -/
  | noTransition (state : Nat)
  /-- The entry of the state and action is empty. -/
  | noOutcome (state : Nat) (action : Int)
  /-- A lake map must be a non-empty rectangle. -/
  | mapShape
  /-- A lake map must have a start. -/
  | mapStart
  /-- A failure in the environment's own words. -/
  | custom (text : String)
  deriving DecidableEq

/-- The wording of a failure. -/
def Failure.message : Failure → String
  | .unknownName name => s!"Unknown environment: {name}"
  | .noInstance => "A vectorized environment needs at least one instance"
  | .spaceMismatch i => s!"Instance {i} has spaces different from instance 0"
  | .batchShape got count =>
    s!"Invalid action shape {shapeText got}, expected leading axis of {count}"
  | .action a fault => s!"Invalid action {a.inspect}: {fault.message}"
  | .shape fault => fault.message
  | .initialLength entries states =>
    s!"Initial state distribution has {entries} entries for {states} states"
  | .noInitialState => "Empty initial state distribution"
  | .noTransition state => s!"No transition for state {state}"
  | .noOutcome state index =>
    s!"No outcome for state {state} and action {Numeric.intText index}"
  | .mapShape => "Frozen lake map must be a non-empty rectangle"
  | .mapStart => "Frozen lake map has no start cell"
  | .custom text => text

/-- Accepts an action of the space and fails on any other. -/
def Space.check (s : Space) (a : Action) : Except Failure Unit :=
  match s.fault? a with
  | none => .ok ()
  | some fault => .error (.action a fault)

/-- An action passes the check if there is nothing wrong with it. -/
theorem Space.check_eq_ok_iff {s : Space} {a : Action} : s.check a = .ok () ↔ s.fault? a = none := by
  rw [check]
  rcases s.fault? a with _ | fault
  · simp
  · simp

/-! ## The interface -/

/-- The observation of a single environment. -/
abbrev Observation := Tensor Numeric.Single

/-- What a step gives. -/
structure Step where
  observation : Observation
  reward : Numeric.Single
  /-- The episode reached a final state. -/
  terminated : Bool
  /-- The episode was cut by a time limit. -/
  truncated : Bool
  deriving DecidableEq

/-- Whether the episode is over. -/
def Step.done (s : Step) : Bool := s.terminated || s.truncated

/-- What drawing gives: the frames drawn, and whether it went well. -/
structure Drawing where
  frames : List String
  result : Except Failure Unit

/-- Environments with states of type `σ`. -/
class Env (σ : Type) where
  /-- The valid actions. -/
  actionSpace : σ → Space
  /-- The space of observations; the observation of an integer is a tensor of one element. -/
  observationSpace : σ → Space
  /-- Restarts the random numbers. -/
  seed : UInt64 → σ → σ
  /-- Starts an episode and observes its first state. -/
  reset : σ → Except Failure Observation × σ
  /-- Takes an action. -/
  step : Action → σ → Except Failure Step × σ
  /-- Draws the current state. -/
  render : σ → Drawing × σ
  /-- The table of the dynamics, if the environment has one. -/
  table? : σ → Option TransitionTable

end Rollout
