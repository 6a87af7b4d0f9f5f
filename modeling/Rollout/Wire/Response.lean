/-
# Responses

Every method has a response of its own, a map with fixed keys.  A request that
fails has the response with the one key `error`.  Tensors are written as nested
lists.
-/
import Rollout.Space
import Rollout.Wire.Nested

namespace Rollout

open MsgPack (Value)
open Numeric (Single Double)

/-! ## Contents -/

/-- The spaces of an environment in the response to `info`. -/
structure SpaceReport where
  actionType : String
  actionShape : List Nat
  observationType : String
  observationShape : List Nat
  observationSize : Nat
  deriving DecidableEq

/-- The report of two spaces; the shape of numbered actions is their number. -/
def SpaceReport.ofSpaces (action observation : Space) : SpaceReport where
  actionType := action.typeName
  actionShape :=
    match action with
    | .discrete n => [n]
    | space => space.shape
  observationType := observation.typeName
  observationShape := observation.shape
  observationSize := observation.size

/-- The outcomes of a state and an action, one element per outcome. -/
structure Dynamics where
  probability : List Double
  nextState : List Nat
  reward : List Double
  done : List Bool
  deriving DecidableEq

/-- A part of an observation. -/
inductive ObservationPart where
  | array (t : Tensor Single)
  | int (v : Int64)
  | float (x : Double)
  | bool (b : Bool)
  | text (s : String)
  deriving DecidableEq

/-- The observation in the response to `reset`. -/
inductive FirstObservation where
  /-- The observations of all instances. -/
  | array (t : Tensor Single)
  /-- An observation in several parts. -/
  | parts (ps : List ObservationPart)
  deriving DecidableEq

/-- The contents of the response to `step`. -/
structure StepReport where
  observation : Tensor Single
  reward : Tensor Single
  done : Tensor Bool
  realReward : Tensor Single
  deriving DecidableEq

/-- What a client is told. -/
inductive Response where
  | info (report : SpaceReport)
  | dynamics (outcomes : Dynamics)
  | made
  | reset (observation : FirstObservation)
  | step (report : StepReport)
  | error (message : String)
  deriving DecidableEq

namespace Response

/-! ## Writing -/

/-- A tensor of floats as a value. -/
def floatsValue (t : Tensor Single) : Value := (Nested.ofTensor t).toValue .single

/-- A tensor of truth values as a value. -/
def flagsValue (t : Tensor Bool) : Value := (Nested.ofTensor t).toValue .bool

/-- A part of an observation as a value. -/
def partValue : ObservationPart → Value
  | .array t => floatsValue t
  | .int v => .int v.toInt
  | .float x => .double x
  | .bool b => .bool b
  | .text s => .text s

/-- A first observation as a value. -/
def observationValue : FirstObservation → Value
  | .array t => floatsValue t
  | .parts ps => .array (ps.map partValue)

/-- The entries of a response. -/
def entries : Response → List (String × Value)
  | .info r =>
    [("action_space_type", .text r.actionType),
      ("action_space_shape", .naturals r.actionShape),
      ("observation_space_type", .text r.observationType),
      ("observation_space_shape", .naturals r.observationShape),
      ("observation_space_size", .int r.observationSize)]
  | .dynamics d =>
    [("probability", .array (d.probability.map .double)),
      ("next_state", .naturals d.nextState),
      ("reward", .array (d.reward.map .double)),
      ("done", .array (d.done.map .bool))]
  | .made => [("result", .text "OK")]
  | .reset observation => [("observation", observationValue observation)]
  | .step r =>
    [("observation", floatsValue r.observation),
      ("reward", floatsValue r.reward),
      ("done", flagsValue r.done),
      ("real_reward", floatsValue r.realReward)]
  | .error message => [("error", .text message)]

/-- A response as a value. -/
def toValue (r : Response) : Value := .record r.entries

/-- A response as bytes. -/
def encode (r : Response) : Bytes := r.toValue.write

end Response

end Rollout
