/-
# Rejections

Why a request is not carried out, and how the client is told.
-/
import Rollout.Env
import Rollout.MsgPack.Error
import Rollout.Tensor.Nested
import Rollout.Wire.Method

namespace Rollout

/-- What is wrong with the parameters of a request. -/
inductive ParamFault where
  /-- A step carries neither actions nor an action. -/
  | noActions
  /-- The actions are not rectangular. -/
  | ragged
  /-- The actions claim more memory than can be reserved. -/
  | capacity
  /-- Actions that are numbers must form one row or one column. -/
  | discreteShape (shape : List Nat)
  /-- The number of instances is zero or too large. -/
  | instanceCount (most got : UInt64)
  /-- A single action does not fit several instances. -/
  | singleAction
  deriving DecidableEq

/-- The wording of a parameter fault. -/
def ParamFault.message : ParamFault → String
  | .noActions => "missing field `actions`"
  | .ragged => "nested sequence is not rectangular"
  | .capacity => "capacity overflow"
  | .discreteShape shape =>
    "discrete actions must have shape [count] or [count, 1], got " ++ shapeText shape
  | .instanceCount most got =>
    "num_envs must be in 1..=" ++ Numeric.natText most.toNat ++ ", got "
      ++ Numeric.natText got.toNat
  | .singleAction => "a scalar action needs a single environment instance"

/-- The parameter fault of nested lists that are no tensor. -/
def ParamFault.ofNested : Nested.Fault → ParamFault
  | .ragged => .ragged
  | .capacity => .capacity

/-- Why a request is not carried out. -/
inductive Rejection where
  /-- No environment was made yet. -/
  | notReady (method : Method)
  /-- The environment has no table of its dynamics. -/
  | noTable (name : String)
  /-- The state or the action is outside the table. -/
  | noTransition (state action : UInt64)
  /-- There is no method of this name. -/
  | unknownMethod (name : String)
  /-- A parameter is missing or malformed. -/
  | param (fault : ParamFault)
  /-- The bytes are not a request. -/
  | undecodable (error : MsgPack.Error)
  /-- The environment failed. -/
  | env (failure : Failure)
  deriving DecidableEq

/-- The wording of a rejection. -/
def Rejection.message : Rejection → String
  | .notReady method => "No environment, call make before " ++ method.name
  | .noTable name => "Environment " ++ name ++ " has no transition table"
  | .noTransition state action =>
    "No transition for state " ++ Numeric.natText state.toNat ++ " and action "
      ++ Numeric.natText action.toNat
  | .unknownMethod name => "Unknown method: " ++ name
  | .param fault => "Invalid parameter: " ++ fault.message
  | .undecodable error => "Failed to decode request: " ++ error.message
  | .env failure => "Environment error: " ++ failure.message

end Rollout
