/-
# Requests

A request is a map with the entries `method` and `param`.  The method is read
first; only a method with parameters reads them.
-/
import Rollout.Rejection
import Rollout.Wire.Nested

namespace Rollout

open MsgPack (Value Record Content Error)
open Numeric (Double)

/-! ## Parameters -/

/-- The parameters of `make`. -/
structure MakeParam where
  envName : String
  /-- The number of instances. -/
  count : UInt64
  deriving DecidableEq

/-- The parameters of `step`. -/
structure StepParam where
  /-- One action per instance. -/
  actions : Option (Nested Double)
  /-- The action of a single instance. -/
  action : Option Int64
  /-- Whether to draw the instances after the step. -/
  render : Bool

/-- The parameters of `dynamics`. -/
structure DynamicsParam where
  state : UInt64
  action : UInt64
  deriving DecidableEq

/-- The actions as a tensor; a single action is one row of one column. -/
def StepParam.tensor (p : StepParam) : Except Rejection (Tensor Double) :=
  match p.actions, p.action with
  | some actions, _ =>
    match actions.toTensor with
    | .ok t => .ok t
    | .error fault => .error (.param (.ofNested fault))
  | none, some a => .ok (.fill [1, 1] (.ofInt a.toInt))
  | none, none => .error (.param .noActions)

/-! ## Requests -/

/-- What a client asks for, with its parameters. -/
inductive Request where
  | info
  | make (param : MakeParam)
  | reset
  | step (param : StepParam)
  | dynamics (param : DynamicsParam)

namespace Request

/-- The method of a request. -/
def method : Request → Method
  | .info => .info
  | .make _ => .make
  | .reset => .reset
  | .step _ => .step
  | .dynamics _ => .dynamics

/-! ### Writing -/

/-- An entry of a map, or nothing. -/
def entryOf {α : Type} (name : String) (value : α → Value) (a : Option α) : List (String × Value) :=
  (a.map fun a => (name, value a)).toList

/-- The entries of the parameters. -/
def paramEntries : Request → List (String × Value)
  | .info => []
  | .make p => [("env_name", .text p.envName), ("num_envs", .int p.count.toNat)]
  | .reset => []
  | .step p =>
    entryOf "actions" (Nested.toValue .double) p.actions
      ++ entryOf "action" (fun (a : Int64) => .int a.toInt) p.action
      ++ [("render", .bool p.render)]
  | .dynamics p => [("state", .int p.state.toNat), ("action", .int p.action.toNat)]

/-- A request as a value. -/
def toValue (r : Request) : Value :=
  .record [("method", .text r.method.name), ("param", .record r.paramEntries)]

/-- A request as bytes. -/
def encode (r : Request) : Bytes := r.toValue.write

/-! ### Reading -/

/-- The record that names the method. -/
def header : Record (Option String) String where
  title := "Header"
  fields := [Content.text.field "method" true id fun s _ => some s]
  empty := none
  finish := Record.required "method"

/-- The record that holds the parameters. -/
def envelope {δ α : Type} (param : Record δ α) : Record (Option α) α where
  title := "Envelope"
  fields := [param.content.field "param" true id fun p _ => some p]
  empty := none
  finish := Record.required "param"

/-- The record of the parameters of `make`. -/
def makeRecord : Record (Option String × Option UInt64) MakeParam :=
  .pair "MakeParam" ("env_name", .text) ("num_envs", .word) MakeParam.mk

/-- The parameters of `step` while they are read. -/
structure StepDraft where
  actions : Option (Option (Nested Double))
  action : Option (Option Int64)
  render : Option Bool

/-- The record of the parameters of `step`; all may be absent. -/
def stepRecord : Record StepDraft StepParam where
  title := "StepParam"
  fields :=
    [(Content.optional Nested.content).field "actions" false StepDraft.actions
        fun n d => { d with actions := some n },
      (Content.optional Content.signed).field "action" false StepDraft.action
        fun a d => { d with action := some a },
      Content.flag.field "render" false StepDraft.render fun b d => { d with render := some b }]
  empty := ⟨none, none, none⟩
  finish d := .ok ⟨d.actions.join, d.action.join, d.render.getD false⟩

/-- The record of the parameters of `dynamics`. -/
def dynamicsRecord : Record (Option UInt64 × Option UInt64) DynamicsParam :=
  .pair "DynamicsParam" ("state", .word) ("action", .word) DynamicsParam.mk

/-- The record at the front of bytes. -/
def decodeRecord {δ α : Type} (r : Record δ α) (bytes : Bytes) : Except Rejection α :=
  match r.read MsgPack.maxLevels bytes with
  | .error e => .error (.undecodable e)
  | .ok (a, _) => .ok a

/-- The parameters at the front of bytes. -/
def decodeParam {δ α : Type} (r : Record δ α) (bytes : Bytes) : Except Rejection α :=
  decodeRecord (envelope r) bytes

/-- The request at the front of bytes. -/
def decode (bytes : Bytes) : Except Rejection Request :=
  match decodeRecord header bytes with
  | .error e => .error e
  | .ok name =>
    match Method.ofName? name with
    | none => .error (.unknownMethod name)
    | some .info => .ok .info
    | some .make => (decodeParam makeRecord bytes).map .make
    | some .reset => .ok .reset
    | some .step => (decodeParam stepRecord bytes).map .step
    | some .dynamics => (decodeParam dynamicsRecord bytes).map .dynamics

end Request

end Rollout
