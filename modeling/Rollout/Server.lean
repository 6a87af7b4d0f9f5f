/-
# Servers

A server answers encoded requests one at a time.  Every request has exactly one
reply: a failed one is answered with an error message.
-/
import Rollout.Lifecycle
import Rollout.Session

namespace Rollout

/-- A session and what it accepts. -/
structure Server (σ : Type) where
  session : Session σ
  lifecycle : Lifecycle

/-- What handling a request gives: its reply, the server after it and the reports.  There is no
reply when memory runs out. -/
structure Handled (σ : Type) where
  reply : Option Bytes
  after : Server σ
  log : Log

namespace Server

variable {σ : Type} [Env σ]

/-- The server of a session. -/
def start (session : Session σ) : Server σ := ⟨session, .uninitialized⟩

/-- The report of a new server. -/
def startLog : Log := [.info "Gym server initialized"]

/-! ## Methods -/

/-- The reports of the spaces. -/
def infoLog (action observation : Space) : Log :=
  [.info ("Action space type " ++ action.typeName),
    .info ("Action space shape " ++ shapeText action.shape),
    .info ("Observation space type " ++ observation.typeName),
    .info ("Observation space shape " ++ shapeText observation.shape)]

/-- The response to `info`. -/
def info (s : Session σ) : Call (Session σ) Response :=
  match s.info with
  | .error r => .refuse r s
  | .ok (action, observation) =>
    ⟨.ok (.info (.ofSpaces action observation)), s, infoLog action observation⟩

/-- The response to `make`. -/
def make (p : MakeParam) (s : Session σ) : Call (Session σ) Response :=
  let call := s.make p.envName p.count
  ⟨call.result.map fun _ => .made, call.after, call.log⟩

/-- The response to `reset`. -/
def reset (s : Session σ) : Call (Session σ) Response :=
  let call := s.reset
  ⟨call.result.map fun o => .reset (.array o), call.after,
    .info "Resetting environments" :: call.log⟩

/-- The report of a step on the wire. -/
def stepReport (s : SessionStep) : StepReport :=
  ⟨s.observation, s.reward, s.done, .column s.raw⟩

/-- Whether a step carries the action of a single instance and nothing else. -/
def isSingle (p : StepParam) : Bool := p.actions.isNone && p.action.isSome

/-- The response to `step`. -/
def step (p : StepParam) (s : Session σ) : Call (Session σ) Response :=
  if isSingle p && s.count? != some 1 then .refuse (.param .singleAction) s
  else
    match p.tensor with
    | .error r => .refuse r s
    | .ok actions =>
      let call := s.step actions p.render
      ⟨call.result.map fun r => .step (stepReport r), call.after, call.log⟩

/-- The response to `dynamics`. -/
def dynamics (p : DynamicsParam) (s : Session σ) : Call (Session σ) Response :=
  match s.dynamics p.state p.action with
  | .error r => .refuse r s
  | .ok d => .give (.dynamics d) s

/-- The response to a request. -/
def respond (r : Request) (s : Session σ) : Call (Session σ) Response :=
  match r with
  | .info => info s
  | .make p => make p s
  | .reset => reset s
  | .step p => step p s
  | .dynamics p => dynamics p s

/-! ## Requests -/

/-- Carries out a request, if it is accepted. -/
def carryOut (r : Request) (s : Server σ) : Call (Server σ) Response :=
  match s.lifecycle.accept r.method with
  | .error e => .refuse e s
  | .ok _ =>
    let call := respond r s.session
    match call.result with
    | .error e => ⟨.error e, { s with session := call.after }, call.log⟩
    | .ok response => ⟨.ok response, ⟨call.after, s.lifecycle.after r.method⟩, call.log⟩

/-- Decodes a request and carries it out. -/
def dispatch (bytes : Bytes) (s : Server σ) : Call (Server σ) Response :=
  match Request.decode bytes with
  | .error e => .refuse e s
  | .ok r => carryOut r s

/-- The report of a rejection. -/
def rejectionRecord (r : Rejection) : LogRecord := .warn ("Rejected request: " ++ r.message)

/-- Handles an encoded request. -/
def handle (bytes : Bytes) (s : Server σ) : Handled σ :=
  let call := dispatch bytes s
  match call.result with
  | .ok response => ⟨some response.encode, call.after, call.log⟩
  | .error (.param .capacity) => ⟨none, call.after, call.log⟩
  | .error r =>
    ⟨some (Response.error r.message).encode, call.after, call.log ++ [rejectionRecord r]⟩

end Server

end Rollout
