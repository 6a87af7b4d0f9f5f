/-
# Serving

The loop that joins a server to a transport.  A transport is known by its turns:
in each of them it delivers a request, nothing or a fault, and takes the reply
or fails to.  The loop looks at a running flag before every turn; the flag may be
cleared in the middle of one.
-/
import Rollout.Server

namespace Rollout

/-! ## Transports -/

/-- What a socket complains of.  Sockets have many faults, and each is known by its wording; serving
makes no difference between them. -/
structure SocketFault where
  wording : String
  deriving DecidableEq, Repr

/-- Why a transport fails. -/
inductive TransportFault where
  /-- The other side is gone. -/
  | closed
  /-- The socket failed. -/
  | socket (fault : SocketFault)
  deriving DecidableEq, Repr

/-- The wording of a transport fault. -/
def TransportFault.message : TransportFault → String
  | .closed => "Transport closed"
  | .socket fault => "ZeroMQ error: " ++ fault.wording

/-- One turn of a transport. -/
structure Turn where
  /-- Whether the running flag is cleared in this turn. -/
  interrupted : Bool
  /-- What arrives: a request, nothing, or a fault. -/
  arrival : Except TransportFault (Option Bytes)
  /-- The fault of sending the reply, if any. -/
  sendFault : Option TransportFault

/-! ## The loop -/

/-- How serving ends. -/
inductive ServingEnd where
  /-- The flag was found cleared or the transport was closed. -/
  | stopped
  /-- The transport failed. -/
  | failed (fault : SocketFault)
  /-- Memory ran out. -/
  | exhausted
  deriving DecidableEq, Repr

/-- The wording of the fault with which serving ends, if it failed. -/
def ServingEnd.message? : ServingEnd → Option String
  | .failed fault => some ("Transport error: " ++ (TransportFault.socket fault).message)
  | .stopped | .exhausted => none

/-- What the loop does: it looks at the flag, takes what arrives, or sends a reply. -/
inductive ServingEvent where
  | look (running : Bool)
  | receive (arrival : Except TransportFault (Option Bytes))
  | send (reply : Bytes) (fault : Option TransportFault)

/-- What serving gives. -/
structure Serving (σ : Type) where
  outcome : ServingEnd
  after : Server σ
  /-- What the loop did, in order. -/
  events : List ServingEvent
  /-- The running flag at the end. -/
  running : Bool
  log : Log

namespace Serving

variable {σ : Type} [Env σ]

/-- The end after the flag was found cleared or the transport was closed. -/
def stop (running : Bool) (s : Server σ) : Serving σ :=
  ⟨.stopped, s, [], running, [.info "Stopped serving"]⟩

/-- The end after a fault of the transport. -/
def fail (running : Bool) (s : Server σ) : TransportFault → Serving σ
  | .closed => stop running s
  | .socket fault => ⟨.failed fault, s, [], running, []⟩

/-- The serving with events and reports put before its own. -/
def preceded (events : List ServingEvent) (log : Log) (r : Serving σ) : Serving σ :=
  { r with events := events ++ r.events, log := log ++ r.log }

/-- Serves turn by turn.  A transport whose turns are used up is closed. -/
def loop : (running : Bool) → List Turn → Server σ → Serving σ
  | false, _, s => (stop false s).preceded [.look false] []
  | true, [], s => (stop true s).preceded [.look true, .receive (.error .closed)] []
  | true, t :: turns, s =>
    let running := !t.interrupted
    let rest :=
      match t.arrival with
      | .error fault => fail running s fault
      | .ok none => loop running turns s
      | .ok (some request) =>
        let h := s.handle request
        match h.reply, t.sendFault with
        | none, _ => ⟨.exhausted, h.after, [], running, h.log⟩
        | some reply, some fault =>
          (fail running h.after fault).preceded [.send reply (some fault)] h.log
        | some reply, none => (loop running turns h.after).preceded [.send reply none] h.log
    rest.preceded [.look true, .receive t.arrival] []

/-- Serves until the flag is cleared or the transport ends it. -/
def run (running : Bool) (turns : List Turn) (s : Server σ) : Serving σ :=
  (loop running turns s).preceded [] [.info "Serving"]

/-- The replies that were taken. -/
def sent (r : Serving σ) : List Bytes :=
  r.events.filterMap fun
    | .send reply none => some reply
    | _ => none

end Serving

end Rollout
