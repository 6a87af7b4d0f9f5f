/-
# The pendulum

A pendulum has to be swung up and kept upright by a torque.  A step costs the
squared distance from the upright position at rest and a little for the torque.
Episodes never end by themselves and are cut after two hundred steps.
-/
import Rollout.World.CartPole

namespace Rollout

/-- The state of the pendulum. -/
structure Pendulum where
  angle : Float32
  spin : Float32
  /-- The number of steps since the last reset. -/
  steps : Nat
  random : Generator
  deriving DecidableEq

namespace Pendulum

open Numeric (Single larger smaller)

/-- The largest spin. -/
def spinLimit : Float32 := 8.0

/-- The largest torque. -/
def torqueLimit : Float32 := 2.0

/-- Time between steps. -/
def interval : Float32 := 0.05

/-- The number of steps after which an episode is cut. -/
def stepLimit : Nat := 200

/-- A value brought between `-limit` and `limit`. -/
def clip (limit value : Float32) : Float32 := smaller (larger value (-limit)) limit

/-- An angle brought into half a turn on either side of upright. -/
def turn (angle : Float32) : Float32 :=
  Numeric.remainderPos (angle + circleRatio) (2.0 * circleRatio) - circleRatio

/-! ## Episodes -/

/-- A pendulum before its first episode. -/
def start (seed : UInt64) : Pendulum := ⟨0.0, 0.0, 0, .ofSeed seed⟩

/-- The state as an observation. -/
def observe (e : Pendulum) : Observation :=
  .vector ([e.angle.cos, e.angle.sin, e.spin].map Single.ofFloat)

/-- Starts an episode at a random angle and spin. -/
def restart (e : Pendulum) : Pendulum :=
  let (r, g) := e.random.single
  let (s, g) := g.single
  ⟨(r * 2.0 - 1.0) * circleRatio, s * 2.0 - 1.0, 0, g⟩

/-- The cost of a state and a torque. -/
def cost (e : Pendulum) (torque : Float32) : Float32 :=
  turn e.angle * turn e.angle + 0.1 * (e.spin * e.spin) + 0.001 * (torque * torque)

/-- The motion over one interval under a torque. -/
def advance (e : Pendulum) (torque : Float32) : Pendulum :=
  let spin := e.spin
    + (3.0 * 10.0 / (2.0 * 1.0) * e.angle.sin + 3.0 / (1.0 * 1.0 * 1.0) * torque) * interval
  let spin := clip spinLimit spin
  { e with angle := e.angle + spin * interval, spin, steps := e.steps + 1 }

/-- A torque. -/
def actionSpace : Space := .uniform [1] (-torqueLimit) torqueLimit

/-- The box of observations. -/
def observationSpace : Space := .box [-1.0, -1.0, -spinLimit] [1.0, 1.0, spinLimit] [3]

/-- Takes an action. -/
def step (a : Action) (e : Pendulum) : Except Failure Step × Pendulum :=
  match actionSpace.check a, a with
  | .error f, _ => (.error f, e)
  | .ok _, .discrete index =>
    (.error (.custom s!"Pendulum expects a torque, got {Numeric.intText index}"), e)
  | .ok _, .continuous values =>
    let torque := clip torqueLimit ((values.data.map Single.toFloat).headD 0.0)
    let next := e.advance torque
    (.ok { observation := next.observe, reward := .ofFloat (-(e.cost torque)), terminated := false,
           truncated := decide (stepLimit ≤ next.steps) }, next)

/-! ## Drawing -/

/-- The angle and the spin. -/
def frame (e : Pendulum) : String :=
  "theta = " ++ Numeric.signedThousandths (turn e.angle)
    ++ ", theta_dot = " ++ Numeric.signedThousandths e.spin

instance : Env Pendulum where
  actionSpace _ := actionSpace
  observationSpace _ := observationSpace
  seed s e := { e with random := .ofSeed s }
  reset e := (.ok e.restart.observe, e.restart)
  step := step
  render e := (⟨[e.frame], .ok ()⟩, e)
  table? _ := none

end Pendulum

end Rollout
