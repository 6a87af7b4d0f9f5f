/-
# The cart with a pole

A cart on a track carries a pole that has to be kept upright by pushing the cart
left or right.  Every step pays one.  The episode ends when the pole leans by
more than twelve degrees or the cart leaves the track, and is cut after five
hundred steps.
-/
import Rollout.Random
import Rollout.Env

namespace Rollout

/-- The ratio of a circle's circumference to its diameter, in 32 bits. -/
def circleRatio : Float32 := Float32.ofBits 0x40490fdb

/-- The state of the cart and its pole. -/
structure CartPole where
  position : Float32
  speed : Float32
  angle : Float32
  spin : Float32
  /-- The number of steps since the last reset. -/
  steps : Nat
  random : Generator
  deriving DecidableEq

namespace CartPole

/-! ## Constants -/

/-- Acceleration of free fall. -/
def gravity : Float32 := 9.8

/-- Mass of the pole; the cart weighs one. -/
def poleMass : Float32 := 0.1

/-- Mass of the cart with the pole. -/
def totalMass : Float32 := 1.0 + poleMass

/-- Half the length of the pole. -/
def halfLength : Float32 := 0.5

/-- Mass of the pole times half its length. -/
def poleMoment : Float32 := poleMass * halfLength

/-- Strength of a push. -/
def push : Float32 := 10.0

/-- Time between steps. -/
def interval : Float32 := 0.02

/-- The largest lean: twelve degrees. -/
def angleLimit : Float32 := 12.0 * 2.0 * circleRatio / 360.0

/-- The end of the track on either side. -/
def positionLimit : Float32 := 2.4

/-- The number of steps after which an episode is cut. -/
def stepLimit : Nat := 500

/-- The largest finite float. -/
def largest : Float32 := Float32.ofBits 0x7f7fffff

/-! ## Episodes -/

/-- A cart at rest before its first episode. -/
def start (seed : UInt64) : CartPole :=
  ⟨0.0, 0.0, 0.0, 0.0, 0, .ofSeed seed⟩

/-- The state as an observation. -/
def observe (e : CartPole) : Observation :=
  .vector ([e.position, e.speed, e.angle, e.spin].map Numeric.Single.ofFloat)

/-- The next small number around zero. -/
def jitter (g : Generator) : Float32 × Generator :=
  let (r, g) := g.single
  (r * 0.1 - 0.05, g)

/-- Starts an episode near the upright position. -/
def restart (e : CartPole) : CartPole :=
  let (position, g) := jitter e.random
  let (speed, g) := jitter g
  let (angle, g) := jitter g
  let (spin, g) := jitter g
  ⟨position, speed, angle, spin, 0, g⟩

/-- The motion over one interval under a force. -/
def advance (e : CartPole) (force : Float32) : CartPole :=
  let sin := e.angle.sin
  let cos := e.angle.cos
  let temp := (force + poleMoment * e.spin * e.spin * sin) / totalMass
  let angular := (gravity * sin - cos * temp)
    / (halfLength * (4.0 / 3.0 - poleMass * cos * cos / totalMass))
  let linear := temp - poleMoment * angular * cos / totalMass
  { e with
    position := e.position + interval * e.speed
    speed := e.speed + interval * linear
    angle := e.angle + interval * e.spin
    spin := e.spin + interval * angular
    steps := e.steps + 1 }

/-- Whether the pole has fallen or the cart has left the track. -/
def lost (e : CartPole) : Bool :=
  positionLimit < e.position.abs || angleLimit < e.angle.abs

/-- Left and right. -/
def actionSpace : Space := .discrete 2

/-- The box of observations, twice as wide as the limits. -/
def observationSpace : Space :=
  let high := [positionLimit * 2.0, largest, angleLimit * 2.0, largest]
  .box (high.map (-·)) high [4]

/-- Takes an action. -/
def step (a : Action) (e : CartPole) : Except Failure Step × CartPole :=
  match actionSpace.check a with
  | .error f => (.error f, e)
  | .ok _ =>
    let next := e.advance (if a = .discrete 1 then push else -push)
    let terminated := next.lost
    (.ok { observation := next.observe, reward := .ofFloat 1.0, terminated,
           truncated := !terminated && decide (stepLimit ≤ next.steps) }, next)

/-! ## Drawing -/

/-- The track with the cart on it and the lean of the pole. -/
def frame (e : CartPole) : String :=
  let place := Numeric.roundToNat
    ((e.position + positionLimit) / (2.0 * positionLimit) * 40.0) 40
  String.ofList ((List.range 41).map fun i => if i = place then '#' else '-')
    ++ " theta = " ++ Numeric.signedThousandths e.angle

instance : Env CartPole where
  actionSpace _ := actionSpace
  observationSpace _ := observationSpace
  seed s e := { e with random := .ofSeed s }
  reset e := (.ok e.restart.observe, e.restart)
  step := step
  render e := (⟨[e.frame], .ok ()⟩, e)
  table? _ := none

end CartPole

end Rollout
