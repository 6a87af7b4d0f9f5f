/-
# Configuration

The settings of a server and of the environments that it makes.
-/
import Rollout.Numeric.Text
import Rollout.Text.Quoted

namespace Rollout

/-- The settings of the environments. -/
structure SessionConfig where
  /-- The seed of the first instance; instance `i` has the seed `seed + i`. -/
  seed : UInt64
  /-- Whether rewards are scaled by the deviation of the discounted returns. -/
  scaleRewards : Bool
  /-- The discount of the returns. -/
  discount : Float32
  /-- The largest number of instances. -/
  mostInstances : UInt64
  deriving DecidableEq

namespace SessionConfig

/-- The settings when nothing else is said. -/
def usual : SessionConfig := ⟨0, false, 0.99, 1024⟩

/-- The settings as text. -/
def inspect (c : SessionConfig) : String :=
  "SessionConfig \x7b seed: " ++ Numeric.natText c.seed.toNat
    ++ ", normalize_reward: " ++ (if c.scaleRewards then "true" else "false")
    ++ ", gamma: " ++ Numeric.float32Text .inspect c.discount
    ++ ", max_num_envs: " ++ Numeric.natText c.mostInstances.toNat ++ " \x7d"

end SessionConfig

/-- The settings of a server. -/
structure ServerConfig where
  /-- The endpoint that clients connect to. -/
  address : String
  /-- The milliseconds between two looks at the running flag. -/
  pollInterval : UInt64
  session : SessionConfig
  deriving DecidableEq

namespace ServerConfig

/-- The settings when nothing else is said. -/
def usual : ServerConfig := ⟨"tcp://*:10201", 100, .usual⟩

/-- The nanoseconds between two looks at the running flag. -/
def pollNanos (c : ServerConfig) : Nat := c.pollInterval.toNat * 1000000

end ServerConfig

end Rollout
