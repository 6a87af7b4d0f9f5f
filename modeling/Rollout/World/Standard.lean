/-
# The standard environments

The environments that are always on offer, and the registry of their names.
-/
import Rollout.Registry
import Rollout.World.FrozenLake
import Rollout.World.Pendulum

namespace Rollout

/-- A standard environment. -/
inductive World where
  | tabular (e : Tabular)
  | cartPole (e : CartPole)
  | pendulum (e : Pendulum)
  deriving DecidableEq

namespace World

/-- A result of one kind of environment as a result of the standard ones. -/
def lift {α σ : Type} (inject : σ → World) (r : α × σ) : α × World := (r.1, inject r.2)

instance : Env World where
  actionSpace
    | .tabular e => Env.actionSpace e
    | .cartPole e => Env.actionSpace e
    | .pendulum e => Env.actionSpace e
  observationSpace
    | .tabular e => Env.observationSpace e
    | .cartPole e => Env.observationSpace e
    | .pendulum e => Env.observationSpace e
  seed s
    | .tabular e => .tabular (Env.seed s e)
    | .cartPole e => .cartPole (Env.seed s e)
    | .pendulum e => .pendulum (Env.seed s e)
  reset
    | .tabular e => lift .tabular (Env.reset e)
    | .cartPole e => lift .cartPole (Env.reset e)
    | .pendulum e => lift .pendulum (Env.reset e)
  step a
    | .tabular e => lift .tabular (Env.step a e)
    | .cartPole e => lift .cartPole (Env.step a e)
    | .pendulum e => lift .pendulum (Env.step a e)
  render
    | .tabular e => lift .tabular (Env.render e)
    | .cartPole e => lift .cartPole (Env.render e)
    | .pendulum e => lift .pendulum (Env.render e)
  table?
    | .tabular e => Env.table? e
    | .cartPole e => Env.table? e
    | .pendulum e => Env.table? e

/-- The names of the standard environments. -/
def registry : Registry World :=
  Registry.empty
    |>.register "GridWorld-v0" (fun seed => (Grid.build seed).map .tabular)
    |>.register "FrozenLake-v1"
      (fun seed => (FrozenLake.build FrozenLake.usual true seed).map .tabular)
    |>.register "CartPole-v1" (fun seed => .ok (.cartPole (.start seed)))
    |>.register "Pendulum-v1" (fun seed => .ok (.pendulum (.start seed)))

end World

end Rollout
