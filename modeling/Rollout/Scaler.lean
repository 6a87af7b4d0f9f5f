/-
# Reward scaling

Rewards are divided by the standard deviation of the discounted returns seen so
far.  `Moments` keeps a mean and a variance that are merged batch by batch, over
any numbers; `Scaler` keeps one discounted return per instance and clips what it
hands out.
-/
import Rollout.Numeric.Text
import Rollout.Tensor.Basic

namespace Rollout

/-! ## Running moments -/

/-- Mean and variance of the values seen so far, with their number. -/
structure Moments (α : Type) where
  mean : α
  variance : α
  count : α
  deriving DecidableEq

namespace Moments

variable {α : Type} [Add α] [Sub α] [Mul α] [Div α] [NatCast α]

/-- The sum of numbers, from left to right. -/
def sum (xs : List α) : α := xs.foldl (· + ·) ((0 : Nat) : α)

/-- The mean of a batch. -/
def batchMean (xs : List α) : α := sum xs / (xs.length : α)

/-- The mean squared distance of a batch from a value. -/
def batchSpread (center : α) (xs : List α) : α :=
  sum (xs.map fun x => (x - center) * (x - center)) / (xs.length : α)

/-- The moments with a batch of `n` values of this mean and variance merged in. -/
def merge (m : Moments α) (n mean variance : α) : Moments α :=
  let delta := mean - m.mean
  let total := m.count + n
  let spread := m.variance * m.count + variance * n + delta * delta * m.count * n / total
  ⟨m.mean + delta * n / total, spread / total, total⟩

/-- The moments with a batch of values added; an empty batch changes nothing. -/
def update (m : Moments α) (xs : List α) : Moments α :=
  match xs with
  | [] => m
  | xs => m.merge (xs.length : α) (batchMean xs) (batchSpread (batchMean xs) xs)

end Moments

/-! ## Scaling -/

instance natCastFloat : NatCast Float := ⟨fun n => Numeric.doubleOfInt n⟩

/-- Scales rewards by the spread of their discounted returns. -/
structure Scaler where
  /-- The discount of a return from one step to the next. -/
  discount : Float32
  /-- Added to the variance. -/
  margin : Float32
  /-- The bound of a scaled reward. -/
  bound : Float32
  /-- The discounted return of each instance. -/
  returns : List Float32
  moments : Moments Float
  deriving DecidableEq

namespace Scaler

open Numeric (Single larger smaller)

/-- A scaler that has seen nothing, with the bound ten. -/
def ofDiscount (discount : Float32) : Scaler :=
  { discount, margin := 1e-8, bound := 10.0, returns := [], moments := ⟨0.0, 1.0, 1e-4⟩ }

/-- The scaler with the usual discount. -/
def usual : Scaler := ofDiscount 0.99

/-- Forgets the returns and keeps the moments. -/
def reset (s : Scaler) : Scaler := { s with returns := s.returns.map fun _ => 0.0 }

/-- The returns with a batch of rewards discounted in; they start at zero when the number of
instances changes. -/
def accumulate (s : Scaler) (rewards : List Float32) : List Float32 :=
  let returns :=
    if s.returns.length = rewards.length then s.returns else rewards.map fun _ => 0.0
  List.zipWith (fun ret reward => ret * s.discount + reward) returns rewards

/-- The divisor of rewards. -/
def deviation (s : Scaler) : Float32 := (Numeric.narrow s.moments.variance + s.margin).sqrt

/-- A scaled reward. -/
def scale (s : Scaler) (reward : Float32) : Float32 :=
  smaller (larger (reward / s.deviation) (-s.bound)) s.bound

/-- The scaler after a batch of rewards, before the finished episodes are cleared. -/
def observe (s : Scaler) (rewards : List Float32) : Scaler :=
  let returns := s.accumulate rewards
  { s with returns, moments := s.moments.update (returns.map Numeric.widen) }

/-- The scaler with the returns of finished episodes set to zero. -/
def clear (s : Scaler) (done : List Bool) : Scaler :=
  { s with returns := s.returns.mapIdx fun i ret => if done.getD i false then 0.0 else ret }

/-- Scales a batch of rewards. -/
def apply (s : Scaler) (rewards : List Single) (done : List Bool) : List Single × Scaler :=
  let floats := rewards.map Single.toFloat
  let seen := s.observe floats
  (floats.map fun reward => .ofFloat (seen.scale reward), seen.clear done)

/-! ## Text -/

/-- The moments as text. -/
def momentsText (m : Moments Float) : String :=
  "RunningMeanStd \x7b mean: " ++ Numeric.floatText .inspect m.mean
    ++ ", var: " ++ Numeric.floatText .inspect m.variance
    ++ ", count: " ++ Numeric.floatText .inspect m.count ++ " \x7d"

/-- A scaler as text. -/
def inspect (s : Scaler) : String :=
  "RewardNormalizer \x7b gamma: " ++ Numeric.float32Text .inspect s.discount
    ++ ", epsilon: " ++ Numeric.float32Text .inspect s.margin
    ++ ", clip: " ++ Numeric.float32Text .inspect s.bound
    ++ ", returns: " ++ bracketed (s.returns.map (Numeric.float32Text .inspect))
    ++ ", stats: " ++ momentsText s.moments ++ " \x7d"

end Scaler

end Rollout
