/-
# Batches of environments

A batch steps several instances of one environment together.  Their observations
are stacked along a new first axis.  An instance whose episode ends is reset at
once, and its observation is the first one of the new episode.
-/
import Rollout.Log
import Rollout.Registry
import Rollout.Scaler

namespace Rollout

open Numeric (Single)

/-! ## Actions and steps of a batch -/

/-- One action per instance. -/
inductive BatchAction where
  /-- An index per instance. -/
  | discrete (indices : List Int)
  /-- A row per instance. -/
  | continuous (values : Tensor Single)
  deriving DecidableEq

namespace BatchAction

/-- The number of actions. -/
def length : BatchAction → Nat
  | .discrete indices => indices.length
  | .continuous values => values.leading

/-- The shape of the actions together. -/
def shape : BatchAction → List Nat
  | .discrete indices => [indices.length]
  | .continuous values => values.shape

/-- The actions one by one. -/
def toList : BatchAction → List Action
  | .discrete indices => indices.map .discrete
  | .continuous values => values.rows.map .continuous

/-- There are as many actions as the batch is long. -/
@[simp] theorem length_toList (a : BatchAction) : a.toList.length = a.length := by
  cases a with
  | discrete indices => simp [toList, length]
  | continuous values => simp [toList, length, Tensor.length_rows]

end BatchAction

/-- What a step of a batch gives. -/
structure BatchStep where
  /-- The observations, one row per instance. -/
  observations : Tensor Single
  /-- The rewards, scaled if the batch scales them. -/
  rewards : List Single
  /-- The instances whose episode ended. -/
  done : List Bool
  /-- The rewards as the instances gave them. -/
  raw : List Single
  deriving DecidableEq

/-- What a step gives for one instance. -/
structure Outcome where
  observation : Observation
  reward : Single
  done : Bool
  deriving DecidableEq

/-! ## Running instances one after another -/

section Sweep

variable {σ α β : Type}

/-- Runs every instance with its argument, in order, up to the first failure.  The instances
before it keep their new states and the ones after it are not touched. -/
def sweep (run : α → σ → Except Failure β × σ) :
    List α → List σ → Except Failure (List β) × List σ
  | a :: as, e :: es =>
    match run a e with
    | (.error f, e) => (.error f, e :: es)
    | (.ok b, e) =>
      let (rest, es) := sweep run as es
      (rest.map (b :: ·), e :: es)
  | _, es => (.ok [], es)

/-- A sweep keeps the number of instances. -/
@[simp] theorem length_sweep (run : α → σ → Except Failure β × σ) (as : List α) (es : List σ) :
    (sweep run as es).2.length = es.length := by
  induction as generalizing es with
  | nil => rfl
  | cons a as ih =>
    cases es with
    | nil => rfl
    | cons e es =>
      simp only [sweep]
      split <;> simp [ih]

variable [Env σ]

/-- A step of one instance, followed by a reset if its episode ended. -/
def stepOrRestart (a : Action) (e : σ) : Except Failure Outcome × σ :=
  match Env.step a e with
  | (.error f, e) => (.error f, e)
  | (.ok s, e) =>
    if s.done then
      match Env.reset e with
      | (.error f, e) => (.error f, e)
      | (.ok o, e) => (.ok ⟨o, s.reward, true⟩, e)
    else (.ok ⟨s.observation, s.reward, false⟩, e)

/-- Draws every instance in order, up to the first failure. -/
def drawAll : List σ → Drawing × List σ
  | [] => (⟨[], .ok ()⟩, [])
  | e :: es =>
    match Env.render e with
    | (⟨frames, .error f⟩, e) => (⟨frames, .error f⟩, e :: es)
    | (⟨frames, .ok _⟩, e) =>
      let (rest, es) := drawAll es
      (⟨frames ++ rest.frames, rest.result⟩, e :: es)

/-- Drawing keeps the number of instances. -/
@[simp] theorem length_drawAll (es : List σ) : (drawAll es).2.length = es.length := by
  induction es with
  | nil => rfl
  | cons e es ih =>
    simp only [drawAll]
    split <;> simp [ih]

/-- The first failure of a check over a list. -/
def checkAll (space : Space) : List Action → Except Failure Unit
  | [] => .ok ()
  | a :: as =>
    match space.check a with
    | .error f => .error f
    | .ok _ => checkAll space as

end Sweep

/-! ## Batches -/

/-- Instances that are stepped together; there is at least one. -/
structure Batch (σ : Type) where
  instances : List σ
  /-- Scales the rewards, if present. -/
  scaler : Option Scaler
  nonempty : instances ≠ []

namespace Batch

variable {σ : Type} [Env σ]

/-- The first instance. -/
def first (b : Batch σ) : σ := b.instances.head b.nonempty

/-- The number of instances. -/
def count (b : Batch σ) : Nat := b.instances.length

/-- The batch with other states of its instances. -/
def withInstances (b : Batch σ) (es : List σ) (h : es.length = b.instances.length) : Batch σ :=
  { b with
    instances := es
    nonempty := by
      have := List.length_pos_iff.mpr b.nonempty
      exact List.ne_nil_of_length_pos (by omega) }

/-- The action space, which the instances share. -/
def actionSpace (b : Batch σ) : Space := Env.actionSpace b.first

/-- The observation space, which the instances share. -/
def observationSpace (b : Batch σ) : Space := Env.observationSpace b.first

/-- The table of the dynamics, if the instances have one. -/
def table? (b : Batch σ) : Option TransitionTable := Env.table? b.first

/-! ### Construction -/

/-- The number of the first instance, from `index` on, whose spaces differ from those of
another one. -/
def mismatch? (e : σ) (index : Nat) : List σ → Option Nat
  | [] => none
  | other :: rest =>
    if (Env.actionSpace other).agrees (Env.actionSpace e)
        && (Env.observationSpace other).agrees (Env.observationSpace e) then
      mismatch? e (index + 1) rest
    else some index

/-- The batch of instances with the same spaces. -/
def ofInstances : List σ → Except Failure (Batch σ)
  | [] => .error .noInstance
  | e :: es =>
    match mismatch? e 1 es with
    | some index => .error (.spaceMismatch index)
    | none => .ok ⟨e :: es, none, List.cons_ne_nil e es⟩

/-- Instances of a name, seeded one after another, up to the first failure. -/
def buildInstances (registry : Registry σ) (name : String) (seed : UInt64) :
    (count : Nat) → Except Failure (List σ)
  | 0 => .ok []
  | count + 1 =>
    match registry.build name seed with
    | .error f => .error f
    | .ok e => (buildInstances registry name (seed + 1) count).map (e :: ·)

/-- A batch of `count` instances of a name; instance `i` has the seed `seed + i`. -/
def build (registry : Registry σ) (name : String) (seed : UInt64) (count : Nat) :
    Except Failure (Batch σ) :=
  match buildInstances registry name seed count with
  | .error f => .error f
  | .ok es => ofInstances es

/-- The report of a construction. -/
def buildRecord (name : String) (count : Nat) : LogRecord := .info s!"Making {count} {name}s"

/-! ### Episodes -/

/-- Observations stacked along a new first axis. -/
def stackAll (observations : List Observation) : Except Failure (Tensor Single) :=
  match Tensor.stack observations with
  | .ok t => .ok t
  | .error f => .error (.shape f)

/-- Starts an episode in every instance. -/
def reset (b : Batch σ) : Except Failure (Tensor Single) × Batch σ :=
  let swept := sweep (fun (_ : σ) e => Env.reset e) b.instances b.instances
  let next := { b.withInstances swept.2 (length_sweep ..) with
    scaler := b.scaler.map Scaler.reset }
  (swept.1.bind stackAll, next)

/-- The rewards handed out for raw rewards, and the scaler after them. -/
def scaleRewards (scaler : Option Scaler) (raw : List Single) (done : List Bool) :
    List Single × Option Scaler :=
  match scaler with
  | none => (raw, none)
  | some s =>
    let (rewards, s) := s.apply raw done
    (rewards, some s)

/-- Steps every instance with its action.  All actions are checked before any instance
moves. -/
def step (act : BatchAction) (b : Batch σ) : Except Failure BatchStep × Batch σ :=
  if act.length ≠ b.count then (.error (.batchShape act.shape b.count), b)
  else
    match checkAll b.actionSpace act.toList with
    | .error f => (.error f, b)
    | .ok _ =>
      let swept := sweep stepOrRestart act.toList b.instances
      let moved := b.withInstances swept.2 (length_sweep ..)
      match swept.1 with
      | .error f => (.error f, moved)
      | .ok outcomes =>
        let raw := outcomes.map Outcome.reward
        let done := outcomes.map Outcome.done
        let (rewards, scaler) := scaleRewards b.scaler raw done
        let result := (stackAll (outcomes.map Outcome.observation)).map fun observations =>
          { observations, rewards, done, raw }
        (result, { moved with scaler })

/-- Draws every instance. -/
def render (b : Batch σ) : Drawing × Batch σ :=
  let drawn := drawAll b.instances
  (drawn.1, b.withInstances drawn.2 (length_drawAll ..))

/-! ### Text -/

/-- A batch as text. -/
def inspect (b : Batch σ) : String :=
  let scaler := match b.scaler with
    | none => "None"
    | some s => "Some(" ++ s.inspect ++ ")"
  "VecEnv \x7b count: " ++ toString b.count ++ ", action_space: " ++ b.actionSpace.inspect
    ++ ", observation_space: " ++ b.observationSpace.inspect
    ++ ", normalizer: " ++ scaler ++ " \x7d"

end Batch

end Rollout
