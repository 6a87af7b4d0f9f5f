/-
# Tabular environments

An environment whose dynamics are a transition table.  A step samples one of the
outcomes of the current state and the action; a reset samples the initial
distribution.  Episodes may be cut after a number of steps.
-/
import Rollout.Random
import Rollout.Env

namespace Rollout

/-- The state of a tabular environment. -/
structure Tabular where
  table : TransitionTable
  /-- Probability of each state at the start of an episode. -/
  initial : List Float
  state : Nat
  /-- The last action of the episode. -/
  lastAction : Option Int
  random : Generator
  /-- The number of steps after which an episode is cut. -/
  limit : Option Nat
  /-- The number of steps since the last reset. -/
  steps : Nat
  /-- The rows of the grid, for drawing. -/
  picture : Option (List String)
  deriving DecidableEq

namespace Tabular

/-! ## Construction -/

/-- An environment with a table and an initial distribution, which has one entry per state. -/
def build (table : TransitionTable) (initial : List Float) (seed : UInt64) :
    Except Failure Tabular :=
  if initial.length = table.states then
    .ok { table, initial, state := 0, lastAction := none, random := .ofSeed seed,
          limit := none, steps := 0, picture := none }
  else .error (.initialLength initial.length table.states)

/-! ## Sampling -/

/-- The first index at which the running sum, started from `sum`, exceeds `r`; the last
index if none does. -/
def pick (r : Float) : (sum : Float) → List Float → Option Nat
  | _, [] => none
  | sum, p :: rest =>
    if r < sum + p then some 0
    else match pick r (sum + p) rest with
      | some i => some (i + 1)
      | none => some 0

/-- An index sampled from a distribution, none if it is empty. -/
def sample (probabilities : List Float) (g : Generator) : Option Nat × Generator :=
  let (r, g) := g.double
  (pick r 0.0 probabilities, g)

/-! ## Episodes -/

/-- The observation of a state. -/
def observe (state : Nat) : Observation := .vector [.ofNat state]

/-- Starts an episode in a sampled state. -/
def reset (e : Tabular) : Except Failure Observation × Tabular :=
  let (index, random) := sample e.initial e.random
  match index with
  | none => (.error .noInitialState, { e with random })
  | some state =>
    (.ok (observe state), { e with random, state, lastAction := none, steps := 0 })

/-- Follows one of the outcomes of an action. -/
def follow (e : Tabular) (index : Int) (outcomes : List Transition) :
    Except Failure Step × Tabular :=
  let (choice, random) := sample (outcomes.map Transition.probability) e.random
  match choice.bind (outcomes[·]?) with
  | none => (.error (.noOutcome e.state index), { e with random })
  | some o =>
    let steps := e.steps + 1
    let truncated := match e.limit with
      | some limit => decide (limit ≤ steps)
      | none => false
    (.ok { observation := observe o.next, reward := (Numeric.Double.ofFloat o.reward).narrow,
           terminated := o.done, truncated },
     { e with random, state := o.next, lastAction := some index, steps })

/-- The action space. -/
def actionSpace (e : Tabular) : Space := .discrete e.table.actions

/-- Takes an action. -/
def step (a : Action) (e : Tabular) : Except Failure Step × Tabular :=
  match e.actionSpace.check a, a with
  | .error f, _ => (.error f, e)
  | .ok _, .continuous _ =>
    (.error (.custom "Tabular environment expects a discrete action"), e)
  | .ok _, .discrete index =>
    match e.table.entry? e.state index.toNat with
    | none => (.error (.noTransition e.state), e)
    | some outcomes => e.follow index outcomes

/-! ## Drawing -/

/-- The name of an action on a grid. -/
def actionName (index : Int) : String :=
  if index = 0 then "Left" else if index = 1 then "Down"
  else if index = 2 then "Right" else if index = 3 then "Up" else "?"

/-- A cell of a drawn row, on a red ground if it is the agent's. -/
def cellText (here : Bool) (cell : Char) : String :=
  if here then "\x1b[41m" ++ String.singleton cell ++ "\x1b[0m" else String.singleton cell

/-- A drawn row whose first cell has the number `first`. -/
def rowText (state first : Nat) (row : String) : String :=
  String.join (row.toList.mapIdx fun i cell => cellText (first + i == state) cell) ++ "\n"

/-- The grid with the agent's cell marked, after the name of the last action.  Rows are as
many cells apart as the first row has characters. -/
def gridText (state : Nat) (lastAction : Option Int) (picture : List String) : String :=
  let width := match picture with
    | first :: _ => first.length
    | [] => 1
  let head := match lastAction with
    | some index => "  (" ++ actionName index ++ ")\n"
    | none => ""
  head ++ String.join (picture.mapIdx fun i row => rowText state (i * width) row)

/-- The frame of the current state. -/
def frame (e : Tabular) : String :=
  match e.picture with
  | some picture => "\n" ++ gridText e.state e.lastAction picture
  | none => s!"state = {e.state}"

instance : Env Tabular where
  actionSpace := actionSpace
  observationSpace e := .discrete e.table.states
  seed s e := { e with random := .ofSeed s }
  reset := reset
  step := step
  render e := (⟨[e.frame], .ok ()⟩, e)
  table? e := some e.table

end Tabular

end Rollout
