/-
# Transition tables

The dynamics of a finite decision process: for every state and action the list
of outcomes.  The entries lie in one row, state by state; `entry?` finds the one
of a pair, and `push?` and `replace?` change it and no other.
-/
import Rollout.Numeric.Binary

namespace Rollout

/-- One outcome of an action in a state. -/
structure Transition where
  /-- Probability of the outcome. -/
  probability : Float
  /-- The state reached. -/
  next : Nat
  /-- The reward received. -/
  reward : Float
  /-- Whether the episode ends there. -/
  done : Bool
  deriving DecidableEq

/-- The outcomes of every state and action. -/
structure TransitionTable where
  states : Nat
  actions : Nat
  /-- The entry of a pair is at `state * actions + action`. -/
  entries : List (List Transition)
  length_entries : entries.length = states * actions
  deriving DecidableEq

namespace TransitionTable

/-! ## Construction -/

/-- The table in which no pair has an outcome. -/
def empty (states actions : Nat) : TransitionTable :=
  ⟨states, actions, List.replicate (states * actions) [], List.length_replicate⟩

/-- The empty table, unless its entries of three words each exceed the address space. -/
def reserve? (states actions : Nat) : Option TransitionTable :=
  if 24 * (states * actions) < 2 ^ 63 then some (empty states actions) else none

/-- The table whose entry of a pair is given by a function. -/
def ofFn (states actions : Nat) (outcomes : Nat → Nat → List Transition) : TransitionTable :=
  ⟨states, actions,
    (List.range (states * actions)).map fun i => outcomes (i / actions) (i % actions), by simp⟩

/-! ## Entries -/

/-- Whether a pair lies in the table. -/
def contains (t : TransitionTable) (state action : Nat) : Bool :=
  state < t.states && action < t.actions

/-- The outcomes of an action in a state, if the pair lies in the table. -/
def entry? (t : TransitionTable) (state action : Nat) : Option (List Transition) :=
  if t.contains state action then t.entries[state * t.actions + action]? else none

/-- The table with the entry of a pair changed by a function. -/
def modify? (t : TransitionTable) (state action : Nat)
    (f : List Transition → List Transition) : Option TransitionTable :=
  if t.contains state action then
    some { t with
      entries := t.entries.modify (state * t.actions + action) f
      length_entries := by rw [List.length_modify, t.length_entries] }
  else none

/-- The table with an outcome added at the end of an entry. -/
def push? (t : TransitionTable) (state action : Nat) (o : Transition) : Option TransitionTable :=
  t.modify? state action (· ++ [o])

/-- The table with an entry replaced. -/
def replace? (t : TransitionTable) (state action : Nat) (os : List Transition) :
    Option TransitionTable :=
  t.modify? state action fun _ => os

end TransitionTable

end Rollout
