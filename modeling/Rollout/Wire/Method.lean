/-
# Methods

The five things that a client can ask for, and their names in messages.
-/
namespace Rollout

/-- What a client asks for. -/
inductive Method where
  /-- Describe the spaces of the current environment. -/
  | info
  /-- Make an environment, which becomes the current one. -/
  | make
  /-- Start an episode in all instances. -/
  | reset
  /-- Step all instances. -/
  | step
  /-- Look up the outcomes of a state and an action. -/
  | dynamics
  deriving DecidableEq, Repr

namespace Method

/-- The name of a method. -/
def name : Method → String
  | .info => "info"
  | .make => "make"
  | .reset => "reset"
  | .step => "step"
  | .dynamics => "dynamics"

/-- All methods. -/
def all : List Method := [.info, .make, .reset, .step, .dynamics]

/-- The method of a name. -/
def ofName? (s : String) : Option Method := all.find? fun m => m.name == s

/-- A name is read back as its method. -/
@[simp] theorem ofName?_name (m : Method) : ofName? m.name = some m := by cases m <;> decide

end Method

end Rollout
