/-
# Registries

A registry maps names to the constructors of environments, which build an
instance from a seed or fail.  Names are kept in increasing order, each once.
-/
import Rollout.Text.Quoted
import Rollout.Env

namespace Rollout

/-- Builds an instance from a seed. -/
abbrev Builder (σ : Type) := UInt64 → Except Failure σ

/-- Constructors by name, in increasing order of the names. -/
structure Registry (σ : Type) where
  builders : List (String × Builder σ)

namespace Registry

variable {σ : Type}

/-- The registry without names. -/
def empty : Registry σ := ⟨[]⟩

/-- The entries with one added, or replaced if its name is there. -/
def insert (name : String) (build : Builder σ) :
    List (String × Builder σ) → List (String × Builder σ)
  | [] => [(name, build)]
  | (n, b) :: rest =>
    if name = n then (name, build) :: rest
    else if name < n then (name, build) :: (n, b) :: rest
    else (n, b) :: insert name build rest

/-- The registry with a constructor, which replaces one of the same name. -/
def register (r : Registry σ) (name : String) (build : Builder σ) : Registry σ :=
  ⟨insert name build r.builders⟩

/-- The constructor of a name. -/
def find? (r : Registry σ) (name : String) : Option (Builder σ) := r.builders.lookup name

/-- Whether a name has a constructor. -/
def contains (r : Registry σ) (name : String) : Bool := (r.find? name).isSome

/-- The names in increasing order. -/
def names (r : Registry σ) : List String := r.builders.map Prod.fst

/-- An instance of the environment of this name. -/
def build (r : Registry σ) (name : String) (seed : UInt64) : Except Failure σ :=
  match r.find? name with
  | some build => build seed
  | none => .error (.unknownName name)

/-- A registered name stands for its constructor, and every other name for what it did. -/
@[simp] theorem lookup_insert (name : String) (build : Builder σ)
    (builders : List (String × Builder σ)) (name' : String) :
    (insert name build builders).lookup name'
      = if name' = name then some build else builders.lookup name' := by
  have hcons : ∀ (n : String) (b : Builder σ) (rest : List (String × Builder σ)),
      List.lookup name' ((n, b) :: rest) = if name' = n then some b else rest.lookup name' := by
    intro n b rest
    by_cases h : name' = n
    · rw [if_pos h, List.lookup_cons, h, beq_self_eq_true]
    · rw [if_neg h, List.lookup_cons, beq_false_of_ne h]
  -- an entry is put before the first greater name, or in the place of its own
  induction builders with
  | nil => rw [insert, hcons]
  | cons entry rest ih =>
    obtain ⟨n, b⟩ := entry
    rw [insert]
    split
    · rename_i h
      rw [hcons, hcons, h]
      split
      · rfl
      · rfl
    · split
      · rw [hcons]
      · rename_i h _
        rw [hcons, hcons, ih]
        by_cases h' : name' = n
        · rw [if_pos h', if_pos h', if_neg (fun hn => h (hn.symm.trans h'))]
        · rw [if_neg h', if_neg h']

/-- The last registration of a name counts, and it touches no other name. -/
@[simp] theorem build_register (r : Registry σ) (name : String) (build : Builder σ) (name' : String)
    (seed : UInt64) : (r.register name build).build name' seed
      = if name' = name then build seed else r.build name' seed := by
  have hfind : (r.register name build).find? name'
      = if name' = name then some build else r.find? name' :=
    lookup_insert name build r.builders name'
  rw [Registry.build, hfind]
  split
  · rename_i b h
    split at h
    · cases h
      rw [if_pos ‹_›]
    · rw [if_neg ‹_›, Registry.build, h]
  · rename_i h
    split at h
    · cases h
    · rw [if_neg ‹_›, Registry.build, h]

/-- The registry with a function applied to every instance that is built. -/
def map {τ : Type} (f : σ → τ) (r : Registry σ) : Registry τ :=
  ⟨r.builders.map fun (name, build) => (name, fun seed => (build seed).map f)⟩

/-- The names as text. -/
def inspect (r : Registry σ) : String := bracketed (r.names.map Text.quoted)

end Registry

end Rollout
