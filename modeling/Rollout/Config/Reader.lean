/-
# Reading a configuration

A configuration file is a table, or a list of the settings in their order.  A
setting that is left out keeps its usual value and an unknown one is passed
over.  What is wrong with a setting is told with its path and its place.
-/
import Rollout.Config
import Rollout.Text.Utf8
import Rollout.Yaml.Scalar

namespace Rollout

open Yaml (Node Position Scalar)

namespace Config

/-! ## Errors -/

/-- The way to a value of a file. -/
inductive Path where
  | root
  /-- A value under a key. -/
  | field (parent : Path) (key : String)
  /-- An item of a list. -/
  | item (parent : Path) (index : Nat)
  /-- A value under a key that is no text. -/
  | unknown (parent : Path)
  deriving DecidableEq, Repr

namespace Path

mutual

/-- A path as text. -/
def text : Path → String
  | .root => "."
  | .field parent key => lead parent ++ key
  | .item parent index => text parent ++ "[" ++ Numeric.natText index ++ "]"
  | .unknown parent => lead parent ++ "?"

/-- A path as text before a key. -/
def lead : Path → String
  | .root => ""
  | .field parent key => lead parent ++ key ++ "."
  | .item parent index => text parent ++ "[" ++ Numeric.natText index ++ "]."
  | .unknown parent => lead parent ++ "?."

end

end Path

/-- What is wrong with a value. -/
inductive Problem where
  | wrongType (found : Found) (expected : String)
  | wrongValue (found : Found) (expected : String)
  /-- A list has more items than there are settings. -/
  | tooLong (count settings : Nat)
  | duplicate (setting : String)
  deriving DecidableEq

/-- The wording of a problem. -/
def Problem.message : Problem → String
  | .wrongType f expected => f.wrongType expected
  | .wrongValue f expected => f.wrongValue expected
  | .tooLong count settings => wrongLength count ("sequence of " ++ elements settings)
  | .duplicate setting => duplicateField setting

/-- Why a file is no configuration. -/
inductive Error where
  /-- There is no file. -/
  | noFile
  | notUtf8 (fault : Text.Utf8.Fault)
  /-- The text is not well formed. -/
  | malformed (fault : Yaml.Fault)
  /-- The text is empty. -/
  | noDocument
  | manyDocuments
  /-- A value does not fit. -/
  | misfit (problem : Problem) (path : Path) (position : Position)
  deriving DecidableEq

/-- The wording of an error. -/
def Error.message : Error → String
  | .noFile => "No such file or directory (os error 2)"
  | .notUtf8 fault => fault.message
  | .malformed fault => fault.message
  | .noDocument => "EOF while parsing a value"
  | .manyDocuments =>
    "deserializing from YAML containing more than one document is not supported"
  | .misfit problem path position =>
    let lead := if path.text = "." then "" else path.text ++ ": "
    lead ++ problem.message ++ " at " ++ position.text

/-! ## Values -/

/-- The nodes with anchors, by number. -/
abbrev Anchored := List (Nat × Node)

/-- The node that an alias stands for; any other node stands for itself. -/
def target (anchored : Anchored) : Node → Node
  | .alias position n => (anchored.lookup n).getD (.absent position)
  | n => n

/-- Where a node begins. -/
def place : Node → Position
  | .scalar position _ _ _ => position
  | .sequence position _ => position
  | .mapping position _ => position
  | .alias position _ => position

/-- What a node holds: a scalar, or something that no reader of scalars wants. -/
def scalarOf : Node → Except Problem (Scalar ⊕ Found)
  | .scalar _ text plain tag =>
    match Scalar.ofText text plain tag with
    | .ok s => .ok (.inl s)
    | .error expected => .error (.wrongValue (.text text) expected)
  | .sequence _ _ => .ok (.inr .sequence)
  | .mapping _ _ => .ok (.inr .map)
  | .alias _ _ => .ok (.inr .nothing)

/-- What a reader finds that meets a node. -/
def foundAt (n : Node) : Except Problem Found :=
  (scalarOf n).map fun
    | .inl s => s.found
    | .inr f => f

/-- Reads the value of a node that is no alias. -/
abbrev Value (α : Type) := Node → Except Problem α

/-- A value that its scalar settles. -/
def ofScalar {α : Type} (expected : String) (convert : Scalar → Option (Except Problem α)) :
    Value α := fun n => do
  match ← scalarOf n with
  | .inl s => (convert s).getD (.error (.wrongType s.found expected))
  | .inr f => .error (.wrongType f expected)

/-- An integer from zero to `2 ^ 64 - 1`. -/
def word (expected : String) : Value UInt64 := ofScalar expected fun
  | .natural n => some (.ok (UInt64.ofNat n))
  | .integer v =>
    some (if v < 0 then .error (.wrongValue (.integer v) expected) else .ok (UInt64.ofNat v.toNat))
  | _ => none

/-- A truth value. -/
def flag : Value Bool := ofScalar "a boolean" fun
  | .bool b => some (.ok b)
  | _ => none

/-- A 32-bit float; numbers are rounded to it. -/
def single : Value Float32 := ofScalar "f32" fun
  | .natural n => some (.ok (Numeric.Single.ofNat n).toFloat)
  | .integer v => some (.ok (Numeric.Single.ofDatum (.ofInt v)).toFloat)
  | .float x => some (.ok x.narrow.toFloat)
  | _ => none

/-- A text: the text of any scalar as it is written. -/
def text (expected : String) : Value String := fun n =>
  match n with
  | .scalar _ s _ _ => .ok s
  | n =>
    match foundAt n with
    | .ok f => .error (.wrongType f expected)
    | .error p => .error p

/-! ## Records -/

/-- Reads the value at a path into settings of type `δ`. -/
abbrev Read (δ : Type) := Path → Node → δ → Except Error δ

/-- Reads a value into the settings. -/
def Value.into {α δ : Type} (anchored : Anchored) (read : Value α) (set : α → δ → δ) : Read δ :=
  fun path n d =>
    let n := target anchored n
    match read n with
    | .ok a => .ok (set a d)
    | .error p => .error (.misfit p path (place n))

/-- A setting by name. -/
structure Setting (δ : Type) where
  name : String
  read : Read δ

/-- A group of settings. -/
structure Group (δ : Type) where
  title : String
  anchored : Anchored
  settings : List (Setting δ)

namespace Group

variable {δ : Type}

/-- The setting of this name. -/
def named? (g : Group δ) (name : String) : Option (Setting δ) :=
  g.settings.find? fun s => s.name == name

/-- Reads the items of a list, each into the next setting. -/
def readItems (path : Path) : (index : Nat) → List (Setting δ) → List Node → δ → Except Error δ
  | index, s :: ss, n :: ns, d => do
    let d ← s.read (.item path index) n d
    readItems path (index + 1) ss ns d
  | _, _, _, d => .ok d

/-- The path of the value under a key. -/
def pathOf (path : Path) : Node → Path
  | .scalar _ key _ _ => .field path key
  | _ => .unknown path

/-- The name that a key stands for. -/
def keyName (g : Group δ) (path : Path) (key : Node) : Except Error String :=
  let key := target g.anchored key
  match text "field identifier" key with
  | .ok name => .ok name
  | .error p => .error (.misfit p path (place key))

/-- Reads the entries of a table; `seen` are the names of the settings met so far. -/
def readEntries (g : Group δ) (path : Path) (position : Position) :
    (seen : List String) → List (Node × Node) → δ → Except Error δ
  | _, [], d => .ok d
  | seen, (key, value) :: rest, d => do
    let name ← g.keyName path key
    match g.named? name with
    | none => g.readEntries path position seen rest d
    | some s =>
      if seen.contains name then .error (.misfit (.duplicate name) path position)
      else
        let d ← s.read (pathOf path key) value d
        g.readEntries path position (name :: seen) rest d

/-- Reads a group of settings. -/
def read (g : Group δ) : Read δ := fun path n d =>
  match target g.anchored n with
  | .sequence position items => do
    let d ← readItems path 0 g.settings items d
    if g.settings.length < items.length then
      .error (.misfit (.tooLong items.length g.settings.length) path position)
    else .ok d
  | .mapping position entries => g.readEntries path position [] entries d
  | n =>
    match foundAt n with
    | .ok f => .error (.misfit (.wrongType f ("struct " ++ g.title)) path (place n))
    | .error p => .error (.misfit p path (place n))

end Group

/-! ## Configurations -/

/-- The settings of the environments. -/
def sessionGroup (anchored : Anchored) : Group SessionConfig where
  title := "SessionConfig"
  anchored := anchored
  settings :=
    [⟨"seed", (word "u64").into anchored fun n c => { c with seed := n }⟩,
      ⟨"normalize_reward", flag.into anchored fun b c => { c with scaleRewards := b }⟩,
      ⟨"gamma", single.into anchored fun x c => { c with discount := x }⟩,
      ⟨"max_num_envs", (word "usize").into anchored fun n c => { c with mostInstances := n }⟩]

/-- Reads the settings of the environments into those of a server. -/
def readSession (anchored : Anchored) : Read ServerConfig := fun path n c => do
  let session ← (sessionGroup anchored).read path n .usual
  .ok { c with session }

/-- The settings of a server. -/
def serverGroup (anchored : Anchored) : Group ServerConfig where
  title := "ServerConfig"
  anchored := anchored
  settings :=
    [⟨"address", (text "a string").into anchored fun s c => { c with address := s }⟩,
      ⟨"poll_interval_ms", (word "u64").into anchored fun n c => { c with pollInterval := n }⟩,
      ⟨"session", readSession anchored⟩]

/-- The configuration that a text holds. -/
def ofText (s : String) : Except Error ServerConfig :=
  match Yaml.Documents.ofText s with
  | .error f => .error (.malformed f)
  | .ok documents =>
    match documents.nodes with
    | [] => .error .noDocument
    | first :: rest => do
      let c ← (serverGroup documents.anchored).read .root first .usual
      if rest.isEmpty then .ok c else .error .manyDocuments

/-- The configuration that the bytes of a file hold. -/
def ofBytes (bytes : Bytes) : Except Error ServerConfig :=
  match Text.Utf8.decode bytes with
  | .error fault => .error (.notUtf8 fault)
  | .ok s => ofText s

/-- The configuration of a file, if there is one. -/
def ofFile (file : Option Bytes) : Except Error ServerConfig :=
  match file with
  | none => .error .noFile
  | some bytes => ofBytes bytes

end Config

end Rollout
