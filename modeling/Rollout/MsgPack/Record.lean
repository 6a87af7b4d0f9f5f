/-
# Reading records

A record is a map from field names to contents, or an array of the contents in
the order of the fields.  A map may have its entries in any order and more
entries than the record has fields; the others are passed over.  A byte string
stands for an array of small integers.
-/
import Rollout.MsgPack.Reader

namespace Rollout.MsgPack

/-! ## Contents -/

/-- How the content of a field is read, and what a single byte in its place means. -/
structure Content (α : Type) where
  read : (levels : Nat) → Reader α
  ofByte : UInt8 → Except Error α

/-- A byte as a head. -/
def byteHead (b : UInt8) : Head := .uint b.toNat

namespace Content

/-- The integer of a head, from zero to `2 ^ 64 - 1`. -/
def wordOf : Head → Except Error UInt64
  | .uint n => .ok (UInt64.ofNat n)
  | .int v =>
    if v < 0 then .error (.wrongValue (.integer v) "usize") else .ok (UInt64.ofNat v.toNat)
  | h => .error (.wrongType h.found "usize")

/-- The integer of a head, from `-2 ^ 63` to `2 ^ 63 - 1`. -/
def signedOf : Head → Except Error Int64
  | .uint n =>
    if n < 2 ^ 63 then .ok (Int64.ofInt n) else .error (.wrongValue (.integer n) "i64")
  | .int v => .ok (Int64.ofInt v)
  | h => .error (.wrongType h.found "i64")

/-- The truth value of a head. -/
def flagOf : Head → Except Error Bool
  | .bool b => .ok b
  | h => .error (.wrongType h.found "a boolean")

/-- The text of a head; a byte string may be one. -/
def textOf : Head → Except Error String
  | .text s => .ok s
  | .badText _ fault => .error (.badText fault)
  | .binary bytes =>
    match Text.Utf8.decode bytes with
    | .ok s => .ok s
    | .error _ => .error (.wrongValue .bytes "a string")
  | h => .error (.wrongType h.found "a string")

/-- A content that its head settles. -/
def readOf {α : Type} (head : Reader Head) (convert : Head → Except Error α) : Reader α :=
  fun bytes =>
    match head bytes with
    | .error e => .error e
    | .ok (h, rest) =>
      match convert h with
      | .error e => .error e
      | .ok a => .ok (a, rest)

/-- An integer that is not negative. -/
def word : Content UInt64 := ⟨fun _ => readOf readPlain wordOf, fun b => wordOf (byteHead b)⟩

/-- An integer. -/
def signed : Content Int64 := ⟨fun _ => readOf readPlain signedOf, fun b => signedOf (byteHead b)⟩

/-- A truth value. -/
def flag : Content Bool := ⟨fun _ => readOf readPlain flagOf, fun b => flagOf (byteHead b)⟩

/-- A text. -/
def text : Content String :=
  ⟨fun levels => readOf (readHead levels) textOf, fun b => textOf (byteHead b)⟩

/-- A content that may be nil instead. -/
def optional {α : Type} (c : Content α) : Content (Option α) where
  read levels bytes :=
    match bytes with
    | 0xc0 :: rest => .ok (none, rest)
    | bytes => (c.read levels).map some bytes
  ofByte b := .error (.wrongType (byteHead b).found "option")

end Content

/-! ## Fields -/

/-- A field of a record that is being read into a draft of type `δ`. -/
structure Field (δ : Type) where
  name : String
  /-- Whether an array may end before the field. -/
  required : Bool
  /-- Whether the draft has the field. -/
  filled : δ → Bool
  /-- Reads the content into the draft. -/
  fill : (levels : Nat) → δ → Reader δ
  /-- Puts a byte into the draft. -/
  fillByte : UInt8 → δ → Except Error δ

/-- A field with a content, which `get` and `set` find in the draft. -/
def Content.field {α δ : Type} (c : Content α) (name : String) (required : Bool)
    (get : δ → Option α) (set : α → δ → δ) : Field δ where
  name := name
  required := required
  filled d := (get d).isSome
  fill levels d := (c.read levels).map (set · d)
  fillByte b d := (c.ofByte b).map (set · d)

/-! ## Records -/

/-- The fields of a record, and how the record is made from a draft. -/
structure Record (δ α : Type) where
  title : String
  fields : List (Field δ)
  empty : δ
  finish : δ → Except Error α

namespace Record

variable {δ α : Type}

/-- What a reader of the record wants. -/
def expected (r : Record δ α) : String := "struct " ++ r.title

/-- What a reader of the record wants of an array. -/
def expectedItems (r : Record δ α) : String :=
  r.expected ++ " with " ++ elements r.fields.length

/-! ### Keys -/

/-- The field of this name. -/
def named? (r : Record δ α) (name : String) : Option (Field δ) :=
  r.fields.find? fun f => f.name == name

/-- The field that a key stands for: a text is the name of a field and a natural its
position. -/
def fieldOf (r : Record δ α) : Head → Except Error (Option (Field δ))
  | .text s => .ok (r.named? s)
  | .badText _ _ => .ok none
  | .binary bytes => .ok (r.fields.find? fun f => Text.Utf8.encode f.name == bytes)
  | .uint n => .ok r.fields[n]?
  | h => .error (.wrongType h.found "field identifier")

/-! ### Forms -/

/-- Reads one entry of a map into the draft. -/
def readEntry (r : Record δ α) (levels : Nat) (d : δ) : Reader δ := fun bytes =>
  match Content.readOf (readHead levels) r.fieldOf bytes with
  | .error e => .error e
  | .ok (none, rest) => (readValue levels).map (fun _ => d) rest
  | .ok (some f, rest) =>
    if f.filled d then .error (.duplicateField f.name) else f.fill levels d rest

/-- Reads the entries of a map into the draft. -/
def readEntries (r : Record δ α) (levels : Nat) : (count : Nat) → δ → Reader δ
  | 0, d, bytes => .ok (d, bytes)
  | count + 1, d, bytes =>
    match r.readEntry levels d bytes with
    | .error e => .error e
    | .ok (d, rest) => r.readEntries levels count d rest

/-- Reads the items of an array into the draft, each into the next field. -/
def readItems (r : Record δ α) (levels : Nat) :
    List (Field δ) → (index count : Nat) → δ → Reader δ
  | [], _, 0, d, bytes => .ok (d, bytes)
  | [], index, _ + 1, _, _ => .error (.tooLong index)
  | f :: fs, index, 0, d, bytes =>
    if f.required then .error (.tooShort index r.expectedItems)
    else r.readItems levels fs (index + 1) 0 d bytes
  | f :: fs, index, count + 1, d, bytes =>
    match f.fill levels d bytes with
    | .error e => .error e
    | .ok (d, rest) => r.readItems levels fs (index + 1) count d rest

/-- Puts bytes into the draft, each into the next field; the bytes after the last field are
passed over. -/
def fillBytes (r : Record δ α) : List (Field δ) → (index : Nat) → Bytes → δ → Except Error δ
  | [], _, _, d => .ok d
  | f :: fs, index, [], d =>
    if f.required then .error (.tooShort index r.expectedItems)
    else r.fillBytes fs (index + 1) [] d
  | f :: fs, index, b :: bytes, d =>
    match f.fillByte b d with
    | .error e => .error e
    | .ok d => r.fillBytes fs (index + 1) bytes d

/-- The draft that a value fills. -/
def readDraft (r : Record δ α) (levels : Nat) : Reader δ := fun bytes =>
  match readHead levels bytes with
  | .error e => .error e
  | .ok (.array count, rest) => r.readItems (levels - 1) r.fields 0 count r.empty rest
  | .ok (.map count, rest) => r.readEntries (levels - 1) count r.empty rest
  | .ok (.binary payload, rest) =>
    match r.fillBytes r.fields 0 payload r.empty with
    | .error e => .error e
    | .ok d => .ok (d, rest)
  | .ok (.badText _ fault, _) => .error (.badText fault)
  | .ok (h, _) => .error (.wrongType h.found r.expected)

/-- A record. -/
def read (r : Record δ α) (levels : Nat) : Reader α := fun bytes =>
  match r.readDraft levels bytes with
  | .error e => .error e
  | .ok (d, rest) =>
    match r.finish d with
    | .error e => .error e
    | .ok a => .ok (a, rest)

/-- A record as the content of a field of another one. -/
def content (r : Record δ α) : Content α :=
  ⟨r.read, fun b => .error (.wrongType (byteHead b).found r.expected)⟩

/-- The content of a field that must be there. -/
def required {β : Type} (name : String) : Option β → Except Error β
  | some b => .ok b
  | none => .error (.missingField name)

/-- The record of two named contents that must both be there. -/
def pair {α β γ : Type} (title : String) (first : String × Content α) (second : String × Content β)
    (make : α → β → γ) : Record (Option α × Option β) γ where
  title := title
  fields :=
    [first.2.field first.1 true Prod.fst fun a d => (some a, d.2),
      second.2.field second.1 true Prod.snd fun b d => (d.1, some b)]
  empty := (none, none)
  finish d := do
    let a ← required first.1 d.1
    let b ← required second.1 d.2
    .ok (make a b)

end Record

end Rollout.MsgPack
