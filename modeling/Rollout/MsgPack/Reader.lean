/-
# Reading values

A reader takes a value from the front of a sequence of bytes and returns the
bytes after it.  Arrays and maps may be nested only so deep: readers that go
into a collection take the number of levels that may still be entered.
-/
import Rollout.MsgPack.Error
import Rollout.MsgPack.Value

namespace Rollout.MsgPack

/-- Takes a value from the front of the bytes. -/
abbrev Reader (α : Type) := Bytes → Except Error (α × Bytes)

/-- The number of collections that may lie inside one another. -/
def maxLevels : Nat := 1023

/-! ## Bytes and numbers -/

/-- The first `n` bytes, if there are so many. -/
def takeBytes : (n : Nat) → Bytes → Option (Bytes × Bytes)
  | 0, bytes => some ([], bytes)
  | _ + 1, [] => none
  | n + 1, b :: bytes => (takeBytes n bytes).map fun (front, rest) => (b :: front, rest)

/-- As many bytes as stand in front can be taken. -/
theorem takeBytes_append (front rest : Bytes) :
    takeBytes front.length (front ++ rest) = some (front, rest) := by
  induction front with
  | nil => rfl
  | cons b front ih => simp [takeBytes, ih]

/-- A marker. -/
def readMarker : Reader Marker
  | [] => .error .noMarker
  | b :: rest => .ok (.ofByte b, rest)

/-- A big-endian number. -/
def readNumber (width : Nat) : Reader Nat := fun bytes =>
  match takeBytes width bytes with
  | none => .error .cutNumber
  | some (front, rest) => .ok (numberOf front, rest)

/-- The bytes of a text or a byte string. -/
def readPayload (length : Nat) : Reader Bytes := fun bytes =>
  match takeBytes length bytes with
  | none => .error .cutPayload
  | some found => .ok found

/-- What a reader finds, with a function applied. -/
def Reader.map {α β : Type} (f : α → β) (read : Reader α) : Reader β := fun bytes =>
  match read bytes with
  | .error e => .error e
  | .ok (a, rest) => .ok (f a, rest)

/-! ## Heads -/

/-- The head of bytes that were announced as a text. -/
def textHead (bytes : Bytes) : Head :=
  match Text.Utf8.decode bytes with
  | .ok s => .text s
  | .error fault => .badText bytes fault

/-- A text or a byte string, whose length is an operand. -/
def readLong (width : Nat) (head : Bytes → Head) : Reader Head := fun bytes =>
  match readNumber width bytes with
  | .error e => .error e
  | .ok (length, rest) => (readPayload length).map head rest

/-- The head that a marker begins. -/
def readHeadOf : Marker → Reader Head
  | .positive n => fun bytes => .ok (.uint n, bytes)
  | .negative v => fun bytes => .ok (.int v, bytes)
  | .shortMap count => fun bytes => .ok (.map count, bytes)
  | .shortArray count => fun bytes => .ok (.array count, bytes)
  | .shortText length => (readPayload length).map textHead
  | .nil => fun bytes => .ok (.nil, bytes)
  | .reserved => fun _ => .error (.wrongMarker .reserved)
  | .bool b => fun bytes => .ok (.bool b, bytes)
  | .binary width => readLong width .binary
  | .extension width => (readNumber width).map .extension
  | .single => (readNumber 4).map fun n => .single ⟨UInt32.ofNat n⟩
  | .double => (readNumber 8).map fun n => .double ⟨UInt64.ofNat n⟩
  | .uint width => (readNumber width).map .uint
  | .int width => (readNumber width).map fun n => .int (signedOf width n)
  | .fixedExtension length => fun bytes => .ok (.extension length, bytes)
  | .text width => readLong width textHead
  | .array width => (readNumber width).map .array
  | .map width => (readNumber width).map .map

/-- A head.  Collections need a level to be entered. -/
def readHead (levels : Nat) : Reader Head := fun bytes =>
  match readMarker bytes with
  | .error e => .error e
  | .ok (m, rest) =>
    match readHeadOf m rest with
    | .error e => .error e
    | .ok (h, rest) => if h.nests && levels == 0 then .error .tooDeep else .ok (h, rest)

/-- The head of a number, a truth value or nil. -/
def readPlain : Reader Head := fun bytes =>
  match readMarker bytes with
  | .error e => .error e
  | .ok (m, rest) => if m.isPlain then readHeadOf m rest else .error (.wrongMarker m)

/-! ## Trees -/

/-- As many items as `count` says. -/
def readMany {α : Type} (read : Reader α) : (count : Nat) → Reader (List α)
  | 0, bytes => .ok ([], bytes)
  | count + 1, bytes =>
    match read bytes with
    | .error e => .error e
    | .ok (a, rest) => (readMany read count).map (a :: ·) rest

/-- Two values, one after the other. -/
def readPair {α β : Type} (first : Reader α) (second : Reader β) : Reader (α × β) := fun bytes =>
  match first bytes with
  | .error e => .error e
  | .ok (a, rest) => second.map (fun b => (a, b)) rest

/-- The tag and the bytes of an extension. -/
def readExtension (length : Nat) : Reader Value := fun bytes =>
  match readNumber 1 bytes with
  | .error e => .error e
  | .ok (tag, rest) => (readPayload length).map (.extension (signedOf 1 tag)) rest

/-- A value.  A text that is not UTF-8 is read as a byte string. -/
def readValue : (levels : Nat) → Reader Value
  | levels, bytes =>
    match readHead levels bytes with
    | .error e => .error e
    | .ok (.nil, rest) => .ok (.nil, rest)
    | .ok (.bool b, rest) => .ok (.bool b, rest)
    | .ok (.uint n, rest) => .ok (.int n, rest)
    | .ok (.int v, rest) => .ok (.int v, rest)
    | .ok (.single x, rest) => .ok (.single x, rest)
    | .ok (.double x, rest) => .ok (.double x, rest)
    | .ok (.text s, rest) => .ok (.text s, rest)
    | .ok (.badText payload _, rest) => .ok (.binary payload, rest)
    | .ok (.binary payload, rest) => .ok (.binary payload, rest)
    | .ok (.array count, rest) =>
      match levels with
      | 0 => .error .tooDeep
      | levels + 1 => (readMany (readValue levels) count).map .array rest
    | .ok (.map count, rest) =>
      match levels with
      | 0 => .error .tooDeep
      | levels + 1 =>
        (readMany (readPair (readValue levels) (readValue levels)) count).map .map rest
    | .ok (.extension length, rest) => readExtension length rest

end Rollout.MsgPack
