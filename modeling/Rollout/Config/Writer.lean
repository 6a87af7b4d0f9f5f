/-
# Writing a configuration

A configuration file has one setting a line.  An address that could be taken for
anything but a text is put in quotes.
-/
import Rollout.Config
import Rollout.Numeric.Read

namespace Rollout.Config

/-! ## Texts -/

/-- The words that stand for something else than a text. -/
def reservedWords : List String :=
  ["yes", "Yes", "YES", "no", "No", "NO", "True", "TRUE", "true", "False", "FALSE", "false", "on",
    "On", "ON", "off", "Off", "OFF", "null", "Null", "NULL", "~"]

/-- Whether a character at the front asks for quotes. -/
def asksInFront (c : Char) : Bool :=
  [' ', '&', '*', '?', '|', '-', '<', '>', '=', '!', '%', '@', '.'].contains c

/-- Whether a character anywhere asks for quotes. -/
def asksAnywhere (c : Char) : Bool :=
  [':', '\x7b', '\x7d', '[', ']', ',', '#', '\x60', '"', '\'', '\\', '\t', '\n', '\r'].contains c
    || c ≤ '\x06' || ('\x0e' ≤ c && c ≤ '\x1a') || ('\x1c' ≤ c && c ≤ '\x1f')

/-- Whether a text must be in quotes. -/
def needsQuotes (s : String) : Bool :=
  let cs := s.toList
  cs.isEmpty || cs.head?.any asksInFront || cs.getLast? == some ' ' || cs.any asksAnywhere
    || reservedWords.contains s || cs.take 2 == ['0', 'x']
    || (Numeric.readSigned 10 64 cs).isSome || (Numeric.readDouble cs).isSome

/-- Four hexadecimal digits of a number below 256. -/
def fourDigits (n : Nat) : List Char :=
  ['0', '0', Nat.digitChar (n / 16), Nat.digitChar (n % 16)]

/-- A character in quotes. -/
def escapedChar (c : Char) : List Char :=
  if c = '"' then ['\\', '"']
  else if c = '\\' then ['\\', '\\']
  else if c = '\x08' then ['\\', 'b']
  else if c = '\t' then ['\\', 't']
  else if c = '\n' then ['\\', 'n']
  else if c = '\x0c' then ['\\', 'f']
  else if c = '\r' then ['\\', 'r']
  else if c ≤ '\x1f' ∨ c = '\x7f' then '\\' :: 'u' :: fourDigits c.toNat
  else [c]

/-- A text, in quotes if it must be. -/
def textOf (s : String) : String :=
  if needsQuotes s then String.ofList ('"' :: (s.toList.flatMap escapedChar ++ ['"'])) else s

/-! ## Settings -/

/-- A setting on its line. -/
def line (indent name value : String) : String := indent ++ name ++ ": " ++ value ++ "\n"

/-- The lines of the settings of the environments. -/
def sessionLines (c : SessionConfig) : String :=
  line "  " "seed" (Numeric.natText c.seed.toNat)
    ++ line "  " "normalize_reward" (if c.scaleRewards then "true" else "false")
    ++ line "  " "gamma" (Numeric.float32Text .config c.discount)
    ++ line "  " "max_num_envs" (Numeric.natText c.mostInstances.toNat)

/-- A configuration as the text of a file. -/
def toText (c : ServerConfig) : String :=
  "---\n" ++ line "" "address" (textOf c.address)
    ++ line "" "poll_interval_ms" (Numeric.natText c.pollInterval.toNat)
    ++ "session:\n" ++ sessionLines c.session

end Rollout.Config
