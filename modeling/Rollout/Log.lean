/-
# Log records

What a program reports while it works: a level and a text.
-/
namespace Rollout

/-- The importance of a record. -/
inductive LogLevel where
  | info
  | warn
  deriving DecidableEq, Repr

/-- One report. -/
structure LogRecord where
  level : LogLevel
  text : String
  deriving DecidableEq, Repr

/-- Reports in the order in which they were made. -/
abbrev Log := List LogRecord

namespace LogRecord

/-- A report of progress. -/
def info (text : String) : LogRecord := ⟨.info, text⟩

/-- A report of something refused. -/
def warn (text : String) : LogRecord := ⟨.warn, text⟩

/-- A record on one line. -/
def line (r : LogRecord) : String :=
  match r.level with
  | .info => "INFO " ++ r.text
  | .warn => "WARN " ++ r.text

end LogRecord

end Rollout
