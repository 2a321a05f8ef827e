/-!
# Log records

The checker reports its progress as log records: a level and a message. A record is shown when
its level reaches the threshold in force: warnings always, debugging records only in verbose
runs.
-/

namespace EnvAudit.Log

/-- How important a record is. -/
inductive Level where
  | debug
  | info
  | warning
  deriving DecidableEq, Repr

/-- The rank of a level; higher is more important. -/
def Level.rank : Level → Nat
  | .debug => 10
  | .info => 20
  | .warning => 30

/-- The name of a level in written records. -/
def Level.name : Level → String
  | .debug => "DEBUG"
  | .info => "INFO"
  | .warning => "WARNING"

/-- One log record. -/
structure Entry where
  level : Level
  message : String
  deriving DecidableEq, Repr

/-- A debugging record. -/
def debug (message : String) : Entry := ⟨.debug, message⟩

/-- An informational record. -/
def info (message : String) : Entry := ⟨.info, message⟩

/-- A warning. -/
def warning (message : String) : Entry := ⟨.warning, message⟩

/-- A record as written: its level's name, a space and its message. -/
def Entry.render (e : Entry) : String := e.level.name ++ " " ++ e.message

/-- The records whose level reaches `threshold`. -/
def shown (threshold : Level) (es : List Entry) : List Entry :=
  es.filter fun e => threshold.rank ≤ e.level.rank

end EnvAudit.Log
