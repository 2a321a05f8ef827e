import EnvAudit.Scan.Usage
import EnvAudit.NameSet
/-!
# Check results

A check compares the names an env file declares with the names the code reads. Its result lists,
each in increasing order and each name once:

* `declared`, the names declared, and `used`, the names read;
* `missing`, the names read but not declared, and `unused`, the names declared but not read;
* for each name read, the files that read it;

together with the files scanned and skipped, in scan order, and the name of the env file.
-/

namespace EnvAudit.Report

open EnvAudit.Scan

/-- The result of a check. -/
structure Result where
  declared : List String
  used : List String
  missing : List String
  unused : List String
  sources : Sources
  scanned : List String
  skipped : List Skipped
  envFile : String
  deriving DecidableEq, Repr

/-- Compares declared names with the usage found by a scan. -/
def compareUsage (declared : List String) (u : Usage) (envFile : String) : Result :=
  let decl := sortNames declared
  let used := u.sources.map (·.1)
  { declared := decl
    used := used
    missing := used.filter fun n => !decl.contains n
    unused := decl.filter fun n => !used.contains n
    sources := u.sources
    scanned := u.scanned
    skipped := u.skipped
    envFile := envFile }

/-- The files that read `name`, in increasing order; none when it is not used. -/
def Result.sourcesFor (r : Result) (name : String) : List String :=
  ((r.sources.find? (·.1 == name)).map (·.2)).getD []

end EnvAudit.Report
