import EnvAudit.Dotenv.Document
import EnvAudit.Fs.Volume
import EnvAudit.Text.Utf8
import EnvAudit.Log
/-!
# Loading an env file

An env file is loaded from a volume: it must be a file, its bytes must be UTF-8, and carriage
returns count as line feeds. Its declarations map each name to the value of its last entry, in
the order in which names first appear. Loading logs each ignored line and the number of
declarations.
-/

namespace EnvAudit.Dotenv

open EnvAudit.Fs
open EnvAudit.Text

/-- Why an env file cannot be loaded. -/
inductive LoadError where
  /-- No file at the path. -/
  | notFound (path : Pathname)
  /-- The file cannot be read or is not UTF-8; `reason` says why. -/
  | unreadable (path : Pathname) (reason : String)
  /-- The test for a file at the path fails, for a name or path that is too long. -/
  | inaccessible (e : OsError)
  deriving DecidableEq, Repr

/-- The report of a load failure. -/
def LoadError.message : LoadError → String
  | .notFound p => p.name ++ " file not found: " ++ p.toString
  | .unreadable p r => "Failed to read " ++ p.toString ++ ": " ++ r
  | .inaccessible e => e.message

/-- The text of the file at `path`, with carriage returns read as line feeds. -/
def readText (v : Volume) (path : Pathname) : Except LoadError String :=
  match v.read path.toString with
  | .error e => .error (.unreadable path e.message)
  | .ok bytes =>
    match decode bytes with
    | .error e => .error (.unreadable path e.message)
    | .ok cs => .ok (String.ofList (normalizeNewlines cs))

/-- The log records of reading a document. -/
def Reading.log (r : Reading) : List Log.Entry :=
  r.ignored.map fun n => Log.debug ("Ignoring line " ++ toString n ++ ": not an assignment")

/-- Loads the declarations of the env file at `path`, with the records it logs. -/
def load (v : Volume) (path : Pathname) : List Log.Entry × Except LoadError (List (String × String)) :=
  match v.fileTest path.toString with
  | .error e => ([], .error (.inaccessible e))
  | .ok false => ([], .error (.notFound path))
  | .ok true =>
    match readText v path with
    | .error e => ([], .error e)
    | .ok content =>
      let r := parse content
      let decls := declarations r.entries
      (r.log ++ [Log.debug ("Loaded " ++ toString decls.length ++ " variables from " ++ path.toString)],
        .ok decls)

end EnvAudit.Dotenv
