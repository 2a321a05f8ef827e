import EnvAudit.Cli.Args
import EnvAudit.Check
import EnvAudit.Report.Json
import EnvAudit.Report.Terminal
import EnvAudit.Text.Literal
/-!
# Running the command line

A run of the command line on a volume gives an exit code, what is written to standard output and
standard error, the log records shown, and the error that stopped the run, if one did.

* A command line that cannot be read exits with code 2, and its error text is not modelled.
* `version` prints the version.
* `check` first checks the output format, then that the target (read from the working directory
  and resolved) exists and is a directory; each failure prints an error and exits with code 1.
  An env file path holding a NUL character, looked up as soon as the command line is read (so
  even when the command line has more than one target), and a target holding one, looked up
  when it is resolved, stop the run with code 1 and no output; so does a target or an env file
  whose name is too long, when it is tested.
  The run then checks the target with the given options. An env file that is missing or
  unreadable prints an error and exits with code 1; a filter that cannot be built, or an error
  of the system met in discovery, stops the run with code 1 and no output. Otherwise the result is printed as a terminal report or a JSON
  document, and the run exits with code 0 whatever the result holds.
* Log records at or above the threshold (warnings, or everything in verbose runs) are written to
  standard error as they are made. Verbose runs also announce each file as it is scanned and the
  number scanned at the end, and show where each missing name is read.
-/

namespace EnvAudit.Cli

open EnvAudit.Fs
open EnvAudit.Report

/-- An error that ends a run with no report of its own. -/
inductive Stop where
  /-- An exclusion filter cannot be built. -/
  | filter (e : Ignore.FilterError)
  /-- An error of the system: a path holding a NUL character, or a test on a name that is too
  long. -/
  | system (e : SystemError)
  deriving Repr

/-- The report of an error that ends a run. -/
def Stop.message : Stop → String
  | .filter e => e.message
  | .system e => e.message

/-- What a run of the command line gives. -/
structure Outcome where
  exitCode : Nat
  stdout : String
  /-- Standard error, log records included; none for a command line that cannot be read. -/
  stderr : Option String
  /-- The log records shown. -/
  log : List Log.Entry
  /-- The error that stopped the run, if one did. -/
  stopped : Option Stop
  deriving Repr

/-- Whether the environment turns the easter egg on: `EASTER_EGG` is exactly `true`. -/
def easterEggEnabled (environ : List (String × String)) : Bool :=
  environ.lookup "EASTER_EGG" == some "true"

/-- The version line. -/
def versionLine : String := showLine "[bold]Env-Usage-Checker[/bold] v0.1.0"

/-- An error line on standard error. -/
def errorLine (text : String) : String := showLine ("[red]Error:[/red] " ++ text)

/-- What the error console shows for the steps of a check: the files announced, in verbose runs,
and the records at or above the threshold. -/
def stepText (verbose : Bool) (threshold : Log.Level) : Step → String
  | .announced path => if verbose then showLine ("[dim]  " ++ escape path ++ "[/dim]") else ""
  | .logged e => if threshold.rank ≤ e.level.rank then recordText e.level.name e.message else ""

/-- The scan root of a check: its target read from the working directory, and resolved. -/
def CheckArgs.root (a : CheckArgs) (v : Volume) : Pathname :=
  ((Pathname.mk .root v.cwd).join (Pathname.ofString a.target)).resolve

/-- The check that the arguments ask for: the default patterns when none are given. -/
def CheckArgs.config (a : CheckArgs) (v : Volume) : Config :=
  { root := a.root v, envFile := Pathname.ofString a.envFile,
    patterns := if a.patterns.isEmpty then Scan.defaultPatterns else a.patterns,
    exclude := a.exclude, useGitignore := a.gitignore }

/-- Runs `check` with its arguments. -/
def runCheck (v : Volume) (environ : List (String × String)) (a : CheckArgs) : Outcome :=
  let threshold := if a.verbose then Log.Level.debug else .warning
  let done (code : Nat) (out : String) (steps : List Step) (err : String) (stopped : Option Stop) :
      Outcome :=
    ⟨code, out, some (String.join (steps.map (stepText a.verbose threshold)) ++ err),
      Log.shown threshold (Step.records steps), stopped⟩
  if !passable a.envFile then done 1 "" [] "" (some (.system .unpassable))
  else if a.format ≠ "rich" ∧ a.format ≠ "json" then
    done 1 "" [] (errorLine ("Unknown format: " ++ escape a.format)) none
  else
    let root := a.root v
    if !passable a.target then done 1 "" [] "" (some (.system .unpassable))
    else match v.probe root.toString with
    | .error e => done 1 "" [] "" (some (.system (.access e)))
    | .ok none => done 1 "" [] (errorLine ("Path does not exist: " ++ escape a.target)) none
    | .ok (some (.file _)) => done 1 "" [] (errorLine ("Path is not a directory: " ++ escape a.target)) none
    | .ok (some .dir) =>
      let cfg := a.config v
      let start := Step.logged (Log.debug ("Scanning " ++ root.toString ++ " with patterns " ++
        Text.listLiteral cfg.patterns))
      let (steps, res) := check v cfg
      match res with
      | .error (.envFile (.inaccessible e)) => done 1 "" (start :: steps) "" (some (.system (.access e)))
      | .error (.envFile e) =>
        done 1 "" (start :: steps) (showLine ("[red]❌ Error:[/red] " ++ escape e.message)) none
      | .error (.filter e) => done 1 "" (start :: steps) "" (some (.filter e))
      | .error (.system e) => done 1 "" (start :: steps) "" (some (.system e))
      | .ok c =>
        let scanned :=
          if a.verbose then showLine ("[dim]  Scanned " ++ toString c.result.scanned.length ++ " files[/dim]")
          else ""
        let out :=
          if a.format = "json" then c.result.toJson ++ "\n"
          else c.result.terminal a.verbose (easterEggEnabled environ)
        done 0 out (start :: steps) scanned none

/-- Runs a command line on a volume, in an environment of variables. -/
def run (v : Volume) (environ : List (String × String)) (args : List String) : Outcome :=
  match Command.parse args with
  | none => ⟨2, "", none, [], none⟩
  | some .help => ⟨0, "", some "", [], none⟩
  | some .version => ⟨0, versionLine, some "", [], none⟩
  | some (.check a []) => runCheck v environ a
  | some (.check a _) =>
    if passable a.envFile then ⟨2, "", none, [], none⟩ else runCheck v environ a

end EnvAudit.Cli
