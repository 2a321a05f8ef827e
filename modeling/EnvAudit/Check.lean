import EnvAudit.Dotenv.Load
import EnvAudit.Scan.Discovery
import EnvAudit.Scan.Usage
import EnvAudit.Report.Result
/-!
# Running a check

A check loads the env file, builds the exclusion filter of the scan root (the `node_modules/`
rule, the extra exclusions, and the root's `.gitignore` when asked) with the patterns of a
pattern library, discovers the files that the patterns match and the filter keeps, scans them,
and compares what is declared with what is read. A missing or unreadable env file, a filter that
cannot be built, or an error of the system met in discovery stops the check. As it goes, the
check logs records and announces each file it reads just before logging what it found. `check`
is the check with gitignore's patterns (`gitwildmatch`).
-/

namespace EnvAudit

open EnvAudit.Fs
open EnvAudit.Scan

/-- What to check. -/
structure Config where
  root : Pathname
  /-- The env file, read from the root when it is relative. -/
  envFile : Pathname := Pathname.ofString ".env"
  patterns : List String := defaultPatterns
  /-- Exclusion rules added to the `node_modules/` rule. -/
  exclude : List String := []
  useGitignore : Bool := false
  deriving Repr

/-- The path of the env file. -/
def Config.envPath (c : Config) : Pathname := if c.envFile.absolute then c.envFile else c.root.join c.envFile

/-- Why a check stops. -/
inductive Failure where
  | envFile (e : Dotenv.LoadError)
  | filter (e : Ignore.FilterError)
  /-- Discovery met an error of the system. -/
  | system (e : SystemError)
  deriving Repr

/-- What a check reports as it goes, in order: a record it logs, or a file it announces just
before scanning it. -/
inductive Step where
  | logged (e : Log.Entry)
  | announced (path : String)
  deriving DecidableEq, Repr

/-- The records among the steps of a check. -/
def Step.records (steps : List Step) : List Log.Entry :=
  steps.filterMap fun
    | .logged e => some e
    | .announced _ => none

/-- The steps of scanning one file: a file that is read is announced, then its names are
logged; a skipped file is logged as a warning. -/
def FileScan.steps (s : FileScan) : List Step :=
  match s with
  | .read path _ => [.announced path, .logged s.log]
  | .skipped _ => [.logged s.log]

/-- A finished check: its result and the scan of each file, in order. -/
structure Checked where
  result : Report.Result
  scans : List FileScan

/-- Runs a check with the ignore patterns of `lib`, with the steps it reports up to its end or its
failure. -/
def checkWith (lib : Ignore.PatternLib) (v : Volume) (c : Config) : List Step × Except Failure Checked :=
  let (loadLog, loaded) := Dotenv.load v c.envPath
  let loadSteps := loadLog.map Step.logged
  match loaded with
  | .error e => (loadSteps, .error (.envFile e))
  | .ok decls =>
    match Ignore.Exclusions.buildWith lib v c.root (some (Ignore.defaultLines ++ c.exclude)) c.useGitignore with
    | .error e => (loadSteps, .error (.filter e))
    | .ok f =>
      match discover v c.root c.patterns (some f) with
      | .error e => (loadSteps, .error (.system e))
      | .ok d =>
        let scans := scanFiles v c.root d.files
        let r := Report.compareUsage (decls.map (·.1)) (Usage.ofScans scans) c.envFile.name
        let summary := Log.info ("Scanned " ++ toString r.scanned.length ++ " files: " ++
          toString r.missing.length ++ " missing, " ++ toString r.unused.length ++ " unused")
        (loadSteps ++ d.log.map Step.logged ++ scans.flatMap FileScan.steps ++ [.logged summary],
          .ok ⟨r, scans⟩)

/-- Runs a check with gitignore's patterns. -/
def check (v : Volume) (c : Config) : List Step × Except Failure Checked := checkWith Ignore.gitwildmatch v c

end EnvAudit
