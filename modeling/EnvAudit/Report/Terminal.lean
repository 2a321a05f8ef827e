import EnvAudit.Report.Result
import EnvAudit.Report.Console
/-!
# The terminal report

The terminal report of a result is a sequence of console lines: a blank line, the title, a blank
line, a rule of thirty box-drawing strokes and a blank line; optionally a greeting and a blank
line; the missing names under their header (or a line saying there are none), each name followed,
when sources are shown, by the files that read it; a blank line; the unused names under their
header (or a line saying there are none); and a blank line, the rule and a blank line. The env
file and the files are escaped, and the files dimmed, by the console the report is printed to.
-/

namespace EnvAudit.Report

/-- The rule that frames the report. -/
def rule : String := String.ofList (List.replicate 30 '─')

/-- The greeting shown when the easter egg is on. -/
def greeting : String := "🤫Congratulations! Now keep this a secret like your .env"

/-- The lines about missing names. -/
def missingLines (con : Console) (r : Result) (showSources : Bool) : List String :=
  if r.missing.isEmpty then ["✔ No missing variables!"]
  else
    ("❌ Used but not defined in " ++ con.escape r.envFile ++ ":") ::
      r.missing.flatMap fun n =>
        ("   • " ++ n) ::
          if showSources then (r.sourcesFor n).map fun f => "       [dim]" ++ con.escape f ++ "[/dim]"
          else []

/-- The lines about unused names. -/
def unusedLines (r : Result) : List String :=
  if r.unused.isEmpty then ["✔ No unused variables!"]
  else "⚠ Defined but not used in code:" :: r.unused.map fun n => "   • " ++ n

/-- The console lines of the report, as markup. -/
def Result.terminalLines (con : Console) (r : Result) (showSources egg : Bool) : List String :=
  ["", "✅ Env Usage Report", "", rule, ""] ++
    (if egg then ["    " ++ greeting, ""] else []) ++
    missingLines con r showSources ++ [""] ++ unusedLines r ++ ["", rule, ""]

/-- The text of the report as a console shows it. -/
def Result.terminalWith (con : Console) (r : Result) (showSources egg : Bool) : String :=
  String.join ((r.terminalLines con showSources egg).map con.showLine)

/-- The text of the report as the program's console shows it. -/
def Result.terminal (r : Result) (showSources egg : Bool) : String := r.terminalWith rich showSources egg

end EnvAudit.Report
