import EnvAudit.Ignore.Rule
import EnvAudit.Fs.Volume
import EnvAudit.Text.Utf8
import EnvAudit.Text.Lines
/-!
# Exclusion filters

An exclusion filter holds a scan root and a list of ignore patterns, read from given lines and,
when asked, from the `.gitignore` file at the root. It decides for a path whether to leave it
out of a scan:

* a path outside the root is never left out;
* a path under the root, or a relative path, is matched in its form relative to the root, with
  a leading `/` or `./` removed;
* the last pattern that matches decides: an excluding pattern leaves the path out, a re-including
  one keeps it; a path that no pattern matches is kept.

How one line reads as a pattern is the business of a pattern library (`PatternLib`), which the
filter takes as it is given. The filter of a check is built with `gitwildmatch`, gitignore's
patterns as `Rule` reads them.
-/

namespace EnvAudit.Ignore

open EnvAudit.Text
open EnvAudit.Fs

/-- The lines a filter uses when none are given. -/
def defaultLines : List String := ["node_modules/"]

/-- Why a filter cannot be built. -/
inductive FilterError where
  /-- A line is no valid rule. -/
  | invalid (e : InvalidRule)
  /-- The `.gitignore` file is not UTF-8. -/
  | undecodable (e : DecodeError)
  /-- The test for a `.gitignore` file fails, for a name or path that is too long. -/
  | inaccessible (e : OsError)
  deriving Repr

/-- The report of a filter that cannot be built. -/
def FilterError.message : FilterError → String
  | .invalid e => e.message
  | .undecodable e => e.message
  | .inaccessible e => e.message

/-- A line of a filter as a pattern library reads it: whether it excludes what it matches or
re-includes it, and the relative path texts it matches. -/
structure Pattern where
  excludes : Bool
  matchesPath : List Char → Bool

/-- A library of ignore patterns: it reads each line on its own, as an invalid line, as a line that
holds no pattern (a blank line or a comment), or as a pattern. -/
structure PatternLib where
  compile : String → Except InvalidRule (Option Pattern)

/-- Gitignore's patterns, as `Rule` reads them. -/
def gitwildmatch : PatternLib := ⟨fun line => (Rule.compile line).map (Option.map fun r => ⟨r.excludes, r.matches⟩)⟩

/-- A scan root with its ignore patterns. -/
structure Exclusions where
  root : Pathname
  /-- The lines the patterns come from, in order. -/
  lines : List String
  rules : List Pattern

/-- Compiles lines into patterns, stopping at the first invalid one. -/
def compileLines (lib : PatternLib) : List String → Except InvalidRule (List Pattern)
  | [] => .ok []
  | l :: ls => do
    let r ← lib.compile l
    let rs ← compileLines lib ls
    return r.toList ++ rs

/-- The lines of the `.gitignore` file at `root`: none when there is no such file. -/
def gitignoreLines (v : Volume) (root : Pathname) : Except FilterError (List String) := do
  let path := (root.child ".gitignore").toString
  if ← (v.fileTest path).mapError .inaccessible then
    match v.read path with
    | .ok bytes => ((decode bytes).map fun cs => (lines (normalizeNewlines cs)).map String.ofList).mapError .undecodable
    | .error _ => .ok []
  else .ok []

/-- Builds the filter of `root` with the patterns of `lib` from `patterns` (the default lines when
none are given) and, when `useGitignore`, the lines of the root's `.gitignore`. -/
def Exclusions.buildWith (lib : PatternLib) (v : Volume) (root : Pathname) (patterns : Option (List String))
    (useGitignore : Bool) : Except FilterError Exclusions := do
  let given := patterns.getD defaultLines
  let extra ← if useGitignore then gitignoreLines v root else pure []
  let ls := given ++ extra
  let rules ← (compileLines lib ls).mapError .invalid
  return ⟨root, ls, rules⟩

/-- Builds the filter of `root` with gitignore's patterns. -/
def Exclusions.build (v : Volume) (root : Pathname) (patterns : Option (List String)) (useGitignore : Bool) :
    Except FilterError Exclusions :=
  Exclusions.buildWith gitwildmatch v root patterns useGitignore

/-- A path text with a leading `/` or `./` removed. -/
def stripLead : List Char → List Char
  | '/' :: r => r
  | '.' :: '/' :: r => r
  | r => r

/-- Whether the patterns leave out a relative path text: the last pattern that matches decides. -/
def verdict (rules : List Pattern) (path : List Char) : Bool :=
  rules.foldl (fun acc r => if r.matchesPath path then r.excludes else acc) false

/-- Whether the filter leaves a path out. -/
def Exclusions.ignores (f : Exclusions) (p : Pathname) : Bool :=
  if p.absolute then
    match p.relativeTo? f.root with
    | some r => verdict f.rules (stripLead r.toString.toList)
    | none => false
  else verdict f.rules (stripLead p.toString.toList)

/-- The paths the filter keeps, in order. -/
def Exclusions.keep (f : Exclusions) (ps : List Pathname) : List Pathname := ps.filter fun p => !f.ignores p

/-- The lines of the filter that are neither blank nor comments. -/
def Exclusions.patterns (f : Exclusions) : List String :=
  f.lines.filter fun l => !(trim l.toList).isEmpty && (trimLeft l.toList).head? != some '#'

end EnvAudit.Ignore
