import EnvAudit.Glob.Braces
import EnvAudit.Glob.Search
import EnvAudit.Ignore.Filter
import EnvAudit.Log
/-!
# Discovering source files

The files to scan are found from glob patterns read from a scan root. Each pattern is
brace-expanded, each expansion searched, and each match read from the root and normalised; the
matches that are files are kept once each. A search that lists a directory whose path holds a
NUL character, or a file test on a name that is too long, stops discovery with that error. A file is known by its key: its path relative to the
root when it lies under it, and its full path otherwise. The files come in increasing order of
their keys, and a filter may then leave some out.
-/

namespace EnvAudit.Scan

open EnvAudit.Fs
open EnvAudit.Glob
open EnvAudit.Ignore

/-- The patterns searched when none are given: source files below `src`, `pages`, `components`
and `app`, and at the root. -/
def defaultPatterns : List String :=
  ["src/**/*.{js,ts,jsx,tsx}", "pages/**/*.{js,ts,jsx,tsx}", "components/**/*.{js,ts,jsx,tsx}",
    "app/**/*.{js,ts,jsx,tsx}", "*.{js,ts,jsx,tsx}"]

/-- The key of a file found from `root`. -/
def fileKey (root p : Pathname) : String := p.display root

/-- Inserts a keyed file into a list in strictly increasing key order, unless its key is there. -/
def insertKeyed (x : String × Pathname) : List (String × Pathname) → List (String × Pathname)
  | [] => [x]
  | y :: ys =>
    if x.1 < y.1 then x :: y :: ys else if x.1 = y.1 then y :: ys else y :: insertKeyed x ys

/-- The files that one expanded pattern matches, with their keys. All matches are found before
any is tested for being a file. -/
def matchedFiles (v : Volume) (root : Pathname) (pattern : String) :
    Except SystemError (List (String × Pathname)) := do
  let ms ← glob v root.toString pattern
  let tested ← ms.mapM fun m =>
    let p := (root.join (Pathname.ofString m)).normalize
    (v.fileTest p.toString).mapError .access |>.map fun isFile =>
      if isFile then some (fileKey root p, p) else none
  return tested.filterMap id

/-- The files that a list of patterns matches, once each, in increasing key order. -/
def candidates (v : Volume) (root : Pathname) (patterns : List String) : Except SystemError (List Pathname) := do
  let found ← patterns.flatMapM fun p => (expandBraces p).flatMapM (matchedFiles v root)
  return (found.foldl (fun acc x => insertKeyed x acc) []).map (·.2)

/-- What discovery finds: the candidates, and the files kept by the filter, if any. -/
structure Discovery where
  candidates : List Pathname
  filtered : Option (List Pathname)

/-- The files to scan. -/
def Discovery.files (d : Discovery) : List Pathname := d.filtered.getD d.candidates

/-- Discovers the files under `root` that `patterns` match, left out by `filter` when there is
one. -/
def discover (v : Volume) (root : Pathname) (patterns : List String) (filter : Option Exclusions) :
    Except SystemError Discovery := do
  let c ← candidates v root patterns
  return ⟨c, filter.map fun f => f.keep c⟩

/-- The records discovery logs. -/
def Discovery.log (d : Discovery) : List Log.Entry :=
  (match d.filtered with
    | some kept => [Log.debug ("Excluded " ++ toString (d.candidates.length - kept.length) ++ " files by pattern")]
    | none => []) ++
  [Log.debug ("Discovered " ++ toString d.files.length ++ " candidate files")]

end EnvAudit.Scan
