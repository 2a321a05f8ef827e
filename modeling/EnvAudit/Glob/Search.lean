import EnvAudit.Fs.Volume
import EnvAudit.Glob.Wildcard
/-!
# Searching a volume with a glob pattern

A glob pattern is a path whose names may hold wildcards (`*`, `?`, `[...]`); a name that is
exactly `**` stands for any number of directories, none included. Relative patterns are read
from a base directory, absolute ones from the root. The search goes from the last name back:

* a pattern without wildcards matches itself when it names an entry (a directory when it ends
  with `/`);
* otherwise the directories that the pattern's head matches are searched for the last name: a
  name with wildcards matches the entries it fits, a name without wildcards matches the entry
  of that name, and `**` matches the empty name, whatever the head names, and everything below
  it when it is a directory.

Entries whose names start with `.` are hidden: a wildcard name matches them only when it starts
with `.` itself, and `**` never goes through them. A search that meets something that is no
directory finds nothing there, and one that has to list a directory whose path holds a NUL
character fails.
-/

namespace EnvAudit.Glob

open EnvAudit.Fs

/-- Splits a path text at its last slash: the head, with the slashes that end it removed unless it
is all slashes, and the last name. -/
def splitHead (p : List Char) : List Char × List Char :=
  let head := (p.reverse.dropWhile (· ≠ '/')).reverse
  let tail := (p.reverse.takeWhile (· ≠ '/')).reverse
  (if head.all (· = '/') then head else (head.reverse.dropWhile (· = '/')).reverse, tail)

/-- `b` read from the directory text `a`: `b` itself when it is absolute. -/
def joinText (a b : List Char) : List Char :=
  match b with
  | '/' :: _ => b
  | _ => if a.isEmpty || a.getLast? == some '/' then a ++ b else a ++ '/' :: b

/-- `joinText`, where an empty side leaves the other as it is. -/
def joinNonEmpty (a b : List Char) : List Char :=
  if a.isEmpty then b else if b.isEmpty then a else joinText a b

/-- Whether a text holds a wildcard. -/
def hasWildcard (s : List Char) : Bool := s.any fun c => c == '*' || c == '?' || c == '['

/-- Whether a name is hidden. -/
def isHidden (name : String) : Bool := name.toList.head? == some '.'

/-- The text of a directory as the volume reads it: the working directory when empty. -/
def dirText (dir : List Char) : String := if dir.isEmpty then "." else String.ofList dir

/-- The entries of `dir` that the wildcard name `pattern` matches. Listing a directory whose path
holds a NUL character fails. -/
def matchEntries (v : Volume) (dir pattern : List Char) (dirsOnly : Bool) :
    Except SystemError (List (List Char)) :=
  if !passable (dirText dir) then .error .unpassable
  else
    match v.list? (dirText dir) with
    | none => .ok []
    | some entries =>
      let showHidden := pattern.head? == some '.'
      .ok <| entries.filterMap fun e =>
        if (!dirsOnly || e.2) && (showHidden || !isHidden e.1) &&
            Wild.matches (Wild.parse pattern) e.1.toList then some e.1.toList
        else none

/-- The empty text, standing for `dir` itself whatever it is, and every entry below `dir`
reached through names that are not hidden; only directories when `dirsOnly`. Listing a
directory whose path holds a NUL character fails. -/
def entriesBelow (v : Volume) (dir : List Char) (dirsOnly : Bool) : Except SystemError (List (List Char)) :=
  if !passable (dirText dir) then .error .unpassable
  else
    .ok <| [] :: match v.resolve (dirText dir) with
      | .ok parts =>
        if v.node? parts == some .dir then
          (v.descendants parts (fun n => !isHidden n)).filterMap fun e =>
            if dirsOnly && e.2 != .dir then none else some ("/".intercalate e.1).toList
        else []
      | .error _ => []

/-- The entry of `dir` named `name`, or `dir` itself for the empty name when it is a
directory. -/
def exactEntry (v : Volume) (dir name : List Char) : List (List Char) :=
  if name.isEmpty then (if v.isDir (dirText dir) then [[]] else [])
  else if v.present (String.ofList (joinNonEmpty dir name)) then [name] else []

/-- The entries of `dir` that the last name `name` of a pattern matches. -/
def matchName (v : Volume) (dir name : List Char) (dirsOnly : Bool) : Except SystemError (List (List Char)) :=
  if hasWildcard name then
    if name == "**".toList then entriesBelow v dir dirsOnly else matchEntries v dir name dirsOnly
  else .ok (exactEntry v dir name)

/-- The texts that the pattern `pattern` matches from the base directory `base`; only
directories when `dirsOnly`. -/
def search (v : Volume) (base : List Char) (dirsOnly : Bool) (pattern : List Char) :
    Except SystemError (List (List Char)) := do
  let (head, name) := splitHead pattern
  if !hasWildcard pattern then
    if !name.isEmpty then
      return (if v.present (String.ofList (joinNonEmpty base pattern)) then [pattern] else [])
    else return (if v.isDir (dirText (joinNonEmpty base head)) then [pattern] else [])
  else if head.isEmpty then matchName v base name dirsOnly
  else
    let dirs ← if head.length < pattern.length ∧ hasWildcard head then search v base true head
      else pure [head]
    let found ← dirs.mapM fun d => (matchName v (joinNonEmpty base d) name dirsOnly).map (·.map (joinText d))
    return found.flatten
termination_by pattern.length
decreasing_by exact (by assumption : _ ∧ _).1

/-- The texts that a glob pattern matches from the directory `base`. -/
def glob (v : Volume) (base pattern : String) : Except SystemError (List String) :=
  (search v base.toList false pattern.toList).map (·.map String.ofList)

end EnvAudit.Glob
