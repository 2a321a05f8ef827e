/-!
# Paths

A path is read from text as a sequence of names separated by `/`. A leading `/` makes it
absolute; a path text that starts with exactly two slashes keeps them, as a root of its own that
names the same directory but is told apart from `/` when paths are compared, while three or more
count as one. Empty names and `.` are dropped, and `..` is kept as a name. Joining a path to an
absolute one gives the absolute one. A path lies under a base when both start alike and the
base's names start its own; the rest is then its relative form.

`normalize` also removes each `..` with the name before it, as far as there is one; above the
root of an absolute path a `..` disappears.
-/

namespace EnvAudit.Fs

/-- Where a path starts. -/
inductive Anchor where
  /-- At the working directory: the path is relative. -/
  | here
  /-- At the root, written `/`. -/
  | root
  /-- At the root, written `//`. -/
  | doubleRoot
  deriving DecidableEq, Repr

/-- A path as a sequence of names from where it starts. -/
structure Pathname where
  anchor : Anchor
  parts : List String
  deriving DecidableEq, Repr

/-- Whether a path starts at the root. -/
def Pathname.absolute (p : Pathname) : Bool := p.anchor != .here

/-- Where a path text starts. -/
def anchorOf : List Char → Anchor
  | '/' :: '/' :: '/' :: _ => .root
  | '/' :: '/' :: _ => .doubleRoot
  | '/' :: _ => .root
  | _ => .here

/-- The pieces of a text between its slashes. -/
def splitSlash : List Char → List (List Char)
  | [] => [[]]
  | c :: rest =>
    match splitSlash rest with
    | [] => [[c]]
    | p :: ps => if c = '/' then [] :: p :: ps else (c :: p) :: ps

/-- Reads a path from text. -/
def Pathname.ofString (s : String) : Pathname :=
  ⟨anchorOf s.toList,
    ((splitSlash s.toList).filter fun p => p ≠ [] ∧ p ≠ ['.']).map String.ofList⟩

/-- The text of a path, with `/` between names; `.` for the empty relative path. -/
def Pathname.toString (p : Pathname) : String :=
  match p.anchor with
  | .root => "/" ++ "/".intercalate p.parts
  | .doubleRoot => "//" ++ "/".intercalate p.parts
  | .here => if p.parts.isEmpty then "." else "/".intercalate p.parts

/-- `q` read from `p`: `q` itself when it is absolute. -/
def Pathname.join (p q : Pathname) : Pathname :=
  if q.absolute then q else ⟨p.anchor, p.parts ++ q.parts⟩

/-- Appends one name. -/
def Pathname.child (p : Pathname) (name : String) : Pathname := p.join (Pathname.ofString name)

/-- The relative form of `p` under `base`, when it lies under it. -/
def Pathname.relativeTo? (p base : Pathname) : Option Pathname :=
  if p.anchor = base.anchor ∧ base.parts.isPrefixOf p.parts then
    some ⟨.here, p.parts.drop base.parts.length⟩
  else none

/-- The last name of a path, or the empty text when it has none. -/
def Pathname.name (p : Pathname) : String := p.parts.getLast?.getD ""

/-- Removes each `..` with the name before it. -/
def normalizeParts (absolute : Bool) : List String → List String → List String
  | acc, [] => acc.reverse
  | acc, n :: ns =>
    if n = ".." then
      match acc with
      | a :: as => if a = ".." then normalizeParts absolute (n :: acc) ns else normalizeParts absolute as ns
      | [] => if absolute then normalizeParts absolute [] ns else normalizeParts absolute [n] ns
    else normalizeParts absolute (n :: acc) ns

/-- The path with each `..` resolved against the name before it. -/
def Pathname.normalize (p : Pathname) : Pathname := ⟨p.anchor, normalizeParts p.absolute [] p.parts⟩

/-- The path as the system resolves it: normalized, with its root written `/`. -/
def Pathname.resolve (p : Pathname) : Pathname :=
  let q := p.normalize
  if q.absolute then ⟨.root, q.parts⟩ else q

/-- The text of `p` relative to `base` when it lies under it, and its own text otherwise. -/
def Pathname.display (p base : Pathname) : String :=
  match p.relativeTo? base with
  | some r => r.toString
  | none => p.toString

example : (Pathname.ofString "./src//a.js/").toString = "src/a.js" := by decide +kernel
example : (Pathname.ofString "").toString = "." := by decide +kernel
example : (Pathname.ofString "/a/b/../../../c").normalize.toString = "/c" := by decide +kernel
example : (Pathname.ofString "a/../../b").normalize.toString = "../b" := by decide +kernel
example : (Pathname.ofString "//a/./b").toString = "//a/b" := by decide +kernel
example : (Pathname.ofString "///a").toString = "/a" := by decide +kernel

end EnvAudit.Fs
