import EnvAudit.Text.Blank
import EnvAudit.Text.Literal
import EnvAudit.Fs.Path
import EnvAudit.Glob.Bracket
/-!
# Ignore rules

An ignore rule is one line of a gitignore-style file. Trailing blanks are dropped unless the line
ends with a backslash and a space; leading blanks stay part of the rule. An empty line, a line
whose first character is `#` and the line `/` are no rules. A leading `!` makes the rule
re-include what it matches. The rest is split at `/`:

* a trailing `/` limits the rule to directories, so it matches paths below them;
* a leading `/` anchors the rule at the root; a rule of one name (possibly with a trailing `/`)
  matches at any depth; a rule with a `/` inside is anchored;
* `**` stands for any number of directories, `*` for one name, and other names are wildcards in
  which `*` and `?` never match `/`, a bracket expression (negated by `!` or `^`) matches one
  character, and a backslash makes the next character literal;
* a rule that matches a path also matches every path below it.

A rule is compiled into alternatives, each a sequence of `Atom`s that must match the whole path;
the path may also end in one line feed after the part the rule matches. The leading directories
a rule skips and the parts `**` stands for in the middle hold no line feed; what lies below a
matched path may hold anything. A rule that matches every path (`**`, or `**/*`, which means the
same) matches one only when it holds a character other than a line feed.

A rule is also written out as a regular expression, and its bracket expressions are read as the
character classes of that expression: a range whose end comes before its start makes the rule
invalid, reported at its place in the expression. A bracket that no `]` closes makes the rule
match nothing. A rule with nothing left to match, or with a lone backslash at the end of a name
(and no unclosed bracket before it), is invalid.
-/

namespace EnvAudit.Ignore

open EnvAudit.Text
open EnvAudit.Glob

/-- One step of a compiled rule. -/
inductive Atom where
  /-- This character. -/
  | lit (c : Char)
  /-- A character of the set. -/
  | set (b : CharSet)
  /-- Any character but a line feed. -/
  | dot
  /-- Any character but `/`. -/
  | notSlash
  /-- Any run of line feeds. -/
  | lineFeeds
  /-- Any text without line feeds. -/
  | dotStar
  /-- Any text without `/`. -/
  | notSlashStar
  /-- Whatever text is left. -/
  | rest
  deriving DecidableEq, Repr

/-- Whether some split of `s` into a first part whose characters satisfy `p` and a rest makes
`k` hold of the rest. -/
def spanAny (p : Char → Bool) (k : List Char → Bool) : List Char → Bool
  | [] => k []
  | c :: s => k (c :: s) || (p c && spanAny p k s)

/-- Whether a sequence of atoms matches the whole of a path, which may end in one more line
feed. -/
def Atom.matches : List Atom → List Char → Bool
  | [], s => s.isEmpty || s == ['\n']
  | .rest :: _, _ => true
  | .dotStar :: as, s => spanAny (· != '\n') (fun t => Atom.matches as t) s
  | .notSlashStar :: as, s => spanAny (· != '/') (fun t => Atom.matches as t) s
  | .lineFeeds :: as, s => spanAny (· == '\n') (fun t => Atom.matches as t) s
  | .lit c :: as, d :: s => c == d && Atom.matches as s
  | .set b :: as, d :: s => b.contains d && Atom.matches as s
  | .dot :: as, d :: s => d != '\n' && Atom.matches as s
  | .notSlash :: as, d :: s => d != '/' && Atom.matches as s
  | _ :: _, [] => false

/-- A piece of a compiled rule: a fixed part, or one that may be left out. -/
inductive Chunk where
  | fixed (as : List Atom)
  | optional (as : List Atom)
  deriving DecidableEq, Repr

/-- The sequences of atoms that a list of parts stands for. -/
def Chunk.expand : List Chunk → List (List Atom)
  | [] => [[]]
  | .fixed as :: ps => (Chunk.expand ps).map (as ++ ·)
  | .optional as :: ps => (Chunk.expand ps).map (as ++ ·) ++ Chunk.expand ps

/-- Why the names of a line give no rule that matches something. -/
inductive NameFault where
  /-- A bracket is never closed: the rule matches nothing. -/
  | unclosed
  /-- A name ends in a lone backslash: the line is invalid. -/
  | dangling
  deriving DecidableEq, Repr

/-- The characters a regular expression writes with a backslash before them. -/
def regexSpecials : List Char := "()[]\x7b\x7d?*+-|^$\\.&~# \t\n\r\x0b\x0c".toList

/-- A character as a regular expression that matches just it. -/
def escapeChar (c : Char) : List Char := if c ∈ regexSpecials then ['\\', c] else [c]

/-- A bracket expression as a character class: its members are kept, with every backslash
doubled so that it stands for itself. -/
def classText (neg : Bool) (body : List Char) : List Char :=
  '[' :: (if neg then ['^'] else []) ++ body.flatMap (fun c => if c = '\\' then ['\\', '\\'] else [c]) ++ [']']

/-- Adds an atom and its text in front of a reading. -/
def prepend (a : Atom) (t : List Char) : Except NameFault (List Atom × List Char) →
    Except NameFault (List Atom × List Char)
  | .ok (as, u) => .ok (a :: as, t ++ u)
  | .error f => .error f

/-- The atoms of one name of a rule and its text as a regular expression. -/
def readName (s : List Char) : Except NameFault (List Atom × List Char) :=
  match s with
  | [] => .ok ([], [])
  | '\\' :: c :: rest => prepend (.lit c) (escapeChar c) (readName rest)
  | ['\\'] => .error .dangling
  | '*' :: rest => prepend .notSlashStar "[^/]*".toList (readName rest)
  | '?' :: rest => prepend .notSlash "[^/]".toList (readName rest)
  | '[' :: rest =>
    match h : splitBracket? ['!', '^'] rest with
    | some (neg, body, after) =>
      have := splitBracket?_length h
      prepend (.set ⟨neg, CharSet.rangesOf body⟩) (classText neg body) (readName after)
    | none => .error .unclosed
  | c :: rest => prepend (.lit c) (escapeChar c) (readName rest)
termination_by s.length
decreasing_by all_goals (simp only [List.length_cons]; omega)

/-- Any text after a `/`, or nothing: what lies below a matched path. -/
def below : Chunk := .optional [.lit '/', .rest]

/-- What a rule that matches every path asks of one: a character other than a line feed. -/
def anyLine : Chunk := .fixed [.lineFeeds, .dot, .rest]

/-- Drops each `**` that follows another. -/
def collapseStars : List String → List String
  | a :: b :: rest =>
    if a = "**" ∧ b = "**" then collapseStars (b :: rest) else a :: collapseStars (b :: rest)
  | l => l

/-- The parts of the names of a rule and their text as a regular expression, `i` being the index
of the first name and `last` that of the last; `slash` tells whether a `/` must come before the
next name. -/
def readNames (last : Nat) (isDir : Bool) :
    Nat → Bool → List String → Except NameFault (List Chunk × List Char)
  | _, _, [] => .ok ([], [])
  | i, slash, n :: ns =>
    let sep := if slash then [Chunk.fixed [.lit '/']] else []
    let sepText := if slash then ['/'] else []
    let next (s : Bool) (cs : List Chunk) (t : List Char) :=
      (readNames last isDir (i + 1) s ns).map fun (cs', t') => (cs ++ cs', t ++ t')
    if n = "**" then
      if i = 0 ∧ i = last then
        if isDir then next true [.fixed [.notSlash, .notSlashStar, .lit '/', .rest]] "[^/]+/.*".toList
        else next true [anyLine] "[^/]+(?:/.*)?".toList
      else if i = 0 then next false [.optional [.dot, .dotStar, .lit '/']] "(?:.+/)?".toList
      else if i = last then next slash [.fixed [.lit '/', .rest]] "/.*".toList
      else next true [.optional [.lit '/', .dot, .dotStar]] "(?:/.+)?".toList
    else if n = "*" then
      next true (sep ++ [.fixed [.notSlash, .notSlashStar]] ++ (if i = last then [below] else []))
        (sepText ++ "[^/]+".toList)
    else
      match readName n.toList with
      | .error f => .error f
      | .ok (as, t) => next true (sep ++ [.fixed as] ++ (if i = last then [below] else [])) (sepText ++ t)

/-- The first range of a character class in a regular expression whose end comes before its
start: its two ends as written and the position of the first. Outside a class a backslash takes
the next character along; inside one, `nonEmpty` tells whether a member has been read, since a
`]` closes the class only then. -/
def reversedRange? : Option Bool → Nat → List Char → Option (List Char × List Char × Nat)
  | none, i, '\\' :: _ :: r => reversedRange? none (i + 2) r
  | none, i, '[' :: '^' :: r => reversedRange? (some false) (i + 2) r
  | none, i, '[' :: r => reversedRange? (some false) (i + 1) r
  | none, i, _ :: r => reversedRange? none (i + 1) r
  | some true, i, ']' :: r => reversedRange? none (i + 1) r
  | some _, i, '\\' :: _ :: '-' :: ']' :: r => reversedRange? none (i + 4) r
  | some _, i, '\\' :: a :: '-' :: '\\' :: b :: r =>
    if b < a then some (['\\', a], ['\\', b], i) else reversedRange? (some true) (i + 5) r
  | some _, i, '\\' :: a :: '-' :: b :: r =>
    if b < a then some (['\\', a], [b], i) else reversedRange? (some true) (i + 4) r
  | some _, i, '\\' :: _ :: r => reversedRange? (some true) (i + 2) r
  | some _, i, _ :: '-' :: ']' :: r => reversedRange? none (i + 3) r
  | some _, i, a :: '-' :: '\\' :: b :: r =>
    if b < a then some ([a], ['\\', b], i) else reversedRange? (some true) (i + 4) r
  | some _, i, a :: '-' :: b :: r =>
    if b < a then some ([a], [b], i) else reversedRange? (some true) (i + 3) r
  | some _, i, _ :: r => reversedRange? (some true) (i + 1) r
  | _, _, [] => none

/-- A compiled rule: whether it excludes (rather than re-includes) what it matches, and the
sequences of atoms that a matched path fits. -/
structure Rule where
  excludes : Bool
  alternatives : List (List Atom)
  deriving Repr

/-- Why a line is no valid rule. -/
inductive InvalidRule where
  /-- The line leaves nothing to match or has a lone backslash at the end of a name. -/
  | pattern (line : String)
  /-- The regular expression of the line has a range from `lo` to an earlier `hi`, at a
  position of the expression, which spans several lines when `lineCol` is given. -/
  | reversedRange (lo hi : String) (position : Nat) (lineCol : Option (Nat × Nat))
  deriving DecidableEq, Repr

/-- The report of an invalid rule. -/
def InvalidRule.message : InvalidRule → String
  | .pattern line => "Invalid git pattern: " ++ literal line
  | .reversedRange lo hi pos lc =>
    let at_ := "bad character range " ++ lo ++ "-" ++ hi ++ " at position " ++ toString pos
    match lc with
    | some (l, c) => at_ ++ " (line " ++ toString l ++ ", column " ++ toString c ++ ")"
    | none => at_

/-- The line and column of a position in a text of several lines. -/
def lineColumn (text : List Char) (pos : Nat) : Option (Nat × Nat) :=
  if '\n' ∈ text then
    let before := text.take pos
    let col := (before.reverse.takeWhile (· != '\n')).length + 1
    some (before.count '\n' + 1, col)
  else none

/-- The text of a rule line after trimming. -/
def trimRule (line : List Char) : List Char :=
  if line.reverse.take 2 = [' ', '\\'] then line else trimRight line

/-- Compiles one line: none for a line that is no rule or matches nothing. -/
def Rule.compile (line : String) : Except InvalidRule (Option Rule) :=
  let t := trimRule line.toList
  match t with
  | [] => .ok none
  | '#' :: _ => .ok none
  | ['/'] => .ok none
  | _ =>
    let (excludes, body) := match t with
      | '!' :: r => (false, r)
      | r => (true, r)
    let names0 := (Fs.splitSlash body).map String.ofList
    let isDir := names0.getLast? == some ""
    let names1 :=
      match collapseStars names0 with
      | "" :: rest => rest
      | [n] => if n = "**" then [n] else ["**", n]
      | [n, ""] => if n = "**" then [n, ""] else ["**", n, ""]
      | ns => ns
    if names1.isEmpty then .error (.pattern line)
    else
      let names :=
        match collapseStars (if names1.getLast? == some "" then names1.dropLast ++ ["**"] else names1) with
        | ["**", "*"] => ["**"]
        | ns => ns
      match readNames (names.length - 1) isDir 0 false names with
      | .error .unclosed => .ok none
      | .error .dangling => .error (.pattern line)
      | .ok (parts, text) =>
        let regex := '^' :: text
        match reversedRange? none 0 regex with
        | some (lo, hi, pos) =>
          .error (.reversedRange (String.ofList lo) (String.ofList hi) pos (lineColumn regex pos))
        | none => .ok (some ⟨excludes, Chunk.expand parts⟩)

/-- Whether a rule matches a path. -/
def Rule.matches (r : Rule) (path : List Char) : Bool := r.alternatives.any fun as => Atom.matches as path

end EnvAudit.Ignore
