import EnvAudit.Text.WordChar
import EnvAudit.Text.Blank
import EnvAudit.NameSet
import EnvAudit.Source.Binding
/-!
# References to environment variables in code

Code reads an environment variable through one of two namespaces, `process.env` and
`import.meta.env`, in three forms:

* member access: the namespace, `.`, and a name, the longest run of upper-case ASCII letters,
  digits and low lines that follows;
* index access: the namespace, `[`, a quote (`'` or `"`), such a name, a quote and `]`;
* destructuring: at the start of a word, `const`, `let` or `var`, optional blanks, `{`, a
  non-empty binding list without braces, `}`, optional blanks, `=`, optional blanks and the
  namespace. Each name the binding list binds is read.

Each form, for each namespace, is a pattern of its own (a `Matcher`), and a text is searched for
it the way a regular-expression engine enumerates matches (`findAll`): from the left, a match is
taken where one starts and the search resumes where it ends, so matches never overlap. The group
that a destructuring match captures is its binding list trimmed of blanks (`lazyGroup`). The
names a source text reads are `usedNames`: each once, in increasing order.
-/

namespace EnvAudit.Source

open EnvAudit.Text

/-- The namespaces through which code reads the environment. -/
def namespaces : List (List Char) := ["process.env".toList, "import.meta.env".toList]

/-- The keywords that open a destructuring declaration. -/
def keywords : List (List Char) := ["const".toList, "let".toList, "var".toList]

/-- A character of a variable name read by access. -/
def isEnvNameChar (c : Char) : Bool := ('A' ≤ c && c ≤ 'Z') || ('0' ≤ c && c ≤ '9') || c == '_'

/-- A quote around an indexed name. -/
def isIndexQuote (c : Char) : Bool := c == '\'' || c == '"'

/-- A character that may stand inside a binding list. -/
def isBodyChar (c : Char) : Bool := c ≠ '{' && c ≠ '}'

/-- Whether a word may start after `prev`, the character before the position (none at the start
of the text). -/
def wordStartsAfter (prev : Option Char) : Bool :=
  match prev with
  | none => true
  | some c => !isWordChar c

/-! ## Matches and the search for them -/

/-- A match at the head of a text: how many characters it spans, and the text its group
captures. -/
structure Hit where
  length : Nat
  group : List Char
  deriving DecidableEq, Repr

/-- A pattern, given by its match at the head of a text, if it has one; the first argument is the
character before the text (none at its start). -/
abbrev Matcher := Option Char → List Char → Option Hit

/-- The groups of the matches of `m` in a text, from the left and without overlap: where a match
starts it is taken, and the search resumes where it ends. `skip` counts the characters of the last
match still to pass over, and `prev` is the character before the text. -/
def findFrom (m : Matcher) : Nat → Option Char → List Char → List (List Char)
  | _, _, [] => []
  | skip + 1, _, c :: rest => findFrom m skip (some c) rest
  | 0, prev, c :: rest =>
    match m prev (c :: rest) with
    | some h => h.group :: findFrom m (h.length - 1) (some c) rest
    | none => findFrom m 0 (some c) rest

/-- The groups of the matches of `m` in a text, in order. -/
def findAll (m : Matcher) (s : List Char) : List (List Char) := findFrom m 0 none s

/-! ## The patterns -/

/-- The name of a member access, read after the namespace. -/
def memberName? : List Char → Option (List Char)
  | '.' :: rest =>
    let name := rest.takeWhile isEnvNameChar
    if name.isEmpty then none else some name
  | _ => none

/-- The name of an index access, read after the namespace. -/
def indexName? : List Char → Option (List Char)
  | '[' :: q :: rest =>
    let name := rest.takeWhile isEnvNameChar
    match rest.dropWhile isEnvNameChar with
    | q' :: ']' :: _ => if isIndexQuote q && !name.isEmpty && isIndexQuote q' then some name else none
    | _ => none
  | _ => none

/-- A member access through the namespace `ns`; its group is the name. -/
def memberAt (ns : List Char) : Matcher := fun _ s =>
  if ns.isPrefixOf s then
    (memberName? (s.drop ns.length)).map fun name => ⟨ns.length + 1 + name.length, name⟩
  else none

/-- An index access through the namespace `ns`; its group is the name. -/
def indexAt (ns : List Char) : Matcher := fun _ s =>
  if ns.isPrefixOf s then
    (indexName? (s.drop ns.length)).map fun name => ⟨ns.length + 4 + name.length, name⟩
  else none

/-- The group that `\s*([^{}]+?)\s*` captures from the whole text between two braces: the
smallest group that leaves only blanks after it, once the blanks before it are taken. That is
the text trimmed, or its last character when it is all blank. -/
def lazyGroup (body : List Char) : List Char :=
  if (trim body).isEmpty then body.getLast?.toList else trim body

/-- The rest of a destructuring declaration after its keyword: blanks, `{`, a non-empty binding
list, `}`, blanks, `=`, blanks and a namespace. Its group is the binding list's `lazyGroup`. -/
def bindingAt (s : List Char) : Option Hit :=
  let ws₁ := s.takeWhile isBlank
  match s.dropWhile isBlank with
  | '{' :: r =>
    let body := r.takeWhile isBodyChar
    match r.dropWhile isBodyChar with
    | '}' :: a =>
      let ws₂ := a.takeWhile isBlank
      match a.dropWhile isBlank with
      | '=' :: b =>
        let ws₃ := b.takeWhile isBlank
        match namespaces.find? (·.isPrefixOf (b.dropWhile isBlank)) with
        | some ns =>
          if body.isEmpty then none
          else some ⟨ws₁.length + body.length + ws₂.length + ws₃.length + ns.length + 3, lazyGroup body⟩
        | none => none
      | _ => none
    | _ => none
  | _ => none

/-- A destructuring declaration, which starts at a word. -/
def declarationAt : Matcher := fun prev s =>
  if wordStartsAfter prev then
    keywords.findSome? fun kw =>
      if kw.isPrefixOf s then
        (bindingAt (s.drop kw.length)).map fun h => ⟨kw.length + h.length, h.group⟩
      else none
  else none

/-- The access patterns in the order they are searched: for each namespace, member access and then
index access. -/
def accessPatterns : List Matcher := namespaces.flatMap fun ns => [memberAt ns, indexAt ns]

/-- The names a source text reads, pattern by pattern and in order of position, repeats kept. -/
def references (s : List Char) : List (List Char) :=
  accessPatterns.flatMap (findAll · s) ++ (findAll declarationAt s).flatMap boundNames

/-- The names that a source text reads: each once, in increasing order. -/
def usedNames (content : String) : List String :=
  sortNames ((references content.toList).map String.ofList)

example : usedNames "const url = process.env.API_URL;\nfetch(process.env.BAZ)" = ["API_URL", "BAZ"] := by
  decide +kernel

example : usedNames "let { A, b: c } = import.meta.env; x$var{D}=process.env" = ["A", "D", "b"] := by
  decide +kernel

end EnvAudit.Source
