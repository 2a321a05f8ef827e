import EnvAudit.Text.CellWidth
/-!
# Console markup

Lines written to the console are markup: a tag such as `[red]` or `[/dim]` (an opening bracket,
a lower-case letter, `#`, `/` or `@`, then text without brackets up to a closing bracket) sets a
style and shows nothing. Before a tag, an even run of backslashes shows half as many; an odd run
also makes the tag show as text. Elsewhere backslash-bracket shows as a bracket. A line without
any opening bracket is shown as it is.

`escape` turns text into markup that shows that text: it puts a backslash before each tag (and
doubles the backslashes before it), and a backslash at the end of the text is doubled so that a
tag written after it stays a tag.

The console drops bell, backspace, line tabulation, form feed and carriage return, and expands
each tab to the next multiple of eight cells of its line, measuring the text since the previous
tab as a whole.

A log record is written as a row of a table as wide as the console: the level name in a column
of eight cells, then the message, one row per line of it.

A report is written for any `Console`, a way to escape text and to show a line of markup; `rich`
is the console above. It leaves out the console's emoji codes: a name between two colons, such
as `:smile:`, shows as its emoji on the console, and here as it is written.
-/

namespace EnvAudit.Report

open EnvAudit.Text

/-- A character that may open the text of a tag. -/
def isTagStart (c : Char) : Bool := ('a' ≤ c && c ≤ 'z') || c == '#' || c == '/' || c == '@'

/-- Splits the text after the first character of a tag at its closing bracket: the rest of the
tag's text and what follows; none when an opening bracket or the end comes first. -/
def closeTag : List Char → Option (List Char × List Char)
  | [] => none
  | c :: rest =>
    if c = ']' then some ([], rest)
    else if c = '[' then none
    else (closeTag rest).map fun p => (c :: p.1, p.2)

/-- A tag at the head of a text, after a run of backslashes: the number of backslashes, the text
of the tag, and what follows it. -/
def tagAt? : List Char → Option (Nat × List Char × List Char)
  | [] => none
  | c :: rest =>
    if c = '\\' then (tagAt? rest).map fun p => (p.1 + 1, p.2)
    else if c = '[' then
      match rest with
      | d :: more => if isTagStart d then (closeTag more).map fun p => (0, d :: p.1, p.2) else none
      | [] => none
    else none

theorem closeTag_length {s body after : List Char} (h : closeTag s = some (body, after)) :
    after.length < s.length := by
  induction s generalizing body after with
  | nil => simp [closeTag] at h
  | cons c s ih =>
    simp only [closeTag] at h
    split at h
    · cases h; simp
    · split at h
      · simp at h
      · obtain ⟨p, hp, hpe⟩ := Option.map_eq_some_iff.1 h
        cases hpe
        have := ih hp
        simp only [List.length_cons]
        omega

theorem tagAt?_length {s : List Char} {k : Nat} {body after : List Char}
    (h : tagAt? s = some (k, body, after)) : after.length < s.length := by
  induction s generalizing k body after with
  | nil => simp [tagAt?] at h
  | cons c s ih =>
    simp only [tagAt?] at h
    split at h
    · obtain ⟨⟨k', body', after'⟩, hp, hpe⟩ := Option.map_eq_some_iff.1 h
      cases hpe
      have := ih hp
      simp only [List.length_cons]
      omega
    · split at h
      · split at h
        · split at h
          · obtain ⟨p, hp, hpe⟩ := Option.map_eq_some_iff.1 h
            cases hpe
            have := closeTag_length hp
            simp only [List.length_cons]
            omega
          · simp at h
        · simp at h
      · simp at h

/-- Replaces each backslash-bracket by a bracket. -/
def unescapeBrackets : List Char → List Char
  | '\\' :: '[' :: rest => '[' :: unescapeBrackets rest
  | c :: rest => c :: unescapeBrackets rest
  | [] => []

/-- The text that markup shows, where `plain` is the text read since the last tag, reversed. -/
def showFrom (plain : List Char) : List Char → List Char
  | [] => unescapeBrackets plain.reverse
  | c :: rest =>
    match h : tagAt? (c :: rest) with
    | some (k, body, after) =>
      have : after.length < (c :: rest).length := tagAt?_length h
      let shown := unescapeBrackets plain.reverse ++ List.replicate (k / 2) '\\' ++
        (if k % 2 = 1 then unescapeBrackets ('[' :: body ++ [']']) else [])
      shown ++ showFrom [] after
    | none => showFrom (c :: plain) rest
termination_by s => s.length
decreasing_by all_goals (simp only [List.length_cons] at *; omega)

/-- The characters the console drops. -/
def isDropped (c : Char) : Bool :=
  c == '\x07' || c == '\x08' || c == '\x0b' || c == '\x0c' || c == '\r'

/-- The text that markup shows, before the console drops and expands characters. -/
def markupText (m : String) : List Char :=
  if m.toList.contains '[' then showFrom [] m.toList else m.toList

/-- Expands the tabs of a line split at its tabs, `col` being the cell where the first piece
starts: the tab after a piece becomes a space, and the piece with that space, measured as a whole,
is padded with spaces up to the next multiple of eight cells. -/
def expandPieces (col : Nat) : List (List Char) → List Char
  | [] => []
  | [last] => last
  | p :: ps =>
    let q := p ++ [' ']
    let next := col + cellLen q
    let pad := (8 - next % 8) % 8
    q ++ List.replicate pad ' ' ++ expandPieces (next + pad) ps

/-- Expands the tabs of a text, line by line. -/
def expandTabs (s : List Char) : List Char :=
  ['\n'].intercalate ((s.splitOn '\n').map fun line => expandPieces 0 (line.splitOn '\t'))

/-- What the console shows for one printed line of markup, its line feed included. -/
def showLine (m : String) : String :=
  String.ofList (expandTabs ((markupText m).filter fun c => !isDropped c) ++ ['\n'])

/-- The width of the error console, in cells. -/
def consoleWidth : Nat := 1000

/-- Pads a line with spaces to `width` cells; a longer line is left as it is. -/
def padTo (width : Nat) (line : List Char) : List Char :=
  line ++ List.replicate (width - cellLen line) ' '

/-- One row of a log record: its first column and a line of the message, padded to the console
width, with its line feed. -/
def recordRow (head line : List Char) : List Char := padTo consoleWidth (head ++ line) ++ ['\n']

/-- What a log handler writes for a record of the level named `level`. The message loses the
characters the console drops and is split into its lines, each with its tabs expanded; the first
line follows the level name, padded to eight cells, and a space, and the others stand under it. -/
def recordText (level message : String) : String :=
  let lines := ((message.toList.filter fun c => !isDropped c).splitOn '\n').map fun l =>
    expandPieces 0 (l.splitOn '\t')
  let head := level.toList ++ List.replicate (9 - level.length) ' '
  match lines with
  | [] => ""
  | first :: rest =>
    String.ofList (recordRow head first ++ rest.flatMap (recordRow (List.replicate 9 ' ')))

/-- Puts a backslash before each tag of `s`, doubling the backslashes before it. -/
def escapeTags : List Char → List Char
  | [] => []
  | c :: rest =>
    match h : tagAt? (c :: rest) with
    | some (k, body, after) =>
      have : after.length < (c :: rest).length := tagAt?_length h
      List.replicate (2 * k) '\\' ++ '\\' :: '[' :: body ++ ']' :: escapeTags after
    | none => c :: escapeTags rest
termination_by s => s.length
decreasing_by all_goals (simp only [List.length_cons] at *; omega)

/-- Markup that shows the text `s`. -/
def escape (s : String) : String :=
  let e := escapeTags s.toList
  let r := e.reverse
  String.ofList (if r.head? == some '\\' && r.tail.head? != some '\\' then e ++ ['\\'] else e)

/-- A console that prints lines of markup: the markup that shows a text, and what the console shows
for one printed line of markup, its line feed included. -/
structure Console where
  escape : String → String
  showLine : String → String

/-- The console the program prints to. -/
def rich : Console := ⟨escape, showLine⟩

end EnvAudit.Report
