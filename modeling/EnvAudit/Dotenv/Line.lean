import EnvAudit.Text.Blank
import EnvAudit.Text.WordChar
/-!
# Lines of a dotenv file

A trimmed line of a dotenv file is blank, a comment (it starts with `#`), an assignment, or
something else, which is ignored. An assignment is

* an optional `export` keyword followed by blank characters,
* a name: a maximal run of word characters, dots and hyphens,
* a separator: `=` after optional blanks, or `:` followed by a blank or the end of the line,
* and the value text: the rest of the line after the blanks that follow the separator.

When the line starts with `export` and blanks but what follows is no assignment, the word
`export` itself is tried as the name.
-/

namespace EnvAudit.Dotenv

open EnvAudit.Text

/-- A character that may appear in a variable name. -/
def isNameChar (c : Char) : Bool := isWordChar c || c == '.' || c == '-'

/-- The text after a separator that ends a name, or none when no separator follows. -/
def afterSeparator? : List Char → Option (List Char)
  | ':' :: [] => some []
  | ':' :: c :: r => if isBlank c then some (c :: r) else none
  | s =>
    match trimLeft s with
    | '=' :: r => some r
    | _ => none

/-- A name at the start of `s` followed by a separator: the name and the value text. -/
def nameAndValue? (s : List Char) : Option (List Char × List Char) :=
  let name := s.takeWhile isNameChar
  if name.isEmpty then none
  else (afterSeparator? (s.dropWhile isNameChar)).map fun r => (name, trimLeft r)

/-- The name and value text of an assignment line, or none for any other line. -/
def assignment? (line : List Char) : Option (List Char × List Char) :=
  match line with
  | 'e' :: 'x' :: 'p' :: 'o' :: 'r' :: 't' :: c :: r =>
    if isBlank c then
      match nameAndValue? (trimLeft r) with
      | some a => some a
      | none => nameAndValue? line
    else nameAndValue? line
  | _ => nameAndValue? line

example : assignment? "export A=1".toList = some ("A".toList, "1".toList) := by decide
example : assignment? "export = 1".toList = some ("export".toList, "1".toList) := by decide
example : assignment? "A: b".toList = some ("A".toList, "b".toList) := by decide
example : assignment? "A :b".toList = none := by decide
example : assignment? "a.b-c =  x y".toList = some ("a.b-c".toList, "x y".toList) := by decide

end EnvAudit.Dotenv
