/-!
# Line breaks

A text is cut into lines at every line break: line feed, carriage return (a carriage return
directly followed by a line feed is one break), line tabulation, form feed, the separators
U+001C–U+001E, next line, and the line and paragraph separators. The breaks themselves belong to
no line, and a break at the very end of the text does not open an empty last line.

Lines are cut by one structural pass that carries the current line, so that statements about
the lines of a text follow the text character by character.
-/

namespace EnvAudit.Text

/-- A character that ends a line. -/
def isLineBreak (c : Char) : Bool :=
  c == '\n' || c == '\r' || c == '\x0b' || c == '\x0c' || c == '\x1c' || c == '\x1d' ||
    c == '\x1e' || c == '\x85' || c == '\u2028' || c == '\u2029'

/-- Cuts a text into lines; `cur` holds the current line, reversed. -/
def linesFrom : List Char → List Char → List (List Char)
  | [], cur => if cur.isEmpty then [] else [cur.reverse]
  | '\r' :: '\n' :: rest, cur => cur.reverse :: linesFrom rest []
  | c :: rest, cur => if isLineBreak c then cur.reverse :: linesFrom rest [] else linesFrom rest (c :: cur)

/-- The lines of a text, without their breaks. -/
def lines (s : List Char) : List (List Char) := linesFrom s []

example : lines "a\r\nb\rc\n\nd\n".toList = ["a", "b", "c", "", "d"].map String.toList := by decide

example : lines [] = [] ∧ lines ['\n'] = [[]] := by decide

end EnvAudit.Text
