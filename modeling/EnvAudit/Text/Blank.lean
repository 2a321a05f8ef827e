/-!
# Blank characters

A character is *blank* when it is one of 29 code points: the Unicode `White_Space` characters
together with the four information separators U+001C–U+001F. Blank characters separate words in
the texts this library reads, and trimming a text removes them from both of its ends.

Beside the definitions stand the small lemmas that say what trimming does at the start of a text.
-/

namespace EnvAudit.Text

/-- A blank character: tab to carriage return, the information separators U+001C–U+001F, the
space, next line, no-break space, Ogham space, the spaces U+2000–U+200A, the line and paragraph
separators, the narrow no-break space, the medium mathematical space and the ideographic space. -/
def isBlank (c : Char) : Bool :=
  let n := c.toNat
  (9 ≤ n && n ≤ 13) || (28 ≤ n && n ≤ 32) || n == 0x85 || n == 0xA0 || n == 0x1680 ||
    (0x2000 ≤ n && n ≤ 0x200A) || n == 0x2028 || n == 0x2029 || n == 0x202F ||
    n == 0x205F || n == 0x3000

/-- Removes the blank characters at the start of a text. -/
def trimLeft (s : List Char) : List Char := s.dropWhile isBlank

/-- Removes the blank characters at the end of a text. -/
def trimRight (s : List Char) : List Char := (s.reverse.dropWhile isBlank).reverse

/-- Removes the blank characters at both ends of a text. -/
def trim (s : List Char) : List Char := trimRight (trimLeft s)

/-- `trim` on strings. -/
def trimString (s : String) : String := String.ofList (trim s.toList)

/-- Every character of a text is blank. -/
def allBlank (s : List Char) : Bool := s.all isBlank

example : isBlank ' ' ∧ isBlank '\x1c' ∧ isBlank '\u3000' ∧ ¬ isBlank '\u200b' ∧ ¬ isBlank 'a' := by
  decide

example : trim "  a b \t".toList = "a b".toList := by decide

theorem trimLeft_nil : trimLeft [] = [] := rfl

theorem trimLeft_cons_blank {c : Char} {s : List Char} (h : isBlank c = true) :
    trimLeft (c :: s) = trimLeft s := by
  simp [trimLeft, h]

theorem trimLeft_cons_of_not_blank {c : Char} {s : List Char} (h : isBlank c = false) :
    trimLeft (c :: s) = c :: s := by
  simp [trimLeft, h]

theorem trim_nil : trim [] = [] := rfl

end EnvAudit.Text
