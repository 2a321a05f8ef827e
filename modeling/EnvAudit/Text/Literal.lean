import EnvAudit.Text.Printable
import EnvAudit.Text.Hex
/-!
# Quoted text literals

Error messages and log lines show a text as a quoted literal. The literal is enclosed in single
quotes, or in double quotes when the text holds a single quote and no double quote. Inside it

* the backslash and the enclosing quote are preceded by a backslash;
* tab, line feed and carriage return are written `\t`, `\n`, `\r`;
* other characters below U+0020, and U+007F, are written `\xhh`;
* printable characters stand as they are, and any other character is written `\xhh`, `\uhhhh`
  or `\Uhhhhhhhh`, by the size of its code point.
-/

namespace EnvAudit.Text

/-- How one character is written inside a literal enclosed in `quote`. -/
def literalChar (quote c : Char) : List Char :=
  if c = quote ∨ c = '\\' then ['\\', c]
  else if c = '\t' then ['\\', 't']
  else if c = '\n' then ['\\', 'n']
  else if c = '\r' then ['\\', 'r']
  else if c.toNat < 0x20 ∨ c.toNat = 0x7F then '\\' :: 'x' :: hexDigits 2 c.toNat
  else if c.toNat < 0x7F ∨ isPrintable c then [c]
  else if c.toNat ≤ 0xFF then '\\' :: 'x' :: hexDigits 2 c.toNat
  else if c.toNat ≤ 0xFFFF then '\\' :: 'u' :: hexDigits 4 c.toNat
  else '\\' :: 'U' :: hexDigits 8 c.toNat

/-- The quote that encloses the literal of `s`. -/
def literalQuote (s : List Char) : Char :=
  if s.contains '\'' && !s.contains '"' then '"' else '\''

/-- The quoted literal of a text. -/
def literal (s : String) : String :=
  let q := literalQuote s.toList
  String.ofList (q :: s.toList.flatMap (literalChar q) ++ [q])

/-- The literal of a list of texts: the literals of its members between brackets, separated by a
comma and a space. -/
def listLiteral (xs : List String) : String := "[" ++ ", ".intercalate (xs.map literal) ++ "]"

example : literal "a'b" = "\"a'b\"" ∧ literal "a'\"" = "'a\\'\"'" ∧ literal "x\x01é" = "'x\\x01é'" := by
  decide +kernel

example : listLiteral ["a", "b"] = "['a', 'b']" := by decide +kernel

end EnvAudit.Text
