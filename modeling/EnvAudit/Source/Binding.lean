import EnvAudit.Text.Blank
/-!
# Binding lists

The text between the braces of a destructuring declaration lists bindings separated by commas.
A binding is a name, optionally followed by `:` and a new name or by `=` and a default value; the
name bound from the environment is the one before the `:` or `=`. A binding counts only when that
name, trimmed, is a non-empty run of ASCII letters, digits and low lines.
-/

namespace EnvAudit.Source

open EnvAudit.Text

/-- A character of a bound name. -/
def isBindingChar (c : Char) : Bool :=
  ('a' ≤ c && c ≤ 'z') || ('A' ≤ c && c ≤ 'Z') || ('0' ≤ c && c ≤ '9') || c == '_'

/-- The pieces of a text between its commas; a text with `k` commas has `k + 1` pieces. -/
def splitCommas : List Char → List (List Char)
  | [] => [[]]
  | c :: rest =>
    match splitCommas rest with
    | [] => [[c]]
    | p :: ps => if c = ',' then [] :: p :: ps else (c :: p) :: ps

/-- The name that one binding binds, if it is a valid name. -/
def boundName? (binding : List Char) : Option (List Char) :=
  let name := trim ((trim binding).takeWhile fun c => c ≠ ':' ∧ c ≠ '=')
  if !name.isEmpty && name.all isBindingChar then some name else none

/-- The names bound by a binding list, in order, repeats kept. -/
def boundNames (bindings : List Char) : List (List Char) :=
  (splitCommas bindings).filterMap boundName?

example : splitCommas "a,,b,".toList = ["a", "", "b", ""].map String.toList := by decide

example : boundNames "a, b: c, d = 1".toList = ["a", "b", "d"].map String.toList := by decide

example : boundNames " x-y , é, _Z9 ,".toList = ["_Z9"].map String.toList := by decide

end EnvAudit.Source
