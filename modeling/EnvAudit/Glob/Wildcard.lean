import EnvAudit.Glob.Bracket
/-!
# Wildcard patterns for names

A wildcard pattern matches a whole name: `*` matches any text, `?` any one character, a bracket
expression (negated by `!`) one character of its set, and every other character itself. Case
matters.
-/

namespace EnvAudit.Glob

/-- One element of a wildcard pattern. -/
inductive Wild where
  | lit (c : Char)
  | one
  | many
  | set (b : CharSet)
  deriving DecidableEq, Repr

/-- Reads a wildcard pattern. -/
def Wild.parse (s : List Char) : List Wild :=
  match s with
  | [] => []
  | '*' :: rest => .many :: Wild.parse rest
  | '?' :: rest => .one :: Wild.parse rest
  | '[' :: rest =>
    match h : CharSet.read? ['!'] rest with
    | some (b, after) =>
      have := CharSet.read?_length h
      .set b :: Wild.parse after
    | none => .lit '[' :: Wild.parse rest
  | c :: rest => .lit c :: Wild.parse rest
termination_by s.length
decreasing_by all_goals (simp only [List.length_cons]; omega)

/-- Whether some suffix of a text, the text itself and the empty one included, satisfies `p`. -/
def anySuffix (p : List Char → Bool) : List Char → Bool
  | [] => p []
  | c :: s => p (c :: s) || anySuffix p s

/-- Whether a pattern matches the whole of a text. -/
def Wild.matches : List Wild → List Char → Bool
  | [], s => s.isEmpty
  | .many :: ps, s => anySuffix (fun t => Wild.matches ps t) s
  | .one :: ps, _ :: s => Wild.matches ps s
  | .lit c :: ps, d :: s => c == d && Wild.matches ps s
  | .set b :: ps, d :: s => b.contains d && Wild.matches ps s
  | _ :: _, [] => false

/-- Whether the wildcard pattern `pattern` matches `name`. -/
def wildMatch (pattern name : String) : Bool := Wild.matches (Wild.parse pattern.toList) name.toList

example : wildMatch "*.js" "a.js" ∧ ¬ wildMatch "*.js" "a.jsx" ∧ wildMatch "[ab].?s" "b.ts" ∧
    wildMatch "[!x]" "y" ∧ wildMatch "[]" "[]" := by decide +kernel

end EnvAudit.Glob
