/-!
# Bracket expressions

A bracket expression `[...]` in a pattern matches one character from a set. The set is read from
the text between the brackets: a leading negation mark complements it, a `]` right after the
opening bracket (and the negation mark) is an ordinary member, and the expression ends at the
next `]`. Inside, `a-b` is the range of characters from `a` to `b`, empty when `b` comes before
`a`; every other character, the backslash included, stands for itself. When no `]` closes it,
the opening bracket is an ordinary character.
-/

namespace EnvAudit.Glob

/-- A set of characters given by ranges, possibly complemented. -/
structure CharSet where
  negated : Bool
  /-- Ranges from the first to the second character; a single character is a range of one. -/
  ranges : List (Char × Char)
  deriving DecidableEq, Repr

/-- The ranges written between the brackets. -/
def CharSet.rangesOf : List Char → List (Char × Char)
  | a :: '-' :: b :: rest => (a, b) :: CharSet.rangesOf rest
  | a :: rest => (a, a) :: CharSet.rangesOf rest
  | [] => []

/-- Whether a character belongs to the set. -/
def CharSet.contains (b : CharSet) (c : Char) : Bool :=
  (b.ranges.any fun r => r.1 ≤ c && c ≤ r.2) != b.negated

/-- Splits a text at the first `]`: the text before and the text after. -/
def closeBracket : List Char → Option (List Char × List Char)
  | [] => none
  | c :: rest => if c = ']' then some ([], rest) else (closeBracket rest).map fun p => (c :: p.1, p.2)

theorem closeBracket_length {s body rest : List Char} (h : closeBracket s = some (body, rest)) :
    rest.length < s.length := by
  induction s generalizing body rest with
  | nil => simp [closeBracket] at h
  | cons c s ih =>
    simp only [closeBracket] at h
    split at h
    · cases h; simp
    · obtain ⟨p, hp, hpe⟩ := Option.map_eq_some_iff.1 h
      cases hpe
      have := ih hp
      simp only [List.length_cons]
      omega

/-- Splits the members of a bracket expression from the text after its closing bracket, the
first `]` being a member. -/
def splitMembers : List Char → Option (List Char × List Char)
  | ']' :: r => (closeBracket r).map fun p => (']' :: p.1, p.2)
  | r => closeBracket r

/-- Splits a bracket expression after its opening bracket, where the characters of `negators`
mark a complement: whether it is complemented, the text of its members and the text after the
closing bracket. -/
def splitBracket? (negators : List Char) : List Char → Option (Bool × List Char × List Char)
  | c :: r =>
    if c ∈ negators then (splitMembers r).map fun p => (true, p)
    else (splitMembers (c :: r)).map fun p => (false, p)
  | [] => none

/-- Reads a bracket expression after its opening bracket: the set and the text after the closing
bracket. -/
def CharSet.read? (negators : List Char) (s : List Char) : Option (CharSet × List Char) :=
  (splitBracket? negators s).map fun p => (⟨p.1, CharSet.rangesOf p.2.1⟩, p.2.2)

theorem splitMembers_length {s body rest : List Char} (h : splitMembers s = some (body, rest)) :
    rest.length < s.length := by
  unfold splitMembers at h
  split at h
  · obtain ⟨p, hp, hpe⟩ := Option.map_eq_some_iff.1 h
    cases hpe
    have := closeBracket_length hp
    simp only [List.length_cons]
    omega
  · exact closeBracket_length h

theorem splitBracket?_length {negators s : List Char} {neg : Bool} {body rest : List Char}
    (h : splitBracket? negators s = some (neg, body, rest)) : rest.length < s.length := by
  cases s with
  | nil => simp [splitBracket?] at h
  | cons c r =>
    simp only [splitBracket?] at h
    split at h
    · obtain ⟨p, hp, hpe⟩ := Option.map_eq_some_iff.1 h
      cases hpe
      have := splitMembers_length hp
      simp only [List.length_cons]
      omega
    · obtain ⟨p, hp, hpe⟩ := Option.map_eq_some_iff.1 h
      cases hpe
      exact splitMembers_length hp

theorem CharSet.read?_length {negators s : List Char} {b : CharSet} {rest : List Char}
    (h : CharSet.read? negators s = some (b, rest)) : rest.length < s.length := by
  obtain ⟨p, hp, hpe⟩ := Option.map_eq_some_iff.1 h
  cases hpe
  exact splitBracket?_length hp

example : (CharSet.read? ['!'] "!a-c]x".toList).map (fun p => (p.1.contains 'b', p.1.contains 'z', p.2)) =
    some (false, true, ['x']) := by decide

end EnvAudit.Glob
