/-!
# Brace expansion

A glob pattern may hold groups `{a,b,...}` that stand for each of their alternatives. The first
group of a pattern opens at its first `{` and closes at the `}` that brings the nesting depth back
to zero; a `}` before any `{` is plain text, and a pattern whose first group never closes has no
group at all. The alternatives of a group are the pieces of its body between the commas that lie
at depth zero.

* A group with two or more alternatives is replaced by each of them in turn, and the whole
  pattern expanded again; a result that appeared before is dropped.
* A group with one alternative stays as written, braces and all, but its body is expanded, and
  so is the text after it.

Every recursive call is on a shorter pattern, so `expand` is defined by well-founded recursion
on length.
-/

namespace EnvAudit.Glob

/-- Reads a group body opened at depth `d`: the body and the text after its closing brace. -/
def groupBody : Nat → List Char → Option (List Char × List Char)
  | _, [] => none
  | d, c :: rest =>
    if c = '{' then (groupBody (d + 1) rest).map fun p => (c :: p.1, p.2)
    else if c = '}' then
      if d ≤ 1 then some ([], rest) else (groupBody (d - 1) rest).map fun p => (c :: p.1, p.2)
    else (groupBody d rest).map fun p => (c :: p.1, p.2)

/-- `s`, read inside `depth` open groups, closes them all: no prefix of it closes more groups than
are open, and the whole of it closes exactly as many as are open. -/
structure Closes (depth : Nat) (s : List Char) : Prop where
  prefix_le : ∀ p, p <+: s → p.count '}' ≤ depth + p.count '{'
  count_eq : s.count '}' = depth + s.count '{'

/-- A pattern whose braces pair up: every prefix has at least as many `{` as `}`, and the whole
pattern has as many of each. -/
def Balanced (s : List Char) : Prop := Closes 0 s

/-- The first group of a pattern: the text before it, its body and the text after it. -/
def braceGroup? (s : List Char) : Option (List Char × List Char × List Char) :=
  match s.dropWhile (· ≠ '{') with
  | '{' :: rest => (groupBody 1 rest).map fun p => (s.takeWhile (· ≠ '{'), p.1, p.2)
  | _ => none

/-- The pieces of a group body between its commas at depth zero, where `d` is the depth so far.
The depth goes up at `{` and down at `}`, below zero too. -/
def alternativesFrom (d : Int) : List Char → List (List Char)
  | [] => [[]]
  | c :: rest =>
    if c = ',' ∧ d = 0 then [] :: alternativesFrom d rest
    else
      match alternativesFrom (if c = '{' then d + 1 else if c = '}' then d - 1 else d) rest with
      | [] => [[c]]
      | p :: ps => (c :: p) :: ps

/-- The alternatives of a group body. -/
def alternatives (body : List Char) : List (List Char) := alternativesFrom 0 body

/-- Adds the members of `new` that are not yet in `acc`, in order, at its end. -/
def appendNew (acc new : List (List Char)) : List (List Char) :=
  new.foldl (fun a x => if x ∈ a then a else a ++ [x]) acc

theorem groupBody_length {d : Nat} {s body rest : List Char} (h : groupBody d s = some (body, rest)) :
    body.length + rest.length + 1 = s.length := by
  induction s generalizing d body rest with
  | nil => simp [groupBody] at h
  | cons c s ih =>
    simp only [groupBody] at h
    split at h
    · obtain ⟨p, hp, hpe⟩ := Option.map_eq_some_iff.1 h
      cases hpe
      have := ih hp
      simp only [List.length_cons]
      omega
    · split at h
      · split at h
        · cases h; simp
        · obtain ⟨p, hp, hpe⟩ := Option.map_eq_some_iff.1 h
          cases hpe
          have := ih hp
          simp only [List.length_cons]
          omega
      · obtain ⟨p, hp, hpe⟩ := Option.map_eq_some_iff.1 h
        cases hpe
        have := ih hp
        simp only [List.length_cons]
        omega

theorem braceGroup?_length {s pre body suf : List Char} (h : braceGroup? s = some (pre, body, suf)) :
    pre.length + body.length + suf.length + 2 = s.length := by
  unfold braceGroup? at h
  have hs := congrArg List.length (List.takeWhile_append_dropWhile (p := fun c => decide (c ≠ '{')) (l := s))
  split at h
  · rename_i rest heq
    obtain ⟨p, hp, hpe⟩ := Option.map_eq_some_iff.1 h
    cases hpe
    have hl := groupBody_length hp
    rw [heq] at hs
    simp only [List.length_append, List.length_cons] at hs
    omega
  · simp at h

theorem length_le_of_mem_alternativesFrom {d : Int} {s a : List Char} (h : a ∈ alternativesFrom d s) :
    a.length ≤ s.length := by
  induction s generalizing d a with
  | nil => simp [alternativesFrom] at h; simp [h]
  | cons c s ih =>
    simp only [alternativesFrom] at h
    split at h
    · simp only [List.mem_cons] at h
      rcases h with rfl | h
      · simp
      · have := ih h; simp only [List.length_cons]; omega
    · split at h
      · simp at h; subst h; simp
      · rename_i p ps heq
        simp only [List.mem_cons] at h
        rcases h with rfl | h
        · have := ih (a := p) (by rw [heq]; simp)
          simp only [List.length_cons]; omega
        · have := ih (a := a) (by rw [heq]; simp [h])
          simp only [List.length_cons]; omega

/-- The expansions of a pattern. -/
def expand (s : List Char) : List (List Char) :=
  match h : braceGroup? s with
  | none => [s]
  | some (pre, body, suf) =>
    have := braceGroup?_length h
    if (alternatives body).length < 2 then
      (expand body).flatMap fun x => (expand suf).map fun y => pre ++ '{' :: x ++ '}' :: y
    else
      (alternatives body).attach.foldl
        (fun acc a => appendNew acc (expand (pre ++ a.1 ++ suf))) []
termination_by s.length
decreasing_by
  · omega
  · omega
  · have := length_le_of_mem_alternativesFrom a.2
    simp only [List.length_append]
    omega

/-- The expansions of a pattern, as strings. -/
def expandBraces (p : String) : List String := (expand p.toList).map String.ofList

end EnvAudit.Glob
