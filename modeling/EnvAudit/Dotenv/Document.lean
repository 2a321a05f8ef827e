import EnvAudit.Text.Lines
import EnvAudit.Dotenv.Line
import EnvAudit.Dotenv.Quoted
/-!
# Dotenv documents

A dotenv document is read line by line into entries, one per assignment line. Each entry has a
name, a value, an optional comment and the number of its line, counted from 1.

* A value that opens with a quote is read as a quoted value (`EnvAudit.Dotenv.Quoted`), which
  may take further lines; when the quote never closes, or other text follows the closing quote,
  the line's value is read as a bare value instead and no further line is taken.
* A bare value is the trimmed text before the first `#`; the trimmed text after it is the
  comment.
* A comment line is remembered as the pending comment. A blank line forgets it and every entry
  consumes it; other lines leave it alone. An entry whose own comment is missing or empty takes
  the pending comment.

The declarations of a document map each name to the value of its last entry, in the order in
which names first appear.
-/

namespace EnvAudit.Dotenv

open EnvAudit.Text

/-- One assignment of a dotenv document. -/
structure Entry where
  name : String
  value : String
  comment : Option String
  /-- The number of the assignment's line, counted from 1. -/
  line : Nat
  deriving DecidableEq, Repr

/-- What reading a document finds: its entries, and the numbers of the lines that are neither
blank, comments nor assignments. -/
structure Reading where
  entries : List Entry
  ignored : List Nat
  deriving DecidableEq, Repr

/-- A bare value: the trimmed text before the first `#`, and the trimmed text after it when there
is one. -/
def bareValue (rest : List Char) : List Char × Option (List Char) :=
  match rest.span (· ≠ '#') with
  | (before, []) => (trim before, none)
  | (before, _ :: after) => (trim before, some (trim after))

/-- The comment an entry shows: its own when that is present and not empty, else the pending
one. -/
def chooseComment : Option (List Char) → Option String → Option String
  | some (c :: cs), _ => some (String.ofList (c :: cs))
  | _, pending => pending

/-- The value, own comment and number of further lines taken of the value text `rest`, where
`more` are the lines after the assignment's line. -/
def readValue (rest : List Char) (more : List (List Char)) : List Char × Option (List Char) × Nat :=
  let bare := fun (_ : Unit) => let b := bareValue rest; (b.1, b.2, 0)
  match rest with
  | c :: _ =>
    match Quote.ofChar? c with
    | some q =>
      match readQuoted q rest 0 more with
      | some v => (v.value, v.comment, v.extraLines)
      | none => bare ()
    | none => bare ()
  | [] => bare ()

theorem readValue_extra_le (rest : List Char) (more : List (List Char)) :
    (readValue rest more).2.2 ≤ more.length := by
  unfold readValue
  split
  · rename_i c _
    split
    · rename_i q _
      cases h : readQuoted q (c :: _) 0 more with
      | none => simp
      | some v =>
        have := readQuoted_extraLines_le q _ 0 more h
        simp only [Nat.zero_add] at this
        simpa using this
    · simp
  · simp

/-- Reads the lines of a document from line number `n` on, with the pending comment `pending`. -/
def readLines (pending : Option String) (n : Nat) : List (List Char) → Reading
  | [] => ⟨[], []⟩
  | raw :: more =>
    match trim raw with
    | [] => readLines none (n + 1) more
    | '#' :: c => readLines (some (String.ofList (trim c))) (n + 1) more
    | line =>
      match assignment? line with
      | none =>
        let r := readLines pending (n + 1) more
        ⟨r.entries, n :: r.ignored⟩
      | some (name, rest) =>
        let v := readValue rest more
        have : v.2.2 ≤ more.length := readValue_extra_le rest more
        let r := readLines none (n + 1 + v.2.2) (more.drop v.2.2)
        ⟨⟨String.ofList name, String.ofList v.1, chooseComment v.2.1 pending, n⟩ :: r.entries,
          r.ignored⟩
termination_by ls => ls.length
decreasing_by all_goals (simp only [List.length_cons, List.length_drop]; omega)

/-- Reads a dotenv document. -/
def parse (content : String) : Reading := readLines none 1 (lines content.toList)

/-- The entries of a dotenv document. -/
def entries (content : String) : List Entry := (parse content).entries

/-- Sets `name` to `value`, keeping the position of a name already present. -/
def assign (decls : List (String × String)) (name value : String) : List (String × String) :=
  if decls.any (·.1 == name) then decls.map fun d => if d.1 == name then (name, value) else d
  else decls ++ [(name, value)]

/-- The declarations of a list of entries: each name with the value of its last entry, in the order
in which the names first appear. -/
def declarations (es : List Entry) : List (String × String) :=
  es.foldl (fun decls e => assign decls e.name e.value) []

theorem lookup_map_replace (decls : List (String × String)) (name value x : String) :
    (decls.map fun d => if d.1 == name then (name, value) else d).lookup x =
      if x = name then (if decls.any (·.1 == name) then some value else none) else decls.lookup x := by
  induction decls with
  | nil => simp
  | cons d ds ih =>
    obtain ⟨k, w⟩ := d
    simp only [beq_iff_eq] at ih ⊢
    by_cases hx : x = k
    · -- the head is the entry looked up
      subst hx
      by_cases hk : x = name <;> simp [hk]
    · have hxk : (x == k) = false := beq_false_of_ne hx
      by_cases hk : k = name
      · subst hk
        simp [List.lookup_cons, hxk, ih, hx]
      · simp [List.lookup_cons, hxk, ih, hk]
        simp only [beq_false_of_ne hk, Bool.false_or]

theorem lookup_assign (decls : List (String × String)) (name value x : String) :
    (assign decls name value).lookup x = if x = name then some value else decls.lookup x := by
  unfold assign
  split
  · rename_i hany
    rw [lookup_map_replace, if_pos hany]
  · rename_i hany
    by_cases hx : x = name
    · subst hx
      have : decls.lookup x = none := by
        rw [List.lookup_eq_none_iff]
        intro d hd
        rw [bne_iff_ne, ne_eq]
        rintro rfl
        exact hany (List.any_eq_true.2 ⟨d, hd, beq_self_eq_true _⟩)
      simp [List.lookup_append, this]
    · simp [List.lookup_append, hx, Option.or_none]

/-- In the declarations of a list of entries, a name has the value of its last entry. -/
theorem lookup_declarations (es : List Entry) (x : String) :
    (declarations es).lookup x = ((es.map fun e => (e.name, e.value)).reverse.lookup x) := by
  suffices h : ∀ acc, (es.foldl (fun decls e => assign decls e.name e.value) acc).lookup x =
      ((es.map fun e => (e.name, e.value)).reverse.lookup x).or (acc.lookup x) by
    simpa [declarations] using h []
  induction es with
  | nil => simp
  | cons e es ih =>
    intro acc
    rw [List.foldl_cons, ih, lookup_assign, List.map_cons, List.reverse_cons, List.lookup_append]
    by_cases hx : x = e.name
    · simp [hx]
    · simp [List.lookup_cons, hx, beq_false_of_ne hx]

end EnvAudit.Dotenv
