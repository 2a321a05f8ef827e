import EnvAudit.Text.Blank
/-!
# Quoted values

A value that starts with a double quote, a single quote or a backtick is quoted. It may run over
several lines: while its text holds no closing quote, the next line of the file is added after a
line feed. The closing quote is

* for a single quote or a backtick, the next such quote;
* for a double quote, the first double quote after the opening one that is not the second
  character of a backslash pair, reading pairs from left to right.

After the closing quote only blanks may stand, optionally followed by `#` and a comment.
Inside double quotes the pairs backslash-`n`, backslash-`r` and backslash-quote stand for a line
feed, a carriage return and a double quote; the other quotes keep their text as it is.
-/

namespace EnvAudit.Dotenv

open EnvAudit.Text

/-- The three quotes that open a quoted value. -/
inductive Quote where
  | double
  | single
  | backtick
  deriving DecidableEq, Repr

/-- The quote that a character is. -/
def Quote.ofChar? : Char → Option Quote
  | '"' => some .double
  | '\'' => some .single
  | '`' => some .backtick
  | _ => none

/-- The character of a quote. -/
def Quote.char : Quote → Char
  | .double => '"'
  | .single => '\''
  | .backtick => '`'

/-- Splits the text after an opening double quote at its closing quote: the text between and the
text after. -/
def closeDouble : List Char → Option (List Char × List Char)
  | [] => none
  | '"' :: after => some ([], after)
  | '\\' :: c :: rest => (closeDouble rest).map fun p => ('\\' :: c :: p.1, p.2)
  | c :: rest => if c = '\\' then none else (closeDouble rest).map fun p => (c :: p.1, p.2)

/-- Splits a text at the first occurrence of `q`: the text before and the text after. -/
def closeAt (q : Char) : List Char → Option (List Char × List Char)
  | [] => none
  | c :: rest => if c = q then some ([], rest) else (closeAt q rest).map fun p => (c :: p.1, p.2)

/-- Splits the text after an opening quote at its closing quote. -/
def Quote.close? : Quote → List Char → Option (List Char × List Char)
  | .double, s => closeDouble s
  | q, s => closeAt q.char s

/-- Replaces every pair `a b`, read from left to right without overlap, by `r`. -/
def replacePair (a b r : Char) : List Char → List Char
  | [] => []
  | [c] => [c]
  | c :: d :: rest =>
    if c = a ∧ d = b then r :: replacePair a b r rest else c :: replacePair a b r (d :: rest)

/-- Resolves the escapes of a double-quoted text: backslash-`n`, then backslash-`r`, then
backslash-quote, each over the whole text. -/
def unescapeDouble (s : List Char) : List Char :=
  replacePair '\\' '"' '"' (replacePair '\\' 'r' '\r' (replacePair '\\' 'n' '\n' s))

/-- The value that the text between the quotes stands for. -/
def Quote.value : Quote → List Char → List Char
  | .double, s => unescapeDouble s
  | _, s => s

/-- Reads what follows a closing quote: none when it is not blanks and an optional comment, and
otherwise the comment, which is absent when it is empty. -/
def trailingComment? (after : List Char) : Option (Option (List Char)) :=
  match trimLeft after with
  | [] => some none
  | '#' :: c => some (if (trim c).isEmpty then none else some (trim c))
  | _ => none

/-- A quoted value read to its end: the value, its comment, and how many further lines of the
file it took. -/
structure QuotedValue where
  value : List Char
  comment : Option (List Char)
  extraLines : Nat
  deriving DecidableEq, Repr

/-- Looks for the end of a quoted value whose text so far is `text`, the opening quote included:
none while the quote stays open; once it closes, the value read, or none when other text follows
the closing quote. `taken` is the number of further lines that `text` holds. -/
def Quote.finish? (q : Quote) (text : List Char) (taken : Nat) : Option (Option QuotedValue) :=
  (q.close? text.tail).map fun p => (trailingComment? p.2).map fun c => ⟨q.value p.1, c, taken⟩

/-- Reads a quoted value whose text so far is `text`, taking further lines from `more` while the
quote stays open. -/
def readQuoted (q : Quote) (text : List Char) (taken : Nat) : List (List Char) → Option QuotedValue
  | [] => (q.finish? text taken).getD none
  | l :: more =>
    match q.finish? text taken with
    | some r => r
    | none => readQuoted q (text ++ '\n' :: l) (taken + 1) more

theorem finish?_extraLines {q : Quote} {text : List Char} {taken : Nat} {v : QuotedValue}
    (h : q.finish? text taken = some (some v)) : v.extraLines = taken := by
  unfold Quote.finish? at h
  obtain ⟨p, _, hp⟩ := Option.map_eq_some_iff.1 h
  obtain ⟨c, _, rfl⟩ := Option.map_eq_some_iff.1 hp
  rfl

theorem readQuoted_extraLines_le (q : Quote) (text : List Char) (taken : Nat) (more : List (List Char))
    {v : QuotedValue} (h : readQuoted q text taken more = some v) : v.extraLines ≤ taken + more.length := by
  induction more generalizing text taken with
  | nil =>
    simp only [readQuoted] at h
    cases hf : q.finish? text taken with
    | none => simp [hf] at h
    | some r =>
      simp only [hf, Option.getD_some] at h
      subst h
      simp [finish?_extraLines hf]
  | cons l more ih =>
    simp only [readQuoted] at h
    cases hf : q.finish? text taken with
    | none =>
      simp only [hf] at h
      have := ih _ _ h
      simp only [List.length_cons]
      omega
    | some r =>
      simp only [hf] at h
      subst h
      simp [finish?_extraLines hf]

example : readQuoted .double "\"a\\\"b\" # c".toList 0 [] =
    some ⟨"a\"b".toList, some "c".toList, 0⟩ := by decide +kernel
example : (readQuoted .single "'a".toList 0 (["b'"].map String.toList)).map (·.extraLines) = some 1 := by
  decide +kernel

end EnvAudit.Dotenv
