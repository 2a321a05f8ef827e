import EnvAudit.Proofs.DeclaringLines
import EnvAudit.Dotenv.Load
import Mathlib
/-!
# Reading back a written document

A document written from assignments (`write`), each value between single quotes, backticks or
double quotes (`Assignment`), reads back entry by entry: each name with its value, no comment, on
the line where its assignment starts (`readBack`). Values read back as written but for one case. A
value between single quotes or backticks that holds a line feed runs over several lines, and the
first of them is trimmed like every line before it is read, so the blanks that end the value's
first line are lost (`Assignment.valueRead`). Loading a file that holds the written document maps
each name to the value read back from its last assignment (`write_readBack`).

The proof follows the written text: the lines of a written document are those of its assignments
one after another (`lines_text_append`), and each assignment, single-line or not, gives its entry
and leaves the reading at the lines of the next one (`entries_text_append`).
-/

namespace EnvAudit.Dotenv

open EnvAudit.Text EnvAudit.Fs

/-! ## Characters of names and values -/

/-- The blank code points at or above U+0080. -/
def wideBlanks : List Nat :=
  [0x85, 0xA0, 0x1680, 0x2000, 0x2001, 0x2002, 0x2003, 0x2004, 0x2005, 0x2006, 0x2007, 0x2008,
    0x2009, 0x200A, 0x2028, 0x2029, 0x202F, 0x205F, 0x3000]

theorem wordRanges_avoid_wideBlanks :
    (wordRanges.toList.all fun r => wideBlanks.all fun n => !(r.1 ≤ n && n ≤ r.2)) = true := by
  decide +kernel

theorem mem_wideBlanks {c : Char} (hb : isBlank c = true) (hw : 0x80 ≤ c.toNat) :
    c.toNat ∈ wideBlanks := by
  simp only [isBlank, Bool.or_eq_true, Bool.and_eq_true, decide_eq_true_eq, beq_iff_eq] at hb
  simp only [wideBlanks, List.mem_cons, List.not_mem_nil, or_false]
  omega

/-- No name character is blank. -/
theorem isBlank_of_isNameChar {c : Char} (h : isNameChar c = true) : isBlank c = false := by
  by_cases ha : c.toNat < 0x80
  · have hascii : ∀ n < 0x80, (isNameChar (Char.ofNat n) && isBlank (Char.ofNat n)) = false := by
      decide
    have := hascii c.toNat ha
    rwa [Char.ofNat_toNat, h, Bool.true_and] at this
  · -- above ASCII a name character is a word character, in a range that holds no blank
    have hw : isWordChar c = true := by
      simp only [isNameChar, Bool.or_eq_true, beq_iff_eq] at h
      rcases h with (h | rfl) | rfl
      · exact h
      · exact absurd (by decide) ha
      · exact absurd (by decide) ha
    rw [isWordChar, if_neg ha, ← Array.any_toList, List.any_eq_true] at hw
    obtain ⟨r, hr, hin⟩ := hw
    cases hb : isBlank c with
    | false => rfl
    | true =>
      have hall := List.all_eq_true.1 wordRanges_avoid_wideBlanks r hr
      have hout := List.all_eq_true.1 hall c.toNat (mem_wideBlanks hb (by omega))
      -- the range holds the character, yet it holds no wide blank
      rw [hin] at hout
      exact absurd hout Bool.false_ne_true

theorem isBlank_of_isLineBreak {c : Char} (h : isLineBreak c = true) : isBlank c = true := by
  simp only [isLineBreak, Bool.or_eq_true, beq_iff_eq, or_assoc] at h
  rcases h with h | h | h | h | h | h | h | h | h | h <;> subst h <;> decide

/-! ## Writing assignments -/

/-- Writes a character as a backslash and `e` when `pairs` has a pair `(c, e)` for it, and as it
is otherwise. -/
def escapeWith (pairs : List (Char × Char)) (c : Char) : List Char :=
  match pairs.find? (·.1 == c) with
  | some (_, e) => ['\\', e]
  | none => [c]

/-- Between double quotes a line feed is written as a backslash and `n`, a carriage return as a
backslash and `r`, and a double quote after a backslash. -/
def doubleEscapes : List (Char × Char) := [('\n', 'n'), ('\r', 'r'), ('"', '"')]

/-- The text that stands for a value between quotes of kind `q`. -/
def Quote.escape : Quote → List Char → List Char
  | .double, v => v.flatMap (escapeWith doubleEscapes)
  | _, v => v

/-- Whether a character may stand in a value written between quotes of kind `q`: between double
quotes any but the backslash and the line breaks other than line feed and carriage return, and
between the other quotes any but that quote and the line breaks other than line feed. -/
def Quote.admits : Quote → Char → Bool
  | .double, c => c != '\\' && (!isLineBreak c || c == '\n' || c == '\r')
  | q, c => c != q.char && (!isLineBreak c || c == '\n')

/-- An assignment to write: a name of name characters, and a value that the quotes it is written
between admit. -/
structure Assignment where
  name : List Char
  value : List Char
  quote : Quote
  name_ne : name ≠ []
  name_chars : name.all isNameChar = true
  value_chars : value.all quote.admits = true

/-- The text of an assignment: its name, `=`, and its value between its quotes. -/
def Assignment.text (a : Assignment) : List Char :=
  a.name ++ '=' :: a.quote.char :: a.quote.escape a.value ++ [a.quote.char]

/-- A document written from assignments: their texts, separated by line feeds. -/
def write (as : List Assignment) : List Char := ['\n'].intercalate (as.map Assignment.text)

/-- The value read back from a written assignment. Between double quotes it is the value written.
Between the other quotes a value with a line feed runs over several lines; the first of them is
trimmed before it is read, so the blanks that end the value's first line are lost. -/
def Assignment.valueRead (a : Assignment) : List Char :=
  match a.quote with
  | .double => a.value
  | _ =>
    if '\n' ∈ a.value then
      trimRight (a.value.takeWhile (· != '\n')) ++ a.value.dropWhile (· != '\n')
    else a.value

/-- The lines after its first that a written assignment runs over. -/
def Assignment.extraLines (a : Assignment) : Nat :=
  match a.quote with
  | .double => 0
  | _ => a.value.count '\n'

/-- The entries read back from assignments written from line `n` on: each with its name, the value
read back, no comment, and the line where its text starts. -/
def readBack : Nat → List Assignment → List Entry
  | _, [] => []
  | n, a :: as =>
    ⟨String.ofList a.name, String.ofList a.valueRead, none, n⟩ :: readBack (n + 1 + a.extraLines) as

/-! ## Lines -/

theorem linesFrom_cons_of_not_break {c : Char} (hc : isLineBreak c = false) (rest cur : List Char) :
    linesFrom (c :: rest) cur = linesFrom rest (c :: cur) := by
  have hr : c ≠ '\r' := by rintro rfl; simp [isLineBreak] at hc
  -- through the definition's own match: its equation lemmas are slow to generate
  rw [linesFrom.eq_def]
  split
  · rename_i h
    cases h
  · rename_i h
    cases h
    exact absurd rfl hr
  · rename_i h
    cases h
    simp [hc]

theorem linesFrom_newline (rest cur : List Char) :
    linesFrom ('\n' :: rest) cur = cur.reverse :: linesFrom rest [] := by
  rw [linesFrom.eq_def]
  rfl

/-- A line feed after a text without line breaks ends the current line. -/
theorem linesFrom_append_newline {A : List Char} (hA : ∀ c ∈ A, isLineBreak c = false)
    (B cur : List Char) : linesFrom (A ++ '\n' :: B) cur = (cur.reverse ++ A) :: linesFrom B [] := by
  induction A generalizing cur with
  | nil => simp [linesFrom_newline]
  | cons c A ih =>
    rw [List.cons_append, linesFrom_cons_of_not_break (hA c List.mem_cons_self),
      ih (fun d hd => hA d (List.mem_cons_of_mem c hd))]
    simp

theorem linesFrom_of_no_break {A : List Char} (hA : ∀ c ∈ A, isLineBreak c = false)
    (cur : List Char) (hne : cur.reverse ++ A ≠ []) : linesFrom A cur = [cur.reverse ++ A] := by
  induction A generalizing cur with
  | nil =>
    have : cur ≠ [] := by simpa using hne
    rw [linesFrom.eq_def]
    simp [this]
  | cons c A ih =>
    rw [linesFrom_cons_of_not_break (hA c List.mem_cons_self),
      ih (fun d hd => hA d (List.mem_cons_of_mem c hd)) _ (by simp)]
    simp

/-- A text without line breaks, followed by the end of the document or a line feed, is a line. -/
theorem linesFrom_line {A B : List Char} (hA : ∀ c ∈ A, isLineBreak c = false)
    (hB : B = [] ∨ B.head? = some '\n') (cur : List Char) (hne : cur.reverse ++ A ≠ []) :
    linesFrom (A ++ B) cur = (cur.reverse ++ A) :: lines (B.drop 1) := by
  rcases hB with rfl | hB
  · rw [List.append_nil, linesFrom_of_no_break hA cur hne]
    rfl
  · obtain ⟨B, rfl⟩ : ∃ B', B = '\n' :: B' := by
      cases B with
      | nil => simp at hB
      | cons d B => simp at hB; exact ⟨B, by rw [hB]⟩
    exact linesFrom_append_newline hA B cur

/-! ## Closing quotes -/

theorem closeAt_of_not_mem {q : Char} {s : List Char} (h : q ∉ s) : closeAt q s = none := by
  induction s with
  | nil => rfl
  | cons c s ih =>
    have hc : c ≠ q := fun hc => h (hc ▸ List.mem_cons_self)
    simp [closeAt, hc, ih (fun hs => h (List.mem_cons_of_mem c hs))]

theorem closeAt_append {q : Char} {s : List Char} (h : q ∉ s) (after : List Char) :
    closeAt q (s ++ q :: after) = some (s, after) := by
  induction s with
  | nil => simp [closeAt]
  | cons c s ih =>
    have hc : c ≠ q := fun hc => h (hc ▸ List.mem_cons_self)
    simp [closeAt, hc, ih (fun hs => h (List.mem_cons_of_mem c hs))]

theorem Quote.close?_of_ne_double {q : Quote} (hq : q ≠ .double) (s : List Char) :
    q.close? s = closeAt q.char s := by
  cases q with
  | double => exact absurd rfl hq
  | single | backtick => rfl

theorem Quote.value_of_ne_double {q : Quote} (hq : q ≠ .double) (s : List Char) : q.value s = s := by
  cases q with
  | double => exact absurd rfl hq
  | single | backtick => rfl

theorem Quote.escape_of_ne_double {q : Quote} (hq : q ≠ .double) (v : List Char) : q.escape v = v := by
  cases q with
  | double => exact absurd rfl hq
  | single | backtick => rfl

theorem Quote.admits_of_ne_double {q : Quote} (hq : q ≠ .double) {c : Char}
    (h : q.admits c = true) : c ≠ q.char ∧ (isLineBreak c = false ∨ c = '\n') := by
  cases q with
  | double => exact absurd rfl hq
  | single | backtick =>
    simpa only [Quote.admits, Bool.and_eq_true, bne_iff_ne, ne_eq, Bool.or_eq_true,
      Bool.not_eq_true', beq_iff_eq] using h

theorem Quote.ofChar?_char (q : Quote) : Quote.ofChar? q.char = some q :=
  Quote.ofChar?_eq_some.2 rfl

theorem readQuoted_of_finish {q : Quote} {text : List Char} {k : Nat} {r : Option QuotedValue}
    (h : q.finish? text k = some r) (more : List (List Char)) : readQuoted q text k more = r := by
  cases more <;> simp [readQuoted, h]

theorem readQuoted_of_open {q : Quote} {text : List Char} {k : Nat} (h : q.finish? text k = none)
    (l : List Char) (more : List (List Char)) :
    readQuoted q text k (l :: more) = readQuoted q (text ++ '\n' :: l) (k + 1) more := by
  simp [readQuoted, h]

/-- A quoted text whose closing quote ends it is a value with no comment. -/
theorem finish?_of_close {q : Quote} {t e : List Char} (h : q.close? t = some (e, [])) (k : Nat) :
    q.finish? (q.char :: t) k = some (some ⟨q.value e, none, k⟩) := by
  simp [Quote.finish?, h, trailingComment?, trimLeft]

/-! ## Reading a value back -/

/-- A value between single quotes or backticks whose text runs on over the lines cut from
`u ++ q :: B` reads back as the text so far, a line feed, and `u`; the current line `cur` is
already under way. -/
theorem readQuoted_literal {q : Quote} (hq : q ≠ .double) {B : List Char}
    (hB : B = [] ∨ B.head? = some '\n') (u : List Char) (hu : u.all q.admits = true) :
    ∀ (t cur : List Char) (k : Nat), q.char ∉ t → (∀ c ∈ cur, c ≠ q.char ∧ isLineBreak c = false) →
      readQuoted q (q.char :: t) k (linesFrom (u ++ q.char :: B) cur) =
        some ⟨t ++ '\n' :: (cur.reverse ++ u), none, k + 1 + u.count '\n'⟩ := by
  have hqc : isLineBreak q.char = false := by cases q <;> rfl
  have hopen : ∀ t k, q.char ∉ t → q.finish? (q.char :: t) k = none := fun t k ht => by
    simp [Quote.finish?, Quote.close?_of_ne_double hq, closeAt_of_not_mem ht]
  induction u with
  | nil =>
    intro t cur k ht hcur
    have hcur' : ∀ c ∈ cur.reverse, c ≠ q.char ∧ isLineBreak c = false := by simpa using hcur
    rw [List.nil_append, show q.char :: B = [q.char] ++ B from rfl,
      linesFrom_line (by simp [hqc]) hB cur (by simp), readQuoted_of_open (hopen t k ht)]
    -- the line that closes the quote ends the value
    have hclose : q.close? (t ++ '\n' :: (cur.reverse ++ [q.char])) = some (t ++ '\n' :: cur.reverse, []) := by
      rw [Quote.close?_of_ne_double hq, show t ++ '\n' :: (cur.reverse ++ [q.char]) =
        (t ++ '\n' :: cur.reverse) ++ q.char :: [] by simp]
      refine closeAt_append ?_ []
      simp only [List.mem_append, List.mem_cons, not_or]
      refine ⟨ht, fun h => ?_, fun h => (hcur' _ h).1 rfl⟩
      rw [h] at hqc
      simp [isLineBreak] at hqc
    rw [List.cons_append, readQuoted_of_finish (finish?_of_close hclose (k + 1)), Quote.value_of_ne_double hq]
    simp
  | cons c u ih =>
    intro t cur k ht hcur
    simp only [List.all_cons, Bool.and_eq_true] at hu
    obtain ⟨hc, hu⟩ := hu
    have hc := Quote.admits_of_ne_double hq hc
    by_cases hnl : c = '\n'
    · -- a line feed ends the current line, which joins the text so far
      subst hnl
      have ht' : q.char ∉ t ++ '\n' :: cur.reverse := by
        simp only [List.mem_append, List.mem_cons, List.mem_reverse, not_or]
        exact ⟨ht, hc.1.symm, fun h => (hcur _ h).1 rfl⟩
      rw [List.cons_append, linesFrom_newline, readQuoted_of_open (hopen t k ht), List.cons_append,
        ih hu _ [] (k + 1) ht' (by simp)]
      simp
      omega
    · have hbr : isLineBreak c = false := hc.2.resolve_right hnl
      rw [List.cons_append, linesFrom_cons_of_not_break hbr,
        ih hu t (c :: cur) k ht (by simpa [hbr, hc.1] using hcur)]
      simp [hnl]

/-- After the line that closes a value come the lines after the value. -/
theorem linesFrom_drop_literal {x : Char} (hx : isLineBreak x = false) {B : List Char}
    (hB : B = [] ∨ B.head? = some '\n') (u : List Char)
    (hu : ∀ c ∈ u, isLineBreak c = false ∨ c = '\n') (cur : List Char) :
    (linesFrom (u ++ x :: B) cur).drop (1 + u.count '\n') = lines (B.drop 1) := by
  induction u generalizing cur with
  | nil =>
    rw [List.nil_append, show x :: B = [x] ++ B from rfl, linesFrom_line (by simp [hx]) hB cur (by simp)]
    rfl
  | cons c u ih =>
    have hu' : ∀ d ∈ u, isLineBreak d = false ∨ d = '\n' := fun d hd => hu d (List.mem_cons_of_mem c hd)
    by_cases hnl : c = '\n'
    · subst hnl
      rw [List.cons_append, linesFrom_newline, List.count_cons_self, ← Nat.add_assoc, List.drop_succ_cons,
        ih hu']
    · have hbr := (hu c List.mem_cons_self).resolve_right hnl
      rw [List.cons_append, linesFrom_cons_of_not_break hbr, List.count_cons_of_ne hnl, ih hu']

/-! ## Escapes between double quotes -/

theorem escapeWith_cons (x e : Char) (ps : List (Char × Char)) (c : Char) :
    escapeWith ((x, e) :: ps) c = if x = c then ['\\', e] else escapeWith ps c := by
  unfold escapeWith
  by_cases h : x = c <;> simp [h]

theorem escapeWith_of_not_key {ps : List (Char × Char)} {c : Char} (h : ∀ p ∈ ps, p.1 ≠ c) :
    escapeWith ps c = [c] := by
  unfold escapeWith
  rw [List.find?_eq_none.2 (fun p hp => by simpa using h p hp)]

theorem replacePair_cons_of_ne {a b r c : Char} (hc : c ≠ a) (rest : List Char) :
    replacePair a b r (c :: rest) = c :: replacePair a b r rest := by
  cases rest with
  | nil => rfl
  | cons d rest => simp [replacePair, hc]

/-- Resolving the escapes of one pair undoes escaping with it, when the escapes of the other pairs
keep clear of it and the value holds no backslash. -/
theorem replacePair_escapeWith {x e : Char} {ps : List (Char × Char)} {v : List Char}
    (hv : '\\' ∉ v)
    (hps : (ps.all fun p => p.1 != x && p.2 != e && p.2 != '\\') = true) :
    replacePair '\\' e x (v.flatMap (escapeWith ((x, e) :: ps))) = v.flatMap (escapeWith ps) := by
  simp only [List.all_eq_true, Bool.and_eq_true, bne_iff_ne, ne_eq] at hps
  induction v with
  | nil => rfl
  | cons c v ih =>
    have hc : c ≠ '\\' := fun h => hv (h ▸ List.mem_cons_self)
    have ih := ih (fun h => hv (List.mem_cons_of_mem c h))
    rw [List.flatMap_cons, List.flatMap_cons, escapeWith_cons]
    by_cases hxc : x = c
    · -- the pair escaped here is resolved back
      subst hxc
      rw [if_pos rfl, escapeWith_of_not_key (fun p hp => (hps p hp).1.1)]
      simp [replacePair, ih]
    · rw [if_neg hxc]
      cases hfind : ps.find? (·.1 == c) with
      | some p =>
        -- another pair, which this step leaves alone
        obtain ⟨c', e'⟩ := p
        have hp := hps _ (List.mem_of_find?_eq_some hfind)
        have hesc : escapeWith ps c = ['\\', e'] := by simp [escapeWith, hfind]
        rw [hesc, List.cons_append, List.cons_append, List.nil_append, replacePair,
          if_neg (fun h => hp.1.2 h.2), replacePair_cons_of_ne hp.2, ih]
        rfl
      | none =>
        have hesc : escapeWith ps c = [c] := by simp [escapeWith, hfind]
        rw [hesc, List.cons_append, List.nil_append, replacePair_cons_of_ne hc, ih]
        rfl

theorem unescapeDouble_escape {v : List Char} (hv : '\\' ∉ v) :
    unescapeDouble (v.flatMap (escapeWith doubleEscapes)) = v := by
  unfold unescapeDouble doubleEscapes
  rw [replacePair_escapeWith hv (by decide), replacePair_escapeWith hv (by decide),
    replacePair_escapeWith hv (by decide)]
  simp [show escapeWith [] = fun c => [c] from rfl]

theorem escapeWith_doubleEscapes (c : Char) :
    escapeWith doubleEscapes c =
      if c = '\n' then ['\\', 'n'] else if c = '\r' then ['\\', 'r'] else if c = '"' then ['\\', '"']
      else [c] := by
  simp only [doubleEscapes, escapeWith_cons, @escapeWith_of_not_key [] c (by simp), @eq_comm Char '\n',
    @eq_comm Char '\r', @eq_comm Char '"']

theorem closeDouble_cons_of_plain {c : Char} (h₁ : c ≠ '"') (h₂ : c ≠ '\\') (rest : List Char) :
    closeDouble (c :: rest) = (closeDouble rest).map fun p => (c :: p.1, p.2) := by
  cases rest with
  | nil => simp [closeDouble, h₂]
  | cons d rest => simp [closeDouble, h₂]

/-- The closing quote of an escaped value is the one written after it. -/
theorem closeDouble_escape {v : List Char} (hv : '\\' ∉ v) (after : List Char) :
    closeDouble (v.flatMap (escapeWith doubleEscapes) ++ '"' :: after) =
      some (v.flatMap (escapeWith doubleEscapes), after) := by
  induction v with
  | nil => simp [closeDouble]
  | cons c v ih =>
    have hc : c ≠ '\\' := fun h => hv (h ▸ List.mem_cons_self)
    have ih := ih (fun h => hv (List.mem_cons_of_mem c h))
    rw [List.flatMap_cons, escapeWith_doubleEscapes]
    by_cases h₁ : c = '\n'
    · simp [h₁, closeDouble, ih]
    by_cases h₂ : c = '\r'
    · simp [h₂, closeDouble, ih]
    by_cases h₃ : c = '"'
    · simp [h₃, closeDouble, ih]
    simp only [h₁, h₂, h₃, if_false, List.cons_append, List.nil_append]
    rw [closeDouble_cons_of_plain h₃ hc, ih]
    rfl

/-! ## Escaped values -/

theorem Quote.admits_double {c : Char} (h : Quote.double.admits c = true) :
    c ≠ '\\' ∧ (isLineBreak c = false ∨ c = '\n' ∨ c = '\r') := by
  simpa only [Quote.admits, Bool.and_eq_true, bne_iff_ne, ne_eq, Bool.or_eq_true, Bool.not_eq_true',
    beq_iff_eq, or_assoc] using h

theorem Quote.not_mem_of_admits {q : Quote} {v : List Char} (hv : v.all q.admits = true) :
    (if q = .double then '\\' else q.char) ∉ v := by
  intro hmem
  have h := List.all_eq_true.1 hv _ hmem
  cases q with
  | double => exact (Quote.admits_double h).1 rfl
  | single | backtick => exact (Quote.admits_of_ne_double (by decide) h).1 rfl

theorem Quote.close?_escape {q : Quote} {v : List Char} (hv : v.all q.admits = true) (after : List Char) :
    q.close? (q.escape v ++ q.char :: after) = some (q.escape v, after) := by
  have hnot := Quote.not_mem_of_admits hv
  cases q with
  | double => exact closeDouble_escape hnot after
  | single | backtick => exact closeAt_append hnot after

theorem Quote.value_escape {q : Quote} {v : List Char} (hv : v.all q.admits = true) :
    q.value (q.escape v) = v := by
  have hnot := Quote.not_mem_of_admits hv
  cases q with
  | double => exact unescapeDouble_escape hnot
  | single | backtick => rfl

/-- What stands between the quotes of a value breaks no line, unless it is a line feed between
single quotes or backticks; it holds no carriage return. -/
theorem Quote.escape_chars {q : Quote} {v : List Char} (hv : v.all q.admits = true) :
    ∀ c ∈ q.escape v, c ≠ '\r' ∧ (isLineBreak c = false ∨ (q ≠ .double ∧ c = '\n')) := by
  intro c hc
  cases q with
  | double =>
    obtain ⟨d, hd, hcd⟩ := List.mem_flatMap.1 hc
    have hadm := Quote.admits_double (List.all_eq_true.1 hv d hd)
    rw [escapeWith_doubleEscapes] at hcd
    by_cases h₁ : d = '\n'
    · subst h₁
      simp at hcd
      rcases hcd with rfl | rfl <;> decide
    by_cases h₂ : d = '\r'
    · subst h₂
      simp at hcd
      rcases hcd with rfl | rfl <;> decide
    by_cases h₃ : d = '"'
    · subst h₃
      simp at hcd
      rcases hcd with rfl | rfl <;> decide
    simp only [h₁, h₂, h₃, if_false, List.mem_singleton] at hcd
    subst hcd
    exact ⟨h₂, .inl (hadm.2.resolve_right (by simp [h₁, h₂]))⟩
  | single | backtick =>
    have hadm := Quote.admits_of_ne_double (by decide) (List.all_eq_true.1 hv c hc)
    refine ⟨?_, ?_⟩
    · rintro rfl
      simp [isLineBreak] at hadm
    · rcases hadm.2 with h | h
      · exact .inl h
      · exact .inr ⟨by decide, h⟩

/-! ## The line of an assignment -/

theorem trimRight_append_of_not_blank (pre : List Char) {c : Char} (hc : isBlank c = false)
    (ys : List Char) : trimRight (pre ++ c :: ys) = pre ++ c :: trimRight ys := by
  unfold trimRight
  rw [List.reverse_append, List.reverse_cons, List.append_assoc, List.dropWhile_append]
  have hc' : ([c] ++ pre.reverse).dropWhile isBlank = c :: pre.reverse := by simp [hc]
  split
  · rename_i h
    rw [hc', List.isEmpty_iff.1 h]
    simp
  · simp

theorem mem_of_mem_trimRight {c : Char} {s : List Char} (h : c ∈ trimRight s) : c ∈ s := by
  rw [trimRight, List.mem_reverse] at h
  exact List.mem_reverse.1 ((List.dropWhile_sublist _).subset h)

/-- Trimming a written line keeps its start, up to and including the opening quote. -/
theorem trim_written {name : List Char} (hne : name ≠ []) (hn : ∀ c ∈ name, isBlank c = false)
    {q : Char} (hq : isBlank q = false) (t : List Char) :
    trim (name ++ '=' :: q :: t) = name ++ '=' :: q :: trimRight t := by
  obtain ⟨c, rest, rfl⟩ := List.exists_cons_of_ne_nil hne
  rw [trim, List.cons_append, trimLeft_cons_of_not_blank (hn c List.mem_cons_self), ← List.cons_append,
    show c :: rest ++ '=' :: q :: t = (c :: rest ++ ['=']) ++ q :: t by simp,
    trimRight_append_of_not_blank _ hq]
  simp

theorem assignment?_of_not_export {line : List Char}
    (h : ∀ c r, line = ['e', 'x', 'p', 'o', 'r', 't'] ++ c :: r → isBlank c = false) :
    assignment? line = nameAndValue? line := by
  unfold assignment?
  split
  · rename_i c r
    rw [if_neg (by simp [h c r rfl])]
  · rfl

theorem nameAndValue?_written {name : List Char} (hne : name ≠ [])
    (hn : name.all isNameChar = true) (r : List Char) :
    nameAndValue? (name ++ '=' :: r) = some (name, trimLeft r) := by
  have heq : isNameChar '=' = false := by decide
  have hblank : isBlank '=' = false := by decide
  have hpos : ∀ c ∈ name, isNameChar c = true := List.all_eq_true.1 hn
  simp [nameAndValue?, List.takeWhile_append_of_pos hpos, List.dropWhile_append_of_pos hpos, heq, hne,
    afterSeparator?, trimLeft, hblank]

/-- A written line is an assignment of its name: its seventh character, if it starts with
the keyword, is a name character or the `=`, so the keyword is never taken off. -/
theorem assignment?_written {name : List Char} (hne : name ≠ []) (hn : name.all isNameChar = true)
    (r : List Char) : assignment? (name ++ '=' :: r) = some (name, trimLeft r) := by
  rw [assignment?_of_not_export, nameAndValue?_written hne hn]
  intro c r' h
  rcases List.append_eq_append_iff.1 h with ⟨a, hw, hrest⟩ | ⟨b, hname, hrest⟩
  · cases a with
    | nil =>
      obtain ⟨rfl, -⟩ := List.cons_eq_cons.1 hrest
      decide
    | cons x a =>
      obtain ⟨rfl, -⟩ := List.cons_eq_cons.1 hrest
      have : '=' ∈ ['e', 'x', 'p', 'o', 'r', 't'] := by rw [hw]; simp
      simp at this
  · cases b with
    | nil =>
      obtain ⟨rfl, -⟩ := List.cons_eq_cons.1 hrest.symm
      decide
    | cons y b =>
      obtain ⟨rfl, -⟩ := List.cons_eq_cons.1 hrest
      have hc : c ∈ name := by rw [hname]; simp
      exact isBlank_of_isNameChar (List.all_eq_true.1 hn c hc)

theorem readValue_of_readQuoted {q : Quote} {t : List Char} {more : List (List Char)}
    {v : QuotedValue} (h : readQuoted q (q.char :: t) 0 more = some v) :
    readValue (q.char :: t) more = (v.value, v.comment, v.extraLines) := by
  simp [readValue, Quote.ofChar?_char, h]

/-! ## One assignment at a time -/

theorem Assignment.name_not_blank (a : Assignment) : ∀ c ∈ a.name, isBlank c = false :=
  fun c hc => isBlank_of_isNameChar (List.all_eq_true.1 a.name_chars c hc)

theorem Quote.char_not_blank (q : Quote) : isBlank q.char = false := by
  cases q <;> decide

theorem not_break_of_not_blank {c : Char} (h : isBlank c = false) : isLineBreak c = false := by
  cases hb : isLineBreak c with
  | false => rfl
  | true => simp [isBlank_of_isLineBreak hb] at h

/-- The start of an assignment's text, up to its opening quote, breaks no line, so what follows
decides where the line ends. -/
theorem Assignment.not_break_of_start (a : Assignment) {x : List Char}
    (hx : ∀ c ∈ x, isLineBreak c = false) :
    ∀ c ∈ a.name ++ '=' :: a.quote.char :: x, isLineBreak c = false := by
  intro c hc
  simp only [List.mem_append, List.mem_cons] at hc
  rcases hc with hc | rfl | rfl | hc
  · exact not_break_of_not_blank (a.name_not_blank c hc)
  · decide
  · exact not_break_of_not_blank a.quote.char_not_blank
  · exact hx c hc

/-- An assignment whose value is on its own line: its text is the one line it takes. -/
theorem entries_text_single (a : Assignment) (hs : a.quote = .double ∨ '\n' ∉ a.value) (n : Nat)
    {B : List Char} (hB : B = [] ∨ B.head? = some '\n') :
    (readLines none n (lines (a.text ++ B))).entries =
      ⟨String.ofList a.name, String.ofList a.value, none, n⟩ ::
        (readLines none (n + 1) (lines (B.drop 1))).entries := by
  have he := Quote.escape_chars a.value_chars
  have hq := a.quote.char_not_blank
  -- no character of the text breaks the line
  have hline : ∀ c ∈ a.text, isLineBreak c = false := by
    rw [Assignment.text, List.append_assoc, List.cons_append, List.cons_append]
    refine a.not_break_of_start fun c hc => ?_
    rcases List.mem_append.1 hc with hc | hc
    · refine (he c hc).2.resolve_right ?_
      rintro ⟨hd, rfl⟩
      exact hs.resolve_left hd (by rwa [Quote.escape_of_ne_double hd] at hc)
    · rw [List.mem_singleton.1 hc]
      exact not_break_of_not_blank hq
  have hla : lineAssignment? a.text =
      some (a.name, a.quote.char :: (a.quote.escape a.value ++ [a.quote.char])) := by
    rw [lineAssignment?, Assignment.text, List.append_assoc, List.cons_append, List.cons_append,
      trim_written a.name_ne a.name_not_blank hq, assignment?_written a.name_ne a.name_chars,
      show a.quote.escape a.value ++ [a.quote.char] = a.quote.escape a.value ++ a.quote.char :: [] from rfl,
      trimRight_append_of_not_blank _ hq, trimLeft_cons_of_not_blank hq]
    rfl
  have hread : readQuoted a.quote (a.quote.char :: (a.quote.escape a.value ++ [a.quote.char])) 0
      (lines (B.drop 1)) = some ⟨a.value, none, 0⟩ := by
    rw [readQuoted_of_finish (finish?_of_close (Quote.close?_escape a.value_chars []) 0),
      Quote.value_escape a.value_chars]
  rw [lines, linesFrom_line hline hB [] (by simp [Assignment.text]), List.reverse_nil, List.nil_append,
    entries_cons_of_some hla, readValue_of_readQuoted hread]
  rfl

/-- An assignment whose value runs over several lines, between single quotes or backticks: it gives
its entry with the first line of its value trimmed at the end, and the reading goes on after the
line that closes it. -/
theorem entries_text_multi (a : Assignment) (hq : a.quote ≠ .double) (hnl : '\n' ∈ a.value)
    (n : Nat) {B : List Char} (hB : B = [] ∨ B.head? = some '\n') :
    (readLines none n (lines (a.text ++ B))).entries =
      ⟨String.ofList a.name, String.ofList a.valueRead, none, n⟩ ::
        (readLines none (n + 1 + a.value.count '\n') (lines (B.drop 1))).entries := by
  -- the value is its first line, a line feed, and the rest `u`
  obtain ⟨u, hu⟩ : ∃ u, a.value.dropWhile (· != '\n') = '\n' :: u := by
    cases h : a.value.dropWhile (· != '\n') with
    | nil =>
      have := List.dropWhile_eq_nil_iff.1 h '\n' hnl
      simp at this
    | cons c u =>
      have hc := @List.head_dropWhile_not _ (· != '\n') a.value (by simp [h])
      simp only [h, List.head_cons, bne_eq_false_iff_eq] at hc
      exact ⟨u, by rw [hc]⟩
  set s₀ := a.value.takeWhile (· != '\n') with hs₀
  have hv : a.value = s₀ ++ '\n' :: u := by rw [← hu, hs₀, List.takeWhile_append_dropWhile]
  have hs₀nl : '\n' ∉ s₀ := fun h => by simpa using List.mem_takeWhile_imp h
  have hqv : a.quote.char ∉ a.value := by
    simpa [hq] using Quote.not_mem_of_admits a.value_chars
  have hqs : a.quote.char ∉ trimRight s₀ := fun h =>
    hqv (hv ▸ List.mem_append_left _ (mem_of_mem_trimRight h))
  have hadm : u.all a.quote.admits = true := by
    refine List.all_eq_true.2 fun c hc => List.all_eq_true.1 a.value_chars c ?_
    rw [hv]
    exact List.mem_append_right _ (List.mem_cons_of_mem _ hc)
  have hfirst : ∀ c ∈ a.name ++ '=' :: a.quote.char :: s₀, isLineBreak c = false := by
    refine a.not_break_of_start fun c hc => ?_
    have hcv : c ∈ a.value := hv ▸ List.mem_append_left _ hc
    refine (Quote.admits_of_ne_double hq (List.all_eq_true.1 a.value_chars c hcv)).2.resolve_right ?_
    rintro rfl
    exact hs₀nl hc
  -- the first line is the assignment; the lines after it carry the rest of the value
  have htext : a.text ++ B = (a.name ++ '=' :: a.quote.char :: s₀) ++ '\n' :: (u ++ a.quote.char :: B) := by
    simp [Assignment.text, Quote.escape_of_ne_double hq, hv]
  have hla : lineAssignment? (a.name ++ '=' :: a.quote.char :: s₀) =
      some (a.name, a.quote.char :: trimRight s₀) := by
    rw [lineAssignment?, trim_written a.name_ne a.name_not_blank a.quote.char_not_blank,
      assignment?_written a.name_ne a.name_chars, trimLeft_cons_of_not_blank a.quote.char_not_blank]
  have hread := readQuoted_literal hq hB u hadm (trimRight s₀) [] 0 hqs (by simp)
  have hcount : a.value.count '\n' = 1 + u.count '\n' := by
    rw [hv, List.count_append, List.count_eq_zero_of_not_mem hs₀nl, List.count_cons_self]
    omega
  have hvalue : a.valueRead = trimRight s₀ ++ '\n' :: u := by
    unfold Assignment.valueRead
    split
    · contradiction
    · rw [if_pos hnl, hu, hs₀]
  rw [htext, lines, linesFrom_append_newline hfirst, List.reverse_nil, List.nil_append,
    entries_cons_of_some hla, readValue_of_readQuoted hread, hcount, hvalue]
  simp only [List.reverse_nil, List.nil_append, Nat.zero_add]
  rw [linesFrom_drop_literal (not_break_of_not_blank a.quote.char_not_blank) hB u
    (fun c hc => (Quote.admits_of_ne_double hq (List.all_eq_true.1 hadm c hc)).2) []]
  rfl

theorem Assignment.valueRead_single (a : Assignment) (hs : a.quote = .double ∨ '\n' ∉ a.value) :
    a.valueRead = a.value := by
  unfold Assignment.valueRead
  split
  · rfl
  · rename_i hq
    rw [if_neg (hs.resolve_left hq)]

theorem Assignment.extraLines_single (a : Assignment) (hs : a.quote = .double ∨ '\n' ∉ a.value) :
    a.extraLines = 0 := by
  unfold Assignment.extraLines
  split
  · rfl
  · rename_i hq
    exact List.count_eq_zero.2 (hs.resolve_left hq)

theorem Assignment.extraLines_of_ne_double (a : Assignment) (hq : a.quote ≠ .double) :
    a.extraLines = a.value.count '\n' := by
  unfold Assignment.extraLines
  split
  · contradiction
  · rfl

/-- The text of an assignment, followed by the end of the document or a line feed, reads as its
entry, and the reading goes on at the line after it. -/
theorem entries_text_append (a : Assignment) (n : Nat) {B : List Char}
    (hB : B = [] ∨ B.head? = some '\n') :
    (readLines none n (lines (a.text ++ B))).entries =
      ⟨String.ofList a.name, String.ofList a.valueRead, none, n⟩ ::
        (readLines none (n + 1 + a.extraLines) (lines (B.drop 1))).entries := by
  by_cases hs : a.quote = .double ∨ '\n' ∉ a.value
  · rw [entries_text_single a hs n hB, a.valueRead_single hs, a.extraLines_single hs, Nat.add_zero]
  · have hq : a.quote ≠ .double := fun h => hs (.inl h)
    have hnl : '\n' ∈ a.value := Classical.byContradiction fun h => hs (.inr h)
    rw [entries_text_multi a hq hnl n hB, a.extraLines_of_ne_double hq]

/-! ## Whole documents -/

theorem write_singleton (a : Assignment) : write [a] = a.text := by
  simp [write]

theorem write_cons_cons (a b : Assignment) (as : List Assignment) :
    write (a :: b :: as) = a.text ++ '\n' :: write (b :: as) := by
  simp [write, List.intercalate_cons_cons]

theorem readLines_nil (pending : Option String) (n : Nat) : readLines pending n [] = ⟨[], []⟩ := by
  rw [readLines]

/-- The entries read from a written document, its first line numbered `n`. -/
theorem entries_write_from (as : List Assignment) (n : Nat) :
    (readLines none n (lines (write as))).entries = readBack n as := by
  induction as generalizing n with
  | nil =>
    rw [show lines (write []) = [] from rfl, readLines_nil]
    rfl
  | cons a as ih =>
    cases as with
    | nil =>
      rw [write_singleton, ← List.append_nil a.text, entries_text_append a n (.inl rfl)]
      rw [show lines (([] : List Char).drop 1) = [] from rfl, readLines_nil]
      rfl
    | cons b bs =>
      rw [write_cons_cons, entries_text_append a n (.inr rfl), List.drop_one, List.tail_cons, ih]
      rfl

theorem Assignment.cr_not_mem_text (a : Assignment) : '\r' ∉ a.text := by
  simp only [Assignment.text, List.mem_append, List.mem_cons, List.not_mem_nil, or_false, not_or]
  refine ⟨⟨fun h => ?_, by decide, fun h => ?_, fun h => (Quote.escape_chars a.value_chars _ h).1 rfl⟩,
    fun h => ?_⟩
  · exact absurd (a.name_not_blank _ h) (by decide)
  all_goals cases hq : a.quote <;> simp [hq, Quote.char] at h

theorem cr_not_mem_write (as : List Assignment) : '\r' ∉ write as := by
  induction as with
  | nil => simp [write]
  | cons a as ih =>
    cases as with
    | nil => rw [write_singleton]; exact a.cr_not_mem_text
    | cons b bs =>
      rw [write_cons_cons]
      simp only [List.mem_append, List.mem_cons, not_or]
      exact ⟨a.cr_not_mem_text, by decide, ih⟩

theorem normalizeNewlines_of_not_mem {s : List Char} (h : '\r' ∉ s) : normalizeNewlines s = s := by
  induction s with
  | nil => rfl
  | cons c s ih =>
    have hc : c ≠ '\r' := fun hc => h (hc ▸ List.mem_cons_self)
    have ih := ih (fun hs => h (List.mem_cons_of_mem c hs))
    cases s with
    | nil => simp [normalizeNewlines]
    | cons d s => simp [normalizeNewlines, hc, ih]

theorem readBack_pairs (as : List Assignment) (n : Nat) :
    (readBack n as).map (fun e => (e.name, e.value)) =
      as.map fun a => (String.ofList a.name, String.ofList a.valueRead) := by
  induction as generalizing n with
  | nil => rfl
  | cons a as ih => simp [readBack, ih]

/-- **A written document reads back.** Its entries are the assignments' names with the values read
back, no comments, and the lines where the assignments start; and a file whose bytes decode to it
loads, mapping each name to the value read back from its last assignment. -/
theorem write_readBack (as : List Assignment) :
    entries (String.ofList (write as)) = readBack 1 as ∧
      ∀ (v : Volume) (path : Pathname) (bytes : List UInt8),
        v.fileTest path.toString = .ok true → v.read path.toString = .ok bytes →
        decode bytes = .ok (write as) →
        ∃ decls, (load v path).2 = .ok decls ∧
          ∀ name, decls.lookup name =
            (as.map fun a => (String.ofList a.name, String.ofList a.valueRead)).reverse.lookup name := by
  have hentries : entries (String.ofList (write as)) = readBack 1 as := by
    rw [entries, parse, String.toList_ofList]
    exact entries_write_from as 1
  refine ⟨hentries, fun v path bytes hfile hread hdec =>
    ⟨declarations (readBack 1 as), ?_, fun name => ?_⟩⟩
  · -- the bytes decode to the written text, which holds no carriage return to turn into a line feed
    have htext : readText v path = .ok (String.ofList (write as)) := by
      simp [readText, hread, hdec, normalizeNewlines_of_not_mem (cr_not_mem_write as)]
    simp only [load, hfile, htext]
    rw [← hentries]
    rfl
  · rw [lookup_declarations, readBack_pairs]

/-- The file holding the assignment of `x`, a blank, a line feed and `y` between single quotes
loads, and the blank is gone from the value. -/
theorem write_readBack_trimmed :
    ∃ decls, (load ⟨[([".env"], .file [65, 61, 39, 120, 32, 10, 121, 39])], []⟩
      (Pathname.ofString ".env")).2 = .ok decls ∧ decls.lookup "A" = some "x\ny" := by
  obtain ⟨decls, hload, hlookup⟩ :=
    (write_readBack [⟨['A'], ['x', ' ', '\n', 'y'], .single, by decide, by decide, by decide⟩]).2
      ⟨[([".env"], .file [65, 61, 39, 120, 32, 10, 121, 39])], []⟩ (Pathname.ofString ".env")
      [65, 61, 39, 120, 32, 10, 121, 39] (by cbv) (by cbv) (by cbv)
  refine ⟨decls, hload, ?_⟩
  rw [hlookup]
  cbv

end EnvAudit.Dotenv
