import EnvAudit.Proofs.RoundTrip
/-!
# Reading documents one after the other

Reading a document carries two things from one line to the next: the line it is at, which a
quoted value that takes further lines moves on, and the pending comment. When a first document
ends with a line feed and leaves no quoted value open at its end (`leavesOpen`), neither carries
anything across the join but the pending comment, so reading the two documents joined gives the
entries of the first, and then those of the second with their lines moved down past the first,
only the comment of its first entry taking what the first document left pending
(`entries_append`). The steps:

* a quoted value that closes within some lines reads the same when more lines follow
  (`readQuoted_append`, `readValue_append`), so reading the first document's lines does not look
  past them (`readLines_append`);
* where the line count starts only moves the entries (`readLines_shift`);
* the pending comment a reading starts with reaches the comment of its first entry and nothing
  else (`readLines_pending`).
-/

namespace EnvAudit.Dotenv

open EnvAudit.Text

/-- Whether a quoted value whose text so far is `text` takes every line of `more` and still finds
no closing quote. -/
def Quote.runsOut (q : Quote) (text : List Char) : List (List Char) → Bool
  | [] => (q.close? text.tail).isNone
  | l :: more => (q.close? text.tail).isNone && q.runsOut (text ++ '\n' :: l) more

/-- Whether the value text `rest` opens a quoted value that is still open when the lines `more`
run out. -/
def valueRunsOut : List Char → List (List Char) → Bool
  | c :: cs, more => (Quote.ofChar? c).any fun q => q.runsOut (c :: cs) more
  | [], _ => false

/-- Whether reading the lines meets an assignment whose quoted value is still open when the lines
run out. The lines inside a value that closes are not read as assignments, and neither are they
here. -/
def leavesOpen : List (List Char) → Bool
  | [] => false
  | raw :: more =>
    match lineAssignment? raw with
    | none => leavesOpen more
    | some (_, rest) => valueRunsOut rest more || leavesOpen (more.drop (readValue rest more).2.2)
termination_by ls => ls.length
decreasing_by all_goals (simp only [List.length_cons, List.length_drop]; omega)

/-- An entry moved `k` lines down. -/
def Entry.shift (k : Nat) (e : Entry) : Entry := { e with line := e.line + k }

/-- What an entry says besides its comment: its name, value and line. -/
def Entry.fields (e : Entry) : String × String × Nat := (e.name, e.value, e.line)

/-! ## Quoted values that close -/

theorem Quote.finish?_eq_none {q : Quote} {text : List Char} {k : Nat} :
    q.finish? text k = none ↔ q.close? text.tail = none := by
  simp [Quote.finish?]

/-- A quoted value that closes within the lines `more` reads the same when more lines follow. -/
theorem readQuoted_append {q : Quote} {text : List Char} {more : List (List Char)}
    (h : q.runsOut text more = false) (k : Nat) (ls : List (List Char)) :
    readQuoted q text k (more ++ ls) = readQuoted q text k more := by
  induction more generalizing text k with
  | nil =>
    cases hf : q.finish? text k with
    | some r => rw [List.nil_append, readQuoted_of_finish hf, readQuoted_of_finish hf]
    | none => simp [Quote.runsOut, Quote.finish?_eq_none.1 hf] at h
  | cons l more ih =>
    cases hf : q.finish? text k with
    | some r => rw [readQuoted_of_finish hf, readQuoted_of_finish hf]
    | none =>
      -- still open: both readings take the line `l` and go on with the rest
      have h' : q.runsOut (text ++ '\n' :: l) more = false := by
        simpa [Quote.runsOut, Quote.finish?_eq_none.1 hf] using h
      rw [List.cons_append, readQuoted_of_open hf, readQuoted_of_open hf, ih h']

theorem readValue_append {rest : List Char} {more : List (List Char)}
    (h : valueRunsOut rest more = false) (ls : List (List Char)) :
    readValue rest (more ++ ls) = readValue rest more := by
  cases rest with
  | nil => rfl
  | cons c cs =>
    cases hq : Quote.ofChar? c with
    | none => simp [readValue, hq]
    | some q =>
      have hr : q.runsOut (c :: cs) more = false := by simpa [valueRunsOut, hq] using h
      simp [readValue, hq, readQuoted_append hr]

/-! ## Runs of lines -/

theorem leavesOpen_cons_of_none {raw : List Char} (h : lineAssignment? raw = none)
    (more : List (List Char)) : leavesOpen (raw :: more) = leavesOpen more := by
  rw [leavesOpen, h]

theorem leavesOpen_cons_of_some {raw name rest : List Char}
    (h : lineAssignment? raw = some (name, rest)) (more : List (List Char)) :
    leavesOpen (raw :: more) =
      (valueRunsOut rest more || leavesOpen (more.drop (readValue rest more).2.2)) := by
  rw [leavesOpen, h]

/-- Reading lines that leave no quoted value open, and then more lines: the entries of the first
lines, then those of the others, read with whatever comment the first lines left pending. -/
theorem readLines_append (pending : Option String) (n : Nat) (ls₁ ls₂ : List (List Char))
    (h : leavesOpen ls₁ = false) :
    ∃ p, (readLines pending n (ls₁ ++ ls₂)).entries =
      (readLines pending n ls₁).entries ++ (readLines p (n + ls₁.length) ls₂).entries := by
  match ls₁ with
  | [] => exact ⟨pending, by simp [readLines_nil]⟩
  | raw :: more =>
    cases hla : lineAssignment? raw with
    | none =>
      rw [leavesOpen_cons_of_none hla] at h
      obtain ⟨p, hp⟩ := readLines_append (pendingAfter raw pending) (n + 1) more ls₂ h
      refine ⟨p, ?_⟩
      rw [List.cons_append, entries_cons_of_none hla, entries_cons_of_none hla, hp,
        List.length_cons, Nat.add_assoc, Nat.add_comm 1]
    | some a =>
      obtain ⟨name, rest⟩ := a
      rw [leavesOpen_cons_of_some hla, Bool.or_eq_false_iff] at h
      -- the value closes within `more`, so it takes the same lines with `ls₂` after them
      have hk := readValue_extra_le rest more
      obtain ⟨p, hp⟩ := readLines_append none (n + 1 + (readValue rest more).2.2)
        (more.drop (readValue rest more).2.2) ls₂ h.2
      refine ⟨p, ?_⟩
      have hlen : n + 1 + (readValue rest more).2.2 + (more.drop (readValue rest more).2.2).length =
          n + (raw :: more).length := by
        simp only [List.length_drop, List.length_cons]
        omega
      rw [List.cons_append, entries_cons_of_some hla, entries_cons_of_some hla,
        readValue_append h.1, List.drop_append_of_le_length hk, hp, hlen, List.cons_append]
termination_by ls₁.length
decreasing_by all_goals (simp only [List.length_cons, List.length_drop]; omega)

/-- Counting lines from `n + k` instead of `n` moves every entry `k` lines down. -/
theorem readLines_shift (pending : Option String) (n k : Nat) (ls : List (List Char)) :
    (readLines pending (n + k) ls).entries = (readLines pending n ls).entries.map (Entry.shift k) := by
  match ls with
  | [] => simp [readLines_nil]
  | raw :: more =>
    cases hla : lineAssignment? raw with
    | none =>
      rw [entries_cons_of_none hla, entries_cons_of_none hla, Nat.add_right_comm,
        readLines_shift _ (n + 1) k more]
    | some a =>
      obtain ⟨name, rest⟩ := a
      have hn : n + k + 1 + (readValue rest more).2.2 = n + 1 + (readValue rest more).2.2 + k := by
        omega
      rw [entries_cons_of_some hla, entries_cons_of_some hla, hn, readLines_shift, List.map_cons]
      rfl
termination_by ls.length
decreasing_by all_goals (simp only [List.length_cons, List.length_drop]; omega)

/-- Two readings of the same lines that start with different pending comments differ at most in
the comment of their first entry. -/
theorem readLines_pending (p p' : Option String) (n : Nat) (ls : List (List Char)) :
    (readLines p n ls).entries.tail = (readLines p' n ls).entries.tail ∧
      (readLines p n ls).entries.map Entry.fields = (readLines p' n ls).entries.map Entry.fields := by
  match ls with
  | [] => simp [readLines_nil]
  | raw :: more =>
    cases hla : lineAssignment? raw with
    | none =>
      rw [entries_cons_of_none hla, entries_cons_of_none hla]
      exact readLines_pending _ _ (n + 1) more
    | some a =>
      obtain ⟨name, rest⟩ := a
      -- an entry consumes the pending comment: from it on, both readings go on alike
      rw [entries_cons_of_some hla, entries_cons_of_some hla]
      exact ⟨rfl, by simp [Entry.fields]⟩
termination_by ls.length
decreasing_by simp only [List.length_cons]; omega

/-! ## Documents -/

theorem linesFrom_crlf (rest cur : List Char) :
    linesFrom ('\r' :: '\n' :: rest) cur = cur.reverse :: linesFrom rest [] := by
  rw [linesFrom.eq_def]
  rfl

theorem linesFrom_cons_of_break {c : Char} (hc : isLineBreak c = true) {x : List Char}
    (hx : c = '\r' → x.head? ≠ some '\n') (cur : List Char) :
    linesFrom (c :: x) cur = cur.reverse :: linesFrom x [] := by
  rw [linesFrom.eq_def]
  split
  · rename_i h
    cases h
  · rename_i rest h
    cases h
    exact absurd rfl (hx rfl)
  · rename_i h
    cases h
    simp [hc]

/-- The lines of a text that ends with a line feed, and then of more text, are the lines of the
first text and then those of the second: the line feed ends the first text's last line. -/
theorem linesFrom_append_of_newline (t : List Char) :
    ∀ (s cur : List Char), s.getLast? = some '\n' →
      linesFrom (s ++ t) cur = linesFrom s cur ++ lines t
  | [], _, hs => by simp at hs
  | [c], cur, hs => by
    obtain rfl : c = '\n' := by simpa using hs
    rw [List.singleton_append, linesFrom_newline, linesFrom_newline]
    rfl
  | c :: d :: rest, cur, hs => by
    have hs' : (d :: rest).getLast? = some '\n' := by simpa [List.getLast?_cons_cons] using hs
    by_cases hcr : c = '\r' ∧ d = '\n'
    · obtain ⟨rfl, rfl⟩ := hcr
      -- a carriage return and a line feed end one line
      rw [List.cons_append, List.cons_append, linesFrom_crlf, linesFrom_crlf]
      cases rest with
      | nil => rfl
      | cons e rest =>
        rw [linesFrom_append_of_newline t (e :: rest) [] (by simpa [List.getLast?_cons_cons] using hs)]
        rfl
    · have hx : c = '\r' → (d :: (rest ++ t)).head? ≠ some '\n' := fun hc h =>
        hcr ⟨hc, by simpa using h⟩
      have hx' : c = '\r' → (d :: rest).head? ≠ some '\n' := fun hc h => hcr ⟨hc, by simpa using h⟩
      cases hc : isLineBreak c with
      | true =>
        rw [List.cons_append, List.cons_append, linesFrom_cons_of_break hc hx,
          linesFrom_cons_of_break hc hx', ← List.cons_append, linesFrom_append_of_newline t _ [] hs']
        rfl
      | false =>
        rw [List.cons_append, List.cons_append, linesFrom_cons_of_not_break hc,
          linesFrom_cons_of_not_break hc, ← List.cons_append, linesFrom_append_of_newline t _ _ hs']

theorem lines_append_of_newline {s : List Char} (hs : s = [] ∨ s.getLast? = some '\n')
    (t : List Char) : lines (s ++ t) = lines s ++ lines t := by
  rcases hs with rfl | hs
  · rfl
  · exact linesFrom_append_of_newline t s [] hs

theorem fields_shift (k : Nat) (e : Entry) :
    (e.shift k).fields = (e.fields.1, e.fields.2.1, e.fields.2.2 + k) := rfl

/-- **Reading two documents joined.** When the first is empty or ends with a line feed, and no
assignment it reads opens a quoted value that is still open at its end, the entries of the joined
text are those of the first document and then those of the second, moved down by the number of
lines of the first; they agree with the second document's own entries in name, value and line,
and in full after the first, whose comment may come from a comment line pending at the end of the
first document. -/
theorem entries_append (c₁ c₂ : String) (hend : c₁ = "" ∨ ∃ s, c₁ = s ++ "\n")
    (hopen : leavesOpen (lines c₁.toList) = false) :
    ∃ es, entries (c₁ ++ c₂) = entries c₁ ++ es ∧
      es.map Entry.fields = ((entries c₂).map (Entry.shift (lines c₁.toList).length)).map Entry.fields ∧
      es.tail = (entries c₂).tail.map (Entry.shift (lines c₁.toList).length) := by
  set k := (lines c₁.toList).length
  have hlines : lines (c₁ ++ c₂).toList = lines c₁.toList ++ lines c₂.toList := by
    refine String.toList_append ▸ lines_append_of_newline ?_ _
    rcases hend with rfl | ⟨s, rfl⟩
    · exact .inl rfl
    · exact .inr (by simp)
  obtain ⟨p, hp⟩ := readLines_append none 1 (lines c₁.toList) (lines c₂.toList) hopen
  refine ⟨(readLines p (1 + k) (lines c₂.toList)).entries, ?_, ?_, ?_⟩
  · rw [entries, parse, hlines, hp]
    rfl
  -- the second document read after the first: shifted, and with `p` pending instead of none
  · obtain ⟨-, hfields⟩ := readLines_pending p none 1 (lines c₂.toList)
    rw [readLines_shift p 1 k, List.map_map, List.map_map, entries, parse]
    have hf : Entry.fields ∘ Entry.shift k = (fun x => (x.1, x.2.1, x.2.2 + k)) ∘ Entry.fields :=
      funext (fields_shift k)
    rw [hf, ← List.map_map, hfields, List.map_map]
  · obtain ⟨htail, -⟩ := readLines_pending p none 1 (lines c₂.toList)
    rw [readLines_shift p 1 k, ← List.map_tail, htail]
    rfl

theorem entries_append_after_comment :
    ("A='x\ny'\n# note\n" = "" ∨ ∃ s, "A='x\ny'\n# note\n" = s ++ "\n") ∧
      leavesOpen (lines "A='x\ny'\n# note\n".toList) = false ∧
      ∃ es, entries ("A='x\ny'\n# note\n" ++ "B=1\nC=2") = entries "A='x\ny'\n# note\n" ++ es ∧
        es.map Entry.fields = ((entries "B=1\nC=2").map (Entry.shift 3)).map Entry.fields ∧
        es.tail = (entries "B=1\nC=2").tail.map (Entry.shift 3) :=
  ⟨.inr ⟨"A='x\ny'\n# note", rfl⟩, by decide +kernel,
    entries_append "A='x\ny'\n# note\n" "B=1\nC=2" (.inr ⟨"A='x\ny'\n# note", rfl⟩)
      (by decide +kernel)⟩

end EnvAudit.Dotenv
