import EnvAudit.Dotenv.Document
/-!
# The lines that declare

Reading a document gives one entry for each line that declares a variable, in the order of the
lines and numbered by them. A line declares when its trimmed text is an assignment
(`lineAssignment?`) and it does not lie inside the value of an earlier entry that took further
lines (`InsideValue`). Only a quoted value that closes, with nothing but blanks and a comment after
its closing quote, takes further lines (`readValue_extra_pos`): the lines after a quote that never
closes, or that other text follows, are read as lines of their own.

`LineAccount` collects these facts about the entries read from a run of lines, and
`lineAccount_entries` says that they hold of every document. The reading loop has two steps: a
line that declares nothing is passed over (`entries_cons_of_none`), and a declaring line gives an
entry and passes over the lines its value took (`entries_cons_of_some`). Each step keeps the
account (`LineAccount.skip`, `LineAccount.declare`), and so does the whole run.
-/

namespace EnvAudit.Dotenv

open EnvAudit.Text

/-- The name and value text that a line declares: those of its trimmed text, when that is an
assignment. A blank line and a comment line are none (`assignment?_nil`, `assignment?_comment`). -/
def lineAssignment? (raw : List Char) : Option (List Char × List Char) := assignment? (trim raw)

theorem assignment?_nil : assignment? [] = none := rfl

theorem assignment?_comment (c : List Char) : assignment? ('#' :: c) = none := by
  have h : isNameChar '#' = false := by decide
  simp [assignment?, nameAndValue?, h]

/-- How many further lines of `ls` the value on line `j` takes, lines counted from 0. -/
def valueSpan (ls : List (List Char)) (j : Nat) : Nat :=
  match lineAssignment? (ls.getD j []) with
  | some (_, rest) => (readValue rest (ls.drop (j + 1))).2.2
  | none => 0

/-- Line `i` of `ls` lies inside the value of an earlier entry of `es` that took further lines;
the lines of `ls` are numbered from `n`. -/
def InsideValue (n : Nat) (ls : List (List Char)) (es : List Entry) (i : Nat) : Prop :=
  ∃ j < i, (∃ e ∈ es, e.line = n + j) ∧ i ≤ j + valueSpan ls j

/-- How the entries `es` read from the lines `ls`, numbered from `n`, account for those lines. -/
structure LineAccount (n : Nat) (ls : List (List Char)) (es : List Entry) : Prop where
  /-- The entries come in the order of their lines, one entry to a line. -/
  increasing : es.Pairwise fun e e' => e.line < e'.line
  /-- Every entry stands on one of the lines. -/
  bounded : ∀ e ∈ es, n ≤ e.line ∧ e.line < n + ls.length
  /-- The line of an entry is an assignment of the entry's name. -/
  declares : ∀ e ∈ es, ∃ rest, lineAssignment? (ls.getD (e.line - n) []) = some (e.name.toList, rest)
  /-- An assignment line gives an entry unless it lies inside an earlier entry's value. -/
  covers : ∀ i < ls.length, (lineAssignment? (ls.getD i [])).isSome →
    ((∃ e ∈ es, e.line = n + i) ↔ ¬ InsideValue n ls es i)

/-! ## Values that take further lines -/

theorem Quote.ofChar?_eq_some {c : Char} {q : Quote} : Quote.ofChar? c = some q ↔ c = q.char := by
  constructor
  · intro h
    unfold Quote.ofChar? at h
    split at h <;> cases h <;> rfl
  · rintro rfl
    cases q <;> rfl

/-- A value takes further lines only when it is quoted and its quote closes on a later line. -/
theorem readValue_extra_pos {rest : List Char} {more : List (List Char)} :
    0 < (readValue rest more).2.2 ↔
      ∃ q v, rest.head? = some q.char ∧ readQuoted q rest 0 more = some v ∧ 0 < v.extraLines := by
  cases rest with
  | nil => simp [readValue]
  | cons c cs =>
    simp only [List.head?_cons, Option.some.injEq]
    -- the quote, if any, is the one the first character is
    cases hq : Quote.ofChar? c with
    | none =>
      have hnone : ∀ q : Quote, ¬ c = q.char := fun q hc => by
        simp [Quote.ofChar?_eq_some.2 hc] at hq
      simp [readValue, hq, hnone]
    | some q =>
      have hone : ∀ q' : Quote, c = q'.char ↔ q' = q := fun q' =>
        ⟨fun hc => Option.some.inj ((Quote.ofChar?_eq_some.2 hc).symm.trans hq),
          fun h => h ▸ Quote.ofChar?_eq_some.1 hq⟩
      cases hr : readQuoted q (c :: cs) 0 more <;> simp [readValue, hq, hr, hone]

/-! ## One line at a time -/

@[simp] theorem valueSpan_cons_succ (raw : List Char) (more : List (List Char)) (j : Nat) :
    valueSpan (raw :: more) (j + 1) = valueSpan more j := by
  simp [valueSpan]

theorem valueSpan_drop (ls : List (List Char)) (k j : Nat) :
    valueSpan (ls.drop k) j = valueSpan ls (k + j) := by
  simp [valueSpan, List.getD_eq_getElem?_getD, List.getElem?_drop, Nat.add_assoc]

theorem valueSpan_cons_zero {raw name rest : List Char} (more : List (List Char))
    (h : lineAssignment? raw = some (name, rest)) :
    valueSpan (raw :: more) 0 = (readValue rest more).2.2 := by
  simp [valueSpan, h]

theorem getD_drop (ls : List (List Char)) (k i : Nat) : (ls.drop k).getD i [] = ls.getD (k + i) [] := by
  simp [List.getD_eq_getElem?_getD, List.getElem?_drop]

/-- The pending comment after a line that declares nothing: a blank line forgets it, a comment
line replaces it, and any other line leaves it alone. -/
def pendingAfter (raw : List Char) (pending : Option String) : Option String :=
  match trim raw with
  | [] => none
  | '#' :: c => some (String.ofList (trim c))
  | _ => pending

/-- A line that declares nothing is passed over; only the pending comment may change. -/
theorem entries_cons_of_none {raw : List Char} (h : lineAssignment? raw = none)
    (pending : Option String) (n : Nat) (more : List (List Char)) :
    (readLines pending n (raw :: more)).entries =
      (readLines (pendingAfter raw pending) (n + 1) more).entries := by
  rw [readLines, pendingAfter]
  unfold lineAssignment? at h
  -- both sides read the trimmed line, so one split of it settles both
  generalize trim raw = t at h ⊢
  split
  · rfl
  · rfl
  · -- neither blank nor a comment: the line is read as a declaration, and declares nothing
    simp only [h]

/-- A declaring line gives an entry on its own line, with the pending comment unless the value has
one, and reading goes on after the lines its value took. -/
theorem entries_cons_of_some {raw name rest : List Char} (h : lineAssignment? raw = some (name, rest))
    (pending : Option String) (n : Nat) (more : List (List Char)) :
    (readLines pending n (raw :: more)).entries =
      ⟨String.ofList name, String.ofList (readValue rest more).1,
          chooseComment (readValue rest more).2.1 pending, n⟩ ::
        (readLines none (n + 1 + (readValue rest more).2.2)
          (more.drop (readValue rest more).2.2)).entries := by
  rw [readLines]
  split
  · rename_i ht
    simp [lineAssignment?, ht, assignment?_nil] at h
  · rename_i c ht
    simp [lineAssignment?, ht, assignment?_comment] at h
  · rw [lineAssignment?] at h
    simp only [h]

/-! ## The account of a run of lines -/

/-- Past a first line on which no entry stands, a line lies inside a value exactly when it does
among the lines after the first. -/
theorem insideValue_succ {n : Nat} {raw : List Char} {more : List (List Char)} {es : List Entry}
    (hfirst : ¬ ∃ e ∈ es, e.line = n + 0) (i : Nat) :
    InsideValue n (raw :: more) es (i + 1) ↔ InsideValue (n + 1) more es i := by
  unfold InsideValue
  rw [Nat.exists_lt_succ_left]
  simp only [hfirst, false_and, false_or, valueSpan_cons_succ]
  refine exists_congr fun j => and_congr_right fun _ => and_congr ?_ (by omega)
  rw [show n + (j + 1) = n + 1 + j by omega]

/-- Past an entry on the first line, whose value took `k` further lines, a line lies inside a
value exactly when it does among the lines after the value. -/
theorem insideValue_after_value {n k : Nat} {raw : List Char} {more : List (List Char)}
    {e : Entry} {es : List Entry} (hline : e.line = n) (hspan : valueSpan (raw :: more) 0 = k)
    (hafter : ∀ e' ∈ es, n + 1 + k ≤ e'.line) (i : Nat) :
    InsideValue n (raw :: more) (e :: es) (k + i + 1) ↔ InsideValue (n + 1 + k) (more.drop k) es i := by
  constructor
  · rintro ⟨j, hj, ⟨e', he', hl⟩, hle⟩
    rcases List.mem_cons.1 he' with rfl | he'
    · -- the entry's own value ends before line `k + i + 1`
      obtain rfl : j = 0 := by omega
      omega
    · have := hafter e' he'
      obtain ⟨j, rfl⟩ : ∃ j', j = k + j' + 1 := ⟨j - k - 1, by omega⟩
      rw [valueSpan_cons_succ, ← valueSpan_drop] at hle
      exact ⟨j, by omega, ⟨e', he', by omega⟩, by omega⟩
  · rintro ⟨j, hj, ⟨e', he', hl⟩, hle⟩
    refine ⟨k + j + 1, by omega, ⟨e', List.mem_cons_of_mem _ he', by omega⟩, ?_⟩
    rw [valueSpan_cons_succ, ← valueSpan_drop]
    omega

theorem LineAccount.nil (n : Nat) : LineAccount n [] [] where
  increasing := List.Pairwise.nil
  bounded := by simp
  declares := by simp
  covers := by simp

/-- Passing over a line that declares nothing keeps the account. -/
theorem LineAccount.skip {n : Nat} {raw : List Char} {more : List (List Char)} {es : List Entry}
    (h : lineAssignment? raw = none) (hacc : LineAccount (n + 1) more es) :
    LineAccount n (raw :: more) es where
  increasing := hacc.increasing
  bounded e he := by
    have := hacc.bounded e he
    simp only [List.length_cons]
    omega
  declares e he := by
    have hb := hacc.bounded e he
    rw [show e.line - n = e.line - (n + 1) + 1 by omega, List.getD_cons_succ]
    exact hacc.declares e he
  covers i hi hsome := by
    cases i with
    | zero => simp [h] at hsome
    | succ i =>
      simp only [List.length_cons, Nat.add_lt_add_iff_right, List.getD_cons_succ] at hi hsome
      -- the line before lies on no entry, so nothing from it covers line `i + 1`
      have hfirst : ¬ ∃ e ∈ es, e.line = n + 0 := by
        rintro ⟨e, he, hl⟩
        have := hacc.bounded e he
        omega
      rw [insideValue_succ hfirst, ← hacc.covers i hi hsome, show n + (i + 1) = n + 1 + i by omega]

/-- Reading a declaring line keeps the account: its entry comes first, then the entries read after
the lines its value took. -/
theorem LineAccount.declare {n : Nat} {raw name rest : List Char} {more : List (List Char)}
    {e : Entry} {es : List Entry} (h : lineAssignment? raw = some (name, rest)) (hline : e.line = n)
    (hname : e.name = String.ofList name)
    (hacc : LineAccount (n + 1 + (readValue rest more).2.2) (more.drop (readValue rest more).2.2) es) :
    LineAccount n (raw :: more) (e :: es) := by
  have hk := readValue_extra_le rest more
  have hspan := valueSpan_cons_zero more h
  generalize (readValue rest more).2.2 = k at hk hspan hacc
  have hlen : (more.drop k).length = more.length - k := List.length_drop
  have hafter : ∀ e' ∈ es, n + 1 + k ≤ e'.line := fun e' he' => (hacc.bounded e' he').1
  refine ⟨?increasing, ?bounded, ?declares, ?covers⟩
  case increasing =>
    exact List.Pairwise.cons (fun e' he' => by have := hafter e' he'; omega) hacc.increasing
  case bounded =>
    intro e' he'
    simp only [List.length_cons]
    rcases List.mem_cons.1 he' with rfl | he'
    · omega
    · have := hacc.bounded e' he'
      omega
  case declares =>
    intro e' he'
    rcases List.mem_cons.1 he' with rfl | he'
    · rw [hline, Nat.sub_self, List.getD_cons_zero, hname, String.toList_ofList]
      exact ⟨rest, h⟩
    · have := hafter e' he'
      rw [show e'.line - n = k + (e'.line - (n + 1 + k)) + 1 by omega, List.getD_cons_succ,
        ← getD_drop]
      exact hacc.declares e' he'
  case covers =>
    intro i hi hsome
    simp only [List.length_cons] at hi
    -- line `i` is the entry's own line, a line its value took, or a line read after those
    rcases Nat.eq_zero_or_pos i with rfl | hpos
    · simp only [InsideValue, Nat.not_lt_zero, false_and, exists_false, not_false_eq_true, iff_true]
      exact ⟨e, List.mem_cons_self, by omega⟩
    rcases Nat.lt_or_ge k i with hlt | hle
    · obtain ⟨i, rfl⟩ := Nat.exists_eq_add_of_lt hlt
      rw [List.getD_cons_succ, ← getD_drop] at hsome
      have hentry : (∃ e' ∈ e :: es, e'.line = n + (k + i + 1)) ↔ ∃ e' ∈ es, e'.line = n + 1 + k + i := by
        constructor
        · rintro ⟨e', he', hl⟩
          rcases List.mem_cons.1 he' with rfl | he'
          · omega
          · exact ⟨e', he', by omega⟩
        · rintro ⟨e', he', hl⟩
          exact ⟨e', List.mem_cons_of_mem _ he', by omega⟩
      rw [hentry, insideValue_after_value hline hspan hafter]
      exact hacc.covers i (by omega) hsome
    · -- a line the value took: no entry stands on it, and it lies inside the value
      have hentry : ¬ ∃ e' ∈ e :: es, e'.line = n + i := by
        rintro ⟨e', he', hl⟩
        rcases List.mem_cons.1 he' with rfl | he'
        · omega
        · have := hafter e' he'
          omega
      have hinside : InsideValue n (raw :: more) (e :: es) i :=
        ⟨0, hpos, ⟨e, List.mem_cons_self, by omega⟩, by omega⟩
      exact iff_of_false hentry fun hout => hout hinside

/-! ## Every document -/

/-- The entries read from a run of lines account for it, whatever comment is pending. -/
theorem lineAccount_readLines (pending : Option String) (n : Nat) (ls : List (List Char)) :
    LineAccount n ls (readLines pending n ls).entries := by
  match ls with
  | [] =>
    rw [readLines]
    exact LineAccount.nil n
  | raw :: more =>
    cases h : lineAssignment? raw with
    | none =>
      rw [entries_cons_of_none h pending n more]
      exact (lineAccount_readLines _ (n + 1) more).skip h
    | some a =>
      obtain ⟨name, rest⟩ := a
      rw [entries_cons_of_some h pending n more]
      exact (lineAccount_readLines none _ _).declare h rfl rfl
termination_by ls.length
decreasing_by all_goals (simp only [List.length_cons, List.length_drop]; omega)

/-- **The entries of a document account for its lines**, numbered from 1: they come in the order
of their lines, each on an assignment of its name, and an assignment line gives an entry exactly
when it lies inside no earlier entry's value. -/
theorem lineAccount_entries (content : String) :
    LineAccount 1 (lines content.toList) (entries content) :=
  lineAccount_readLines none 1 _

/- The value opened on line 1 closes on line 2, so the assignment there gives no entry; the quote
opened on line 4 never closes, so line 5 gives one. -/
example : (entries "A=\"x\nB=1\"\nC=2\nD=\"y\nE=3").map (·.line) = [1, 3, 4, 5] := by decide +kernel

end EnvAudit.Dotenv
