import EnvAudit.Proofs.Concatenation
/-!
# Reading a quoted value

A quoted value is read from the rest of its line and, while its quote stays open, from the lines
after it, each added after a line feed (`joinLines`). The reading stops at the first of these
texts in which the quote closes, and looks no further: it gives a value exactly when what follows
that closing quote is blanks and an optional comment (`readQuoted_value_iff`).

The closing quote is said without the reader: the text between the quotes is a `Quote.Body`,
where between double quotes each backslash pairs with the character after it
(`Quote.close?_eq_some_iff`), and what may follow it is said by `Trails`
(`trailingComment?_eq_some_iff`). The loop itself is `readQuoted_eq_some_iff`: the reading gives a
value when the first text in which the quote closes finishes it.
-/

namespace EnvAudit.Dotenv

open EnvAudit.Text

/-! ## Closing quotes -/

/-- Text that may stand between double quotes: characters other than a double quote or a
backslash, and pairs of a backslash and any character, read from the left. -/
inductive DoubleBody : List Char → Prop where
  | nil : DoubleBody []
  /-- A character that neither closes nor escapes. -/
  | plain {c : Char} {s : List Char} : c ≠ '"' → c ≠ '\\' → DoubleBody s → DoubleBody (c :: s)
  /-- A backslash and the character it escapes, a quote or a line feed included. -/
  | escape {c : Char} {s : List Char} : DoubleBody s → DoubleBody ('\\' :: c :: s)

/-- Text that may stand between an opening quote and its closing quote. -/
def Quote.Body : Quote → List Char → Prop
  | .double, s => DoubleBody s
  | q, s => q.char ∉ s

section Close
variable {q : Quote} {c : Char} {s inner after : List Char}

/-- A split found after the characters `w` has them in front of the text before the quote. -/
theorem map_prepend_eq_some {w : List Char} {o : Option (List Char × List Char)}
    (h : o.map (fun p => (w ++ p.1, p.2)) = some (inner, after)) :
    ∃ i, o = some (i, after) ∧ inner = w ++ i := by
  obtain ⟨⟨i, a⟩, hp, hpe⟩ := Option.map_eq_some_iff.1 h
  cases hpe
  exact ⟨i, hp, rfl⟩

theorem closeAt_eq_some_iff : closeAt c s = some (inner, after) ↔ s = inner ++ c :: after ∧ c ∉ inner := by
  constructor
  · intro h
    induction s generalizing inner with
    | nil => simp [closeAt] at h
    | cons d s ih =>
      simp only [closeAt] at h
      split at h
      · rename_i hd
        cases h
        simp [hd]
      · rename_i hd
        obtain ⟨i, hp, rfl⟩ := map_prepend_eq_some (w := [d]) h
        obtain ⟨rfl, hi⟩ := ih hp
        exact ⟨rfl, by simp [hi, Ne.symm hd]⟩
  · rintro ⟨rfl, hc⟩
    exact closeAt_append hc after

theorem closeDouble_eq_some_iff :
    closeDouble s = some (inner, after) ↔ s = inner ++ '"' :: after ∧ DoubleBody inner := by
  constructor
  · intro h
    induction s using closeDouble.induct generalizing inner with
    | case1 => simp [closeDouble] at h
    | case2 after' =>
      simp only [closeDouble, Option.some.injEq, Prod.mk.injEq] at h
      obtain ⟨rfl, rfl⟩ := h
      exact ⟨rfl, .nil⟩
    | case3 c rest ih =>
      simp only [closeDouble] at h
      obtain ⟨i, hp, rfl⟩ := map_prepend_eq_some (w := ['\\', c]) h
      obtain ⟨rfl, hi⟩ := ih hp
      exact ⟨rfl, .escape hi⟩
    | case4 rest _ hlone =>
      -- a backslash that ends the text escapes nothing
      obtain rfl : rest = [] := by
        cases rest with
        | nil => rfl
        | cons d r => exact absurd rfl (hlone d r rfl)
      simp [closeDouble] at h
    | case5 c rest hq _ hb ih =>
      rw [closeDouble_cons_of_plain hq hb] at h
      obtain ⟨i, hp, rfl⟩ := map_prepend_eq_some (w := [c]) h
      obtain ⟨rfl, hi⟩ := ih hp
      exact ⟨rfl, .plain hq hb hi⟩
  · rintro ⟨rfl, hi⟩
    induction hi with
    | nil => simp [closeDouble]
    | plain hq hb _ ih => rw [List.cons_append, closeDouble_cons_of_plain hq hb, ih]; rfl
    | escape _ ih => simp [closeDouble, ih]

/-- The closing quote of a quoted text, said without the reader. -/
theorem Quote.close?_eq_some_iff :
    q.close? s = some (inner, after) ↔ s = inner ++ q.char :: after ∧ q.Body inner := by
  cases q with
  | double => exact closeDouble_eq_some_iff
  | single | backtick => exact closeAt_eq_some_iff

theorem Quote.close?_eq_none_iff :
    q.close? s = none ↔ ∀ inner after, s = inner ++ q.char :: after → ¬ q.Body inner := by
  constructor
  · intro h inner after hs hb
    have := Quote.close?_eq_some_iff.2 ⟨hs, hb⟩
    rw [h] at this
    cases this
  · intro h
    cases hc : q.close? s with
    | none => rfl
    | some p =>
      obtain ⟨hs, hb⟩ := Quote.close?_eq_some_iff.1 hc
      exact absurd hb (h _ _ hs)

end Close

/-! ## What may follow the closing quote -/

/-- What may follow a closing quote, with the comment it gives: blanks, then either nothing, or
`#` and a text whose trimmed form is the comment, which is absent when that is empty. -/
def Trails (after : List Char) (comment : Option (List Char)) : Prop :=
  ∃ ws rest, after = ws ++ rest ∧ (∀ c ∈ ws, isBlank c = true) ∧
    (rest = [] ∧ comment = none ∨
      ∃ t, rest = '#' :: t ∧ comment = if trim t = [] then none else some (trim t))

theorem trailingComment?_eq_some_iff {after : List Char} {comment : Option (List Char)} :
    trailingComment? after = some comment ↔ Trails after comment := by
  have hhash : isBlank '#' = false := by decide
  constructor
  · intro h
    refine ⟨after.takeWhile isBlank, trimLeft after, List.takeWhile_append_dropWhile.symm,
      fun c hc => (List.mem_takeWhile_imp hc), ?_⟩
    unfold trailingComment? at h
    split at h
    · rename_i ht
      cases h
      exact .inl ⟨ht, rfl⟩
    · rename_i t ht
      cases h
      exact .inr ⟨t, ht, by simp [List.isEmpty_iff]⟩
    · cases h
  · rintro ⟨ws, rest, rfl, hws, hrest⟩
    have htrim : trimLeft (ws ++ rest) = trimLeft rest := List.dropWhile_append_of_pos hws
    unfold trailingComment?
    rcases hrest with ⟨rfl, rfl⟩ | ⟨t, rfl, rfl⟩
    · rw [htrim]
      rfl
    · rw [htrim, trimLeft_cons_of_not_blank hhash]
      simp [List.isEmpty_iff]

/-! ## The lines a quoted value takes -/

/-- A quoted text with the lines `ls` added to it, each after a line feed. -/
def joinLines (text : List Char) (ls : List (List Char)) : List Char :=
  text ++ ls.flatMap ('\n' :: ·)

@[simp] theorem joinLines_nil (text : List Char) : joinLines text [] = text := by
  simp [joinLines]

theorem joinLines_cons (text l : List Char) (ls : List (List Char)) :
    joinLines text (l :: ls) = joinLines (text ++ '\n' :: l) ls := by
  simp [joinLines]

theorem Quote.finish?_eq_some_some {q : Quote} {text : List Char} {taken : Nat} {v : QuotedValue} :
    q.finish? text taken = some (some v) ↔
      ∃ inner after c, q.close? text.tail = some (inner, after) ∧ trailingComment? after = some c ∧
        v = ⟨q.value inner, c, taken⟩ := by
  constructor
  · intro h
    obtain ⟨⟨inner, after⟩, hclose, hp⟩ := Option.map_eq_some_iff.1 h
    obtain ⟨c, htrail, hv⟩ := Option.map_eq_some_iff.1 hp
    exact ⟨inner, after, c, hclose, htrail, hv.symm⟩
  · rintro ⟨inner, after, c, hclose, htrail, rfl⟩
    simp [Quote.finish?, hclose, htrail]

section Loop
variable {q : Quote} {text : List Char} {taken : Nat} {v : QuotedValue}

/-- The reading loop: it gives a value when the first text in which the quote closes, with `j` of
the further lines added, finishes the value with `j` lines taken. -/
theorem readQuoted_eq_some_iff {more : List (List Char)} :
    readQuoted q text taken more = some v ↔
      ∃ j ≤ more.length, (∀ i < j, q.close? (joinLines text (more.take i)).tail = none) ∧
        q.finish? (joinLines text (more.take j)) (taken + j) = some (some v) := by
  induction more generalizing text taken with
  | nil =>
    constructor
    · intro h
      refine ⟨0, le_rfl, fun i hi => absurd hi (Nat.not_lt_zero i), ?_⟩
      cases hf : q.finish? text taken with
      | none => simp [readQuoted, hf] at h
      | some r => simpa [readQuoted, hf] using h
    · rintro ⟨j, hj, -, hfin⟩
      obtain rfl : j = 0 := Nat.le_zero.1 hj
      have hfin : q.finish? text taken = some (some v) := by simpa using hfin
      simp [readQuoted, hfin]
  | cons l more ih =>
    cases hf : q.finish? text taken with
    | some r =>
      -- the quote closes in `text` already, so no further line is taken
      have hclosed : q.close? text.tail ≠ none := fun h => by
        rw [Quote.finish?_eq_none.2 h] at hf
        cases hf
      rw [readQuoted_of_finish hf]
      constructor
      · rintro rfl
        exact ⟨0, Nat.zero_le _, fun i hi => absurd hi (Nat.not_lt_zero i), by simpa using hf⟩
      · rintro ⟨j, -, hbefore, hfin⟩
        cases j with
        | zero => simpa [hf] using hfin
        | succ j => exact absurd (by simpa using hbefore 0 (Nat.succ_pos j)) hclosed
    | none =>
      -- still open: the reading goes on with the line `l` added
      have hopen : q.close? text.tail = none := Quote.finish?_eq_none.1 hf
      rw [readQuoted_of_open hf, ih]
      constructor
      · rintro ⟨j, hj, hbefore, hfin⟩
        refine ⟨j + 1, by simpa using hj, fun i hi => ?_, ?_⟩
        · cases i with
          | zero => simpa using hopen
          | succ i => simpa [joinLines_cons] using hbefore i (by omega)
        · rw [List.take_succ_cons, joinLines_cons, show taken + (j + 1) = taken + 1 + j by omega]
          exact hfin
      · rintro ⟨j, hj, hbefore, hfin⟩
        cases j with
        | zero => simp [hf] at hfin
        | succ j =>
          refine ⟨j, by simpa using hj, fun i hi => ?_, ?_⟩
          · simpa [joinLines_cons] using hbefore (i + 1) (by omega)
          · rw [List.take_succ_cons, joinLines_cons, show taken + (j + 1) = taken + 1 + j by omega] at hfin
            exact hfin

end Loop

/-- **Reading a quoted value.** Take the value text `rest`, which opens with the quote, and the
lines of a document, the next to read being line `next`; let `T i` be `rest` with the lines from
`next` up to `i` added. The reader gives the value `value`, the comment `comment` and `k` as the
next line to read exactly when `k` is the first index from `next` on at which the quote closes in
`T k`, what follows that closing quote is blanks and an optional comment, and `value` is what the
text between the quotes stands for. In every other case it gives nothing: also when other text
follows the first closing quote, however the later lines would close it. -/
theorem readQuoted_value_iff {q : Quote} {rest : List Char} {lines : List (List Char)} {next : Nat}
    (hnext : next ≤ lines.length) {value : List Char} {comment : Option (List Char)} {k : Nat} :
    (readQuoted q rest 0 (lines.drop next)).map (fun v => (v.value, v.comment, next + v.extraLines)) =
        some (value, comment, k) ↔
      next ≤ k ∧ k ≤ lines.length ∧
        (∀ i, next ≤ i → i < k → ∀ inner after,
          (joinLines rest ((lines.take i).drop next)).tail = inner ++ q.char :: after → ¬ q.Body inner) ∧
        ∃ inner after, (joinLines rest ((lines.take k).drop next)).tail = inner ++ q.char :: after ∧
          q.Body inner ∧ Trails after comment ∧ value = q.value inner := by
  rw [Option.map_eq_some_iff]
  constructor
  · rintro ⟨v, hv, hvk⟩
    obtain ⟨j, hj, hbefore, hfin⟩ := readQuoted_eq_some_iff.1 hv
    obtain ⟨inner, after, c, hclose, htrail, rfl⟩ := Quote.finish?_eq_some_some.1 hfin
    simp only [Prod.mk.injEq] at hvk
    obtain ⟨rfl, rfl, rfl⟩ := hvk
    have hj' : j ≤ lines.length - next := by simpa using hj
    refine ⟨by omega, by omega, fun i hi hik => ?_, inner, after, ?_⟩
    · -- the lines up to `i` are the first `i - next` lines read
      have := hbefore (i - next) (by omega)
      rw [List.take_drop, show next + (i - next) = i by omega] at this
      exact Quote.close?_eq_none_iff.1 this
    · rw [List.take_drop] at hclose
      rw [Nat.zero_add]
      obtain ⟨hs, hb⟩ := Quote.close?_eq_some_iff.1 hclose
      exact ⟨hs, hb, trailingComment?_eq_some_iff.1 htrail, rfl⟩
  · rintro ⟨hk₁, hk₂, hbefore, inner, after, hs, hb, htrail, rfl⟩
    refine ⟨⟨q.value inner, comment, 0 + (k - next)⟩,
      readQuoted_eq_some_iff.2 ⟨k - next, by simp; omega, fun i hi => ?_, ?_⟩, by simp; omega⟩
    · rw [List.take_drop]
      exact Quote.close?_eq_none_iff.2 (hbefore (next + i) (by omega) (by omega))
    · rw [List.take_drop, show next + (k - next) = k by omega]
      exact Quote.finish?_eq_some_some.2 ⟨inner, after, comment, Quote.close?_eq_some_iff.2 ⟨hs, hb⟩,
        trailingComment?_eq_some_iff.2 htrail, rfl⟩

/- The backslash that ends the first line pairs with the line feed added after it, so the quote
closes on the next line, and the pair stays as written. -/
theorem readQuoted_value_escaped_line_end :
    1 ≤ (["A=\"a\\", "b\" # note"].map String.toList).length ∧
      (readQuoted .double "\"a\\".toList 0 ((["A=\"a\\", "b\" # note"].map String.toList).drop 1)).map
          (fun v => (v.value, v.comment, 1 + v.extraLines)) =
        some ("a\\\nb".toList, some "note".toList, 2) := by
  refine ⟨by decide, (readQuoted_value_iff (by decide)).2 ⟨by decide, by decide, ?_,
    "a\\\nb".toList, " # note".toList, by decide, ?_, ?_, by decide⟩⟩
  · -- the first line alone holds no double quote after the opening one
    intro i hi hik inner after h
    obtain rfl : i = 1 := by omega
    have hq : Quote.double.char ∈ inner ++ Quote.double.char :: after := by simp
    rw [← h] at hq
    simp [joinLines, Quote.char] at hq
  · exact .plain (by decide) (by decide) (.escape (.plain (by decide) (by decide) .nil))
  · refine ⟨[' '], "# note".toList, rfl, fun c hc => ?_, .inr ⟨" note".toList, rfl, by decide⟩⟩
    rw [List.mem_singleton.1 hc]
    decide

end EnvAudit.Dotenv
