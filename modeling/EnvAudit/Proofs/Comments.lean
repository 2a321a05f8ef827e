import EnvAudit.Proofs.RoundTrip
/-!
# Which comment an entry gets

An entry's comment is its own, the comment after `#` on its line, when that is present and not
empty. Otherwise it is the comment of the comment line attached to its line: the last comment
line before it with only lines passed over in between, that is lines that are neither blank nor
comments and that no entry reads. A blank line, and a line of another entry (its own line or a
line its quoted value took), detach a comment; when nothing is attached the entry has no comment
(`entries_comment`).

The reading loop carries the comment as it goes, as the pending comment. `CommentRule` says what
the entries read from a run of lines get, given the comment pending before the run. It is kept by
the two steps of the loop: a line that declares nothing moves the pending comment on as
`pendingAfter` does, which is what the attachment rule asks of that line (`pendingAfter_eq_some`,
`CommentRule.skip`); a declaring line gives its entry the pending comment and hands on none
(`CommentRule.first`, `CommentRule.declare`). Lines are counted past the first ones through
`SplitsAt`, which says that the entries read so far lie within them.
-/

namespace EnvAudit.Dotenv

open EnvAudit.Text

/-! ## Lines as the comment rule sees them -/

/-- The comment that the value on line `i` has of its own, when line `i` is an assignment: the
text after `#` of a value read bare, or after the closing quote of a quoted one. -/
def ownComment (ls : List (List Char)) (i : Nat) : Option (List Char) :=
  match lineAssignment? (ls.getD i []) with
  | some (_, rest) => (readValue rest (ls.drop (i + 1))).2.1
  | none => none

/-- Line `i` is read as part of an entry of `es`: it is the entry's own line, or a line its value
took. The lines are counted from `n`. -/
def OnEntry (n : Nat) (ls : List (List Char)) (es : List Entry) (i : Nat) : Prop :=
  (∃ e ∈ es, e.line = n + i) ∨ InsideValue n ls es i

/-- Line `j` is read as a comment line, and `c` is its comment: the trimmed text after `#`. -/
def CommentLine (n : Nat) (ls : List (List Char)) (es : List Entry) (j : Nat) (c : String) : Prop :=
  ¬ OnEntry n ls es j ∧ ∃ t, trim (ls.getD j []) = '#' :: t ∧ c = String.ofList (trim t)

/-- Line `m` is passed over by the comment rule: no entry reads it, and it is neither blank nor a
comment. -/
def PassedOver (n : Nat) (ls : List (List Char)) (es : List Entry) (m : Nat) : Prop :=
  ¬ OnEntry n ls es m ∧ trim (ls.getD m []) ≠ [] ∧ (trim (ls.getD m [])).head? ≠ some '#'

/-- The comment line `j`, with the comment `c`, is attached to line `i`: it comes before it, and
only lines passed over stand between them. -/
def Attached (n : Nat) (ls : List (List Char)) (es : List Entry) (j i : Nat) (c : String) : Prop :=
  CommentLine n ls es j c ∧ j < i ∧ ∀ m, j < m → m < i → PassedOver n ls es m

/-- The comment of an entry `e` read from the lines `ls`, counted from `n`, with `pending` the
comment pending before them. Its own comment, when not empty, is its comment; otherwise it has the
comment of the comment line attached to its line, or the pending comment when only lines passed
over come before its line. -/
def CommentRule (n : Nat) (ls : List (List Char)) (es : List Entry) (pending : Option String)
    (e : Entry) : Prop :=
  (∀ x xs, ownComment ls (e.line - n) = some (x :: xs) → e.comment = some (String.ofList (x :: xs))) ∧
  ((∀ c, ownComment ls (e.line - n) = some c → c = []) → ∀ c, e.comment = some c ↔
    (∃ j, Attached n ls es j (e.line - n) c) ∨ (pending = some c ∧ ∀ m < e.line - n, PassedOver n ls es m))

/-! ## Counting lines past the first ones -/

/-- The entries `front` and their values lie within the first `d` lines, and the entries `back`
come after them. -/
structure SplitsAt (n d : Nat) (ls : List (List Char)) (front back : List Entry) : Prop where
  front_within : ∀ e ∈ front, ∃ j, e.line = n + j ∧ j + valueSpan ls j < d
  back_after : ∀ e ∈ back, n + d ≤ e.line

theorem ownComment_drop (ls : List (List Char)) (d i : Nat) :
    ownComment (ls.drop d) i = ownComment ls (d + i) := by
  simp only [ownComment, getD_drop, List.drop_drop, Nat.add_assoc]

namespace SplitsAt
variable {n d i j : Nat} {ls : List (List Char)} {front back : List Entry} {c : String}

theorem onEntry_iff (h : SplitsAt n d ls front back) :
    OnEntry n ls (front ++ back) (d + i) ↔ OnEntry (n + d) (ls.drop d) back i := by
  unfold OnEntry InsideValue
  constructor
  · rintro (⟨e, he, hl⟩ | ⟨j, hj, ⟨e, he, hl⟩, hle⟩)
    · rcases List.mem_append.1 he with he | he
      · obtain ⟨j, hj, hs⟩ := h.front_within e he
        omega
      · exact .inl ⟨e, he, by omega⟩
    · rcases List.mem_append.1 he with he | he
      · -- an entry of the first lines takes no line from line `d` on
        obtain ⟨j₀, hj₀, hs⟩ := h.front_within e he
        obtain rfl : j = j₀ := by omega
        omega
      · have := h.back_after e he
        obtain ⟨j, rfl⟩ : ∃ j', j = d + j' := ⟨j - d, by omega⟩
        rw [← valueSpan_drop] at hle
        exact .inr ⟨j, by omega, ⟨e, he, by omega⟩, by omega⟩
  · rintro (⟨e, he, hl⟩ | ⟨j, hj, ⟨e, he, hl⟩, hle⟩)
    · exact .inl ⟨e, List.mem_append_right _ he, by omega⟩
    · rw [valueSpan_drop] at hle
      exact .inr ⟨d + j, by omega, ⟨e, List.mem_append_right _ he, by omega⟩, by omega⟩

theorem commentLine_iff (h : SplitsAt n d ls front back) :
    CommentLine n ls (front ++ back) (d + j) c ↔ CommentLine (n + d) (ls.drop d) back j c := by
  rw [CommentLine, CommentLine, h.onEntry_iff, getD_drop]

theorem passedOver_iff (h : SplitsAt n d ls front back) :
    PassedOver n ls (front ++ back) (d + j) ↔ PassedOver (n + d) (ls.drop d) back j := by
  rw [PassedOver, PassedOver, h.onEntry_iff, getD_drop]

theorem passedOver_between_iff (h : SplitsAt n d ls front back) :
    (∀ m, d + j < m → m < d + i → PassedOver n ls (front ++ back) m) ↔
      ∀ m, j < m → m < i → PassedOver (n + d) (ls.drop d) back m := by
  constructor
  · intro hm m h₁ h₂
    exact h.passedOver_iff.1 (hm (d + m) (by omega) (by omega))
  · intro hm m h₁ h₂
    obtain ⟨m, rfl⟩ : ∃ m', m = d + m' := ⟨m - d, by omega⟩
    exact h.passedOver_iff.2 (hm m (by omega) (by omega))

theorem attached_iff (h : SplitsAt n d ls front back) :
    Attached n ls (front ++ back) (d + j) (d + i) c ↔ Attached (n + d) (ls.drop d) back j i c := by
  rw [Attached, Attached, h.commentLine_iff, h.passedOver_between_iff]
  constructor
  · rintro ⟨hc, hlt, hm⟩
    exact ⟨hc, by omega, hm⟩
  · rintro ⟨hc, hlt, hm⟩
    exact ⟨hc, by omega, hm⟩

/-- The comment lines from line `d` on that are attached to a later line are those of the lines
after the first `d`. -/
theorem exists_attached_iff (h : SplitsAt n d ls front back) :
    (∃ j, d ≤ j ∧ Attached n ls (front ++ back) j (d + i) c) ↔
      ∃ j, Attached (n + d) (ls.drop d) back j i c := by
  constructor
  · rintro ⟨j, hj, ha⟩
    obtain ⟨j, rfl⟩ : ∃ j', j = d + j' := ⟨j - d, by omega⟩
    exact ⟨j, h.attached_iff.1 ha⟩
  · rintro ⟨j, ha⟩
    exact ⟨d + j, by omega, h.attached_iff.2 ha⟩

theorem passedOver_from_iff (h : SplitsAt n d ls front back) :
    (∀ m, d ≤ m → m < d + i → PassedOver n ls (front ++ back) m) ↔
      ∀ m < i, PassedOver (n + d) (ls.drop d) back m := by
  constructor
  · intro hm m hmi
    exact h.passedOver_iff.1 (hm (d + m) (by omega) (by omega))
  · intro hm m hdm hmi
    obtain ⟨m, rfl⟩ : ∃ m', m = d + m' := ⟨m - d, by omega⟩
    exact h.passedOver_iff.2 (hm m (by omega))

end SplitsAt

/-! ## A line that declares nothing -/

section Skip
variable {n : Nat} {raw : List Char} {more : List (List Char)} {es : List Entry} {c : String}
  {pending : Option String}

theorem SplitsAt.of_after (hafter : ∀ e ∈ es, n + 1 ≤ e.line) : SplitsAt n 1 (raw :: more) [] es :=
  ⟨by simp, hafter⟩

theorem not_onEntry_zero (hafter : ∀ e ∈ es, n + 1 ≤ e.line) : ¬ OnEntry n (raw :: more) es 0 := by
  rintro (⟨e, he, hl⟩ | ⟨j, hj, -⟩)
  · have := hafter e he
    omega
  · omega

/-- The pending comment after a line that no entry reads is the comment the rule gives that line:
its own when it is a comment line, and the one pending before when it is passed over. -/
theorem pendingAfter_eq_some (h0 : ¬ OnEntry n (raw :: more) es 0) :
    pendingAfter raw pending = some c ↔
      CommentLine n (raw :: more) es 0 c ∨ (pending = some c ∧ PassedOver n (raw :: more) es 0) := by
  simp only [CommentLine, PassedOver, List.getD_cons_zero, h0, not_false_eq_true, true_and]
  unfold pendingAfter
  split
  · rename_i ht
    simp [ht]
  · rename_i t ht
    simp [ht, eq_comm]
  · rename_i hnil hhash
    have hne : trim raw ≠ [] := fun ht => hnil ht
    have hhead : (trim raw).head? ≠ some '#' := by
      intro hh
      obtain ⟨t, ht⟩ : ∃ t, trim raw = '#' :: t := by
        cases hr : trim raw with
        | nil => simp [hr] at hh
        | cons x t =>
          rw [hr] at hh
          obtain rfl : x = '#' := by simpa using hh
          exact ⟨t, rfl⟩
      exact hhash t ht
    constructor
    · intro hp
      exact .inr ⟨hp, hne, hhead⟩
    · rintro (⟨t, ht, -⟩ | ⟨hp, -⟩)
      · exact absurd ht (hhash t)
      · exact hp

/-- Past a line that declares nothing, the rule for an entry on line `i + 1` is the rule for line
`i` of the lines after it, with the comment pending after the first line. -/
theorem attached_or_pending_skip (hafter : ∀ e ∈ es, n + 1 ≤ e.line) (i : Nat) :
    ((∃ j, Attached n (raw :: more) es j (1 + i) c) ∨
        (pending = some c ∧ ∀ m < 1 + i, PassedOver n (raw :: more) es m)) ↔
      ((∃ j, Attached (n + 1) more es j i c) ∨
        (pendingAfter raw pending = some c ∧ ∀ m < i, PassedOver (n + 1) more es m)) := by
  have hs : SplitsAt n 1 (raw :: more) [] es := SplitsAt.of_after hafter
  -- the lines after the first, up to line `i + 1`, are all passed over
  have hbetween : (∀ m, 0 < m → m < 1 + i → PassedOver n (raw :: more) es m) ↔
      ∀ m < i, PassedOver (n + 1) more es m :=
    hs.passedOver_from_iff
  -- the comment line attached may be the first line itself
  have hfirst : Attached n (raw :: more) es 0 (1 + i) c ↔
      CommentLine n (raw :: more) es 0 c ∧ ∀ m < i, PassedOver (n + 1) more es m := by
    rw [Attached, ← hbetween]
    constructor
    · rintro ⟨hc, -, hm⟩
      exact ⟨hc, hm⟩
    · rintro ⟨hc, hm⟩
      exact ⟨hc, by omega, hm⟩
  have hall : (∀ m < 1 + i, PassedOver n (raw :: more) es m) ↔
      PassedOver n (raw :: more) es 0 ∧ ∀ m < i, PassedOver (n + 1) more es m := by
    rw [← hbetween]
    constructor
    · intro hm
      exact ⟨hm 0 (by omega), fun m _ hm' => hm m hm'⟩
    · rintro ⟨h0, hm⟩ m hm'
      rcases Nat.eq_zero_or_pos m with rfl | hpos
      · exact h0
      · exact hm m hpos hm'
  have hj : (∃ j, Attached n (raw :: more) es j (1 + i) c) ↔
      Attached n (raw :: more) es 0 (1 + i) c ∨ ∃ j, Attached (n + 1) more es j i c := by
    constructor
    · rintro ⟨j, hj⟩
      rcases Nat.eq_zero_or_pos j with rfl | hpos
      · exact .inl hj
      · exact .inr (hs.exists_attached_iff.1 ⟨j, hpos, hj⟩)
    · rintro (h | h)
      · exact ⟨0, h⟩
      · obtain ⟨j, -, h⟩ := hs.exists_attached_iff.2 h
        exact ⟨j, h⟩
  rw [hj, hfirst, hall, pendingAfter_eq_some (not_onEntry_zero hafter)]
  constructor
  · rintro ((⟨hc, hm⟩ | ha) | ⟨hp, h0, hm⟩)
    · exact .inr ⟨.inl hc, hm⟩
    · exact .inl ha
    · exact .inr ⟨.inr ⟨hp, h0⟩, hm⟩
  · rintro (ha | ⟨hc | ⟨hp, h0⟩, hm⟩)
    · exact .inl (.inr ha)
    · exact .inl (.inl ⟨hc, hm⟩)
    · exact .inr ⟨hp, h0, hm⟩

/-- A line on which no entry stands keeps the comment rule, with the comment pending after it. -/
theorem CommentRule.skip (hafter : ∀ e ∈ es, n + 1 ≤ e.line)
    {e : Entry} (he : e ∈ es) (hrule : CommentRule (n + 1) more es (pendingAfter raw pending) e) :
    CommentRule n (raw :: more) es pending e := by
  have hline := hafter e he
  have hi : e.line - n = 1 + (e.line - (n + 1)) := by omega
  have hown : ownComment (raw :: more) (e.line - n) = ownComment more (e.line - (n + 1)) := by
    rw [hi, ← ownComment_drop]
    rfl
  refine ⟨fun x xs ho => hrule.1 x xs (hown ▸ ho), fun hempty c => ?_⟩
  rw [hrule.2 (hown ▸ hempty) c, hi, attached_or_pending_skip hafter]

end Skip

/-! ## A declaring line -/

section Declare
variable {n k : Nat} {raw name rest : List Char} {more : List (List Char)} {e₀ : Entry}
  {es : List Entry} {pending : Option String}

theorem ownComment_zero (h : lineAssignment? raw = some (name, rest)) :
    ownComment (raw :: more) 0 = (readValue rest more).2.1 := by
  simp [ownComment, h]

/-- The entry of a declaring line takes its own comment when not empty, and the pending one
otherwise. -/
theorem CommentRule.first (h : lineAssignment? raw = some (name, rest)) (hline : e₀.line = n)
    (hcomment : e₀.comment = chooseComment (readValue rest more).2.1 pending) :
    CommentRule n (raw :: more) (e₀ :: es) pending e₀ := by
  rw [CommentRule, hline, Nat.sub_self, ownComment_zero h, hcomment]
  refine ⟨fun x xs ho => by rw [ho]; rfl, fun hempty c => ?_⟩
  -- nothing comes before the entry's own line, so only the pending comment can reach it
  have hpending : chooseComment (readValue rest more).2.1 pending = pending := by
    cases ho : (readValue rest more).2.1 with
    | none => rfl
    | some o =>
      obtain rfl := hempty o ho
      rfl
  rw [hpending]
  constructor
  · intro hc
    exact .inr ⟨hc, fun m hm => absurd hm (Nat.not_lt_zero m)⟩
  · rintro (⟨j, -, hj, -⟩ | ⟨hc, -⟩)
    · exact absurd hj (Nat.not_lt_zero j)
    · exact hc

theorem onEntry_of_le_valueSpan (he₀ : e₀ ∈ es) (hline : e₀.line = n) {ls : List (List Char)} {j : Nat}
    (hj : j ≤ valueSpan ls 0) : OnEntry n ls es j := by
  rcases Nat.eq_zero_or_pos j with rfl | hpos
  · exact .inl ⟨e₀, he₀, by omega⟩
  · exact .inr ⟨0, hpos, ⟨e₀, he₀, by omega⟩, by omega⟩

/-- Past a declaring line and the lines its value took, the rule for the later entries is the rule
for the lines after them, with no comment pending. -/
theorem CommentRule.declare (hline : e₀.line = n) (hspan : valueSpan (raw :: more) 0 = k)
    (hafter : ∀ e ∈ es, n + 1 + k ≤ e.line) {e : Entry} (he : e ∈ es)
    (hrule : CommentRule (n + 1 + k) (more.drop k) es none e) :
    CommentRule n (raw :: more) (e₀ :: es) pending e := by
  have hs : SplitsAt n (k + 1) (raw :: more) [e₀] es :=
    ⟨fun e' he' => ⟨0, by rw [List.mem_singleton.1 he', hline]; rfl, by omega⟩,
      fun e' he' => by have := hafter e' he'; omega⟩
  have hdrop : (raw :: more).drop (k + 1) = more.drop k := rfl
  have hn : n + (k + 1) = n + 1 + k := by omega
  have hline' := hafter e he
  have hi : e.line - n = k + 1 + (e.line - (n + 1 + k)) := by omega
  have hown : ownComment (raw :: more) (e.line - n) = ownComment (more.drop k) (e.line - (n + 1 + k)) := by
    rw [hi, ← ownComment_drop, hdrop]
  have hon : ∀ j ≤ k, OnEntry n (raw :: more) (e₀ :: es) j := fun j hj =>
    onEntry_of_le_valueSpan List.mem_cons_self hline (by omega)
  refine ⟨fun x xs ho => hrule.1 x xs (hown ▸ ho), fun hempty c => ?_⟩
  have hat := hs.exists_attached_iff (i := e.line - (n + 1 + k)) (c := c)
  rw [hdrop, hn, ← hi] at hat
  rw [hrule.2 (hown ▸ hempty) c, ← hat]
  constructor
  · rintro (⟨j, -, hj⟩ | ⟨hc, -⟩)
    · exact .inl ⟨j, hj⟩
    · cases hc
  · rintro (⟨j, hj⟩ | ⟨-, hm⟩)
    · -- the comment line lies past the entry's value: the lines up to there are the entry's
      have hjk : k + 1 ≤ j := by
        by_contra hlt
        exact hj.1.1 (hon j (by omega))
      exact .inl ⟨j, hjk, hj⟩
    · exact absurd (hon 0 (Nat.zero_le k)) (hm 0 (by omega)).1

end Declare

/-! ## Every document -/

/-- The entries read from a run of lines keep the comment rule, whatever comment is pending. -/
theorem commentRule_readLines (pending : Option String) (n : Nat) (ls : List (List Char)) :
    ∀ e ∈ (readLines pending n ls).entries, CommentRule n ls (readLines pending n ls).entries pending e := by
  match ls with
  | [] => simp [readLines_nil]
  | raw :: more =>
    cases h : lineAssignment? raw with
    | none =>
      rw [entries_cons_of_none h pending n more]
      intro e he
      have hafter : ∀ e' ∈ (readLines (pendingAfter raw pending) (n + 1) more).entries, n + 1 ≤ e'.line :=
        fun e' he' => ((lineAccount_readLines _ (n + 1) more).bounded e' he').1
      exact CommentRule.skip hafter he (commentRule_readLines _ (n + 1) more e he)
    | some a =>
      obtain ⟨name, rest⟩ := a
      rw [entries_cons_of_some h pending n more]
      have hafter : ∀ e' ∈ (readLines none (n + 1 + (readValue rest more).2.2)
          (more.drop (readValue rest more).2.2)).entries, n + 1 + (readValue rest more).2.2 ≤ e'.line :=
        fun e' he' => ((lineAccount_readLines _ _ _).bounded e' he').1
      rintro e (_ | ⟨_, he⟩)
      · exact CommentRule.first (n := n) h rfl rfl
      · have hrule := commentRule_readLines none (n + 1 + (readValue rest more).2.2)
          (more.drop (readValue rest more).2.2) e he
        exact CommentRule.declare (n := n) rfl (valueSpan_cons_zero more h) hafter he hrule
termination_by ls.length
decreasing_by all_goals (simp only [List.length_cons, List.length_drop]; omega)

/-- **The comment of an entry.** For every document, an entry whose own comment is present and not
empty has it as its comment. Otherwise its comment is that of the comment line attached to its
line: the last comment line before it with no blank line and no line of another entry in between,
other lines not detaching it. When no comment line is attached, the entry has no comment. -/
theorem entries_comment (content : String) :
    ∀ e ∈ entries content,
      (∀ x xs, ownComment (lines content.toList) (e.line - 1) = some (x :: xs) →
        e.comment = some (String.ofList (x :: xs))) ∧
      ((∀ c, ownComment (lines content.toList) (e.line - 1) = some c → c = []) →
        ∀ c, e.comment = some c ↔ ∃ j, Attached 1 (lines content.toList) (entries content) j (e.line - 1) c) := by
  intro e he
  obtain ⟨hown, hattached⟩ := commentRule_readLines none 1 (lines content.toList) e he
  refine ⟨hown, fun hempty c => ?_⟩
  rw [hattached hempty c]
  simp [entries, parse]

/- The comment on line 1 reaches the entry on line 3 past line 2, which is no assignment. -/
theorem entries_comment_past_other_line :
    (⟨"A", "1", some "note", 3⟩ : Entry) ∈ entries "# note\nnot an assignment\nA=1" ∧
      ((∀ x xs, ownComment (lines "# note\nnot an assignment\nA=1".toList)
            ((⟨"A", "1", some "note", 3⟩ : Entry).line - 1) = some (x :: xs) →
          (⟨"A", "1", some "note", 3⟩ : Entry).comment = some (String.ofList (x :: xs))) ∧
        ((∀ c, ownComment (lines "# note\nnot an assignment\nA=1".toList)
            ((⟨"A", "1", some "note", 3⟩ : Entry).line - 1) = some c → c = []) →
          ∀ c, (⟨"A", "1", some "note", 3⟩ : Entry).comment = some c ↔
            ∃ j, Attached 1 (lines "# note\nnot an assignment\nA=1".toList)
              (entries "# note\nnot an assignment\nA=1") j ((⟨"A", "1", some "note", 3⟩ : Entry).line - 1) c)) := by
  have he : (⟨"A", "1", some "note", 3⟩ : Entry) ∈ entries "# note\nnot an assignment\nA=1" := by
    decide +kernel
  exact ⟨he, entries_comment _ _ he⟩

end EnvAudit.Dotenv
