import EnvAudit.Proofs.Expanded
/-!
# The depth counter of the brace reader

The brace reader keeps a nesting depth, one more at each `{` and one fewer at each `}`: read from
depth `d`, a text `u` leaves it at `depthAfter d u`. This module says what the reader finds in
terms of that counter alone.

* `groupBody_isSome_iff`: a group body opened at a positive depth is found exactly when the depth
  comes back to zero somewhere after the opening.
* `braceGroup?_eq_none_iff`: a pattern has no group exactly when it has no `{`, or the depth never
  comes back to zero after its first one; `braceGroup?_closing` says where the group found ends.
* `noTopComma_of_mem_alternatives` and `intercalate_alternativesFrom`: the splitter cuts a body at
  its commas at depth zero and nowhere else, so its pieces joined by commas give the body back.
* `braceReader_follows_depth` gathers these.
* `Calls`: the patterns that expanding a pattern expands in its turn. Each is shorter than the
  pattern (`Calls.length_lt`), so there is no endless chain of calls.
-/

namespace EnvAudit.Glob

/-- The depth after reading `u` from depth `d`: one more for each `{`, one fewer for each `}`,
below zero too. -/
def depthAfter (d : Int) (u : List Char) : Int := d + u.count '{' - u.count '}'

section Depth
variable {d : Int} {k : Nat} {c : Char} {q u v s : List Char}

@[simp] theorem depthAfter_nil : depthAfter d [] = d := by simp [depthAfter]

/-- One character read, in the form the splitter tracks the depth. -/
theorem depthAfter_cons :
    depthAfter d (c :: u) =
      depthAfter (if c = '{' then d + 1 else if c = '}' then d - 1 else d) u := by
  unfold depthAfter
  by_cases h₁ : c = '{'
  · subst h₁
    simp
    omega
  · by_cases h₂ : c = '}'
    · subst h₂
      simp
      omega
    · simp [h₁, h₂]

theorem depthAfter_append : depthAfter d (u ++ v) = depthAfter (depthAfter d u) v := by
  simp [depthAfter, List.count_append]
  omega

/-- A text that closes `k` groups brings the depth from `k` down to zero. -/
theorem Closes.depthAfter_eq (h : Closes k s) : depthAfter k s = 0 := by
  have := h.count_eq
  simp only [depthAfter]
  omega

/-- No prefix of a text that closes `k` groups takes the depth below zero. -/
theorem Closes.depthAfter_nonneg (h : Closes k s) (hq : q <+: s) : 0 ≤ depthAfter k q := by
  have := h.prefix_le q hq
  simp only [depthAfter]
  omega

/-- Away from zero, the depth comes back to zero within `c :: s` only after reading `c`. -/
theorem exists_depthAfter_zero_cons_iff (hd : d ≠ 0) :
    (∃ q, q <+: c :: s ∧ depthAfter d q = 0) ↔ ∃ q, q <+: s ∧ depthAfter d (c :: q) = 0 := by
  constructor
  · rintro ⟨q, hq, h0⟩
    rcases List.prefix_cons_iff.1 hq with rfl | ⟨t, rfl, ht⟩
    · exact absurd h0 (by simpa using hd)
    · exact ⟨t, ht, h0⟩
  · rintro ⟨q, hq, h0⟩
    exact ⟨c :: q, List.cons_prefix_cons.2 ⟨rfl, hq⟩, h0⟩

end Depth

/-! ## The first group -/

section Groups
variable {p pre body suf : List Char}

/-- A group body read inside `d` open groups ends exactly when the depth first comes back to zero,
so it is found exactly when the depth does come back. -/
theorem groupBody_isSome_iff {d : Nat} (hd : 0 < d) {rest : List Char} :
    (groupBody d rest).isSome ↔ ∃ q, q <+: rest ∧ depthAfter d q = 0 := by
  induction rest generalizing d with
  | nil =>
    simp only [groupBody, Option.isSome_none, Bool.false_eq_true, false_iff, not_exists, not_and,
      List.prefix_nil]
    rintro q rfl
    simp
    omega
  | cons c rest ih =>
    rw [exists_depthAfter_zero_cons_iff (by omega)]
    simp only [groupBody]
    by_cases h₁ : c = '{'
    · subst h₁
      simp [ih (Nat.succ_pos d), depthAfter_cons]
    · by_cases h₂ : c = '}'
      · subst h₂
        by_cases hd1 : d ≤ 1
        · -- the brace closes the last open group
          obtain rfl : d = 1 := by omega
          simp
          exact ⟨[], by simp, by simp [depthAfter]⟩
        · have hcast : ((d - 1 : Nat) : Int) = d - 1 := by omega
          simp [hd1, ih (show 0 < d - 1 by omega), depthAfter_cons, hcast]
      · simp [h₁, h₂, ih hd, depthAfter_cons]

/-- A pattern has no group exactly when it has no `{`, or the depth never comes back to zero
after its first `{`. -/
theorem braceGroup?_eq_none_iff :
    braceGroup? p = none ↔ '{' ∉ p ∨
      ∀ pre rest, p = pre ++ '{' :: rest → '{' ∉ pre → ∀ q, q <+: rest → depthAfter 1 q ≠ 0 := by
  constructor
  · intro h
    by_cases hp : '{' ∈ p
    · refine .inr fun pre rest hp hpre q hq h0 => ?_
      obtain ⟨⟨b, a⟩, hg⟩ := Option.isSome_iff_exists.1
        ((groupBody_isSome_iff Nat.one_pos).2 ⟨q, hq, by simpa using h0⟩)
      have := braceGroup?_eq_some_iff.2 ⟨rest, hp, hpre, hg⟩
      rw [h] at this
      cases this
    · exact .inl hp
  · intro h
    cases hg : braceGroup? p with
    | none => rfl
    | some g =>
      obtain ⟨pre, b, a⟩ := g
      obtain ⟨rest, rfl, hpre, hb⟩ := braceGroup?_eq_some_iff.1 hg
      have hsome : (groupBody 1 rest).isSome := by simp [hb]
      obtain ⟨q, hq, h0⟩ := (groupBody_isSome_iff Nat.one_pos).1 hsome
      rcases h with h | h
      · exact absurd (by simp) h
      · exact absurd (by simpa using h0) (h pre rest rfl hpre q hq)

/-- The group found opens at the first `{` and closes at the `}` where the depth first comes back
to zero; its body is balanced. -/
theorem braceGroup?_closing (h : braceGroup? p = some (pre, body, suf)) :
    p = pre ++ '{' :: body ++ '}' :: suf ∧ '{' ∉ pre ∧ depthAfter 1 (body ++ ['}']) = 0 ∧
      (∀ q, q <+: body → 0 < depthAfter 1 q) ∧ Balanced body := by
  obtain ⟨hp, hpre, hb⟩ := braceGroup?_eq_some h
  refine ⟨hp, hpre, ?_, fun q hq => ?_, hb⟩
  · have := Closes.depthAfter_eq hb
    rw [depthAfter_append]
    simp [depthAfter] at this ⊢
    omega
  · have := Closes.depthAfter_nonneg hb hq
    simp [depthAfter] at this ⊢
    omega

end Groups

/-! ## Alternatives -/

/-- No comma of `a` stands at depth zero, reading `a` from depth `d`. -/
def NoTopComma (d : Int) (a : List Char) : Prop := ∀ u v, a = u ++ ',' :: v → depthAfter d u ≠ 0

section Alternatives
variable {d : Int} {c : Char} {a s : List Char}

theorem noTopComma_nil : NoTopComma d [] := by
  intro u v h
  cases u <;> simp at h

theorem noTopComma_cons : NoTopComma d (c :: a) ↔
    (c = ',' → d ≠ 0) ∧ NoTopComma (if c = '{' then d + 1 else if c = '}' then d - 1 else d) a := by
  constructor
  · intro h
    refine ⟨?_, fun u v huv => ?_⟩
    · rintro rfl
      simpa using h [] a rfl
    · rw [← depthAfter_cons]
      exact h (c :: u) v (by simp [huv])
  · rintro ⟨hc, ha⟩ u v huv
    cases u with
    | nil =>
      obtain ⟨rfl, -⟩ := List.cons_eq_cons.1 huv
      simpa using hc rfl
    | cons c' u =>
      simp only [List.cons_append, List.cons.injEq] at huv
      obtain ⟨rfl, huv⟩ := huv
      rw [depthAfter_cons]
      exact ha u v huv

/-- The splitter cuts only at commas at depth zero: its first piece has none read from the depth it
starts at, and every later piece starts at depth zero and has none either. -/
theorem alternativesFrom_noTopComma (d : Int) (s : List Char) :
    ∃ a as, alternativesFrom d s = a :: as ∧ NoTopComma d a ∧ ∀ b ∈ as, NoTopComma 0 b := by
  induction s generalizing d with
  | nil => exact ⟨[], [], rfl, noTopComma_nil, by simp⟩
  | cons c s ih =>
    simp only [alternativesFrom]
    by_cases hsplit : c = ',' ∧ d = 0
    · obtain ⟨a, as, heq, ha, has⟩ := ih d
      refine ⟨[], a :: as, by rw [if_pos hsplit, heq], noTopComma_nil, ?_⟩
      rw [hsplit.2] at ha
      simpa using ⟨ha, has⟩
    · obtain ⟨a, as, heq, ha, has⟩ := ih (if c = '{' then d + 1 else if c = '}' then d - 1 else d)
      refine ⟨c :: a, as, by rw [if_neg hsplit, heq], noTopComma_cons.2 ⟨?_, ha⟩, has⟩
      rintro rfl rfl
      exact hsplit ⟨rfl, rfl⟩

/-- The splitter drops only the commas it cuts at. -/
theorem intercalate_alternativesFrom (d : Int) (s : List Char) :
    List.intercalate [','] (alternativesFrom d s) = s := by
  induction s generalizing d with
  | nil => simp [alternativesFrom]
  | cons c s ih =>
    simp only [alternativesFrom]
    by_cases hsplit : c = ',' ∧ d = 0
    · rw [if_pos hsplit, List.intercalate_cons_of_ne_nil (alternativesFrom_ne_nil d s), ih, hsplit.1]
      rfl
    · rw [if_neg hsplit]
      have hrest := ih (if c = '{' then d + 1 else if c = '}' then d - 1 else d)
      obtain ⟨a, as, heq⟩ := List.exists_cons_of_ne_nil (alternativesFrom_ne_nil
        (if c = '{' then d + 1 else if c = '}' then d - 1 else d) s)
      rw [heq] at hrest ⊢
      simp [hrest]

/-- No alternative of a body holds a comma at depth zero. -/
theorem noTopComma_of_mem_alternatives {body : List Char} (ha : a ∈ alternatives body) :
    NoTopComma 0 a := by
  obtain ⟨a₀, as, heq, ha₀, has⟩ := alternativesFrom_noTopComma 0 body
  have heq : alternatives body = a₀ :: as := heq
  rw [heq, List.mem_cons] at ha
  rcases ha with rfl | ha
  · exact ha₀
  · exact has a ha

end Alternatives

/-- **The brace reader follows the depth counter.** A pattern `p` has no group exactly when it has
no `{` or the depth never comes back to zero after its first `{`. Otherwise the group found runs
from index `pre.length`, the first `{`, to index `pre.length + body.length + 1`, the `}` where the
depth first comes back to zero, and the body between them is balanced. A balanced body is cut into
balanced pieces with no comma at depth zero, which joined by commas give the body back. -/
theorem braceReader_follows_depth (p body : List Char) :
    (braceGroup? p = none ↔ '{' ∉ p ∨
      ∀ pre rest, p = pre ++ '{' :: rest → '{' ∉ pre → ∀ q, q <+: rest → depthAfter 1 q ≠ 0) ∧
    (∀ pre b suf, braceGroup? p = some (pre, b, suf) →
      p = pre ++ '{' :: b ++ '}' :: suf ∧ '{' ∉ pre ∧ depthAfter 1 (b ++ ['}']) = 0 ∧
        (∀ q, q <+: b → 0 < depthAfter 1 q) ∧ Balanced b) ∧
    (Balanced body → List.intercalate [','] (alternatives body) = body ∧
      ∀ a ∈ alternatives body, Balanced a ∧ NoTopComma 0 a) := by
  refine ⟨braceGroup?_eq_none_iff, fun pre b suf h => braceGroup?_closing h, fun hb => ?_⟩
  exact ⟨intercalate_alternativesFrom 0 body,
    fun a ha => ⟨hb.of_mem_alternatives ha, noTopComma_of_mem_alternatives ha⟩⟩

theorem nested_group_follows_depth :
    braceGroup? "a.{js,{ts,tsx}}".toList = some ("a.".toList, "js,{ts,tsx}".toList, []) ∧
      depthAfter 1 ("js,{ts,tsx}".toList ++ ['}']) = 0 ∧ Balanced "js,{ts,tsx}".toList ∧
      List.intercalate [','] (alternatives "js,{ts,tsx}".toList) = "js,{ts,tsx}".toList ∧
      ∀ a ∈ alternatives "js,{ts,tsx}".toList, Balanced a ∧ NoTopComma 0 a := by
  have hg : braceGroup? "a.{js,{ts,tsx}}".toList =
      some ("a.".toList, "js,{ts,tsx}".toList, []) := by decide
  have hb : Balanced "js,{ts,tsx}".toList := by decide
  obtain ⟨-, hsome, halt⟩ := braceReader_follows_depth "a.{js,{ts,tsx}}".toList "js,{ts,tsx}".toList
  exact ⟨hg, (hsome _ _ _ hg).2.2.1, hb, halt hb⟩

/-! ## The recursion of `expand` -/

/-- `Calls t s`: expanding `s` expands `t` in its turn. A group with one alternative has its body
and the text after it expanded; a group with two or more has the pattern expanded again with the
group replaced by each alternative (the equations `expand_of_single` and `expand_of_multi`). -/
inductive Calls : List Char → List Char → Prop
  | body {s pre body suf : List Char} : braceGroup? s = some (pre, body, suf) →
      (alternatives body).length < 2 → Calls body s
  | rest {s pre body suf : List Char} : braceGroup? s = some (pre, body, suf) →
      (alternatives body).length < 2 → Calls suf s
  | alt {s pre body suf a : List Char} : braceGroup? s = some (pre, body, suf) →
      ¬ (alternatives body).length < 2 → a ∈ alternatives body → Calls (pre ++ a ++ suf) s

/-- Replacing the first group by one of its alternatives drops the two braces and the rest of the
body. -/
theorem length_replace_group {s pre body suf a : List Char} (h : braceGroup? s = some (pre, body, suf))
    (ha : a ∈ alternatives body) :
    (pre ++ a ++ suf).length + 2 + (body.length - a.length) = s.length := by
  have hs := braceGroup?_length h
  have ha := length_le_of_mem_alternativesFrom ha
  simp only [List.length_append]
  omega

theorem Calls.length_lt {t s : List Char} (h : Calls t s) : t.length < s.length := by
  cases h with
  | body hg => have := braceGroup?_length hg; omega
  | rest hg => have := braceGroup?_length hg; omega
  | alt hg _ ha => have := length_replace_group hg ha; omega

/-- **Every call `expand` makes is on a shorter pattern,** so no chain of calls is endless. -/
theorem expand_calls_shorter :
    (∀ t s, Calls t s → t.length < s.length) ∧ WellFounded Calls :=
  ⟨fun _ _ h => h.length_lt,
    Subrelation.wf (fun h => Calls.length_lt h) (InvImage.wf List.length Nat.lt_wfRel.wf)⟩

theorem expand_calls_first_alternative :
    Calls "a.js".toList "a.{js,ts}".toList ∧ "a.js".toList.length < "a.{js,ts}".toList.length := by
  have hg : braceGroup? "a.{js,ts}".toList = some ("a.".toList, "js,ts".toList, []) := by decide
  have hcall : Calls ("a.".toList ++ "js".toList ++ []) "a.{js,ts}".toList :=
    Calls.alt hg (by decide) (by decide)
  simp only [List.append_nil] at hcall
  exact ⟨hcall, expand_calls_shorter.1 _ _ hcall⟩

end EnvAudit.Glob
