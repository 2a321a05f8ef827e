import Mathlib.Data.List.Nodup
import EnvAudit.Proofs.Expansion
/-!
# Expansions are fully expanded

Expanding a pattern gives patterns that expansion leaves alone, whatever the braces of the pattern
(`expandBraces_fully_expanded`). The patterns it leaves alone are those in `Expanded` form: every
group the reader finds, in the pattern, in the bodies of its groups and in the text after them,
has a single alternative (`expand_of_expanded`).

A group kept as written, `pre ++ '{' :: body ++ '}' :: suf`, comes out as
`pre ++ '{' :: x ++ '}' :: y` for an expansion `x` of its body and `y` of the rest. That this is in
`Expanded` form needs two facts. The reader finds the same group again, since `x` is balanced
(`braceGroup?_group`). And `x` is a single alternative, like the body: an expansion never brings a
comma to the top level (`length_alternatives_of_mem_expand`). The alternatives are counted as the
splitter reads them: text after a balanced text adds its own (`length_alternatives_append`), a
group adds none (`length_alternatives_group`), and each alternative of a body is one alternative
by itself (`length_alternatives_of_mem_alternatives`).
-/

namespace EnvAudit.Glob

/-! ## Counting alternatives -/

section Count
variable {d : Int} {c : Char} {s a w : List Char}

theorem alternativesFrom_ne_nil (d : Int) (s : List Char) : alternativesFrom d s ≠ [] := by
  cases s with
  | nil => simp [alternativesFrom]
  | cons c s =>
    simp only [alternativesFrom]
    split
    · simp
    · split <;> simp

theorem one_le_length_alternatives (s : List Char) : 1 ≤ (alternatives s).length :=
  List.length_pos_iff.2 (alternativesFrom_ne_nil 0 s)

/-- A character opens a new alternative when it is a comma at depth zero; either way the rest is
read at the depth after it. -/
theorem length_alternativesFrom_cons :
    (alternativesFrom d (c :: s)).length =
      (alternativesFrom (if c = '{' then d + 1 else if c = '}' then d - 1 else d) s).length +
        if c = ',' ∧ d = 0 then 1 else 0 := by
  simp only [alternativesFrom]
  split
  · rename_i h
    obtain ⟨rfl, -⟩ := h
    simp
  · cases hs : alternativesFrom (if c = '{' then d + 1 else if c = '}' then d - 1 else d) s with
    | nil => exact absurd hs (alternativesFrom_ne_nil _ _)
    | cons p ps => simp

/-- The alternatives of `a ++ w`: those of `a`, the last of them run on into the first of `w`,
which is read at the depth `a` leaves. -/
theorem length_alternativesFrom_append (d : Int) (a w : List Char) :
    (alternativesFrom d (a ++ w)).length + 1 =
      (alternativesFrom d a).length + (alternativesFrom (d + a.count '{' - a.count '}') w).length := by
  induction a generalizing d with
  | nil => simp [alternativesFrom, Nat.add_comm]
  | cons c a ih =>
    rw [List.cons_append, length_alternativesFrom_cons, length_alternativesFrom_cons]
    have hdepth : (if c = '{' then d + 1 else if c = '}' then d - 1 else d) + a.count '{' -
        a.count '}' = d + (c :: a).count '{' - (c :: a).count '}' := by
      by_cases h₁ : c = '{'
      · subst h₁
        simp
        omega
      · by_cases h₂ : c = '}'
        · subst h₂
          simp
          omega
        · simp [h₁, h₂]
    rw [← hdepth]
    have := ih (if c = '{' then d + 1 else if c = '}' then d - 1 else d)
    omega

/-- Text after a balanced text adds its own alternatives, less the one they share. -/
theorem length_alternatives_append (ha : Balanced a) (w : List Char) :
    (alternatives (a ++ w)).length + 1 = (alternatives a).length + (alternatives w).length := by
  have hcount := ha.count_eq
  have := length_alternativesFrom_append 0 a w
  rw [hcount] at this
  simpa [alternatives] using this

/-- A text that starts with `}` is read inside at least one group. -/
theorem Closes.exists_succ_of_close {k : Nat} (h : Closes k ('}' :: a)) : ∃ k', k = k' + 1 := by
  cases k with
  | zero => exact absurd h not_closes_zero_close
  | succ k => exact ⟨k, rfl⟩

/-- Inside open groups no comma splits: a text that closes `k` groups, read inside `e + k` of
them, adds no alternative before what follows it. -/
theorem length_alternativesFrom_closes {k e : Nat} (h : Closes k a) (he : 0 < e) (w : List Char) :
    (alternativesFrom ((e + k : Nat) : Int) (a ++ w)).length = (alternativesFrom (e : Int) w).length := by
  induction a generalizing k with
  | nil => rw [closes_nil_iff.1 h, Nat.add_zero, List.nil_append]
  | cons c a ih =>
    have hsplit : ¬ (c = ',' ∧ ((e + k : Nat) : Int) = 0) := fun h' => by omega
    rw [List.cons_append, length_alternativesFrom_cons, if_neg hsplit, Nat.add_zero]
    by_cases h₁ : c = '{'
    · subst h₁
      rw [if_pos rfl, show ((e + k : Nat) : Int) + 1 = ((e + (k + 1) : Nat) : Int) by omega]
      exact ih (closes_open.1 h)
    · by_cases h₂ : c = '}'
      · subst h₂
        obtain ⟨k, rfl⟩ := h.exists_succ_of_close
        rw [if_neg h₁, if_pos rfl, show ((e + (k + 1) : Nat) : Int) - 1 = ((e + k : Nat) : Int) by omega]
        exact ih (closes_close.1 h)
      · rw [if_neg h₁, if_neg h₂]
        exact ih ((closes_other h₁ h₂).1 h)

/-- A group around a balanced text adds no alternative to the text after it. -/
theorem length_alternatives_group {y : List Char} (hy : Balanced y) (z : List Char) :
    (alternatives ('{' :: y ++ '}' :: z)).length = (alternatives z).length := by
  have hy' : Closes 0 y := hy
  calc (alternatives ('{' :: y ++ '}' :: z)).length
      = (alternativesFrom ((1 + 0 : Nat) : Int) (y ++ '}' :: z)).length := by
        simp [alternatives, length_alternativesFrom_cons]
    _ = (alternativesFrom ((1 : Nat) : Int) ('}' :: z)).length :=
        length_alternativesFrom_closes hy' Nat.one_pos _
    _ = (alternatives z).length := by
        simp [alternatives, length_alternativesFrom_cons]

/-- Each piece the splitter cuts is a single alternative: the first read from the depth the
splitter starts at, the others from depth zero. -/
theorem length_alternativesFrom_pieces {as : List (List Char)} (h : alternativesFrom d s = a :: as) :
    (alternativesFrom d a).length = 1 ∧ ∀ b ∈ as, (alternatives b).length = 1 := by
  induction s generalizing d a as with
  | nil =>
    simp only [alternativesFrom, List.cons.injEq] at h
    obtain ⟨rfl, rfl⟩ := h
    simp [alternativesFrom]
  | cons c s ih =>
    by_cases hsplit : c = ',' ∧ d = 0
    · -- a comma at depth zero: an empty piece, then the pieces of the rest from depth zero
      obtain ⟨rfl, rfl⟩ := hsplit
      simp only [alternativesFrom, and_self, if_true, List.cons.injEq] at h
      obtain ⟨rfl, rfl⟩ := h
      obtain ⟨b, bs, hb⟩ := List.exists_cons_of_ne_nil (alternativesFrom_ne_nil 0 s)
      obtain ⟨hb₁, hbs⟩ := ih hb
      refine ⟨by simp [alternativesFrom], ?_⟩
      rw [hb]
      rintro b' (_ | ⟨_, hb'⟩)
      · exact hb₁
      · exact hbs b' hb'
    · -- any other character runs on into the first piece of the rest
      obtain ⟨p, ps, hp⟩ := List.exists_cons_of_ne_nil
        (alternativesFrom_ne_nil (if c = '{' then d + 1 else if c = '}' then d - 1 else d) s)
      simp only [alternativesFrom, if_neg hsplit, hp, List.cons.injEq] at h
      obtain ⟨rfl, rfl⟩ := h
      obtain ⟨hp₁, hps⟩ := ih hp
      refine ⟨?_, hps⟩
      rw [length_alternativesFrom_cons, hp₁, if_neg hsplit]

/-- Every alternative of a text is a single alternative. -/
theorem length_alternatives_of_mem_alternatives {body : List Char} (h : a ∈ alternatives body) :
    (alternatives a).length = 1 := by
  obtain ⟨a₀, as, heq⟩ := List.exists_cons_of_ne_nil (alternativesFrom_ne_nil 0 body)
  have heq : alternatives body = a₀ :: as := heq
  obtain ⟨h₀, has⟩ := length_alternativesFrom_pieces heq
  rw [heq, List.mem_cons] at h
  rcases h with rfl | h
  · exact h₀
  · exact has a h

end Count

/-! ## Expansions of a single alternative -/

section Single
variable {s pre body suf x : List Char}

/-- Text without braces is balanced. -/
theorem Balanced.of_free (h₁ : '{' ∉ pre) (h₂ : '}' ∉ pre) : Balanced pre := by
  simpa using Balanced.free_append (closes_nil_iff.2 rfl) h₁ h₂

/-- A group with a balanced body is read as written. -/
theorem groupBody_close {k : Nat} {y : List Char} (hy : Closes k y) (z : List Char) :
    groupBody (k + 1) (y ++ '}' :: z) = some (y, z) := by
  induction y generalizing k with
  | nil =>
    rw [closes_nil_iff.1 hy]
    simp [groupBody]
  | cons c y ih =>
    rw [List.cons_append]
    by_cases h₁ : c = '{'
    · subst h₁
      simp [groupBody, ih (closes_open.1 hy)]
    · by_cases h₂ : c = '}'
      · subst h₂
        obtain ⟨k, rfl⟩ := hy.exists_succ_of_close
        simp [groupBody, ih (closes_close.1 hy)]
      · simp [groupBody, h₁, h₂, ih ((closes_other h₁ h₂).1 hy)]

/-- The first group of a pattern whose text before the first `{` holds no `{`, and whose group
body is balanced. -/
theorem braceGroup?_group (hpre : '{' ∉ pre) {y : List Char} (hy : Balanced y) (z : List Char) :
    braceGroup? (pre ++ '{' :: y ++ '}' :: z) = some (pre, y, z) :=
  braceGroup?_eq_some_iff.2 ⟨y ++ '}' :: z, by simp, hpre, groupBody_close hy z⟩

/-- In a balanced pattern of one alternative, the text before the first group and the text after
it are single alternatives too. -/
theorem length_alternatives_outside (hs : Balanced s) (h : braceGroup? s = some (pre, body, suf))
    (hone : (alternatives s).length < 2) :
    (alternatives pre).length = 1 ∧ (alternatives suf).length = 1 := by
  obtain ⟨rfl, hpre, hbody⟩ := braceGroup?_eq_some h
  obtain ⟨hclose, -⟩ := hs.outside_braceGroup? h
  have hpre' := Balanced.of_free hpre hclose
  have := length_alternatives_append hpre' ('{' :: body ++ '}' :: suf)
  rw [length_alternatives_group hbody, ← List.append_assoc] at this
  have := one_le_length_alternatives pre
  have := one_le_length_alternatives suf
  omega

/-- So the text before the first group adds no alternative to what follows it. -/
theorem length_alternatives_before (hs : Balanced s) (h : braceGroup? s = some (pre, body, suf))
    (hone : (alternatives s).length < 2) (w : List Char) :
    (alternatives (pre ++ w)).length = (alternatives w).length := by
  obtain ⟨-, hpre, -⟩ := braceGroup?_eq_some h
  obtain ⟨hclose, -⟩ := hs.outside_braceGroup? h
  have := length_alternatives_append (Balanced.of_free hpre hclose) w
  have := (length_alternatives_outside hs h hone).1
  omega

/-- An expansion of a balanced pattern of one alternative is one alternative: expansion never
brings a comma to the top level. -/
theorem length_alternatives_of_mem_expand (hs : Balanced s) (hone : (alternatives s).length < 2)
    (hx : x ∈ expand s) : (alternatives x).length < 2 := by
  induction s using expand.induct generalizing x with
  | case1 s h =>
    rw [expand_of_none h, List.mem_singleton] at hx
    exact hx ▸ hone
  | case2 s pre body suf h _ hn ihsuf _ =>
    rw [expand_of_single h hn] at hx
    obtain ⟨y, hy, hx⟩ := List.mem_flatMap.1 hx
    obtain ⟨z, hz, rfl⟩ := List.mem_map.1 hx
    obtain ⟨-, -, hbody⟩ := braceGroup?_eq_some h
    obtain ⟨-, hsuf⟩ := hs.outside_braceGroup? h
    have hsuf₁ := (length_alternatives_outside hs h hone).2
    -- neither `pre` nor the group `'{' :: y ++ '}'` adds an alternative; `z` is one by induction
    rw [List.append_assoc, length_alternatives_before hs h hone,
      length_alternatives_group (hbody.of_mem_expand hy)]
    exact ihsuf hsuf (by omega) hz
  | case3 s pre body suf h _ hn ih =>
    rw [expand_of_multi h hn] at hx
    obtain ⟨a, ha, hx⟩ := List.mem_flatMap.1 ((mem_appendNew.1 hx).resolve_left List.not_mem_nil)
    obtain ⟨-, hpre, hbody⟩ := braceGroup?_eq_some h
    obtain ⟨hclose, hsuf⟩ := hs.outside_braceGroup? h
    have ha' := hbody.of_mem_alternatives ha
    have hpart : Balanced (pre ++ a ++ suf) := by
      simpa using (ha'.append hsuf).free_append hpre hclose
    refine ih ⟨a, ha⟩ hpart ?_ hx
    -- the alternative `a` holds no comma at the top level, and neither do `pre` and `suf`
    show (alternatives (pre ++ a ++ suf)).length < 2
    have hsuf₁ := (length_alternatives_outside hs h hone).2
    have ha₁ := length_alternatives_of_mem_alternatives ha
    have hafter := length_alternatives_append ha' suf
    rw [List.append_assoc, length_alternatives_before hs h hone]
    omega

end Single

/-! ## Patterns that expansion leaves alone -/

/-- A pattern in expanded form: every group the reader finds in it, in the bodies of its groups
and in the text after them, has a single alternative. -/
inductive Expanded : List Char → Prop where
  /-- A pattern in which no group is found. -/
  | plain {s : List Char} : braceGroup? s = none → Expanded s
  /-- A pattern whose first group has one alternative, with its body and the rest expanded. -/
  | group {s pre body suf : List Char} : braceGroup? s = some (pre, body, suf) →
      (alternatives body).length < 2 → Expanded body → Expanded suf → Expanded s

/-- Expansion leaves a pattern in expanded form as it is. -/
theorem expand_of_expanded {s : List Char} (h : Expanded s) : expand s = [s] := by
  induction h with
  | plain h => exact expand_of_none h
  | group h hn _ _ ihbody ihsuf =>
    rw [expand_of_single h hn, ihbody, ihsuf, (braceGroup?_eq_some h).1]
    simp

/-- Every expansion of a pattern is in expanded form. -/
theorem expanded_of_mem_expand {s x : List Char} (hx : x ∈ expand s) : Expanded x := by
  induction s using expand.induct generalizing x with
  | case1 s h =>
    rw [expand_of_none h, List.mem_singleton] at hx
    exact hx ▸ .plain h
  | case2 s pre body suf h _ hn ihsuf ihbody =>
    rw [expand_of_single h hn] at hx
    obtain ⟨y, hy, hx⟩ := List.mem_flatMap.1 hx
    obtain ⟨z, hz, rfl⟩ := List.mem_map.1 hx
    obtain ⟨-, hpre, hbody⟩ := braceGroup?_eq_some h
    -- the group is found again around the body's expansion, which is still one alternative
    exact .group (braceGroup?_group hpre (hbody.of_mem_expand hy) z)
      (length_alternatives_of_mem_expand hbody hn hy) (ihbody hy) (ihsuf hz)
  | case3 s pre body suf h _ hn ih =>
    rw [expand_of_multi h hn] at hx
    obtain ⟨a, ha, hx⟩ := List.mem_flatMap.1 ((mem_appendNew.1 hx).resolve_left List.not_mem_nil)
    exact ih ⟨a, ha⟩ hx

/-- **Expansions are fully expanded.** For every pattern, balanced or not, the expansions are
distinct, each of them expands to itself alone, and so expanding each of them again and joining
the results gives the expansions back. -/
theorem expandBraces_fully_expanded (p : String) :
    (expandBraces p).Nodup ∧ (∀ s ∈ expandBraces p, expandBraces s = [s]) ∧
      (expandBraces p).flatMap expandBraces = expandBraces p := by
  have hfixed : ∀ s ∈ expandBraces p, expandBraces s = [s] := by
    intro s hs
    obtain ⟨x, hx, rfl⟩ := List.mem_map.1 hs
    rw [expandBraces, String.toList_ofList, expand_of_expanded (expanded_of_mem_expand hx)]
    rfl
  refine ⟨(nodup_expand _).map fun _ _ => String.ofList_injective, hfixed, ?_⟩
  rw [List.flatMap_congr hfixed]
  exact List.flatMap_singleton' _

end EnvAudit.Glob
