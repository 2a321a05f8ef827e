import EnvAudit.Glob.Braces
/-!
# Groups of a balanced pattern

How the brace reader takes a balanced pattern apart. `Closes d s` says that `s`, read inside `d`
open groups, closes them all; a balanced pattern is one that closes from depth zero. The facts are
stated one character at a time (`closes_open`, `closes_close`, `closes_other`), which also makes
balance decidable (`closes?_iff`).

* `braceGroup?_eq_some`: the group found is `pre ++ '{' :: body ++ '}' :: suf`, with no `{` in
  `pre` and a balanced body. In a balanced pattern `pre` holds no `}` either, and `suf` is
  balanced (`Balanced.braceGroup?_eq_some`); a balanced pattern with no group has no `{`
  (`Balanced.braceGroup?_eq_none`).
* `braceGroup?_append` and `braceGroup?_free_append`: a group found in `s` is found in `s ++ w`,
  and text without `{` in front shifts the group.
* `Balanced.of_mem_alternatives`: every alternative of a balanced body is balanced.
* `Balanced.group_inj`: a closing brace after a balanced text ends it, so `x ++ '}' :: y` tells
  `x` and `y` apart.
-/

namespace EnvAudit.Glob

/-! ## Texts that close their groups -/

section Closes
variable {d e : Nat} {c : Char} {s a w v : List Char}

theorem closes_nil_iff : Closes d [] ↔ d = 0 := by
  constructor
  · intro h
    have := h.count_eq
    simp at this
    omega
  · rintro rfl
    exact ⟨fun p hp => by simp [List.prefix_nil.1 hp], rfl⟩

/-- One character read: it opens `o` groups and closes `k`, which takes depth `d` to `e`. -/
theorem closes_cons_of_step (o k : Nat) (ho : ∀ p : List Char, (c :: p).count '{' = p.count '{' + o)
    (hk : ∀ p : List Char, (c :: p).count '}' = p.count '}' + k) (hstep : d + o = e + k) :
    Closes d (c :: s) ↔ Closes e s := by
  constructor
  · intro h
    refine ⟨fun p hp => ?_, ?_⟩
    · have := h.prefix_le (c :: p) (List.prefix_cons_inj c |>.2 hp)
      rw [ho, hk] at this
      omega
    · have := h.count_eq
      rw [ho, hk] at this
      omega
  · intro h
    refine ⟨fun p hp => ?_, ?_⟩
    · rcases List.prefix_cons_iff.1 hp with rfl | ⟨q, rfl, hq⟩
      · simp
      · have := h.prefix_le q hq
        rw [ho, hk]
        omega
    · have := h.count_eq
      rw [ho, hk]
      omega

theorem closes_open : Closes d ('{' :: s) ↔ Closes (d + 1) s :=
  closes_cons_of_step 1 0 (by simp) (by simp) rfl

theorem closes_close : Closes (d + 1) ('}' :: s) ↔ Closes d s :=
  closes_cons_of_step 0 1 (by simp) (by simp) rfl

theorem closes_other (h₁ : c ≠ '{') (h₂ : c ≠ '}') : Closes d (c :: s) ↔ Closes d s :=
  closes_cons_of_step 0 0 (by simp [h₁]) (by simp [h₂]) rfl

/-- A `}` read outside every group closes too many. -/
theorem not_closes_zero_close : ¬ Closes 0 ('}' :: s) := by
  intro h
  simpa using h.prefix_le ['}'] (List.prefix_cons_inj '}' |>.2 (List.nil_prefix))

/-- Text with no brace changes no depth. -/
theorem closes_free_append (h₁ : '{' ∉ v) (h₂ : '}' ∉ v) : Closes d (v ++ s) ↔ Closes d s := by
  induction v with
  | nil => rfl
  | cons c v ih =>
    simp only [List.mem_cons, not_or] at h₁ h₂
    rw [List.cons_append, closes_other (Ne.symm h₁.1) (Ne.symm h₂.1), ih h₁.2 h₂.2]

/-- Text with no `{` in front of a balanced text holds no `}`. -/
theorem close_not_mem_of_closes (h₁ : '{' ∉ v) (h : Closes 0 (v ++ s)) : '}' ∉ v := by
  induction v with
  | nil => simp
  | cons c v ih =>
    simp only [List.mem_cons, not_or] at h₁ ⊢
    by_cases hc : c = '}'
    · subst hc
      exact absurd h not_closes_zero_close
    · exact ⟨Ne.symm hc, ih h₁.2 ((closes_other (Ne.symm h₁.1) hc).1 h)⟩

/-- A text that closes `d` groups, followed by one that closes `e`, closes `d + e` groups; and a
text closing `d + e` groups after one that closes `d` closes the other `e`. -/
theorem closes_append_iff (ha : Closes d a) : Closes (d + e) (a ++ w) ↔ Closes e w := by
  induction a generalizing d with
  | nil =>
    rw [closes_nil_iff.1 ha, Nat.zero_add, List.nil_append]
  | cons c a ih =>
    rw [List.cons_append]
    by_cases ho : c = '{'
    · subst ho
      rw [closes_open] at ha ⊢
      rw [show d + e + 1 = d + 1 + e by omega]
      exact ih ha
    · by_cases hk : c = '}'
      · subst hk
        obtain ⟨d, rfl⟩ : ∃ d', d = d' + 1 := by
          cases d with
          | zero => exact absurd ha not_closes_zero_close
          | succ d => exact ⟨d, rfl⟩
        rw [closes_close] at ha
        rw [show d + 1 + e = d + e + 1 by omega, closes_close]
        exact ih ha
      · rw [closes_other ho hk] at ha ⊢
        exact ih ha

theorem Closes.append (ha : Closes d a) (hw : Closes e w) : Closes (d + e) (a ++ w) :=
  (closes_append_iff ha).2 hw

theorem Balanced.append (ha : Balanced a) (hw : Balanced w) : Balanced (a ++ w) :=
  Closes.append ha hw

/-- A group around a balanced text, followed by a balanced text, is balanced. -/
theorem Balanced.group {x : List Char} (hx : Balanced x) (hw : Balanced w) :
    Balanced ('{' :: x ++ '}' :: w) :=
  closes_open.2 (Closes.append (d := 0) hx (closes_close.2 hw))

theorem Balanced.free_append (hw : Balanced w) (h₁ : '{' ∉ v) (h₂ : '}' ∉ v) : Balanced (v ++ w) :=
  (closes_free_append h₁ h₂).2 hw

/-- Whether a text closes `d` open groups, one character at a time. -/
def closes? : Nat → List Char → Bool
  | d, [] => d == 0
  | d, c :: s =>
    if c = '{' then closes? (d + 1) s
    else if c = '}' then
      match d with
      | 0 => false
      | d + 1 => closes? d s
    else closes? d s

theorem closes?_iff : closes? d s = true ↔ Closes d s := by
  induction s generalizing d with
  | nil => simp [closes?, closes_nil_iff]
  | cons c s ih =>
    by_cases ho : c = '{'
    · subst ho
      simp [closes?, closes_open, ih]
    · by_cases hk : c = '}'
      · subst hk
        cases d with
        | zero => simp [closes?, not_closes_zero_close]
        | succ d => simp [closes?, closes_close, ih]
      · simp [closes?, ho, hk, closes_other ho hk, ih]

instance (d : Nat) (s : List Char) : Decidable (Closes d s) := decidable_of_iff _ closes?_iff

instance (s : List Char) : Decidable (Balanced s) := inferInstanceAs (Decidable (Closes 0 s))

example : Balanced "a{b,{c}d}e".toList ∧ ¬ Balanced "\x7d\x7b".toList := by decide

end Closes

/-! ## The first group -/

section Groups
variable {d : Nat} {s rest body after pre suf v w : List Char}

/-- The body read inside `d` open groups runs up to the `}` that closes the last of them, and
closes the others itself. -/
theorem groupBody_eq_some (hd : 0 < d) (h : groupBody d rest = some (body, after)) :
    rest = body ++ '}' :: after ∧ Closes (d - 1) body := by
  induction rest generalizing d body with
  | nil => simp [groupBody] at h
  | cons c rest ih =>
    simp only [groupBody] at h
    split at h
    · rename_i ho
      subst ho
      obtain ⟨p, hp, hpe⟩ := Option.map_eq_some_iff.1 h
      cases hpe
      obtain ⟨hrest, hcl⟩ := ih (Nat.succ_pos d) hp
      refine ⟨by simp [hrest], ?_⟩
      rw [closes_open, show d - 1 + 1 = d by omega]
      simpa using hcl
    · split at h
      · rename_i hk
        subst hk
        split at h
        · cases h
          exact ⟨rfl, closes_nil_iff.2 (by omega)⟩
        · obtain ⟨p, hp, hpe⟩ := Option.map_eq_some_iff.1 h
          cases hpe
          obtain ⟨hrest, hcl⟩ := ih (by omega) hp
          refine ⟨by simp [hrest], ?_⟩
          rw [show d - 1 = d - 1 - 1 + 1 by omega, closes_close]
          exact hcl
      · rename_i ho hk
        obtain ⟨p, hp, hpe⟩ := Option.map_eq_some_iff.1 h
        cases hpe
        obtain ⟨hrest, hcl⟩ := ih hd hp
        exact ⟨by simp [hrest], (closes_other ho hk).2 hcl⟩

/-- A text that closes the open groups gives the body a closing brace. -/
theorem groupBody_isSome (hd : 0 < d) (h : Closes d rest) : (groupBody d rest).isSome := by
  induction rest generalizing d with
  | nil => exact absurd (closes_nil_iff.1 h) (by omega)
  | cons c rest ih =>
    simp only [groupBody]
    split
    · rename_i ho
      subst ho
      simpa using ih (Nat.succ_pos d) (closes_open.1 h)
    · split
      · rename_i hk
        subst hk
        split
        · rfl
        · obtain ⟨d', rfl⟩ : ∃ d', d = d' + 1 := ⟨d - 1, by omega⟩
          simpa using ih (by omega) (closes_close.1 h)
      · rename_i ho hk
        simpa using ih hd ((closes_other ho hk).1 h)

/-- Text after the closing brace is not read. -/
theorem groupBody_append (h : groupBody d rest = some (body, after)) (w : List Char) :
    groupBody d (rest ++ w) = some (body, after ++ w) := by
  induction rest generalizing d body with
  | nil => simp [groupBody] at h
  | cons c rest ih =>
    rw [List.cons_append]
    simp only [groupBody] at h ⊢
    split at h
    · rename_i ho
      subst ho
      obtain ⟨⟨b, a⟩, hp, hpe⟩ := Option.map_eq_some_iff.1 h
      cases hpe
      simp [ih hp]
    · rename_i ho
      split at h
      · rename_i hk
        subst hk
        split at h
        · cases h
          simp [*]
        · obtain ⟨⟨b, a⟩, hp, hpe⟩ := Option.map_eq_some_iff.1 h
          cases hpe
          simp [*, ih hp]
      · rename_i hk
        obtain ⟨⟨b, a⟩, hp, hpe⟩ := Option.map_eq_some_iff.1 h
        cases hpe
        simp [ho, hk, ih hp]

/-- Where the first group is: after the first `{`, read by `groupBody` from depth one. -/
theorem braceGroup?_eq_some_iff : braceGroup? s = some (pre, body, suf) ↔
    ∃ rest, s = pre ++ '{' :: rest ∧ '{' ∉ pre ∧ groupBody 1 rest = some (body, suf) := by
  have hfree : ∀ {v : List Char}, '{' ∉ v → ∀ c ∈ v, decide (c ≠ '{') = true := by
    intro v hv c hc
    simp only [ne_eq, decide_eq_true_eq]
    rintro rfl
    exact hv hc
  constructor
  · intro h
    unfold braceGroup? at h
    split at h
    · rename_i rest heq
      obtain ⟨⟨b, a⟩, hp, hpe⟩ := Option.map_eq_some_iff.1 h
      cases hpe
      have hs := List.takeWhile_append_dropWhile (p := fun c => decide (c ≠ '{')) (l := s)
      rw [heq] at hs
      have hpre : '{' ∉ s.takeWhile (fun c => decide (c ≠ '{')) := fun hm => by
        simpa using List.all_eq_true.1 List.all_takeWhile _ hm
      exact ⟨rest, hs.symm, hpre, hp⟩
    · simp at h
  · rintro ⟨rest, rfl, hpre, hg⟩
    unfold braceGroup?
    rw [List.dropWhile_append_of_pos (hfree hpre), List.takeWhile_append_of_pos (hfree hpre)]
    simp [hg]

/-- The group found: the text before it holds no `{`, and its body is balanced. -/
theorem braceGroup?_eq_some (h : braceGroup? s = some (pre, body, suf)) :
    s = pre ++ '{' :: body ++ '}' :: suf ∧ '{' ∉ pre ∧ Balanced body := by
  obtain ⟨rest, rfl, hpre, hg⟩ := braceGroup?_eq_some_iff.1 h
  obtain ⟨rfl, hcl⟩ := groupBody_eq_some Nat.one_pos hg
  exact ⟨by simp, hpre, hcl⟩

/-- The text before the first group of a balanced pattern holds no brace, and the text after it is
balanced. -/
theorem Balanced.outside_braceGroup? (hs : Balanced s) (h : braceGroup? s = some (pre, body, suf)) :
    '}' ∉ pre ∧ Balanced suf := by
  obtain ⟨rfl, hpre, hbody⟩ := braceGroup?_eq_some h
  have hs' : Closes 0 (pre ++ '{' :: (body ++ '}' :: suf)) := by simpa [Balanced] using hs
  have hclose := close_not_mem_of_closes hpre hs'
  refine ⟨hclose, ?_⟩
  rw [closes_free_append hpre hclose, closes_open] at hs'
  exact closes_close.1 ((closes_append_iff (e := 1) hbody).1 hs')

/-- A text with a `{` is read up to its first one. -/
theorem exists_first_open (h : '{' ∈ s) : ∃ pre rest, s = pre ++ '{' :: rest ∧ '{' ∉ pre := by
  induction s with
  | nil => simp at h
  | cons c s ih =>
    by_cases hc : c = '{'
    · exact ⟨[], s, by simp [hc], by simp⟩
    · obtain ⟨pre, rest, rfl, hpre⟩ := ih (by simpa [Ne.symm hc] using h)
      exact ⟨c :: pre, rest, rfl, by simp [Ne.symm hc, hpre]⟩

/-- A balanced pattern in which no group is found has no `{`. -/
theorem Balanced.not_mem_of_braceGroup?_eq_none (hs : Balanced s) (h : braceGroup? s = none) :
    '{' ∉ s := by
  intro hm
  obtain ⟨pre, rest, rfl, hpre⟩ := exists_first_open hm
  have hs' : Closes 0 (pre ++ '{' :: rest) := hs
  rw [closes_free_append hpre (close_not_mem_of_closes hpre hs'), closes_open] at hs'
  obtain ⟨⟨b, a⟩, hg⟩ := Option.isSome_iff_exists.1 (groupBody_isSome Nat.one_pos hs')
  have := braceGroup?_eq_some_iff.2 ⟨rest, rfl, hpre, hg⟩
  rw [h] at this
  cases this

/-- A group found in `s` is found in `s ++ w`, with `w` added to the text after it. -/
theorem braceGroup?_append (h : braceGroup? s = some (pre, body, suf)) (w : List Char) :
    braceGroup? (s ++ w) = some (pre, body, suf ++ w) := by
  obtain ⟨rest, rfl, hpre, hg⟩ := braceGroup?_eq_some_iff.1 h
  exact braceGroup?_eq_some_iff.2 ⟨rest ++ w, by simp, hpre, groupBody_append hg w⟩

/-- Text without `{` in front of a pattern moves its first group along. -/
theorem braceGroup?_free_append (hv : '{' ∉ v) (w : List Char) :
    braceGroup? (v ++ w) = (braceGroup? w).map fun g => (v ++ g.1, g.2) := by
  cases hw : braceGroup? w with
  | none =>
    cases hvw : braceGroup? (v ++ w) with
    | none => rfl
    | some g =>
      obtain ⟨pre, body, suf⟩ := g
      obtain ⟨rest, heq, hpre, hg⟩ := braceGroup?_eq_some_iff.1 hvw
      -- the first `{` of `v ++ w` lies in `w`, since `v` has none
      obtain ⟨u, rfl, rfl⟩ : ∃ u, pre = v ++ u ∧ w = u ++ '{' :: rest := by
        rcases List.append_eq_append_iff.1 heq with ⟨u, rfl, hu⟩ | ⟨u, rfl, hu⟩
        · exact ⟨u, rfl, hu⟩
        · cases u with
          | nil => exact ⟨[], by simp, by simpa using hu.symm⟩
          | cons c u =>
            obtain ⟨rfl, -⟩ := List.cons_eq_cons.1 hu
            simp at hv
      have := braceGroup?_eq_some_iff.2 ⟨rest, rfl, fun hm => hpre (List.mem_append_right v hm), hg⟩
      rw [hw] at this
      cases this
  | some g =>
    obtain ⟨pre, body, suf⟩ := g
    obtain ⟨rest, rfl, hpre, hg⟩ := braceGroup?_eq_some_iff.1 hw
    exact braceGroup?_eq_some_iff.2 ⟨rest, by simp, by simp [hv, hpre], hg⟩

end Groups

/-! ## Alternatives -/

/-- The first piece of a text read inside `d` open groups closes them, and every later piece is
balanced. -/
theorem alternativesFrom_closes {d : Nat} {s : List Char} (h : Closes d s) :
    ∃ a as, alternativesFrom d s = a :: as ∧ Closes d a ∧ ∀ b ∈ as, Balanced b := by
  induction s generalizing d with
  | nil => exact ⟨[], [], rfl, h, by simp⟩
  | cons c s ih =>
    simp only [alternativesFrom]
    by_cases hsplit : c = ',' ∧ (d : Int) = 0
    · obtain ⟨rfl, hd⟩ := hsplit
      obtain rfl : d = 0 := by omega
      obtain ⟨a, as, heq, ha, has⟩ := ih ((closes_other (by decide) (by decide)).1 h)
      refine ⟨[], a :: as, by rw [if_pos ⟨rfl, hd⟩, heq], closes_nil_iff.2 rfl, ?_⟩
      simpa [Balanced] using ⟨ha, has⟩
    · rw [if_neg hsplit]
      -- the depth after `c`, as a natural number
      obtain ⟨d', hd', hc⟩ : ∃ d' : Nat, (d' : Int) =
          (if c = '{' then (d : Int) + 1 else if c = '}' then (d : Int) - 1 else d) ∧
          ∀ t : List Char, Closes d (c :: t) ↔ Closes d' t := by
        by_cases ho : c = '{'
        · subst ho
          exact ⟨d + 1, by simp, fun t => closes_open⟩
        · by_cases hk : c = '}'
          · subst hk
            cases d with
            | zero => exact absurd h not_closes_zero_close
            | succ d => exact ⟨d, by simp, fun t => closes_close⟩
          · exact ⟨d, by simp [ho, hk], fun t => closes_other ho hk⟩
      rw [← hd']
      obtain ⟨a, as, heq, ha, has⟩ := ih ((hc s).1 h)
      exact ⟨c :: a, as, by simp [heq], (hc a).2 ha, has⟩

/-- Every alternative of a balanced body is balanced. -/
theorem Balanced.of_mem_alternatives {body a : List Char} (hb : Balanced body)
    (ha : a ∈ alternatives body) : Balanced a := by
  obtain ⟨a₀, as, heq, ha₀, has⟩ := alternativesFrom_closes (d := 0) hb
  have heq : alternatives body = a₀ :: as := heq
  rw [heq, List.mem_cons] at ha
  rcases ha with rfl | ha
  · exact ha₀
  · exact has a ha

/-! ## Telling a group from what follows it -/

/-- After a balanced text, a closing brace cannot stand inside another balanced text. -/
theorem Balanced.not_close_append {x t : List Char} (hx : Balanced x) : ¬ Balanced (x ++ '}' :: t) := by
  intro h
  have := (closes_append_iff (d := 0) (e := 0) hx).1 h
  exact not_closes_zero_close this

/-- A balanced text followed by `}` is told apart from what comes after. -/
theorem Balanced.group_inj {x₁ x₂ y₁ y₂ : List Char} (h₁ : Balanced x₁) (h₂ : Balanced x₂)
    (h : x₁ ++ '}' :: y₁ = x₂ ++ '}' :: y₂) : x₁ = x₂ ∧ y₁ = y₂ := by
  rcases List.append_eq_append_iff.1 h with ⟨m, rfl, hm⟩ | ⟨m, rfl, hm⟩
  · cases m with
    | nil => simpa using hm
    | cons c m =>
      obtain ⟨rfl, rfl⟩ := List.cons_eq_cons.1 hm.symm
      exact absurd h₂ h₁.not_close_append
  · cases m with
    | nil => simpa using hm.symm
    | cons c m =>
      obtain ⟨rfl, rfl⟩ := List.cons_eq_cons.1 hm.symm
      exact absurd h₁ h₂.not_close_append

end EnvAudit.Glob
