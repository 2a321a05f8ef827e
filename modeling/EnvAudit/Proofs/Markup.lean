import EnvAudit.Report.Console
/-!
# Escaped text shows as itself

The console reads a line as markup; `escape` is meant to turn any text into markup that shows it.
For a text without backslashes it does: escaping puts one backslash before each tag, which the
console reads as a tag shown as text, and leaves every other character alone
(`showFrom_escapeTags`). A tag cannot reach across the end of the escaped text, so what follows
it is read as it would be on its own, as long as no `]` in it could close a tag left open at the
end (`closeTag t = none`).

A text with backslashes is not shown as itself in general: two backslashes at the end of a text
stay two under `escape`, and a tag written after them reads them as one.

The steps: one equation lemma per branch of `tagAt?`, `showFrom` and `escapeTags`; what a tag at
the head of a backslash-free text looks like (`tagAt?_eq_some_plain`); that escaping keeps a tag
from opening where the text had none (`tagAt?_cons_escapeTags`, `closeTag_escapeTags`); and the
reading of the escaped text, by the recursion of `escapeTags`.
-/

namespace EnvAudit.Report

/-! ## Reading a tag -/

theorem closeTag_eq_some {s body after : List Char} (h : closeTag s = some (body, after)) :
    s = body ++ ']' :: after ∧ '[' ∉ body ∧ ']' ∉ body := by
  induction s generalizing body after with
  | nil => simp [closeTag] at h
  | cons c s ih =>
    simp only [closeTag] at h
    split at h
    · cases h
      simp_all
    · split at h
      · cases h
      · obtain ⟨⟨b, a⟩, hp, hpe⟩ := Option.map_eq_some_iff.1 h
        cases hpe
        obtain ⟨rfl, hb₁, hb₂⟩ := ih hp
        refine ⟨rfl, ?_, ?_⟩ <;> simp_all [eq_comm]

theorem closeTag_append {body : List Char} (after : List Char) (h₁ : '[' ∉ body) (h₂ : ']' ∉ body) :
    closeTag (body ++ ']' :: after) = some (body, after) := by
  induction body with
  | nil => simp [closeTag]
  | cons c body ih =>
    have hc₁ : c ≠ '[' := fun h => h₁ (h ▸ List.mem_cons_self)
    have hc₂ : c ≠ ']' := fun h => h₂ (h ▸ List.mem_cons_self)
    simp only [List.cons_append, closeTag, hc₁, hc₂, if_false]
    rw [ih (fun h => h₁ (List.mem_cons_of_mem c h)) (fun h => h₂ (List.mem_cons_of_mem c h))]
    rfl

theorem tagAt?_of_ne {c : Char} {rest : List Char} (h₁ : c ≠ '\\') (h₂ : c ≠ '[') : tagAt? (c :: rest) = none := by
  simp [tagAt?, h₁, h₂]

/-- A text that opens no tag in it has no tag at its head. -/
theorem tagAt?_of_not_mem {s : List Char} (h : '[' ∉ s) : tagAt? s = none := by
  induction s with
  | nil => rfl
  | cons c s ih =>
    have hc : c ≠ '[' := fun hc => h (hc ▸ List.mem_cons_self)
    by_cases hb : c = '\\'
    · simp [tagAt?, hb, ih (fun h' => h (List.mem_cons_of_mem c h'))]
    · exact tagAt?_of_ne hb hc

/-- A tag at the head of a backslash-free text: a bracket, a body that opens with a tag character
and holds no bracket, and a closing bracket. -/
theorem tagAt?_eq_some_plain {s : List Char} {k : Nat} {body after : List Char} (hs : '\\' ∉ s)
    (h : tagAt? s = some (k, body, after)) :
    k = 0 ∧ s = '[' :: body ++ ']' :: after ∧ ∃ d p, body = d :: p ∧ isTagStart d = true ∧
      '[' ∉ p ∧ ']' ∉ p := by
  obtain ⟨c, rest, rfl⟩ : ∃ c rest, s = c :: rest := by
    cases s with
    | nil => simp [tagAt?] at h
    | cons c rest => exact ⟨c, rest, rfl⟩
  have hc : c ≠ '\\' := fun hc => hs (hc ▸ List.mem_cons_self)
  by_cases ho : c = '['
  · subst ho
    cases rest with
    | nil => simp [tagAt?] at h
    | cons d more =>
      rw [tagAt?.eq_2, if_neg (by decide), if_pos rfl] at h
      by_cases hd : isTagStart d = true
      · rw [if_pos hd] at h
        obtain ⟨⟨p, a⟩, hp, hpe⟩ := Option.map_eq_some_iff.1 h
        cases hpe
        obtain ⟨rfl, hp₁, hp₂⟩ := closeTag_eq_some hp
        exact ⟨rfl, by simp, d, p, rfl, hd, hp₁, hp₂⟩
      · rw [if_neg hd] at h
        cases h
  · rw [tagAt?_of_ne hc ho] at h
    cases h

/-- An escaped tag: a backslash before a tag makes it shown as text. -/
theorem tagAt?_escaped {d : Char} {p : List Char} (after : List Char) (hd : isTagStart d = true)
    (h₁ : '[' ∉ p) (h₂ : ']' ∉ p) :
    tagAt? ('\\' :: '[' :: (d :: p ++ ']' :: after)) = some (1, d :: p, after) := by
  simp [tagAt?, hd, closeTag_append after h₁ h₂]

/-! ## Equations of the readers -/

section Equations
variable {plain c rest : List Char} {k : Nat} {body after : List Char}

theorem showFrom_of_tagAt {c : Char} (h : tagAt? (c :: rest) = some (k, body, after)) :
    showFrom plain (c :: rest) = unescapeBrackets plain.reverse ++ List.replicate (k / 2) '\\' ++
      (if k % 2 = 1 then unescapeBrackets ('[' :: body ++ [']']) else []) ++ showFrom [] after := by
  rw [showFrom.eq_2]
  split
  · rename_i heq
    rw [h] at heq
    cases heq
    rfl
  · rename_i heq
    rw [h] at heq
    cases heq

theorem showFrom_of_not_tagAt {c : Char} (h : tagAt? (c :: rest) = none) :
    showFrom plain (c :: rest) = showFrom (c :: plain) rest := by
  rw [showFrom.eq_2]
  split
  · rename_i heq
    rw [h] at heq
    cases heq
  · rfl

theorem escapeTags_of_tagAt {c : Char} (h : tagAt? (c :: rest) = some (k, body, after)) :
    escapeTags (c :: rest) = List.replicate (2 * k) '\\' ++ '\\' :: '[' :: body ++ ']' :: escapeTags after := by
  rw [escapeTags.eq_2]
  split
  · rename_i heq
    rw [h] at heq
    cases heq
    rfl
  · rename_i heq
    rw [h] at heq
    cases heq

theorem escapeTags_of_not_tagAt {c : Char} (h : tagAt? (c :: rest) = none) :
    escapeTags (c :: rest) = c :: escapeTags rest := by
  rw [escapeTags.eq_2]
  split
  · rename_i heq
    rw [h] at heq
    cases heq
  · rfl

end Equations

theorem unescapeBrackets_cons {c : Char} {l : List Char} (h : c ≠ '\\' ∨ l.head? ≠ some '[') :
    unescapeBrackets (c :: l) = c :: unescapeBrackets l :=
  unescapeBrackets.eq_2 c l fun r hc hl => by simp_all

theorem unescapeBrackets_of_not_mem {l : List Char} (h : '\\' ∉ l) : unescapeBrackets l = l := by
  induction l with
  | nil => rfl
  | cons c l ih =>
    have hc : c ≠ '\\' := fun hc => h (hc ▸ List.mem_cons_self)
    rw [unescapeBrackets_cons (.inl hc), ih (fun h' => h (List.mem_cons_of_mem c h'))]

theorem unescapeBrackets_of_not_mem_open {l : List Char} (h : '[' ∉ l) : unescapeBrackets l = l := by
  induction l with
  | nil => rfl
  | cons c l ih =>
    have hl : '[' ∉ l := fun h' => h (List.mem_cons_of_mem c h')
    have hhead : l.head? ≠ some '[' := fun h' => hl (List.mem_of_head? h')
    rw [unescapeBrackets_cons (.inr hhead), ih hl]

/-! ## Reading plain text -/

/-- Text that opens no tag is read as it is. -/
theorem showFrom_of_not_mem_open {plain t : List Char} (h : '[' ∉ t) :
    showFrom plain t = unescapeBrackets (plain.reverse ++ t) := by
  induction plain, t using showFrom.induct with
  | case1 plain => simp [showFrom]
  | case2 plain c rest k body after htag =>
    rw [tagAt?_of_not_mem h] at htag
    cases htag
  | case3 plain c rest htag ih =>
    rw [showFrom_of_not_tagAt htag, ih (fun h' => h (List.mem_cons_of_mem c h'))]
    simp

/-- Markup without an opening bracket shows as it is, which is also what reading it gives. -/
theorem markupText_eq_showFrom (m : String) : markupText m = showFrom [] m.toList := by
  unfold markupText
  split
  · rfl
  · rename_i h
    have h' : '[' ∉ m.toList := by simpa using h
    rw [showFrom_of_not_mem_open h', List.reverse_nil, List.nil_append,
      unescapeBrackets_of_not_mem_open h']

/-- Backslash-free text read so far comes out in front of whatever the rest shows. -/
theorem showFrom_of_plain {plain t : List Char} (hp : '\\' ∉ plain) (ht : '\\' ∉ t) :
    showFrom plain t = plain.reverse ++ showFrom [] t := by
  -- generalised over the text read so far before `plain`
  have key : ∀ q t, '\\' ∉ q → '\\' ∉ t → showFrom (q ++ plain) t = plain.reverse ++ showFrom q t := by
    intro q t
    induction q, t using showFrom.induct with
    | case1 q =>
      intro hq _
      have hq' : '\\' ∉ plain.reverse ++ q.reverse := by simp_all
      simp only [showFrom, List.reverse_append]
      rw [unescapeBrackets_of_not_mem hq', unescapeBrackets_of_not_mem (by simpa using hq)]
    | case2 q c rest k body after htag =>
      intro hq _
      have hqp : '\\' ∉ plain.reverse ++ q.reverse := by simp [hp, hq]
      have hq' : '\\' ∉ q.reverse := by simpa using hq
      rw [showFrom_of_tagAt htag, showFrom_of_tagAt htag, List.reverse_append,
        unescapeBrackets_of_not_mem hqp, unescapeBrackets_of_not_mem hq']
      simp
    | case3 q c rest htag ih =>
      intro hq ht
      have hc : c ≠ '\\' := fun hc => ht (hc ▸ List.mem_cons_self)
      rw [showFrom_of_not_tagAt htag, showFrom_of_not_tagAt htag, ← List.cons_append,
        ih (by simp [Ne.symm hc, hq]) (fun h => ht (List.mem_cons_of_mem c h))]
  simpa using key [] t (by simp) ht

/-- Text that holds neither a backslash nor an opening bracket is taken as it is. -/
theorem showFrom_append_of_plain {q u t : List Char} (hu : ∀ c ∈ u, c ≠ '\\' ∧ c ≠ '[') :
    showFrom q (u ++ t) = showFrom (u.reverse ++ q) t := by
  induction u generalizing q with
  | nil => rfl
  | cons c u ih =>
    have hc := hu c List.mem_cons_self
    rw [List.cons_append, showFrom_of_not_tagAt (tagAt?_of_ne hc.1 hc.2),
      ih fun d hd => hu d (List.mem_cons_of_mem c hd)]
    simp

/-! ## Escaped text -/

theorem closeTag_cons_of_ne {c : Char} {s : List Char} (h₁ : c ≠ ']') (h₂ : c ≠ '[') :
    closeTag (c :: s) = (closeTag s).map fun p => (c :: p.1, p.2) := by
  simp [closeTag, h₁, h₂]

theorem isTagStart_ne {d : Char} (hd : isTagStart d = true) : d ≠ ']' ∧ d ≠ '[' ∧ d ≠ '\\' := by
  refine ⟨?_, ?_, ?_⟩ <;> rintro rfl <;> exact absurd hd (by decide)

/-- A bracket opens no tag when what follows it closes none. -/
theorem tagAt?_open_of_closeTag {t : List Char} (ht : closeTag t = none) : tagAt? ('[' :: t) = none := by
  cases t with
  | nil => rfl
  | cons d more =>
    rw [tagAt?.eq_2, if_neg (by decide), if_pos rfl]
    by_cases hd : isTagStart d = true
    · obtain ⟨hd₁, hd₂, -⟩ := isTagStart_ne hd
      rw [closeTag_cons_of_ne hd₁ hd₂, Option.map_eq_none_iff] at ht
      rw [if_pos hd, ht]
      rfl
    · rw [if_neg hd]

/-- Escaping never makes `]` close a tag that the text left open: the text before the next
bracket of the escaped text holds a `]` only where the text did. -/
theorem closeTag_escapeTags {s t : List Char} (hs : '\\' ∉ s) (h : closeTag s = none)
    (ht : closeTag t = none) : closeTag (escapeTags s ++ t) = none := by
  induction s using escapeTags.induct with
  | case1 => simpa [escapeTags] using ht
  | case2 c rest k body after htag _ _ =>
    obtain ⟨rfl, -, -⟩ := tagAt?_eq_some_plain hs htag
    rw [escapeTags_of_tagAt htag]
    simp [closeTag]
  | case3 c rest htag ih =>
    rw [escapeTags_of_not_tagAt htag, List.cons_append]
    simp only [closeTag] at h ⊢
    split
    · rename_i hc
      simp [hc] at h
    · split
      · rfl
      · rename_i hc₁ hc₂
        simp only [hc₁, hc₂, if_false, Option.map_eq_none_iff] at h ⊢
        exact ih (fun h' => hs (List.mem_cons_of_mem c h')) h

/-- A character that opens no tag in the text opens none once the rest is escaped. -/
theorem tagAt?_cons_escapeTags {c : Char} {rest t : List Char} (hs : '\\' ∉ c :: rest)
    (h : tagAt? (c :: rest) = none) (ht : closeTag t = none) :
    tagAt? (c :: (escapeTags rest ++ t)) = none := by
  have hc : c ≠ '\\' := fun hc => hs (hc ▸ List.mem_cons_self)
  by_cases ho : c = '['
  · subst ho
    cases rest with
    | nil =>
      -- the bracket meets the text that follows
      simpa [escapeTags] using tagAt?_open_of_closeTag ht
    | cons d more =>
      have hrest : '\\' ∉ d :: more := fun h' => hs (List.mem_cons_of_mem _ h')
      cases hdt : tagAt? (d :: more) with
      | some g =>
        -- the next character opens a tag, which escaping puts a backslash before
        obtain ⟨k, body, after⟩ := g
        obtain ⟨rfl, -, -⟩ := tagAt?_eq_some_plain hrest hdt
        rw [escapeTags_of_tagAt hdt]
        simp [tagAt?, isTagStart]
      | none =>
        rw [escapeTags_of_not_tagAt hdt, List.cons_append]
        rw [tagAt?.eq_2, if_neg (by decide), if_pos rfl] at h ⊢
        by_cases hd : isTagStart d = true
        · rw [if_pos hd, Option.map_eq_none_iff] at h ⊢
          exact closeTag_escapeTags (fun h' => hrest (List.mem_cons_of_mem _ h')) h ht
        · rw [if_neg hd]
  · exact tagAt?_of_ne hc ho

/-- **Escaped backslash-free text shows as itself**, and what follows it is read as on its own,
when no `]` in it could close a tag left open before it. -/
theorem showFrom_escapeTags {plain s t : List Char} (hp : '\\' ∉ plain) (hs : '\\' ∉ s)
    (ht : '\\' ∉ t) (hclose : closeTag t = none) :
    showFrom plain (escapeTags s ++ t) = plain.reverse ++ s ++ showFrom [] t := by
  induction s using escapeTags.induct generalizing plain with
  | case1 => simpa [escapeTags] using showFrom_of_plain hp ht
  | case2 c rest k body after htag _ ih =>
    -- a tag of the text, shown as text once escaped
    obtain ⟨rfl, hsplit, d, p, rfl, hd, hp₁, hp₂⟩ := tagAt?_eq_some_plain hs htag
    have hafter : '\\' ∉ after := fun h => hs (by rw [hsplit]; simp [h])
    have hbody : '\\' ∉ p := fun h => hs (by rw [hsplit]; simp [h])
    have hshown : '\\' ∉ '[' :: d :: p ++ [']'] := by
      simp [hbody, Ne.symm (isTagStart_ne hd).2.2]
    have hesc : escapeTags (c :: rest) ++ t = '\\' :: '[' :: (d :: p ++ ']' :: (escapeTags after ++ t)) := by
      rw [escapeTags_of_tagAt htag]
      simp
    rw [hesc, showFrom_of_tagAt (tagAt?_escaped _ hd hp₁ hp₂), ih (by simp) hafter, hsplit,
      unescapeBrackets_of_not_mem (by simpa using hp), unescapeBrackets_of_not_mem hshown]
    simp
  | case3 c rest htag ih =>
    have hc : c ≠ '\\' := fun hc => hs (hc ▸ List.mem_cons_self)
    rw [escapeTags_of_not_tagAt htag, List.cons_append,
      showFrom_of_not_tagAt (tagAt?_cons_escapeTags hs htag hclose),
      ih (by simp [Ne.symm hc, hp]) (fun h => hs (List.mem_cons_of_mem c h))]
    simp

/-- Escaped backslash-free text does not end in a backslash. -/
theorem escapeTags_eq_nil_or {s : List Char} (hs : '\\' ∉ s) :
    escapeTags s = [] ∨ ∃ l c, escapeTags s = l ++ [c] ∧ c ≠ '\\' := by
  induction s using escapeTags.induct with
  | case1 => exact .inl (by simp [escapeTags])
  | case2 c rest k body after htag _ ih =>
    obtain ⟨rfl, hsplit, -⟩ := tagAt?_eq_some_plain hs htag
    have hafter : '\\' ∉ after := fun h => hs (by rw [hsplit]; simp [h])
    rw [escapeTags_of_tagAt htag]
    refine .inr ?_
    rcases ih hafter with he | ⟨l, c', he, hc'⟩
    · exact ⟨'\\' :: '[' :: body, ']', by simp [he], by decide⟩
    · exact ⟨'\\' :: '[' :: body ++ ']' :: l, c', by simp [he], hc'⟩
  | case3 c rest htag ih =>
    have hc : c ≠ '\\' := fun hc => hs (hc ▸ List.mem_cons_self)
    rw [escapeTags_of_not_tagAt htag]
    refine .inr ?_
    rcases ih (fun h => hs (List.mem_cons_of_mem c h)) with he | ⟨l, c', he, hc'⟩
    · exact ⟨[], c, by simp [he], hc⟩
    · exact ⟨c :: l, c', by simp [he], hc'⟩

/-- `escape` adds no backslash at the end of backslash-free text. -/
theorem escape_toList {s : String} (hs : '\\' ∉ s.toList) : (escape s).toList = escapeTags s.toList := by
  unfold escape
  rcases escapeTags_eq_nil_or hs with he | ⟨l, c, he, hc⟩
  · simp [he]
  · simp [he, hc]

end EnvAudit.Report
