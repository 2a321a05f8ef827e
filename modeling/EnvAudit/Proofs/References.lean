import EnvAudit.Proofs.Search
import Mathlib.Data.List.TakeWhile
/-!
# What a source text reads

The three forms of a reference, as a grammar (`Reads`), and the theorem that a source text reads
exactly the names of the forms that occur in it at some position (`mem_usedNames_iff`). The search
enumerates each pattern's matches from the left without overlap, and the destructuring pattern
captures its binding list trimmed; neither loses nor adds a name:

* the match of each pattern at a position is inverted into its form (`memberAt_eq_some`,
  `indexAt_eq_some`, `declarationAt_eq_some`);
* no match of a pattern starts inside another one (`noOverlap_memberAt`, `noOverlap_indexAt`,
  `noOverlap_declarationAt`): a namespace starts with a letter found nowhere else in an access,
  and inside a declaration a keyword can start a word only in the binding list, from where no
  `{` comes before the closing `}`;
* the trimmed group binds the names of the whole binding list (`boundNames_lazyGroup`).
-/

namespace EnvAudit.Source

open EnvAudit.Text

/-! ## Runs of characters -/

section
variable {α : Type} {p : α → Bool}

theorem head?_dropWhile_false (l : List α) : ∀ c ∈ (l.dropWhile p).head?, p c = false := by
  intro c hc
  simpa [Option.mem_def.1 hc] using List.head?_dropWhile_not p l

theorem takeWhile_append_of_head {pre rest : List α} (hpre : ∀ c ∈ pre, p c)
    (hrest : ∀ c ∈ rest.head?, p c = false) : (pre ++ rest).takeWhile p = pre := by
  rw [List.takeWhile_append_of_pos hpre]
  cases rest with
  | nil => simp
  | cons c r => simp [hrest c rfl]

theorem dropWhile_append_of_head {pre rest : List α} (hpre : ∀ c ∈ pre, p c)
    (hrest : ∀ c ∈ rest.head?, p c = false) : (pre ++ rest).dropWhile p = rest := by
  rw [List.dropWhile_append_of_pos hpre]
  cases rest with
  | nil => simp
  | cons c r => simp [hrest c rfl]

theorem head?_cons_false {c : α} {l : List α} (h : p c = false) : ∀ x ∈ (c :: l).head?, p x = false := by
  simpa using h

theorem find?_eq_of_unique {l : List α} {a : α} (ha : a ∈ l) (hp : p a) (h : ∀ b ∈ l, p b → b = a) :
    l.find? p = some a := by
  obtain ⟨b, hb⟩ := Option.isSome_iff_exists.1 (List.find?_isSome.2 ⟨a, ha, hp⟩)
  rw [hb, h b (List.mem_of_find?_eq_some hb) (List.find?_some hb)]

/-- An alternation tried in order, where at most one alternative can apply, is that alternative. -/
theorem findSome?_ite_eq {β : Type} {l : List α} (f : α → Option β)
    (huniq : ∀ a ∈ l, ∀ b ∈ l, p a → p b → a = b) :
    l.findSome? (fun a => if p a then f a else none) = (l.find? p).bind f := by
  induction l with
  | nil => rfl
  | cons a l ih =>
    have ih' := ih fun x hx y hy => huniq x (List.mem_cons_of_mem a hx) y (List.mem_cons_of_mem a hy)
    cases hp : p a with
    | false => simp [hp, ih']
    | true =>
      cases hf : f a with
      | some b => simp [hp, hf]
      | none =>
        simp only [List.findSome?_cons, hp, hf, List.find?_cons, Option.bind_some, if_true]
        refine List.findSome?_eq_none_iff.2 fun b hb => ?_
        split
        · rename_i hpb
          rw [huniq b (List.mem_cons_of_mem a hb) a List.mem_cons_self hpb hp, hf]
        · rfl

end

/-! ## The forms of a reference -/

/-- A member access: a namespace, `.` and a name. -/
structure MemberAccess where
  ns : List Char
  name : List Char
  ns_mem : ns ∈ namespaces
  name_ne : name ≠ []
  name_chars : ∀ c ∈ name, isEnvNameChar c

/-- The text of a member access. -/
def MemberAccess.text (a : MemberAccess) : List Char := a.ns ++ '.' :: a.name

/-- An index access: a namespace, `[`, a quote, a name, a quote and `]`; the two quotes need not
be alike. -/
structure IndexAccess where
  ns : List Char
  q₁ : Char
  name : List Char
  q₂ : Char
  ns_mem : ns ∈ namespaces
  q₁_quote : isIndexQuote q₁
  q₂_quote : isIndexQuote q₂
  name_ne : name ≠ []
  name_chars : ∀ c ∈ name, isEnvNameChar c

/-- The text of an index access. -/
def IndexAccess.text (a : IndexAccess) : List Char := a.ns ++ '[' :: a.q₁ :: a.name ++ [a.q₂, ']']

/-- A destructuring declaration: a keyword, blanks, `{`, a non-empty binding list without braces,
`}`, blanks, `=`, blanks and a namespace. -/
structure Destructuring where
  keyword : List Char
  ws₁ : List Char
  body : List Char
  ws₂ : List Char
  ws₃ : List Char
  ns : List Char
  keyword_mem : keyword ∈ keywords
  ws₁_blank : ∀ c ∈ ws₁, isBlank c
  body_ne : body ≠ []
  body_chars : ∀ c ∈ body, isBodyChar c
  ws₂_blank : ∀ c ∈ ws₂, isBlank c
  ws₃_blank : ∀ c ∈ ws₃, isBlank c
  ns_mem : ns ∈ namespaces

/-- The text of a destructuring declaration. -/
def Destructuring.text (d : Destructuring) : List Char :=
  d.keyword ++ d.ws₁ ++ '{' :: d.body ++ '}' :: d.ws₂ ++ '=' :: d.ws₃ ++ d.ns

/-- `Reads prev s name`: a reference to `name` starts at the head of `s`, where `prev` stands
before `s` (none at the start of the text). -/
inductive Reads : Option Char → List Char → List Char → Prop
  /-- A member access, its name not followed by another name character. -/
  | member {prev : Option Char} (a : MemberAccess) (rest : List Char)
      (hend : ∀ c ∈ rest.head?, isEnvNameChar c = false) : Reads prev (a.text ++ rest) a.name
  /-- An index access. -/
  | index {prev : Option Char} (a : IndexAccess) (rest : List Char) :
      Reads prev (a.text ++ rest) a.name
  /-- A destructuring declaration at the start of a word, for each name its binding list binds. -/
  | destructure {prev : Option Char} {name : List Char} (d : Destructuring) (rest : List Char)
      (hword : wordStartsAfter prev) (hname : name ∈ boundNames d.body) :
      Reads prev (d.text ++ rest) name

/-! ## Facts about the fixed words

The namespaces and keywords differ in their first letters, so at most one of each starts at a
position; no blank stands at the head of a namespace. -/

theorem namespaces_head_inj : ∀ a ∈ namespaces, ∀ b ∈ namespaces, a.head? = b.head? → a = b := by
  decide

theorem keywords_head_inj : ∀ a ∈ keywords, ∀ b ∈ keywords, a.head? = b.head? → a = b := by
  decide

theorem namespaces_ne_nil : ∀ ns ∈ namespaces, ns ≠ [] := by decide

theorem keywords_ne_nil : ∀ kw ∈ keywords, kw ≠ [] := by decide

theorem eq_of_prefix_of_head_inj {words : List (List Char)}
    (hinj : ∀ a ∈ words, ∀ b ∈ words, a.head? = b.head? → a = b) (hne : ∀ a ∈ words, a ≠ [])
    {a b rest : List Char} (ha : a ∈ words) (hb : b ∈ words) (h : b <+: a ++ rest) : b = a := by
  obtain ⟨t, ht⟩ := h
  refine hinj b hb a ha ?_
  obtain ⟨x, xs, rfl⟩ := List.exists_cons_of_ne_nil (hne b hb)
  obtain ⟨y, ys, rfl⟩ := List.exists_cons_of_ne_nil (hne a ha)
  simp only [List.cons_append, List.cons.injEq] at ht
  simp [ht.1]

theorem find?_namespaces {ns : List Char} (rest : List Char) (hns : ns ∈ namespaces) :
    namespaces.find? (·.isPrefixOf (ns ++ rest)) = some ns :=
  find?_eq_of_unique hns (by simp) fun b hb hp =>
    eq_of_prefix_of_head_inj namespaces_head_inj namespaces_ne_nil hns hb (by simpa using hp)

theorem keywords_prefix_unique (s : List Char) :
    ∀ a ∈ keywords, ∀ b ∈ keywords, a.isPrefixOf s → b.isPrefixOf s → a = b := by
  intro a ha b hb hpa hpb
  obtain ⟨t, rfl⟩ := List.isPrefixOf_iff_prefix.1 hpa
  exact (eq_of_prefix_of_head_inj keywords_head_inj keywords_ne_nil ha hb (by simpa using hpb)).symm

theorem find?_keywords {kw : List Char} (rest : List Char) (hkw : kw ∈ keywords) :
    keywords.find? (·.isPrefixOf (kw ++ rest)) = some kw :=
  find?_eq_of_unique hkw (by simp) fun b hb hp =>
    eq_of_prefix_of_head_inj keywords_head_inj keywords_ne_nil hkw hb (by simpa using hp)

theorem namespace_head_not_blank : ∀ ns ∈ namespaces, ns.head?.any isBlank = false := by
  decide

/-! ## Access patterns -/

theorem memberName?_eq_some {t name : List Char} :
    memberName? t = some name ↔
      ∃ rest, t = '.' :: name ++ rest ∧ name ≠ [] ∧ (∀ c ∈ name, isEnvNameChar c) ∧
        ∀ c ∈ rest.head?, isEnvNameChar c = false := by
  constructor
  · intro h
    unfold memberName? at h
    split at h
    · rename_i r
      dsimp only at h
      split at h
      · cases h
      · rename_i hne
        cases h
        exact ⟨r.dropWhile isEnvNameChar, by simp, by simpa using hne,
          List.all_eq_true.1 List.all_takeWhile, head?_dropWhile_false r⟩
    · cases h
  · rintro ⟨rest, rfl, hne, hname, hrest⟩
    simp [memberName?, takeWhile_append_of_head hname hrest, hne]

theorem memberAt_eq_some {ns : List Char} {prev : Option Char} {s : List Char} {h : Hit} :
    memberAt ns prev s = some h ↔
      ∃ name rest, s = ns ++ '.' :: name ++ rest ∧ name ≠ [] ∧ (∀ c ∈ name, isEnvNameChar c) ∧
        (∀ c ∈ rest.head?, isEnvNameChar c = false) ∧ h = ⟨ns.length + 1 + name.length, name⟩ := by
  unfold memberAt
  split
  · rename_i hp
    obtain ⟨t, rfl⟩ := List.isPrefixOf_iff_prefix.1 hp
    simp only [List.drop_left, Option.map_eq_some_iff, memberName?_eq_some]
    constructor
    · rintro ⟨name, ⟨rest, rfl, hne, hname, hrest⟩, rfl⟩
      exact ⟨name, rest, by simp, hne, hname, hrest, rfl⟩
    · rintro ⟨name, rest, hs, hne, hname, hrest, rfl⟩
      exact ⟨name, ⟨rest, by simpa using hs, hne, hname, hrest⟩, rfl⟩
  · rename_i hp
    refine ⟨nofun, ?_⟩
    rintro ⟨name, rest, rfl, -⟩
    simp at hp

theorem indexName?_eq_some {t name : List Char} :
    indexName? t = some name ↔
      ∃ q₁ q₂ rest, t = '[' :: q₁ :: name ++ q₂ :: ']' :: rest ∧ isIndexQuote q₁ ∧
        isIndexQuote q₂ ∧ name ≠ [] ∧ ∀ c ∈ name, isEnvNameChar c := by
  constructor
  · intro h
    unfold indexName? at h
    split at h
    · rename_i q₁ r
      dsimp only at h
      split at h
      · rename_i q₂ rest hd
        simp only [Bool.and_eq_true, Bool.not_eq_true', List.isEmpty_eq_false_iff] at h
        split at h
        · rename_i hq
          cases h
          obtain ⟨⟨hq₁, hne⟩, hq₂⟩ := hq
          refine ⟨q₁, q₂, rest, ?_, hq₁, hq₂, by simpa using hne,
            List.all_eq_true.1 List.all_takeWhile⟩
          simpa [hd] using (@List.takeWhile_append_dropWhile _ isEnvNameChar r).symm
        · cases h
      · cases h
    · cases h
  · rintro ⟨q₁, q₂, rest, rfl, hq₁, hq₂, hne, hname⟩
    have hq₂' : isEnvNameChar q₂ = false := by
      revert hq₂; unfold isIndexQuote; rintro hq; simp at hq; rcases hq with rfl | rfl <;> rfl
    have hrest : ∀ c ∈ (q₂ :: ']' :: rest).head?, isEnvNameChar c = false := by simp [hq₂']
    simp [indexName?, takeWhile_append_of_head hname hrest, dropWhile_append_of_head hname hrest,
      hq₁, hq₂, hne]

theorem indexAt_eq_some {ns : List Char} {prev : Option Char} {s : List Char} {h : Hit} :
    indexAt ns prev s = some h ↔
      ∃ q₁ name q₂ rest, s = ns ++ '[' :: q₁ :: name ++ q₂ :: ']' :: rest ∧ isIndexQuote q₁ ∧
        isIndexQuote q₂ ∧ name ≠ [] ∧ (∀ c ∈ name, isEnvNameChar c) ∧
        h = ⟨ns.length + 4 + name.length, name⟩ := by
  unfold indexAt
  split
  · rename_i hp
    obtain ⟨t, rfl⟩ := List.isPrefixOf_iff_prefix.1 hp
    simp only [List.drop_left, Option.map_eq_some_iff, indexName?_eq_some]
    constructor
    · rintro ⟨name, ⟨q₁, q₂, rest, rfl, hq₁, hq₂, hne, hname⟩, rfl⟩
      exact ⟨q₁, name, q₂, rest, by simp, hq₁, hq₂, hne, hname, rfl⟩
    · rintro ⟨q₁, name, q₂, rest, hs, hq₁, hq₂, hne, hname, rfl⟩
      exact ⟨name, ⟨q₁, q₂, rest, by simpa using hs, hq₁, hq₂, hne, hname⟩, rfl⟩
  · rename_i hp
    refine ⟨nofun, ?_⟩
    rintro ⟨q₁, name, q₂, rest, rfl, -⟩
    simp at hp

/-! ## Destructuring -/

theorem bindingAt_of_parts {ws₁ body ws₂ ws₃ ns rest : List Char} (h₁ : ∀ c ∈ ws₁, isBlank c)
    (hne : body ≠ []) (hbody : ∀ c ∈ body, isBodyChar c) (h₂ : ∀ c ∈ ws₂, isBlank c)
    (h₃ : ∀ c ∈ ws₃, isBlank c) (hns : ns ∈ namespaces) :
    bindingAt (ws₁ ++ '{' :: (body ++ '}' :: (ws₂ ++ '=' :: (ws₃ ++ (ns ++ rest))))) =
      some ⟨ws₁.length + body.length + ws₂.length + ws₃.length + ns.length + 3, lazyGroup body⟩ := by
  have hnsb : ∀ c ∈ (ns ++ rest).head?, isBlank c = false := by
    obtain ⟨x, xs, rfl⟩ := List.exists_cons_of_ne_nil (namespaces_ne_nil ns hns)
    simpa using namespace_head_not_blank _ hns
  have hopen : isBlank '{' = false := by decide
  have hclose : isBodyChar '}' = false := by decide
  have heq : isBlank '=' = false := by decide
  simp only [bindingAt, takeWhile_append_of_head h₁ (head?_cons_false hopen),
    dropWhile_append_of_head h₁ (head?_cons_false hopen),
    takeWhile_append_of_head hbody (head?_cons_false hclose),
    dropWhile_append_of_head hbody (head?_cons_false hclose),
    takeWhile_append_of_head h₂ (head?_cons_false heq),
    dropWhile_append_of_head h₂ (head?_cons_false heq),
    takeWhile_append_of_head h₃ hnsb, dropWhile_append_of_head h₃ hnsb, find?_namespaces rest hns]
  simp [hne]

theorem eq_takeWhile_append {p : Char → Bool} {l r : List Char} (h : l.dropWhile p = r) :
    l = l.takeWhile p ++ r := by
  rw [← h, List.takeWhile_append_dropWhile]

theorem bindingAt_eq_some {t : List Char} {h : Hit} :
    bindingAt t = some h ↔
      ∃ ws₁ body ws₂ ws₃ ns rest,
        t = ws₁ ++ '{' :: (body ++ '}' :: (ws₂ ++ '=' :: (ws₃ ++ (ns ++ rest)))) ∧
        (∀ c ∈ ws₁, isBlank c) ∧ body ≠ [] ∧ (∀ c ∈ body, isBodyChar c) ∧
        (∀ c ∈ ws₂, isBlank c) ∧ (∀ c ∈ ws₃, isBlank c) ∧ ns ∈ namespaces ∧
        h = ⟨ws₁.length + body.length + ws₂.length + ws₃.length + ns.length + 3, lazyGroup body⟩ := by
  constructor
  · intro hb
    unfold bindingAt at hb
    dsimp only at hb
    -- each match that fails gives none, so every part is found
    split at hb
    case h_2 => cases hb
    rename_i r hr
    split at hb
    case h_2 => cases hb
    rename_i a ha
    split at hb
    case h_2 => cases hb
    rename_i b hb'
    split at hb
    case h_2 => cases hb
    rename_i ns hns
    split at hb
    · cases hb
    · rename_i hne
      cases hb
      have hp := List.find?_some hns
      obtain ⟨rest, hrest⟩ := List.isPrefixOf_iff_prefix.1 hp
      have all_tw {p : Char → Bool} (l : List Char) : ∀ c ∈ l.takeWhile p, p c :=
        List.all_eq_true.1 List.all_takeWhile
      have hb'' : b = b.takeWhile isBlank ++ (ns ++ rest) := by
        rw [hrest, List.takeWhile_append_dropWhile]
      refine ⟨_, _, _, _, ns, rest, ?_, all_tw t, by simpa using hne, all_tw r, all_tw a, all_tw b,
        List.mem_of_find?_eq_some hns, rfl⟩
      conv => lhs; rw [eq_takeWhile_append hr, eq_takeWhile_append ha, eq_takeWhile_append hb', hb'']
  · rintro ⟨ws₁, body, ws₂, ws₃, ns, rest, rfl, h₁, hne, hbody, h₂, h₃, hns, rfl⟩
    exact bindingAt_of_parts h₁ hne hbody h₂ h₃ hns

theorem declarationAt_eq_some {prev : Option Char} {s : List Char} {h : Hit} :
    declarationAt prev s = some h ↔
      wordStartsAfter prev ∧ ∃ (d : Destructuring) (rest : List Char), s = d.text ++ rest ∧
        h = ⟨d.text.length, lazyGroup d.body⟩ := by
  unfold declarationAt
  split
  · rename_i hword
    simp only [findSome?_ite_eq _ (keywords_prefix_unique s), hword, true_and]
    constructor
    · intro hd
      obtain ⟨kw, hkw, hd⟩ := Option.bind_eq_some_iff.1 hd
      have hp := List.find?_some hkw
      obtain ⟨t, rfl⟩ := List.isPrefixOf_iff_prefix.1 hp
      obtain ⟨h', hb, rfl⟩ := Option.map_eq_some_iff.1 hd
      rw [List.drop_left] at hb
      obtain ⟨ws₁, body, ws₂, ws₃, ns, rest, rfl, h₁, hne, hbody, h₂, h₃, hns, rfl⟩ :=
        bindingAt_eq_some.1 hb
      refine ⟨⟨kw, ws₁, body, ws₂, ws₃, ns, List.mem_of_find?_eq_some hkw, h₁, hne, hbody, h₂, h₃,
        hns⟩, rest, by simp [Destructuring.text], ?_⟩
      simp only [Destructuring.text, List.length_append, List.length_cons, Hit.mk.injEq, and_true]
      omega
    · rintro ⟨d, rest, rfl, rfl⟩
      have htext : d.text ++ rest =
          d.keyword ++ (d.ws₁ ++ '{' :: (d.body ++ '}' :: (d.ws₂ ++ '=' :: (d.ws₃ ++ (d.ns ++ rest)))))
        := by simp [Destructuring.text]
      rw [htext, find?_keywords _ d.keyword_mem, Option.bind_some, List.drop_left,
        bindingAt_of_parts d.ws₁_blank d.body_ne d.body_chars d.ws₂_blank d.ws₃_blank d.ns_mem]
      simp only [Option.map_some, Destructuring.text, List.length_append, List.length_cons,
        Option.some.injEq, Hit.mk.injEq, and_true]
      omega
  · rename_i hword
    simp [hword]

/-! ## No match starts inside another -/

/-- The first letter of a namespace is found nowhere else in an access through it. -/
theorem namespace_head_fresh : ∀ ns ∈ namespaces, (ns.head?.all fun c => !ns.tail.contains c &&
    c != '.' && c != '[' && c != ']' && !isEnvNameChar c && !isIndexQuote c) = true := by
  decide

theorem memberAt_start {ns : List Char} {prev : Option Char} {c : Char} {cs : List Char} {h : Hit}
    (hns : ns ∈ namespaces) (hm : memberAt ns prev (c :: cs) = some h) : (ns.head? == some c) = true := by
  obtain ⟨name, rest, hs, -⟩ := memberAt_eq_some.1 hm
  obtain ⟨x, xs, rfl⟩ := List.exists_cons_of_ne_nil (namespaces_ne_nil ns hns)
  simp only [List.cons_append, List.cons.injEq] at hs
  simp [hs.1]

theorem indexAt_start {ns : List Char} {prev : Option Char} {c : Char} {cs : List Char} {h : Hit}
    (hns : ns ∈ namespaces) (hm : indexAt ns prev (c :: cs) = some h) : (ns.head? == some c) = true := by
  obtain ⟨q₁, name, q₂, rest, hs, -⟩ := indexAt_eq_some.1 hm
  obtain ⟨x, xs, rfl⟩ := List.exists_cons_of_ne_nil (namespaces_ne_nil ns hns)
  simp only [List.cons_append, List.cons.injEq] at hs
  simp [hs.1]

theorem noOverlap_memberAt {ns : List Char} (hns : ns ∈ namespaces) : NoOverlap (memberAt ns) := by
  intro prev c cs h hm
  obtain ⟨name, rest, hs, -, hname, -, rfl⟩ := memberAt_eq_some.1 hm
  obtain ⟨x, xs, rfl⟩ := List.exists_cons_of_ne_nil (namespaces_ne_nil ns hns)
  simp only [List.cons_append, List.cons.injEq] at hs
  obtain ⟨rfl, rfl⟩ := hs
  have hfresh := namespace_head_fresh _ hns
  simp only [List.head?_cons, Option.all_some, List.tail_cons, Bool.and_eq_true, Bool.not_eq_true',
    List.contains_eq_mem, decide_eq_false_iff_not, bne_iff_ne, ne_eq] at hfresh
  obtain ⟨⟨⟨⟨⟨hxs, hdot⟩, -⟩, -⟩, hx⟩, -⟩ := hfresh
  have hlen : (c :: xs).length + 1 + name.length - 1 = (xs ++ '.' :: name).length := by
    simp; omega
  rw [hlen, show xs ++ '.' :: name ++ rest = (xs ++ '.' :: name) ++ rest by simp]
  refine silent_of_anyStart (fun p d ds h' hm' => memberAt_start hns hm') (anyStart_eq_false _ ?_)
  intro d hd p
  -- the namespace's first letter is neither in its tail, nor a dot, nor a name character
  simp only [List.head?_cons, Option.some.injEq, beq_eq_false_iff_ne, ne_eq]
  rintro rfl
  simp only [List.mem_append, List.mem_cons] at hd
  rcases hd with hd | rfl | hd
  · exact hxs hd
  · exact hdot rfl
  · simp [hname _ hd] at hx

theorem noOverlap_indexAt {ns : List Char} (hns : ns ∈ namespaces) : NoOverlap (indexAt ns) := by
  intro prev c cs h hm
  obtain ⟨q₁, name, q₂, rest, hs, hq₁, hq₂, -, hname, rfl⟩ := indexAt_eq_some.1 hm
  obtain ⟨x, xs, rfl⟩ := List.exists_cons_of_ne_nil (namespaces_ne_nil ns hns)
  simp only [List.cons_append, List.cons.injEq] at hs
  obtain ⟨rfl, rfl⟩ := hs
  have hfresh := namespace_head_fresh _ hns
  simp only [List.head?_cons, Option.all_some, List.tail_cons, Bool.and_eq_true, Bool.not_eq_true',
    List.contains_eq_mem, decide_eq_false_iff_not, bne_iff_ne, ne_eq] at hfresh
  obtain ⟨⟨⟨⟨⟨hxs, -⟩, hopen⟩, hclose⟩, hx⟩, hquote⟩ := hfresh
  have hlen : (c :: xs).length + 4 + name.length - 1 = (xs ++ '[' :: q₁ :: name ++ [q₂, ']']).length := by
    simp; omega
  rw [hlen, show xs ++ '[' :: q₁ :: name ++ q₂ :: ']' :: rest =
    (xs ++ '[' :: q₁ :: name ++ [q₂, ']']) ++ rest by simp]
  refine silent_of_anyStart (fun p d ds h' hm' => indexAt_start hns hm') (anyStart_eq_false _ ?_)
  intro d hd p
  simp only [List.head?_cons, Option.some.injEq, beq_eq_false_iff_ne, ne_eq]
  rintro rfl
  simp only [List.mem_append, List.mem_cons, List.not_mem_nil, or_false] at hd
  rcases hd with ((hd | rfl | rfl | hd) | rfl | rfl)
  · exact hxs hd
  · exact hopen rfl
  · simp [hq₁] at hquote
  · simp [hname _ hd] at hx
  · simp [hq₂] at hquote
  · exact hclose rfl

/-- Whether a destructuring declaration can start at `c`, with `prev` before it: at the start of a
word, with the first letter of a keyword. -/
def mayOpen (prev : Option Char) (c : Char) : Bool :=
  wordStartsAfter prev && keywords.any (·.head? == some c)

theorem declarationAt_opens {prev : Option Char} {c : Char} {cs : List Char} {h : Hit}
    (hm : declarationAt prev (c :: cs) = some h) : mayOpen prev c := by
  obtain ⟨hword, d, rest, hs, -⟩ := declarationAt_eq_some.1 hm
  obtain ⟨x, xs, hkw⟩ := List.exists_cons_of_ne_nil (keywords_ne_nil _ d.keyword_mem)
  simp only [Destructuring.text, hkw, List.cons_append, List.cons.injEq] at hs
  simp only [mayOpen, hword, Bool.true_and, List.any_eq_true, beq_iff_eq]
  exact ⟨d.keyword, d.keyword_mem, by simp [hkw, hs.1]⟩

theorem mayOpen_eq_false {c : Char} (h : ∀ kw ∈ keywords, kw.head? ≠ some c) (prev : Option Char) :
    mayOpen prev c = false := by
  simp only [mayOpen, Bool.and_eq_false_iff, List.any_eq_false, beq_iff_eq]
  exact .inr h

theorem keyword_head_not_blank : ∀ kw ∈ keywords, kw.head?.any isBlank = false := by decide

theorem mayOpen_blank {c : Char} (hc : isBlank c) (prev : Option Char) : mayOpen prev c = false :=
  mayOpen_eq_false (fun kw hkw hh => by simpa [hh, hc] using keyword_head_not_blank kw hkw) prev

theorem keywords_heads : ∀ kw ∈ keywords, kw.head? ≠ some '{' ∧ kw.head? ≠ some '}' ∧
    kw.head? ≠ some '=' := by
  decide

/-- Inside a keyword no word starts. -/
theorem keyword_tail_quiet : ∀ kw ∈ keywords,
    (kw.head?.all fun c => !anyStart mayOpen (some c) kw.tail) = true := by
  decide

/-- Inside a namespace a keyword letter never starts a word. -/
theorem namespace_quiet : ∀ ns ∈ namespaces, (ns.head?.all fun c =>
    !keywords.any (·.head? == some c) && !anyStart mayOpen (some c) ns.tail) = true := by
  decide

theorem anyStart_namespace {ns : List Char} (hns : ns ∈ namespaces) (q : Option Char) :
    anyStart mayOpen q ns = false := by
  obtain ⟨y, ys, rfl⟩ := List.exists_cons_of_ne_nil (namespaces_ne_nil _ hns)
  have hquiet := namespace_quiet _ hns
  simp only [List.head?_cons, Option.all_some, List.tail_cons, Bool.and_eq_true, Bool.not_eq_true',
    List.any_eq_false, beq_iff_eq] at hquiet
  simp only [anyStart, Bool.or_eq_false_iff]
  exact ⟨mayOpen_eq_false hquiet.1 q, hquiet.2⟩

theorem isBodyChar_of_isBlank {c : Char} (h : isBlank c) : isBodyChar c := by
  simp only [isBodyChar, Bool.and_eq_true, decide_eq_true_eq]
  constructor <;> (rintro rfl; exact absurd h (by decide))

theorem keyword_body_chars : ∀ kw ∈ keywords, kw.all isBodyChar = true := by decide

/-- From inside a binding list, a `}` comes before any `{`, so no declaration starts there. -/
theorem declarationAt_brace {prev : Option Char} {X r : List Char} (hX : ∀ c ∈ X, isBodyChar c) :
    declarationAt prev (X ++ '}' :: r) = none := by
  cases hd : declarationAt prev (X ++ '}' :: r) with
  | none => rfl
  | some h =>
    obtain ⟨-, d, rest, hs, -⟩ := declarationAt_eq_some.1 hd
    have hpre : ∀ c ∈ d.keyword ++ d.ws₁, isBodyChar c := by
      simp only [List.mem_append]
      rintro c (hc | hc)
      · exact List.all_eq_true.1 (keyword_body_chars _ d.keyword_mem) c hc
      · exact isBodyChar_of_isBlank (d.ws₁_blank c hc)
    have hclose : isBodyChar '}' = false := by decide
    have hopen : isBodyChar '{' = false := by decide
    have hl := dropWhile_append_of_head hX (head?_cons_false (l := r) hclose)
    rw [hs, show d.text ++ rest = (d.keyword ++ d.ws₁) ++ '{' :: (d.body ++ '}' :: (d.ws₂ ++
      '=' :: (d.ws₃ ++ (d.ns ++ rest)))) by simp [Destructuring.text],
      dropWhile_append_of_head hpre (head?_cons_false hopen)] at hl
    simp at hl

theorem noOverlap_declarationAt : NoOverlap declarationAt := by
  intro prev c cs h hm
  obtain ⟨-, d, rest, hs, rfl⟩ := declarationAt_eq_some.1 hm
  obtain ⟨x, kw, hkw⟩ := List.exists_cons_of_ne_nil (keywords_ne_nil _ d.keyword_mem)
  simp only [Destructuring.text, hkw, List.cons_append, List.cons.injEq, List.append_assoc] at hs
  obtain ⟨rfl, rfl⟩ := hs
  -- the declaration after its first letter: the keyword's tail, blanks and `{`; the binding
  -- list; then `}`, blanks, `=`, blanks and the namespace
  have hsplit : kw ++ (d.ws₁ ++ '{' :: (d.body ++ '}' :: (d.ws₂ ++ '=' :: (d.ws₃ ++ (d.ns ++ rest))))) =
      (kw ++ d.ws₁ ++ ['{']) ++ (d.body ++ (('}' :: d.ws₂ ++ '=' :: d.ws₃ ++ d.ns) ++ rest)) := by
    simp
  have hlen : d.text.length - 1 =
      (kw ++ d.ws₁ ++ ['{']).length + (d.body.length + ('}' :: d.ws₂ ++ '=' :: d.ws₃ ++ d.ns).length) := by
    simp [Destructuring.text, hkw]; omega
  rw [hsplit, hlen]
  have hopens := fun p e es h' (hm' : declarationAt p (e :: es) = some h') => declarationAt_opens hm'
  refine Silent.append (silent_of_anyStart hopens ?_) (Silent.append ?_ (silent_of_anyStart hopens ?_))
  · have hkw' : kw = d.keyword.tail := by simp [hkw]
    have hquiet := keyword_tail_quiet _ d.keyword_mem
    simp only [hkw, List.head?_cons, Option.all_some, List.tail_cons, Bool.not_eq_true'] at hquiet
    rw [anyStart_append, anyStart_append, hkw', hkw, List.tail_cons, hquiet,
      anyStart_eq_false _ fun c hc => mayOpen_blank (d.ws₁_blank c hc)]
    simp only [anyStart, Bool.or_false, Bool.false_or]
    exact mayOpen_eq_false (fun kw hkw => (keywords_heads kw hkw).1) _
  · exact silent_of_forall _ fun p pre suf hb _ =>
      declarationAt_brace fun c hc => d.body_chars c (by rw [hb]; exact List.mem_append_right _ hc)
  · rw [anyStart_append, anyStart_append, anyStart_namespace d.ns_mem, Bool.or_false,
      Bool.or_eq_false_iff]
    constructor <;> refine anyStart_eq_false _ fun c hc p => ?_ <;> rcases List.mem_cons.1 hc with rfl | hc
    · exact mayOpen_eq_false (fun kw hkw => (keywords_heads kw hkw).2.1) p
    · exact mayOpen_blank (d.ws₂_blank c hc) p
    · exact mayOpen_eq_false (fun kw hkw => (keywords_heads kw hkw).2.2) p
    · exact mayOpen_blank (d.ws₃_blank c hc) p

/-! ## The trimmed group -/

theorem trim_blank_append {w s : List Char} (hw : ∀ c ∈ w, isBlank c) : trim (w ++ s) = trim s := by
  simp only [trim, trimLeft, List.dropWhile_append_of_pos hw]

theorem trimRight_append_blank {w s : List Char} (hw : ∀ c ∈ w, isBlank c) :
    trimRight (s ++ w) = trimRight s := by
  have hw' : ∀ c ∈ w.reverse, isBlank c := fun c hc => hw c (List.mem_reverse.1 hc)
  simp only [trimRight, List.reverse_append, List.dropWhile_append_of_pos hw']

theorem trim_append_blank {w s : List Char} (hw : ∀ c ∈ w, isBlank c) : trim (s ++ w) = trim s := by
  unfold trim trimLeft
  rw [List.dropWhile_append]
  split
  · rename_i h
    rw [List.isEmpty_iff.1 h, List.dropWhile_eq_nil_iff.2 hw]
  · exact trimRight_append_blank hw

theorem trim_eq_nil_iff {l : List Char} : trim l = [] ↔ ∀ c ∈ l, isBlank c := by
  rw [← List.dropWhile_eq_nil_iff]
  constructor
  · intro h
    -- what `trimLeft` leaves starts with a character that is not blank, and `trimRight` keeps it
    cases hl : l.dropWhile isBlank with
    | nil => rfl
    | cons c cs =>
      have hc := @head?_dropWhile_false _ isBlank l c (by simp [hl])
      rw [trim, trimLeft, hl, trimRight, List.reverse_eq_nil_iff, List.dropWhile_eq_nil_iff] at h
      simp [h c (by simp)] at hc
  · intro h
    rw [trim, trimLeft, h]
    rfl

theorem splitCommas_ne_nil (s : List Char) : splitCommas s ≠ [] := by
  cases s with
  | nil => simp [splitCommas]
  | cons c s =>
    simp only [splitCommas]
    split
    · simp
    · split <;> simp

theorem splitCommas_append_left {w : List Char} (s : List Char) (hw : ∀ c ∈ w, c ≠ ',') :
    ∃ p ps, splitCommas s = p :: ps ∧ splitCommas (w ++ s) = (w ++ p) :: ps := by
  induction w with
  | nil =>
    obtain ⟨p, ps, h⟩ := List.exists_cons_of_ne_nil (splitCommas_ne_nil s)
    exact ⟨p, ps, h, by simpa using h⟩
  | cons c w ih =>
    obtain ⟨p, ps, h₁, h₂⟩ := ih fun d hd => hw d (List.mem_cons_of_mem c hd)
    refine ⟨p, ps, h₁, ?_⟩
    simp [splitCommas, h₂, hw c List.mem_cons_self]

theorem splitCommas_append_right (s : List Char) {w : List Char} (hw : ∀ c ∈ w, c ≠ ',') :
    ∃ ps p, splitCommas s = ps ++ [p] ∧ splitCommas (s ++ w) = ps ++ [p ++ w] := by
  induction s with
  | nil =>
    obtain ⟨p, ps, h₁, h₂⟩ := splitCommas_append_left [] hw
    simp only [splitCommas, List.cons.injEq] at h₁
    obtain ⟨rfl, rfl⟩ := h₁
    exact ⟨[], [], rfl, by simpa using h₂⟩
  | cons c s ih =>
    obtain ⟨ps, p, h₁, h₂⟩ := ih
    cases ps with
    | nil =>
      by_cases hc : c = ','
      · exact ⟨[[]], p, by simp [splitCommas, h₁, hc], by simp [splitCommas, h₂, hc]⟩
      · exact ⟨[], c :: p, by simp [splitCommas, h₁, hc], by simp [splitCommas, h₂, hc]⟩
    | cons q qs =>
      by_cases hc : c = ','
      · exact ⟨[] :: q :: qs, p, by simp [splitCommas, h₁, hc], by simp [splitCommas, h₂, hc]⟩
      · exact ⟨(c :: q) :: qs, p, by simp [splitCommas, h₁, hc], by simp [splitCommas, h₂, hc]⟩

theorem not_comma_of_blank {c : Char} (h : isBlank c) : c ≠ ',' := by
  rintro rfl
  exact absurd h (by decide)

theorem boundName?_blank_append {w : List Char} (p : List Char) (hw : ∀ c ∈ w, isBlank c) :
    boundName? (w ++ p) = boundName? p := by
  simp only [boundName?, trim_blank_append hw]

theorem boundName?_append_blank (p : List Char) {w : List Char} (hw : ∀ c ∈ w, isBlank c) :
    boundName? (p ++ w) = boundName? p := by
  simp only [boundName?, trim_append_blank hw]

/-- Blanks before a binding list change none of its bindings. -/
theorem boundNames_blank_append {w : List Char} (s : List Char) (hw : ∀ c ∈ w, isBlank c) :
    boundNames (w ++ s) = boundNames s := by
  obtain ⟨p, ps, h₁, h₂⟩ := splitCommas_append_left s fun c hc => not_comma_of_blank (hw c hc)
  rw [boundNames, boundNames, h₁, h₂, List.filterMap_cons, List.filterMap_cons,
    boundName?_blank_append p hw]

/-- Blanks after a binding list change none of its bindings. -/
theorem boundNames_append_blank (s : List Char) {w : List Char} (hw : ∀ c ∈ w, isBlank c) :
    boundNames (s ++ w) = boundNames s := by
  obtain ⟨ps, p, h₁, h₂⟩ := splitCommas_append_right s fun c hc => not_comma_of_blank (hw c hc)
  rw [boundNames, boundNames, h₁, h₂, List.filterMap_append, List.filterMap_append,
    List.filterMap_cons, List.filterMap_cons, boundName?_append_blank p hw]

theorem boundNames_trim (l : List Char) : boundNames (trim l) = boundNames l := by
  have hleft : boundNames (trimLeft l) = boundNames l := by
    conv => rhs; rw [← @List.takeWhile_append_dropWhile _ isBlank l]
    exact (boundNames_blank_append _ (List.all_eq_true.1 List.all_takeWhile)).symm
  rw [← hleft, trim]
  conv => rhs; rw [← List.reverse_reverse (trimLeft l), ← @List.takeWhile_append_dropWhile _ isBlank
    (trimLeft l).reverse, List.reverse_append]
  exact (boundNames_append_blank _ fun c hc =>
    List.all_eq_true.1 List.all_takeWhile c (List.mem_reverse.1 hc)).symm

/-- **The trimmed group binds what the whole binding list binds.** -/
theorem boundNames_lazyGroup (body : List Char) : boundNames (lazyGroup body) = boundNames body := by
  unfold lazyGroup
  split
  · rename_i h
    have hblank := trim_eq_nil_iff.1 (List.isEmpty_iff.1 h)
    have hnil : ∀ l : List Char, (∀ c ∈ l, isBlank c) → boundNames l = [] := fun l hl => by
      have h := boundNames_blank_append [] hl
      rw [List.append_nil] at h
      exact h.trans rfl
    rw [hnil body hblank, hnil]
    intro c hc
    exact hblank c (List.mem_of_getLast? (Option.mem_toList.1 hc))
  · exact boundNames_trim body

/-! ## The names a source text reads -/

theorem memberAt_nil (ns : List Char) (prev : Option Char) : memberAt ns prev [] = none := by
  cases hm : memberAt ns prev [] with
  | none => rfl
  | some h => obtain ⟨name, rest, hs, -⟩ := memberAt_eq_some.1 hm; simp at hs

theorem indexAt_nil (ns : List Char) (prev : Option Char) : indexAt ns prev [] = none := by
  cases hm : indexAt ns prev [] with
  | none => rfl
  | some h => obtain ⟨q₁, name, q₂, rest, hs, -⟩ := indexAt_eq_some.1 hm; simp at hs

theorem declarationAt_nil (prev : Option Char) : declarationAt prev [] = none := by
  cases hm : declarationAt prev [] with
  | none => rfl
  | some h =>
    obtain ⟨-, d, rest, hs, -⟩ := declarationAt_eq_some.1 hm
    simp [Destructuring.text] at hs

/-- A reference starts at a position exactly when one of the patterns matches there: an access
pattern with the name as its group, or the declaration pattern with a group that binds the name. -/
theorem reads_iff {prev : Option Char} {s name : List Char} :
    Reads prev s name ↔
      (∃ ns ∈ namespaces, ∃ h, (memberAt ns prev s = some h ∨ indexAt ns prev s = some h) ∧
        h.group = name) ∨
      ∃ h, declarationAt prev s = some h ∧ name ∈ boundNames h.group := by
  constructor
  · rintro (⟨a, rest, hend⟩ | ⟨a, rest⟩ | ⟨d, rest, hword, hname⟩)
    · exact .inl ⟨a.ns, a.ns_mem, _, .inl (memberAt_eq_some.2 ⟨a.name, rest,
        by simp [MemberAccess.text], a.name_ne, a.name_chars, hend, rfl⟩), rfl⟩
    · exact .inl ⟨a.ns, a.ns_mem, _, .inr (indexAt_eq_some.2 ⟨a.q₁, a.name, a.q₂, rest,
        by simp [IndexAccess.text], a.q₁_quote, a.q₂_quote, a.name_ne, a.name_chars, rfl⟩), rfl⟩
    · exact .inr ⟨_, declarationAt_eq_some.2 ⟨hword, d, rest, rfl, rfl⟩,
        by rwa [boundNames_lazyGroup]⟩
  · rintro (⟨ns, hns, h, (hm | hm), rfl⟩ | ⟨h, hd, hname⟩)
    · obtain ⟨name, rest, rfl, hne, hname, hend, rfl⟩ := memberAt_eq_some.1 hm
      exact Reads.member ⟨ns, name, hns, hne, hname⟩ rest hend
    · obtain ⟨q₁, name, q₂, rest, rfl, hq₁, hq₂, hne, hname, rfl⟩ := indexAt_eq_some.1 hm
      simpa [IndexAccess.text] using
        @Reads.index prev ⟨ns, q₁, name, q₂, hns, hq₁, hq₂, hne, hname⟩ rest
    · obtain ⟨hword, d, rest, rfl, rfl⟩ := declarationAt_eq_some.1 hd
      exact Reads.destructure d rest hword (by rwa [boundNames_lazyGroup] at hname)

theorem mem_references {s name : List Char} :
    name ∈ references s ↔ ∃ pre suf, s = pre ++ suf ∧ Reads pre.getLast? suf name := by
  have hmember {ns} (hns : ns ∈ namespaces) :=
    @mem_findAll _ (memberAt_nil ns) (noOverlap_memberAt hns) name s
  have hindex {ns} (hns : ns ∈ namespaces) :=
    @mem_findAll _ (indexAt_nil ns) (noOverlap_indexAt hns) name s
  simp only [references, accessPatterns, List.mem_append, List.mem_flatMap, List.mem_cons,
    List.not_mem_nil, or_false]
  constructor
  · rintro (⟨m, ⟨ns, hns, rfl | rfl⟩, hmem⟩ | ⟨g, hg, hname⟩)
    · obtain ⟨pre, suf, h, rfl, hh, rfl⟩ := (hmember hns).1 hmem
      exact ⟨pre, suf, rfl, reads_iff.2 (.inl ⟨ns, hns, h, .inl hh, rfl⟩)⟩
    · obtain ⟨pre, suf, h, rfl, hh, rfl⟩ := (hindex hns).1 hmem
      exact ⟨pre, suf, rfl, reads_iff.2 (.inl ⟨ns, hns, h, .inr hh, rfl⟩)⟩
    · obtain ⟨pre, suf, h, rfl, hh, rfl⟩ :=
        (mem_findAll declarationAt_nil noOverlap_declarationAt).1 hg
      exact ⟨pre, suf, rfl, reads_iff.2 (.inr ⟨h, hh, hname⟩)⟩
  · rintro ⟨pre, suf, rfl, hr⟩
    rcases reads_iff.1 hr with ⟨ns, hns, h, hh | hh, rfl⟩ | ⟨h, hh, hname⟩
    · exact .inl ⟨_, ⟨ns, hns, .inl rfl⟩, (hmember hns).2 ⟨pre, suf, h, rfl, hh, rfl⟩⟩
    · exact .inl ⟨_, ⟨ns, hns, .inr rfl⟩, (hindex hns).2 ⟨pre, suf, h, rfl, hh, rfl⟩⟩
    · exact .inr ⟨h.group, (mem_findAll declarationAt_nil noOverlap_declarationAt).2
        ⟨pre, suf, h, rfl, hh, rfl⟩, hname⟩

/-- **A source text reads exactly the names of the references that start in it.** The
leftmost, non-overlapping search of each pattern, with the greedy name run and the lazy,
trimmed binding list, neither loses a reference nor adds one. -/
theorem mem_usedNames_iff {content name : String} :
    name ∈ usedNames content ↔
      ∃ pre suf, content.toList = pre ++ suf ∧ Reads pre.getLast? suf name.toList := by
  rw [usedNames, mem_sortNames, List.mem_map]
  constructor
  · rintro ⟨l, hl, rfl⟩
    rw [String.toList_ofList]
    exact mem_references.1 hl
  · intro h
    exact ⟨name.toList, mem_references.2 h, String.ofList_toList⟩

end EnvAudit.Source
