import EnvAudit.Proofs.References
/-!
# Programs of statements that read the environment

A program here is a list of statements joined by `;` and a line break, each statement one of the
three forms of a reference: a member access, an index access, or a destructuring declaration
whose binding list is written out binding by binding (`BindingList`). A binding is a name,
optionally followed by `:` or `=` and a tail: the new name it renames to, or its default value.
The names such a program reads are exactly the names its statements read: the accessed names and
the bound names, never a rename target or a default value (`mem_usedNames_joinStatements`).

The proof walks the program position by position (`ReadsWithin`):

* at the head of each statement the reference is read in one way only (`reads_member_iff`,
  `reads_index_iff`, `reads_destructuring_iff`);
* at every other position nothing is read. Most positions hold a text that diverges from every
  namespace and from every keyword that could start a word there (`allInert`); inside a binding
  list a `}` comes before any `.` or `{` (`not_readsWithin_body`); and the namespace that ends a
  declaration is followed by `;` or by the end of the text (`not_readsWithin_namespace`).
-/

namespace EnvAudit.Source

open EnvAudit.Text

/-! ## Statements and programs -/

/-- A character of the tail that follows `:` or `=` in a binding: an ASCII letter, digit or low
line, a space, a quote, `:` or `=`. -/
def isTailChar (c : Char) : Bool :=
  isBindingChar c || c == ' ' || c == '\'' || c == '"' || c == ':' || c == '='

/-- One binding of a binding list: blanks, the bound name, then nothing or `:` or `=` followed by
a tail, and blanks. -/
structure Binding where
  lead : List Char
  name : List Char
  suffix : List Char
  trail : List Char
  lead_blank : ∀ c ∈ lead, isBlank c
  name_ne : name ≠ []
  name_chars : ∀ c ∈ name, isBindingChar c
  suffix_head : ∀ c ∈ suffix.head?, c = ':' ∨ c = '='
  suffix_chars : ∀ c ∈ suffix, isTailChar c
  trail_blank : ∀ c ∈ trail, isBlank c

/-- The text of a binding. -/
def Binding.text (b : Binding) : List Char := b.lead ++ b.name ++ b.suffix ++ b.trail

/-- A binding list: one or more bindings separated by commas, optionally followed by a comma and
blanks. -/
structure BindingList where
  bindings : List Binding
  trailing : Option (List Char)
  bindings_ne : bindings ≠ []
  trailing_blank : ∀ w ∈ trailing, ∀ c ∈ w, isBlank c

/-- The pieces of a binding list between its commas. -/
def BindingList.pieces (l : BindingList) : List (List Char) :=
  l.bindings.map Binding.text ++ l.trailing.toList

/-- The text of a binding list. -/
def BindingList.text (l : BindingList) : List Char := [','].intercalate l.pieces

/-- A statement that reads the environment: a member access, an index access, or a destructuring
declaration whose binding list is `l`. -/
inductive Statement
  | member (a : MemberAccess)
  | index (a : IndexAccess)
  | declare (d : Destructuring) (l : BindingList) (hbody : d.body = l.text)

/-- The text of a statement. -/
def Statement.text : Statement → List Char
  | .member a => a.text
  | .index a => a.text
  | .declare d _ _ => d.text

/-- The names a statement reads: the accessed name, or the names its bindings bind. -/
def Statement.names : Statement → List (List Char)
  | .member a => [a.name]
  | .index a => [a.name]
  | .declare _ l _ => l.bindings.map Binding.name

/-- The statements joined by `;` and a line break. -/
def joinStatements (ss : List Statement) : List Char := [';', '\n'].intercalate (ss.map Statement.text)

/-! ## Positions where a reference starts -/

/-- A reference to `name` starts at some position of `X`, where `prev` stands before `X` and
`rest` follows it. -/
def ReadsWithin (prev : Option Char) (X rest name : List Char) : Prop :=
  ∃ pre suf, X = pre ++ suf ∧ suf ≠ [] ∧ Reads (pre.getLast?.or prev) (suf ++ rest) name

theorem not_readsWithin_nil (prev : Option Char) (rest name : List Char) :
    ¬ ReadsWithin prev [] rest name := by
  rintro ⟨pre, suf, h, hsuf, -⟩
  exact hsuf (List.append_eq_nil_iff.1 h.symm).2

theorem getLast?_append_or (X Y : List Char) (prev : Option Char) :
    (X ++ Y).getLast?.or prev = Y.getLast?.or (X.getLast?.or prev) := by
  rw [List.getLast?_append, Option.or_assoc]

/-- A reference starts in `X ++ Y` when it starts in `X`, running on into `Y`, or in `Y`. -/
theorem readsWithin_append {prev : Option Char} {X Y rest name : List Char} :
    ReadsWithin prev (X ++ Y) rest name ↔
      ReadsWithin prev X (Y ++ rest) name ∨ ReadsWithin (X.getLast?.or prev) Y rest name := by
  constructor
  · rintro ⟨pre, suf, h, hsuf, hr⟩
    rcases List.append_eq_append_iff.1 h with ⟨a, rfl, rfl⟩ | ⟨c, rfl, rfl⟩
    · exact .inr ⟨a, suf, rfl, hsuf, by rwa [getLast?_append_or] at hr⟩
    · cases c with
      | nil => exact .inr ⟨[], Y, rfl, by simpa using hsuf, by simpa using hr⟩
      | cons d c => exact .inl ⟨pre, d :: c, rfl, List.cons_ne_nil _ _, by simpa using hr⟩
  · rintro (⟨pre, suf, rfl, hsuf, hr⟩ | ⟨pre, suf, rfl, hsuf, hr⟩)
    · exact ⟨pre, suf ++ Y, by simp, by simp [hsuf], by simpa using hr⟩
    · exact ⟨X ++ pre, suf, by simp, hsuf, by rwa [getLast?_append_or]⟩

theorem not_readsWithin_append {prev : Option Char} {X Y rest name : List Char}
    (hX : ¬ ReadsWithin prev X (Y ++ rest) name)
    (hY : ¬ ReadsWithin (X.getLast?.or prev) Y rest name) : ¬ ReadsWithin prev (X ++ Y) rest name := by
  rw [readsWithin_append]
  exact not_or.2 ⟨hX, hY⟩

theorem readsWithin_singleton {prev : Option Char} {c : Char} {rest name : List Char} :
    ReadsWithin prev [c] rest name ↔ Reads prev (c :: rest) name := by
  constructor
  · rintro ⟨pre, suf, h, hsuf, hr⟩
    rcases List.append_eq_singleton_iff.1 h.symm with ⟨rfl, rfl⟩ | ⟨-, rfl⟩
    · simpa using hr
    · exact absurd rfl hsuf
  · intro hr
    exact ⟨[], [c], rfl, List.cons_ne_nil _ _, by simpa using hr⟩

theorem readsWithin_cons {prev : Option Char} {c : Char} {X rest name : List Char} :
    ReadsWithin prev (c :: X) rest name ↔
      Reads prev (c :: (X ++ rest)) name ∨ ReadsWithin (some c) X rest name := by
  rw [← List.singleton_append, readsWithin_append, readsWithin_singleton]
  rfl

theorem MemberAccess.text_append (a : MemberAccess) (rest : List Char) :
    a.text ++ rest = a.ns ++ '.' :: (a.name ++ rest) := by
  simp [MemberAccess.text]

theorem IndexAccess.text_append (a : IndexAccess) (rest : List Char) :
    a.text ++ rest = a.ns ++ '[' :: a.q₁ :: (a.name ++ a.q₂ :: ']' :: rest) := by
  simp [IndexAccess.text]

theorem Destructuring.text_append (d : Destructuring) (rest : List Char) :
    d.text ++ rest =
      d.keyword ++ (d.ws₁ ++ '{' :: (d.body ++ '}' :: (d.ws₂ ++ '=' :: (d.ws₃ ++ (d.ns ++ rest))))) := by
  simp [Destructuring.text]

/-- A reference starts with a namespace, or with a keyword at the start of a word. -/
theorem Reads.opens {prev : Option Char} {s name : List Char} (h : Reads prev s name) :
    (∃ ns ∈ namespaces, ns <+: s) ∨ wordStartsAfter prev ∧ ∃ kw ∈ keywords, kw <+: s := by
  cases h with
  | member a rest => exact .inl ⟨a.ns, a.ns_mem, _, (a.text_append rest).symm⟩
  | index a rest => exact .inl ⟨a.ns, a.ns_mem, _, (a.text_append rest).symm⟩
  | destructure d rest hword => exact .inr ⟨hword, d.keyword, d.keyword_mem, _, (d.text_append rest).symm⟩

theorem Reads.ne_nil {prev : Option Char} {s name : List Char} (h : Reads prev s name) : s ≠ [] := by
  rintro rfl
  rcases h.opens with ⟨ns, hns, hp⟩ | ⟨-, kw, hkw, hp⟩
  · exact namespaces_ne_nil ns hns (List.prefix_nil.1 hp)
  · exact keywords_ne_nil kw hkw (List.prefix_nil.1 hp)

/-- The search for references, stated position by position. -/
theorem mem_references_iff_readsWithin {s name : List Char} :
    name ∈ references s ↔ ReadsWithin none s [] name := by
  rw [mem_references]
  constructor
  · rintro ⟨pre, suf, rfl, hr⟩
    exact ⟨pre, suf, rfl, hr.ne_nil, by simpa using hr⟩
  · rintro ⟨pre, suf, rfl, -, hr⟩
    exact ⟨pre, suf, rfl, by simpa using hr⟩

/-! ## Positions where nothing starts -/

/-- Neither text is a prefix of the other, so no text starts with both. -/
def diverges (t w : List Char) : Bool := !w.isPrefixOf t && !t.isPrefixOf w

theorem not_prefix_of_diverges {t w : List Char} (h : diverges t w) (rest : List Char) :
    ¬ w <+: t ++ rest := by
  intro hw
  have hwt : ¬ w <+: t := fun hp => by simp [diverges, List.isPrefixOf_iff_prefix.2 hp] at h
  have htw : ¬ t <+: w := fun hp => by simp [diverges, List.isPrefixOf_iff_prefix.2 hp] at h
  rcases List.prefix_or_prefix_of_prefix hw (List.prefix_append t rest) with hp | hp
  · exact hwt hp
  · exact htw hp

/-- No reference starts at the head of a text that starts with `t`, where `prev` stands before
it: `t` diverges from each namespace, and from each keyword where a word may start. -/
def inert (prev : Option Char) (t : List Char) : Bool :=
  namespaces.all (diverges t) && (!wordStartsAfter prev || keywords.all (diverges t))

theorem not_reads_of_inert {prev : Option Char} {t : List Char} (h : inert prev t)
    (rest name : List Char) : ¬ Reads prev (t ++ rest) name := by
  simp only [inert, Bool.and_eq_true, List.all_eq_true, Bool.or_eq_true, Bool.not_eq_true'] at h
  intro hr
  rcases hr.opens with ⟨ns, hns, hp⟩ | ⟨hword, kw, hkw, hp⟩
  · exact not_prefix_of_diverges (h.1 ns hns) rest hp
  · rcases h.2 with hw | hk
    · simp [hword] at hw
    · exact not_prefix_of_diverges (hk kw hkw) rest hp

/-- `inert` at every position of a text. -/
def allInert : Option Char → List Char → Bool
  | _, [] => true
  | prev, c :: cs => inert prev (c :: cs) && allInert (some c) cs

/-- Where every position is inert no reference starts, whatever follows. -/
theorem not_readsWithin_of_allInert {prev : Option Char} {X : List Char} (h : allInert prev X)
    (rest name : List Char) : ¬ ReadsWithin prev X rest name := by
  induction X generalizing prev with
  | nil => exact not_readsWithin_nil prev rest name
  | cons c X ih =>
    simp only [allInert, Bool.and_eq_true] at h
    rw [readsWithin_cons]
    rintro (hr | hr)
    · exact not_reads_of_inert h.1 rest name hr
    · exact ih h.2 hr

/-- Inside a namespace nothing starts: its first letter is found nowhere else in it, and where
another namespace's first letter stands the two part at once. -/
theorem namespace_tail_inert : ∀ ns ∈ namespaces, allInert ns.head? ns.tail = true := by
  decide

/-- Inside a keyword nothing starts. -/
theorem keyword_tail_inert : ∀ kw ∈ keywords, allInert kw.head? kw.tail = true := by
  decide

/-- The first letters of the namespaces and keywords. -/
def openers : List Char := (namespaces ++ keywords).filterMap List.head?

theorem openers_eq : openers = ['p', 'i', 'c', 'l', 'v'] := by decide

theorem inert_of_not_mem_openers {c : Char} (hc : c ∉ openers) (prev : Option Char)
    (cs : List Char) : inert prev (c :: cs) := by
  have hdiv : ∀ w ∈ namespaces ++ keywords, diverges (c :: cs) w := by
    intro w hw
    have hne : w ≠ [] := by
      rcases List.mem_append.1 hw with hw | hw
      · exact namespaces_ne_nil w hw
      · exact keywords_ne_nil w hw
    obtain ⟨x, xs, rfl⟩ := List.exists_cons_of_ne_nil hne
    have hx : x ≠ c := fun h => hc (List.mem_filterMap.2 ⟨_, hw, by simp [h]⟩)
    simp [diverges, List.isPrefixOf, hx, Ne.symm hx]
  simp only [inert, Bool.and_eq_true, List.all_eq_true, Bool.or_eq_true, Bool.not_eq_true']
  exact ⟨fun w hw => hdiv w (List.mem_append_left _ hw),
    .inr fun w hw => hdiv w (List.mem_append_right _ hw)⟩

theorem allInert_of_not_mem_openers {X : List Char} (hX : ∀ c ∈ X, c ∉ openers)
    (prev : Option Char) : allInert prev X := by
  induction X generalizing prev with
  | nil => rfl
  | cons c X ih =>
    simp only [allInert, Bool.and_eq_true]
    exact ⟨inert_of_not_mem_openers (hX c List.mem_cons_self) prev X,
      ih (fun d hd => hX d (List.mem_cons_of_mem c hd)) _⟩

/-- A class of characters to which no first letter belongs starts nothing. -/
theorem not_mem_openers_of {p : Char → Bool} (hp : openers.all (fun o => !p o)) {c : Char}
    (hc : p c) : c ∉ openers := fun h => by
  simpa [hc] using List.all_eq_true.1 hp c h

theorem not_mem_openers_of_isEnvNameChar {c : Char} (h : isEnvNameChar c) : c ∉ openers :=
  not_mem_openers_of (by decide) h

theorem not_mem_openers_of_isBlank {c : Char} (h : isBlank c) : c ∉ openers :=
  not_mem_openers_of (by decide) h

theorem not_mem_openers_of_isIndexQuote {c : Char} (h : isIndexQuote c) : c ∉ openers :=
  not_mem_openers_of (by decide) h

/-- The punctuation of a reference and the separator of statements start none. -/
theorem punctuation_not_mem_openers : ∀ c ∈ ['.', '[', ']', '{', '}', '=', ';', '\n'], c ∉ openers := by
  simp [openers_eq]

/-- Past the first letter of a namespace, followed by characters that start nothing, nothing
starts. -/
theorem namespace_tail_quiet {ns Y : List Char} (hns : ns ∈ namespaces) (hY : ∀ c ∈ Y, c ∉ openers)
    (rest name : List Char) : ¬ ReadsWithin (ns ++ Y).head? (ns ++ Y).tail rest name := by
  obtain ⟨x, xs, rfl⟩ := List.exists_cons_of_ne_nil (namespaces_ne_nil _ hns)
  exact not_readsWithin_append (not_readsWithin_of_allInert (namespace_tail_inert _ hns) _ _)
    (not_readsWithin_of_allInert (allInert_of_not_mem_openers hY _) _ _)

/-- Inside an access, past its first letter, nothing starts. -/
theorem MemberAccess.tail_quiet (a : MemberAccess) (rest name : List Char) :
    ¬ ReadsWithin a.text.head? a.text.tail rest name := by
  refine namespace_tail_quiet a.ns_mem (fun c hc => ?_) rest name
  rcases List.mem_cons.1 hc with rfl | hc
  · exact punctuation_not_mem_openers _ (by simp)
  · exact not_mem_openers_of_isEnvNameChar (a.name_chars c hc)

theorem IndexAccess.tail_quiet (a : IndexAccess) (rest name : List Char) :
    ¬ ReadsWithin a.text.head? a.text.tail rest name := by
  rw [show a.text = a.ns ++ '[' :: a.q₁ :: (a.name ++ [a.q₂, ']']) by simp [IndexAccess.text]]
  refine namespace_tail_quiet a.ns_mem (fun c hc => ?_) rest name
  simp only [List.mem_cons, List.mem_append, List.not_mem_nil, or_false] at hc
  rcases hc with rfl | rfl | hc | rfl | rfl
  · exact punctuation_not_mem_openers _ (by simp)
  · exact not_mem_openers_of_isIndexQuote a.q₁_quote
  · exact not_mem_openers_of_isEnvNameChar (a.name_chars c hc)
  · exact not_mem_openers_of_isIndexQuote a.q₂_quote
  · exact punctuation_not_mem_openers _ (by simp)

/-! ## The head of a statement -/

theorem namespace_append_inj {ns ns' X Y : List Char} (hns : ns ∈ namespaces)
    (hns' : ns' ∈ namespaces) (h : ns' ++ X = ns ++ Y) : ns' = ns ∧ X = Y := by
  obtain rfl := eq_of_prefix_of_head_inj namespaces_head_inj namespaces_ne_nil hns hns' ⟨X, h⟩
  exact ⟨rfl, List.append_cancel_left h⟩

theorem keywords_namespaces_heads : ∀ kw ∈ keywords, ∀ ns ∈ namespaces, kw.head? ≠ ns.head? := by
  decide

/-- No text starts with both a keyword and a namespace. -/
theorem keyword_append_ne {kw ns X Y : List Char} (hkw : kw ∈ keywords) (hns : ns ∈ namespaces) :
    kw ++ X ≠ ns ++ Y := by
  intro h
  have hheads := keywords_namespaces_heads kw hkw ns hns
  obtain ⟨x, xs, rfl⟩ := List.exists_cons_of_ne_nil (keywords_ne_nil kw hkw)
  obtain ⟨y, ys, rfl⟩ := List.exists_cons_of_ne_nil (namespaces_ne_nil ns hns)
  simp only [List.cons_append, List.cons.injEq] at h
  exact hheads (congrArg some h.1)

/-- At the head of a member access, followed by no name character, the one name read is its own. -/
theorem reads_member_iff (a : MemberAccess) {prev : Option Char} {rest name : List Char}
    (hrest : ∀ c ∈ rest.head?, isEnvNameChar c = false) :
    Reads prev (a.text ++ rest) name ↔ name = a.name := by
  refine ⟨fun h => ?_, fun h => h ▸ Reads.member a rest hrest⟩
  generalize hs : a.text ++ rest = s at h
  cases h with
  | member a' r hend =>
    rw [a.text_append, a'.text_append] at hs
    obtain ⟨-, hs⟩ := namespace_append_inj a'.ns_mem a.ns_mem hs
    -- the name is the longest run of name characters after the dot, in both readings
    have h₁ : memberName? ('.' :: (a.name ++ rest)) = some a.name :=
      memberName?_eq_some.2 ⟨rest, rfl, a.name_ne, a.name_chars, hrest⟩
    have h₂ : memberName? ('.' :: (a'.name ++ r)) = some a'.name :=
      memberName?_eq_some.2 ⟨r, rfl, a'.name_ne, a'.name_chars, hend⟩
    rw [hs, h₂] at h₁
    exact Option.some.inj h₁
  | index a' r =>
    rw [a.text_append, a'.text_append] at hs
    obtain ⟨-, hs⟩ := namespace_append_inj a'.ns_mem a.ns_mem hs
    exact absurd (List.cons.inj hs).1 (by decide)
  | destructure d r =>
    rw [a.text_append, d.text_append] at hs
    exact absurd hs.symm (keyword_append_ne d.keyword_mem a.ns_mem)

/-- At the head of an index access the one name read is its own. -/
theorem reads_index_iff (a : IndexAccess) {prev : Option Char} {rest name : List Char} :
    Reads prev (a.text ++ rest) name ↔ name = a.name := by
  refine ⟨fun h => ?_, fun h => h ▸ Reads.index a rest⟩
  generalize hs : a.text ++ rest = s at h
  cases h with
  | member a' r =>
    rw [a.text_append, a'.text_append] at hs
    obtain ⟨-, hs⟩ := namespace_append_inj a'.ns_mem a.ns_mem hs
    exact absurd (List.cons.inj hs).1 (by decide)
  | index a' r =>
    rw [a.text_append, a'.text_append] at hs
    obtain ⟨-, hs⟩ := namespace_append_inj a'.ns_mem a.ns_mem hs
    have h₁ : indexName? ('[' :: a.q₁ :: (a.name ++ a.q₂ :: ']' :: rest)) = some a.name :=
      indexName?_eq_some.2 ⟨a.q₁, a.q₂, rest, rfl, a.q₁_quote, a.q₂_quote, a.name_ne, a.name_chars⟩
    have h₂ : indexName? ('[' :: a'.q₁ :: (a'.name ++ a'.q₂ :: ']' :: r)) = some a'.name :=
      indexName?_eq_some.2 ⟨a'.q₁, a'.q₂, r, rfl, a'.q₁_quote, a'.q₂_quote, a'.name_ne, a'.name_chars⟩
    rw [hs, h₂] at h₁
    exact Option.some.inj h₁
  | destructure d r =>
    rw [a.text_append, d.text_append] at hs
    exact absurd hs.symm (keyword_append_ne d.keyword_mem a.ns_mem)

/-- At the head of a destructuring declaration, at the start of a word, the names read are those
its binding list binds. -/
theorem reads_destructuring_iff (d : Destructuring) {prev : Option Char}
    (hword : wordStartsAfter prev) {rest name : List Char} :
    Reads prev (d.text ++ rest) name ↔ name ∈ boundNames d.body := by
  refine ⟨fun h => ?_, Reads.destructure d rest hword⟩
  generalize hs : d.text ++ rest = s at h
  cases h with
  | member a r =>
    rw [d.text_append, a.text_append] at hs
    exact absurd hs (keyword_append_ne d.keyword_mem a.ns_mem)
  | index a r =>
    rw [d.text_append, a.text_append] at hs
    exact absurd hs (keyword_append_ne d.keyword_mem a.ns_mem)
  | destructure d' r _ hname =>
    -- the declaration pattern matches the text in one way, so both readings capture one group
    have h₁ : declarationAt prev (d.text ++ rest) = some ⟨d.text.length, lazyGroup d.body⟩ :=
      declarationAt_eq_some.2 ⟨hword, d, rest, rfl, rfl⟩
    have h₂ : declarationAt prev (d'.text ++ r) = some ⟨d'.text.length, lazyGroup d'.body⟩ :=
      declarationAt_eq_some.2 ⟨hword, d', r, rfl, rfl⟩
    rw [hs, h₂, Option.some.injEq, Hit.mk.injEq] at h₁
    rw [← boundNames_lazyGroup, ← h₁.2, boundNames_lazyGroup]
    exact hname

/-! ## Inside a declaration -/

/-- A text that has `d` where another text has `c`, and `c` nowhere before, is not that text. -/
theorem false_of_append_eq_cons {T r X Y : List Char} {c d : Char} (h : T ++ r = X ++ c :: Y)
    (hd : d ∈ T) (hdX : d ∉ X) (hc : c ∉ T) : False := by
  rcases List.append_eq_append_iff.1 h with ⟨a, rfl, -⟩ | ⟨e, rfl, he⟩
  · exact hdX (List.mem_append_left a hd)
  · cases e with
    | nil => exact hdX (by simpa using hd)
    | cons e es =>
      obtain ⟨rfl, -⟩ := List.cons.inj he
      exact hc (List.mem_append_right X List.mem_cons_self)

theorem namespace_dot : ∀ ns ∈ namespaces, '.' ∈ ns ∧ '}' ∉ ns := by decide

theorem Destructuring.text_append_open (d : Destructuring) (rest : List Char) :
    d.text ++ rest = (d.keyword ++ d.ws₁ ++ ['{']) ++
      (d.body ++ '}' :: (d.ws₂ ++ '=' :: (d.ws₃ ++ (d.ns ++ rest)))) := by
  simp [Destructuring.text]

theorem Destructuring.close_not_mem_open (d : Destructuring) : '}' ∉ d.keyword ++ d.ws₁ ++ ['{'] := by
  simp only [List.mem_append, List.mem_singleton, not_or]
  refine ⟨⟨fun h => ?_, fun h => ?_⟩, by decide⟩
  · exact absurd (List.all_eq_true.1 (keyword_body_chars _ d.keyword_mem) '}' h) (by decide)
  · exact absurd (d.ws₁_blank '}' h) (by decide)

/-- From inside a binding list without `.` and `{`, a `}` comes first: no access starts there, as
an access has a `.` before any `}`, and no declaration, as it has a `{` before any `}`. -/
theorem not_readsWithin_body {prev : Option Char} {X more name : List Char}
    (hX : ∀ c ∈ X, c ≠ '.' ∧ c ≠ '{') : ¬ ReadsWithin prev X ('}' :: more) name := by
  rintro ⟨pre, suf, rfl, -, h⟩
  have hdot : '.' ∉ suf := fun h => (hX '.' (List.mem_append_right pre h)).1 rfl
  have hopen : '{' ∉ suf := fun h => (hX '{' (List.mem_append_right pre h)).2 rfl
  generalize hs : suf ++ '}' :: more = s at h
  cases h with
  | member a r =>
    rw [a.text_append] at hs
    exact false_of_append_eq_cons hs.symm (namespace_dot _ a.ns_mem).1 hdot
      (namespace_dot _ a.ns_mem).2
  | index a r =>
    rw [a.text_append] at hs
    exact false_of_append_eq_cons hs.symm (namespace_dot _ a.ns_mem).1 hdot
      (namespace_dot _ a.ns_mem).2
  | destructure d r =>
    rw [d.text_append_open] at hs
    exact false_of_append_eq_cons hs.symm (by simp) hopen d.close_not_mem_open

/-- A namespace followed by `;` or by the end of the text starts no reference. -/
theorem not_reads_namespace {ns : List Char} (hns : ns ∈ namespaces) {prev : Option Char}
    {rest name : List Char} (hrest : ∀ c ∈ rest.head?, c = ';') : ¬ Reads prev (ns ++ rest) name := by
  intro h
  generalize hs : ns ++ rest = s at h
  cases h with
  | member a r =>
    rw [a.text_append] at hs
    obtain ⟨-, rfl⟩ := namespace_append_inj a.ns_mem hns hs
    exact absurd (hrest '.' rfl) (by decide)
  | index a r =>
    rw [a.text_append] at hs
    obtain ⟨-, rfl⟩ := namespace_append_inj a.ns_mem hns hs
    exact absurd (hrest '[' rfl) (by decide)
  | destructure d r =>
    rw [d.text_append] at hs
    exact keyword_append_ne d.keyword_mem hns hs.symm

theorem not_readsWithin_namespace {ns : List Char} (hns : ns ∈ namespaces) {prev : Option Char}
    {rest name : List Char} (hrest : ∀ c ∈ rest.head?, c = ';') : ¬ ReadsWithin prev ns rest name := by
  obtain ⟨x, xs, rfl⟩ := List.exists_cons_of_ne_nil (namespaces_ne_nil _ hns)
  rw [readsWithin_cons]
  rintro (h | h)
  · exact not_reads_namespace hns hrest h
  · exact not_readsWithin_of_allInert (namespace_tail_inert _ hns) rest name h

/-- Inside a declaration whose binding list has no `.`, past its first letter, nothing starts
before `;` or the end of the text. -/
theorem Destructuring.tail_quiet (d : Destructuring) (hdot : '.' ∉ d.body) {rest name : List Char}
    (hrest : ∀ c ∈ rest.head?, c = ';') : ¬ ReadsWithin d.text.head? d.text.tail rest name := by
  obtain ⟨x, xs, hx⟩ := List.exists_cons_of_ne_nil (keywords_ne_nil _ d.keyword_mem)
  have hkw : allInert (some x) xs := by simpa [hx] using keyword_tail_inert _ d.keyword_mem
  have hblank : ∀ w : List Char, (∀ c ∈ w, isBlank c) → ∀ c ∈ w, c ∉ openers :=
    fun w hw c hc => not_mem_openers_of_isBlank (hw c hc)
  have hparts : d.text = d.keyword ++ ((d.ws₁ ++ ['{']) ++ (d.body ++
      (('}' :: d.ws₂ ++ '=' :: d.ws₃) ++ d.ns))) := by
    simp [Destructuring.text]
  -- the keyword's tail; blanks and `{`; the binding list; `}`, blanks, `=` and blanks; the namespace
  rw [hparts, hx, List.cons_append, List.head?_cons, List.tail_cons]
  refine not_readsWithin_append (not_readsWithin_of_allInert hkw _ _) (not_readsWithin_append ?_
    (not_readsWithin_append ?_ (not_readsWithin_append ?_ (not_readsWithin_namespace d.ns_mem hrest))))
  · refine not_readsWithin_of_allInert (allInert_of_not_mem_openers ?_ _) _ _
    intro c hc
    rcases List.mem_append.1 hc with hc | hc
    · exact hblank _ d.ws₁_blank c hc
    · exact punctuation_not_mem_openers _ (by simp_all)
  · refine not_readsWithin_body fun c hc => ⟨fun h => hdot (h ▸ hc), fun h => ?_⟩
    exact absurd (d.body_chars c hc) (by rw [h]; decide)
  · refine not_readsWithin_of_allInert (allInert_of_not_mem_openers ?_ _) _ _
    intro c hc
    simp only [List.cons_append, List.mem_cons, List.mem_append] at hc
    rcases hc with rfl | hc | rfl | hc
    · exact punctuation_not_mem_openers _ (by simp)
    · exact hblank _ d.ws₂_blank c hc
    · exact punctuation_not_mem_openers _ (by simp)
    · exact hblank _ d.ws₃_blank c hc

/-! ## A binding list binds the names of its bindings -/

theorem isBlank_eq_false_of_isBindingChar {c : Char} (h : isBindingChar c) : isBlank c = false := by
  have hn : c.toNat = c.val.toNat := rfl
  simp only [isBindingChar, Bool.or_eq_true, Bool.and_eq_true, decide_eq_true_eq, beq_iff_eq,
    Char.le_def, UInt32.le_iff_toNat_le] at h
  simp only [isBlank, hn, Bool.or_eq_false_iff, Bool.and_eq_false_iff, decide_eq_false_iff_not,
    beq_eq_false_iff_ne]
  -- a letter, a digit or a low line lies outside every range of blank code points
  rcases h with h | rfl
  · simp at h
    omega
  · decide

theorem dropWhile_of_head_false {p : Char → Bool} {l : List Char} (h : ∀ c ∈ l.head?, p c = false) :
    l.dropWhile p = l := by
  cases l with
  | nil => rfl
  | cons c cs => exact List.dropWhile_cons_of_neg (by simp [h c rfl])

theorem trim_of_not_blank {l : List Char} (h : ∀ c ∈ l, isBlank c = false) : trim l = l := by
  have hkeep : ∀ l' : List Char, (∀ c ∈ l', isBlank c = false) → l'.dropWhile isBlank = l' :=
    fun l' h' => dropWhile_of_head_false fun c hc => h' c (List.mem_of_mem_head? hc)
  rw [trim, trimRight, trimLeft, hkeep l h, hkeep l.reverse fun c hc => h c (List.mem_reverse.1 hc),
    List.reverse_reverse]

/-- Trimming the end of a text whose first part ends in a character that is not blank keeps that
part and a prefix of the rest. -/
theorem trimRight_append_of_getLast {A : List Char} (hA : ∀ c ∈ A.getLast?, isBlank c = false)
    (B : List Char) : ∃ W, trimRight (A ++ B) = A ++ W ∧ W <+: B := by
  have hA' : A.reverse.dropWhile isBlank = A.reverse := dropWhile_of_head_false (by simpa using hA)
  unfold trimRight
  rw [List.reverse_append, List.dropWhile_append]
  split
  · exact ⟨[], by simp [hA'], List.nil_prefix⟩
  · refine ⟨(B.reverse.dropWhile isBlank).reverse, by simp, ?_⟩
    exact List.reverse_suffix.1 (by rw [List.reverse_reverse]; exact List.dropWhile_suffix isBlank)

/-- A name followed by nothing, or by `:` or `=` and anything, binds that name. -/
theorem boundName?_name_append {name suffix : List Char} (hne : name ≠ [])
    (hname : ∀ c ∈ name, isBindingChar c) (hsuffix : ∀ c ∈ suffix.head?, c = ':' ∨ c = '=') :
    boundName? (name ++ suffix) = some name := by
  have hblank : ∀ c ∈ name, isBlank c = false :=
    fun c hc => isBlank_eq_false_of_isBindingChar (hname c hc)
  have hleft : trimLeft (name ++ suffix) = name ++ suffix := by
    obtain ⟨x, xs, rfl⟩ := List.exists_cons_of_ne_nil hne
    exact dropWhile_of_head_false (by simpa using hblank x List.mem_cons_self)
  obtain ⟨W, hW, t, ht⟩ :=
    trimRight_append_of_getLast (fun c hc => hblank c (List.mem_of_getLast? hc)) suffix
  -- the trimmed text is the name and a prefix of the suffix, whose head stops the name
  have hgo : ∀ c ∈ name, decide (c ≠ ':' ∧ c ≠ '=') = true := by
    intro c hc
    have hc' := hname c hc
    simp only [decide_eq_true_eq]
    constructor <;> (rintro rfl; exact absurd hc' (by decide))
  have hstop : ∀ c ∈ W.head?, decide (c ≠ ':' ∧ c ≠ '=') = false := by
    intro c hc
    have hs : c ∈ suffix.head? := by rw [← ht, List.head?_append, Option.mem_def.1 hc]; rfl
    rcases hsuffix c hs with rfl | rfl <;> decide
  simp only [boundName?, trim, hleft, hW, takeWhile_append_of_head hgo hstop]
  rw [← trim, trim_of_not_blank hblank]
  simp [hne, List.all_eq_true.2 hname]

theorem Binding.boundName?_text (b : Binding) : boundName? b.text = some b.name := by
  rw [Binding.text, boundName?_append_blank _ b.trail_blank, List.append_assoc,
    boundName?_blank_append _ b.lead_blank]
  exact boundName?_name_append b.name_ne b.name_chars b.suffix_head

/-- A character that is neither blank nor of a tail is in no binding. -/
theorem Binding.not_mem_text (b : Binding) {c : Char} (hb : isBlank c = false)
    (ht : isTailChar c = false) : c ∉ b.text := by
  have hname : isBindingChar c = false := by
    simp only [isTailChar, Bool.or_eq_false_iff] at ht
    exact ht.1.1.1.1.1
  simp only [Binding.text, List.mem_append, not_or]
  refine ⟨⟨⟨fun h => ?_, fun h => ?_⟩, fun h => ?_⟩, fun h => ?_⟩
  · simpa [hb] using b.lead_blank c h
  · simpa [hname] using b.name_chars c h
  · simpa [ht] using b.suffix_chars c h
  · simpa [hb] using b.trail_blank c h

theorem not_mem_intercalate {sep : List Char} {a : Char} (hsep : a ∉ sep) :
    ∀ {xs : List (List Char)}, (∀ x ∈ xs, a ∉ x) → a ∉ sep.intercalate xs
  | [], _ => List.not_mem_nil
  | [x], h => by
    rw [List.intercalate_singleton]
    exact h x List.mem_cons_self
  | x :: y :: zs, h => by
    rw [List.intercalate_cons_cons]
    simp only [List.mem_append, not_or]
    exact ⟨⟨h x List.mem_cons_self, hsep⟩,
      not_mem_intercalate hsep fun z hz => h z (List.mem_cons_of_mem x hz)⟩

theorem BindingList.not_mem_piece (l : BindingList) {c : Char} (hb : isBlank c = false)
    (ht : isTailChar c = false) : ∀ p ∈ l.pieces, c ∉ p := by
  intro p hp
  rcases List.mem_append.1 hp with hp | hp
  · obtain ⟨b, -, rfl⟩ := List.mem_map.1 hp
    exact b.not_mem_text hb ht
  · intro hc
    simpa [hb] using l.trailing_blank p (Option.mem_toList.1 hp) c hc

theorem BindingList.not_mem_text (l : BindingList) {c : Char} (hc : c ≠ ',')
    (hb : isBlank c = false) (ht : isTailChar c = false) : c ∉ l.text :=
  not_mem_intercalate (by simpa using hc) (l.not_mem_piece hb ht)

theorem splitCommas_eq_splitOn (s : List Char) : splitCommas s = s.splitOn ',' := by
  induction s with
  | nil => rfl
  | cons c s ih =>
    rw [List.splitOn, List.splitOnP_cons_eq_if_modifyHead, ← List.splitOn, ← ih]
    obtain ⟨p, ps, h⟩ := List.exists_cons_of_ne_nil (splitCommas_ne_nil s)
    by_cases hc : c = ',' <;> simp [splitCommas, h, hc]

/-- A binding list binds the names of its bindings, in order: never what a binding renames to or
defaults to. -/
theorem BindingList.boundNames_text (l : BindingList) :
    boundNames l.text = l.bindings.map Binding.name := by
  have hne : l.pieces ≠ [] := by simp [BindingList.pieces, l.bindings_ne]
  have htrail : l.trailing.toList.filterMap boundName? = [] := by
    cases h : l.trailing with
    | none => rfl
    | some w =>
      have hw := l.trailing_blank w (by simp [h])
      have hnone : boundName? w = none := by
        rw [← List.append_nil w, boundName?_blank_append [] hw]
        rfl
      simp [hnone]
  have hbind : boundName? ∘ Binding.text = some ∘ Binding.name := by
    funext b
    rw [Function.comp_apply, Binding.boundName?_text]
    rfl
  rw [boundNames, splitCommas_eq_splitOn, BindingList.text,
    List.splitOn_intercalate ',' (l.not_mem_piece (by decide) (by decide)) hne, BindingList.pieces,
    List.filterMap_append, htrail, List.append_nil, List.filterMap_map, hbind, List.filterMap_eq_map]

/-! ## Programs -/

theorem readsWithin_of_ne_nil {prev : Option Char} {l rest name : List Char} (hl : l ≠ []) :
    ReadsWithin prev l rest name ↔ Reads prev (l ++ rest) name ∨ ReadsWithin l.head? l.tail rest name := by
  obtain ⟨c, cs, rfl⟩ := List.exists_cons_of_ne_nil hl
  exact readsWithin_cons

/-- Followed by `;` or by the end of the text, a statement reads exactly its names, each from its
head. -/
theorem Statement.readsWithin_iff (s : Statement) {prev : Option Char} (hprev : wordStartsAfter prev)
    {rest name : List Char} (hrest : ∀ c ∈ rest.head?, c = ';') :
    ReadsWithin prev s.text rest name ↔ name ∈ s.names := by
  cases s with
  | member a =>
    have hsemi : ∀ c ∈ rest.head?, isEnvNameChar c = false := fun c hc => by rw [hrest c hc]; rfl
    rw [Statement.text, Statement.names, readsWithin_of_ne_nil (by simp [MemberAccess.text]),
      reads_member_iff a hsemi, List.mem_singleton]
    exact or_iff_left (a.tail_quiet rest name)
  | index a =>
    rw [Statement.text, Statement.names, readsWithin_of_ne_nil (by simp [IndexAccess.text]),
      reads_index_iff a, List.mem_singleton]
    exact or_iff_left (a.tail_quiet rest name)
  | declare d l hbody =>
    have hdot : '.' ∉ d.body := hbody ▸ l.not_mem_text (by decide) (by decide) (by decide)
    rw [Statement.text, Statement.names, readsWithin_of_ne_nil (by simp [Destructuring.text]),
      reads_destructuring_iff d hprev, hbody, l.boundNames_text]
    exact or_iff_left (d.tail_quiet hdot hrest)

/-- The separator of statements starts nothing. -/
theorem readsWithin_separator {prev : Option Char} {X rest name : List Char} :
    ReadsWithin prev ([';', '\n'] ++ X) rest name ↔ ReadsWithin (some '\n') X rest name := by
  rw [readsWithin_append, or_iff_right]
  · rfl
  · exact not_readsWithin_of_allInert (allInert_of_not_mem_openers (by simp [openers_eq]) _) _ _

/-- At the start of a line, a program reads exactly the names its statements read. -/
theorem readsWithin_joinStatements {prev : Option Char} (hprev : wordStartsAfter prev)
    (ss : List Statement) (name : List Char) :
    ReadsWithin prev (joinStatements ss) [] name ↔ ∃ s ∈ ss, name ∈ s.names := by
  induction ss generalizing prev with
  | nil => simpa [joinStatements] using not_readsWithin_nil prev [] name
  | cons s ss ih =>
    cases ss with
    | nil =>
      rw [joinStatements, List.map_singleton, List.intercalate_singleton,
        s.readsWithin_iff hprev (by simp)]
      simp
    | cons t ts =>
      have hjoin : joinStatements (s :: t :: ts) =
          s.text ++ ([';', '\n'] ++ joinStatements (t :: ts)) := by
        simp [joinStatements, List.intercalate_cons_cons]
      rw [hjoin, readsWithin_append, s.readsWithin_iff hprev (by simp), readsWithin_separator,
        ih rfl]
      simp

/-- **A program of statements reads exactly the names its statements read**: each accessed name
and each name a binding list binds, never a rename target or a default value, and nothing
else. -/
theorem mem_usedNames_joinStatements (ss : List Statement) (name : String) :
    name ∈ usedNames (String.ofList (joinStatements ss)) ↔ ∃ s ∈ ss, name.toList ∈ s.names := by
  rw [usedNames, mem_sortNames, List.mem_map, String.toList_ofList]
  constructor
  · rintro ⟨l, hl, rfl⟩
    rw [String.toList_ofList]
    exact (readsWithin_joinStatements rfl ss l).1 (mem_references_iff_readsWithin.1 hl)
  · intro h
    exact ⟨name.toList, mem_references_iff_readsWithin.2 ((readsWithin_joinStatements rfl ss _).2 h),
      String.ofList_toList⟩

end EnvAudit.Source
