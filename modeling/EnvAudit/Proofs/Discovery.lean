import Mathlib.Data.List.Sort
import Mathlib.Data.String.Basic
import EnvAudit.Scan.Discovery
/-!
# What discovery finds, whatever the order of the patterns

Discovery keeps each file once, under its key, and lists the files in increasing key order. From
an absolute root the key of a found file tells the file: found files are absolute paths whose
names are proper, and such a path is read back from its text (`Pathname.ofString_toString`), so
two of them with one key are one (`fileKey_inj`). Hence what discovery returns depends on the set
of brace expansions of the patterns only, not on their order or repeats
(`discover_eq_of_same_expansions`): it is every file that a glob match of an expansion names and
that the filter keeps, in strictly increasing key order.

The steps: keyed insertion keeps the list in key order and holds every key once
(`pairwise_foldl_insertKeyed`, `mem_foldl_insertKeyed`); a run of searches succeeds when each
search does and finds what each finds (`flatMapM_ok_iff`, `mem_of_flatMapM_eq_ok`); and the
candidates are the insertion of everything found (`candidates_eq`).
-/

namespace EnvAudit.Fs

/-! ## Paths read back from their text -/

/-- A path whose every name is one that reading a path from text keeps: not empty, not `.`, and
without `/`. -/
def Pathname.Proper (p : Pathname) : Prop :=
  ∀ n ∈ p.parts, n.toList ≠ [] ∧ n.toList ≠ ['.'] ∧ '/' ∉ n.toList

theorem splitSlash_ne_nil (l : List Char) : splitSlash l ≠ [] := by
  cases l with
  | nil => simp [splitSlash]
  | cons c l =>
    simp only [splitSlash]
    split
    · simp
    · split <;> simp

theorem splitSlash_cons (c : Char) (l : List Char) :
    splitSlash (c :: l) = if c = '/' then [] :: splitSlash l else (splitSlash l).modifyHead (c :: ·) := by
  obtain ⟨p, ps, h⟩ := List.exists_cons_of_ne_nil (splitSlash_ne_nil l)
  simp only [splitSlash, h]
  split <;> simp

theorem splitSlash_eq_splitOn (l : List Char) : splitSlash l = l.splitOn '/' := by
  induction l with
  | nil => rfl
  | cons c l ih =>
    rw [splitSlash_cons, List.splitOn_cons_eq_if_modifyHead, ih]
    simp

theorem not_mem_of_mem_splitSlash {l q : List Char} (h : q ∈ splitSlash l) : '/' ∉ q := by
  induction l generalizing q with
  | nil => simp_all [splitSlash]
  | cons c l ih =>
    rw [splitSlash_cons] at h
    split at h
    · rcases List.mem_cons.1 h with rfl | h
      · simp
      · exact ih h
    · rename_i hc
      obtain ⟨p, ps, hsp⟩ := List.exists_cons_of_ne_nil (splitSlash_ne_nil l)
      rw [hsp, List.modifyHead_cons, List.mem_cons] at h
      rcases h with rfl | h
      · have := ih (hsp ▸ List.mem_cons_self)
        simp [Ne.symm hc, this]
      · exact ih (hsp ▸ List.mem_cons_of_mem p h)

/-- The names that reading a path text keeps. -/
def keptNames (l : List Char) : List String :=
  ((splitSlash l).filter fun q => q ≠ [] ∧ q ≠ ['.']).map String.ofList

theorem ofString_eq (s : String) : Pathname.ofString s = ⟨anchorOf s.toList, keptNames s.toList⟩ := rfl

/-- A leading `/` adds no name. -/
theorem keptNames_slash (l : List Char) : keptNames ('/' :: l) = keptNames l := by
  simp [keptNames, splitSlash_cons]

theorem Pathname.proper_ofString (s : String) : (Pathname.ofString s).Proper := by
  intro n hn
  simp only [ofString_eq, keptNames, List.mem_map, List.mem_filter] at hn
  obtain ⟨q, ⟨hq, hkeep⟩, rfl⟩ := hn
  simp only [decide_eq_true_eq] at hkeep
  simpa using ⟨hkeep.1, hkeep.2, not_mem_of_mem_splitSlash hq⟩

theorem Pathname.Proper.join {p q : Pathname} (hp : p.Proper) (hq : q.Proper) : (p.join q).Proper := by
  unfold Pathname.join
  split
  · exact hq
  · intro n hn
    rcases List.mem_append.1 hn with h | h
    · exact hp n h
    · exact hq n h

/-- Normalising keeps only names it was given: each step moves the next name onto the names kept
so far, or drops it, or drops the name kept last. -/
theorem mem_normalizeParts {b : Bool} {acc l : List String} {x : String} :
    x ∈ normalizeParts b acc l → x ∈ acc ∨ x ∈ l := by
  fun_induction normalizeParts b acc l with
  | case1 acc => simp
  | case2 ns as ih => exact fun h => by grind
  | case3 ns a as ha ih => exact fun h => by grind
  | case4 ns hb ih => exact fun h => by grind
  | case5 ns hb ih => exact fun h => by grind
  | case6 acc n ns hn ih => exact fun h => by grind

theorem Pathname.Proper.normalize {p : Pathname} (hp : p.Proper) : p.normalize.Proper := fun n hn => by
  rcases mem_normalizeParts hn with h | h
  · simp at h
  · exact hp n h

theorem Pathname.absolute_join {p : Pathname} (q : Pathname) (hp : p.absolute) : (p.join q).absolute := by
  unfold Pathname.join
  split
  · assumption
  · exact hp

theorem Pathname.absolute_normalize (p : Pathname) : p.normalize.absolute = p.absolute := rfl

section RoundTrip
variable {p : Pathname}

/-- The text of the names of a path, with `/` between them. -/
theorem toList_intercalate_parts (p : Pathname) :
    ("/".intercalate p.parts).toList = ['/'].intercalate (p.parts.map String.toList) := by
  simp

theorem Pathname.Proper.keptNames_intercalate (hp : p.Proper) :
    keptNames (['/'].intercalate (p.parts.map String.toList)) = p.parts := by
  have hnames : ∀ q ∈ p.parts.map String.toList, q ≠ [] ∧ q ≠ ['.'] ∧ '/' ∉ q := fun q hq => by
    obtain ⟨n, hn, rfl⟩ := List.mem_map.1 hq
    exact hp n hn
  cases hparts : p.parts with
  | nil => rfl
  | cons n ns =>
    rw [hparts] at hnames
    unfold keptNames
    rw [splitSlash_eq_splitOn, List.splitOn_intercalate '/' (fun q hq => (hnames q hq).2.2) (by simp),
      List.filter_eq_self.2 fun q hq => by simpa using ⟨(hnames q hq).1, (hnames q hq).2.1⟩]
    simp

/-- The names of a proper path, joined by `/`, never start with a `/`. -/
theorem Pathname.Proper.head_intercalate (hp : p.Proper) :
    ∀ c ∈ (['/'].intercalate (p.parts.map String.toList)).head?, c ≠ '/' := by
  cases hparts : p.parts with
  | nil => simp
  | cons n ns =>
    have hn := hp n (by simp [hparts])
    obtain ⟨c, cs, hc⟩ := List.exists_cons_of_ne_nil hn.1
    intro d hd
    cases ns with
    | nil =>
      simp only [List.map_cons, List.map_nil, List.intercalate_singleton, hc, List.head?_cons,
        Option.mem_def, Option.some.injEq] at hd
      subst hd
      exact fun h => hn.2.2 (h ▸ hc ▸ List.mem_cons_self)
    | cons m ms =>
      simp only [List.map_cons, List.intercalate_cons_cons, hc, List.cons_append, List.head?_cons,
        Option.mem_def, Option.some.injEq] at hd
      subst hd
      exact fun h => hn.2.2 (h ▸ hc ▸ List.mem_cons_self)

theorem anchorOf_of_head {l : List Char} (h : ∀ c ∈ l.head?, c ≠ '/') : anchorOf l = .here := by
  cases l with
  | nil => rfl
  | cons c l => simp [anchorOf, h c rfl]

theorem anchorOf_slash_of_head {l : List Char} (h : ∀ c ∈ l.head?, c ≠ '/') :
    anchorOf ('/' :: l) = .root := by
  cases l with
  | nil => rfl
  | cons c l => simp [anchorOf, h c rfl]

theorem anchorOf_slash_slash_of_head {l : List Char} (h : ∀ c ∈ l.head?, c ≠ '/') :
    anchorOf ('/' :: '/' :: l) = .doubleRoot := by
  cases l with
  | nil => rfl
  | cons c l => simp [anchorOf, h c rfl]

/-- A proper path is read back from its text. -/
theorem Pathname.ofString_toString (hp : p.Proper) : Pathname.ofString p.toString = p := by
  obtain ⟨a, parts⟩ := p
  have hbody := toList_intercalate_parts ⟨a, parts⟩
  have hnames := Pathname.Proper.keptNames_intercalate hp
  have hhead := Pathname.Proper.head_intercalate hp
  simp only at hbody hnames hhead
  rw [ofString_eq]
  cases a with
  | here =>
    cases parts with
    | nil => rfl
    | cons n ns =>
      simp only [Pathname.toString, List.isEmpty_cons, Bool.false_eq_true, if_false, hbody]
      rw [anchorOf_of_head hhead, hnames]
  | root =>
    simp only [Pathname.toString, String.toList_append, hbody]
    rw [show "/".toList = ['/'] from rfl, List.singleton_append, anchorOf_slash_of_head hhead,
      keptNames_slash, hnames]
  | doubleRoot =>
    simp only [Pathname.toString, String.toList_append, hbody]
    rw [show "//".toList = ['/', '/'] from rfl, List.cons_append, List.singleton_append,
      anchorOf_slash_slash_of_head hhead, keptNames_slash, keptNames_slash, hnames]

/-- Proper paths with one text are one path. -/
theorem Pathname.Proper.toString_inj {q : Pathname} (hp : p.Proper) (hq : q.Proper)
    (h : p.toString = q.toString) : p = q := by
  rw [← Pathname.ofString_toString hp, h, Pathname.ofString_toString hq]

end RoundTrip

theorem Pathname.relativeTo?_eq_some {p base r : Pathname} (h : p.relativeTo? base = some r) :
    r.anchor = .here ∧ p = ⟨base.anchor, base.parts ++ r.parts⟩ ∧ ∀ n ∈ r.parts, n ∈ p.parts := by
  unfold Pathname.relativeTo? at h
  split at h
  · rename_i hcond
    cases h
    obtain ⟨ha, hpre⟩ := hcond
    have hpre := List.prefix_iff_eq_append.1 (List.isPrefixOf_iff_prefix.1 hpre)
    refine ⟨rfl, ?_, fun n hn => List.mem_of_mem_drop hn⟩
    obtain ⟨pa, pp⟩ := p
    simp only at ha hpre ⊢
    rw [ha, hpre]
  · cases h

theorem Pathname.Proper.of_relativeTo? {p base r : Pathname} (hp : p.Proper)
    (h : p.relativeTo? base = some r) : r.Proper :=
  fun n hn => hp n ((Pathname.relativeTo?_eq_some h).2.2 n hn)

end EnvAudit.Fs

namespace EnvAudit.Scan

open EnvAudit.Fs EnvAudit.Glob EnvAudit.Ignore

/-! ## Keys of found files -/

/-- From an absolute root, the key of an absolute proper path tells the path: a path under the root
is the root followed by its relative text, any other is its own text, and the two kinds of text
are told apart by their anchor. -/
theorem fileKey_inj {root p q : Pathname} (hp : p.absolute) (hq : q.absolute) (hpp : p.Proper)
    (hqp : q.Proper) (h : fileKey root p = fileKey root q) : p = q := by
  unfold fileKey Pathname.display at h
  cases hrp : p.relativeTo? root with
  | none =>
    cases hrq : q.relativeTo? root with
    | none =>
      rw [hrp, hrq] at h
      exact hpp.toString_inj hqp h
    | some rq =>
      -- the text of a relative form is not the text of an absolute path
      rw [hrp, hrq] at h
      have := hpp.toString_inj (hqp.of_relativeTo? hrq) h
      simp [Pathname.absolute, this, (Pathname.relativeTo?_eq_some hrq).1] at hp
  | some rp =>
    cases hrq : q.relativeTo? root with
    | none =>
      rw [hrp, hrq] at h
      have := (hpp.of_relativeTo? hrp).toString_inj hqp h
      simp [Pathname.absolute, ← this, (Pathname.relativeTo?_eq_some hrp).1] at hq
    | some rq =>
      -- both lie under the root, with one relative form
      rw [hrp, hrq] at h
      have := (hpp.of_relativeTo? hrp).toString_inj (hqp.of_relativeTo? hrq) h
      rw [(Pathname.relativeTo?_eq_some hrp).2.1, (Pathname.relativeTo?_eq_some hrq).2.1, this]

/-! ## Inserting by key -/

section Insert
variable {x y : String × Pathname} {l acc : List (String × Pathname)}

theorem mem_insertKeyed_imp (h : y ∈ insertKeyed x l) : y = x ∨ y ∈ l := by
  induction l with
  | nil => simpa [insertKeyed] using h
  | cons z l ih =>
    simp only [insertKeyed] at h
    split at h
    · simpa using h
    · split at h
      · exact .inr h
      · rcases List.mem_cons.1 h with rfl | h
        · exact .inr List.mem_cons_self
        · rcases ih h with rfl | h
          · exact .inl rfl
          · exact .inr (List.mem_cons_of_mem z h)

theorem mem_insertKeyed_of_mem (h : y ∈ l) : y ∈ insertKeyed x l := by
  induction l with
  | nil => simp at h
  | cons z l ih =>
    simp only [insertKeyed]
    split
    · exact List.mem_cons_of_mem x h
    · split
      · exact h
      · rcases List.mem_cons.1 h with rfl | h
        · exact List.mem_cons_self
        · exact List.mem_cons_of_mem z (ih h)

/-- After an insertion the key is present, under the file inserted or one there before. -/
theorem exists_key_mem_insertKeyed (x : String × Pathname) (l : List (String × Pathname)) :
    ∃ y ∈ insertKeyed x l, y.1 = x.1 := by
  induction l with
  | nil => exact ⟨x, by simp [insertKeyed], rfl⟩
  | cons z l ih =>
    simp only [insertKeyed]
    split
    · exact ⟨x, List.mem_cons_self, rfl⟩
    · split
      · rename_i heq
        exact ⟨z, List.mem_cons_self, heq.symm⟩
      · obtain ⟨y, hy, hk⟩ := ih
        exact ⟨y, List.mem_cons_of_mem z hy, hk⟩

theorem pairwise_insertKeyed (h : l.Pairwise (·.1 < ·.1)) : (insertKeyed x l).Pairwise (·.1 < ·.1) := by
  induction l with
  | nil => simp [insertKeyed]
  | cons z l ih =>
    obtain ⟨hz, hl⟩ := List.pairwise_cons.1 h
    simp only [insertKeyed]
    split
    · rename_i hlt
      refine List.pairwise_cons.2 ⟨fun w hw => ?_, h⟩
      rcases List.mem_cons.1 hw with rfl | hw
      · exact hlt
      · exact lt_trans hlt (hz w hw)
    · split
      · exact h
      · rename_i hnlt hne
        refine List.pairwise_cons.2 ⟨fun w hw => ?_, ih hl⟩
        rcases mem_insertKeyed_imp hw with rfl | hw
        · exact lt_of_le_of_ne (not_lt.1 hnlt) (Ne.symm hne)
        · exact hz w hw

theorem pairwise_foldl_insertKeyed (h : acc.Pairwise (·.1 < ·.1)) (l : List (String × Pathname)) :
    (l.foldl (fun acc x => insertKeyed x acc) acc).Pairwise (·.1 < ·.1) := by
  induction l generalizing acc with
  | nil => exact h
  | cons x l ih => exact ih (pairwise_insertKeyed h)

theorem mem_foldl_insertKeyed_imp (h : y ∈ l.foldl (fun acc x => insertKeyed x acc) acc) :
    y ∈ acc ∨ y ∈ l := by
  induction l generalizing acc with
  | nil => exact .inl h
  | cons x l ih =>
    rcases ih h with h | h
    · rcases mem_insertKeyed_imp h with rfl | h
      · exact .inr List.mem_cons_self
      · exact .inl h
    · exact .inr (List.mem_cons_of_mem x h)

theorem exists_key_mem_foldl_insertKeyed (h : x ∈ acc ∨ x ∈ l) :
    ∃ y ∈ l.foldl (fun acc x => insertKeyed x acc) acc, y.1 = x.1 := by
  induction l generalizing acc x with
  | nil => exact ⟨x, by simpa using h, rfl⟩
  | cons z l ih =>
    rcases h with h | h
    · exact ih (.inl (mem_insertKeyed_of_mem h))
    · rcases List.mem_cons.1 h with rfl | h
      · -- the key is in the list once `x` is inserted, and stays there
        obtain ⟨y, hy, hk⟩ := exists_key_mem_insertKeyed x acc
        obtain ⟨w, hw, hwk⟩ := ih (show y ∈ insertKeyed x acc ∨ y ∈ l from .inl hy)
        exact ⟨w, hw, hwk.trans hk⟩
      · exact ih (.inr h)

/-- When no two entries share a key, inserting them all keeps each of them. -/
theorem mem_foldl_insertKeyed (hinj : ∀ x ∈ l, ∀ y ∈ l, x.1 = y.1 → x = y) :
    y ∈ l.foldl (fun acc x => insertKeyed x acc) [] ↔ y ∈ l := by
  constructor
  · intro hy
    simpa using mem_foldl_insertKeyed_imp hy
  · intro hy
    obtain ⟨z, hz, hk⟩ := exists_key_mem_foldl_insertKeyed (show y ∈ [] ∨ y ∈ l from .inr hy)
    have hzl : z ∈ l := by simpa using mem_foldl_insertKeyed_imp hz
    rwa [hinj z hzl y hy hk] at hz

end Insert

/-! ## Runs of searches -/

section Runs
variable {α β γ ε ε' : Type}

theorem bind_eq_ok {x : Except ε α} {f : α → Except ε β} {b : β} :
    x >>= f = .ok b ↔ ∃ a, x = .ok a ∧ f a = .ok b := by
  cases x <;> simp [bind, Except.bind]

theorem pure_eq_ok {a b : α} : (pure a : Except ε α) = .ok b ↔ a = b := by
  simp [pure, Except.pure]

theorem map_eq_ok {x : Except ε α} {f : α → β} {b : β} :
    x.map f = .ok b ↔ ∃ a, x = .ok a ∧ f a = b := by
  cases x <;> simp [Except.map]

theorem mapError_eq_ok {x : Except ε α} {g : ε → ε'} {a : α} : x.mapError g = .ok a ↔ x = .ok a := by
  cases x <;> simp [Except.mapError]

theorem flatMapM_append {m : Type → Type} [Monad m] [LawfulMonad m] (f : α → m (List β))
    (l₁ l₂ : List α) :
    (l₁ ++ l₂).flatMapM f = l₁.flatMapM f >>= fun a => (fun b => a ++ b) <$> l₂.flatMapM f := by
  induction l₁ with
  | nil => simp
  | cons x l₁ ih => simp [ih]

theorem flatMapM_flatMap {m : Type → Type} [Monad m] [LawfulMonad m] (g : α → List β)
    (f : β → m (List γ)) (l : List α) :
    (l.flatMapM fun a => (g a).flatMapM f) = (l.flatMap g).flatMapM f := by
  induction l with
  | nil => simp
  | cons a l ih => simp [ih, flatMapM_append]

/-- A run of searches succeeds exactly when each search does. -/
theorem flatMapM_ok_iff {f : α → Except ε (List β)} {l : List α} :
    (∃ r, l.flatMapM f = .ok r) ↔ ∀ x ∈ l, ∃ r, f x = .ok r := by
  induction l with
  | nil => simp [pure_eq_ok]
  | cons a l ih =>
    simp only [List.flatMapM_cons, bind_eq_ok, pure_eq_ok, List.forall_mem_cons, ← ih]
    constructor
    · rintro ⟨_, bs, ha, rs, hl, -⟩
      exact ⟨⟨bs, ha⟩, rs, hl⟩
    · rintro ⟨⟨bs, ha⟩, rs, hl⟩
      exact ⟨_, bs, ha, rs, hl, rfl⟩

/-- What a successful run of searches finds is what its searches find. -/
theorem mem_of_flatMapM_eq_ok {f : α → Except ε (List β)} {l : List α} {r : List β}
    (h : l.flatMapM f = .ok r) {y : β} : y ∈ r ↔ ∃ x ∈ l, ∃ rx, f x = .ok rx ∧ y ∈ rx := by
  induction l generalizing r with
  | nil =>
    rw [List.flatMapM_nil, pure_eq_ok] at h
    simp [← h]
  | cons a l ih =>
    simp only [List.flatMapM_cons, bind_eq_ok, pure_eq_ok] at h
    obtain ⟨bs, ha, rs, hl, rfl⟩ := h
    rw [List.mem_append, ih hl]
    simp [ha]

theorem mem_of_mapM_eq_ok {g : α → Except ε β} {l : List α} {rs : List β} (h : l.mapM g = .ok rs)
    {y : β} : y ∈ rs ↔ ∃ x ∈ l, g x = .ok y := by
  induction l generalizing rs with
  | nil =>
    rw [List.mapM_nil, pure_eq_ok] at h
    simp [← h]
  | cons a l ih =>
    simp only [List.mapM_cons, bind_eq_ok, pure_eq_ok] at h
    obtain ⟨b, ha, bs, hl, rfl⟩ := h
    rw [List.mem_cons, ih hl]
    simp [ha, eq_comm]

end Runs

/-! ## Candidates -/

/-- `p` is a file that the expansion `e` finds from `root`: some glob match of `e`, read from the
root and normalised, is `p`, and `p` is a file. -/
def FoundBy (v : Volume) (root : Pathname) (e : String) (p : Pathname) : Prop :=
  ∃ ms, glob v root.toString e = .ok ms ∧ ∃ m ∈ ms,
    p = (root.join (Pathname.ofString m)).normalize ∧ v.fileTest p.toString = .ok true

section Candidates
variable {v : Volume} {root : Pathname}

/-- A search finds each file that a glob match names, under its key. -/
theorem mem_matchedFiles {e : String} {r : List (String × Pathname)} (h : matchedFiles v root e = .ok r)
    {x : String × Pathname} : x ∈ r ↔ ∃ p, FoundBy v root e p ∧ x = (fileKey root p, p) := by
  simp only [matchedFiles, bind_eq_ok, pure_eq_ok] at h
  obtain ⟨ms, hg, tested, ht, rfl⟩ := h
  -- a match is kept when its file test says it is a file
  have htest : ∀ m, (((v.fileTest ((root.join (Pathname.ofString m)).normalize).toString).mapError
      SystemError.access).map fun isFile => if isFile then some (fileKey root (root.join (Pathname.ofString m)).normalize,
        (root.join (Pathname.ofString m)).normalize) else none) = .ok (some x) ↔
      v.fileTest ((root.join (Pathname.ofString m)).normalize).toString = .ok true ∧
        x = (fileKey root (root.join (Pathname.ofString m)).normalize, (root.join (Pathname.ofString m)).normalize) := by
    intro m
    simp only [map_eq_ok, mapError_eq_ok]
    constructor
    · rintro ⟨b, hb, hx⟩
      cases b <;> simp_all
    · rintro ⟨hb, rfl⟩
      exact ⟨true, hb, rfl⟩
  rw [List.mem_filterMap]
  simp only [id_eq, exists_eq_right]
  rw [mem_of_mapM_eq_ok ht]
  constructor
  · rintro ⟨m, hm, hgm⟩
    obtain ⟨hf, rfl⟩ := (htest m).1 hgm
    exact ⟨_, ⟨ms, hg, m, hm, rfl, hf⟩, rfl⟩
  · rintro ⟨p, ⟨ms', hms', m, hm, rfl, hf⟩, rfl⟩
    rw [hg, Except.ok.injEq] at hms'
    subst hms'
    exact ⟨m, hm, (htest m).2 ⟨hf, rfl⟩⟩

/-- The candidates are the insertion by key of everything the expansions of the patterns find. -/
theorem candidates_eq (patterns : List String) :
    candidates v root patterns = ((patterns.flatMap expandBraces).flatMapM (matchedFiles v root)).map
      fun found => (found.foldl (fun acc x => insertKeyed x acc) []).map (·.2) := by
  unfold candidates
  rw [flatMapM_flatMap]
  cases (patterns.flatMap expandBraces).flatMapM (matchedFiles v root) <;> rfl

/-- Finding candidates succeeds exactly when the search of each expansion does. -/
theorem candidates_ok_iff (patterns : List String) :
    (∃ c, candidates v root patterns = .ok c) ↔
      ∀ e ∈ patterns.flatMap expandBraces, ∃ r, matchedFiles v root e = .ok r := by
  rw [candidates_eq, ← flatMapM_ok_iff]
  simp only [map_eq_ok]
  constructor
  · rintro ⟨_, found, hf, -⟩
    exact ⟨found, hf⟩
  · rintro ⟨found, hf⟩
    exact ⟨_, found, hf, rfl⟩

/-- From any root, each candidate is a file that a glob match of an expansion names, and the
candidates come in strictly increasing key order. -/
theorem candidates_found {patterns : List String} {c : List Pathname}
    (h : candidates v root patterns = .ok c) :
    (∀ p ∈ c, ∃ e ∈ patterns.flatMap expandBraces, FoundBy v root e p) ∧
      c.Pairwise (fun p q => fileKey root p < fileKey root q) := by
  rw [candidates_eq, map_eq_ok] at h
  obtain ⟨found, hf, rfl⟩ := h
  -- every entry found is a file under its own key, and insertion keeps only entries found
  have hentry : ∀ x ∈ found.foldl (fun acc x => insertKeyed x acc) [],
      ∃ e ∈ patterns.flatMap expandBraces, ∃ p, FoundBy v root e p ∧ x = (fileKey root p, p) :=
    fun x hx => by
      have hx' : x ∈ found := by simpa using mem_foldl_insertKeyed_imp hx
      obtain ⟨e, he, r, hr, hx'⟩ := (mem_of_flatMapM_eq_ok hf).1 hx'
      exact ⟨e, he, (mem_matchedFiles hr).1 hx'⟩
  refine ⟨fun p hp => ?_, ?_⟩
  · obtain ⟨x, hx, rfl⟩ := List.mem_map.1 hp
    obtain ⟨e, he, q, hq, rfl⟩ := hentry x hx
    exact ⟨e, he, hq⟩
  · rw [List.pairwise_map]
    refine (pairwise_foldl_insertKeyed List.Pairwise.nil found).imp_of_mem fun hx hy hlt => ?_
    obtain ⟨-, -, p, -, rfl⟩ := hentry _ hx
    obtain ⟨-, -, q, -, rfl⟩ := hentry _ hy
    exact hlt

variable (hroot : root.absolute) (hproper : root.Proper)
include hroot hproper

/-- What an expansion finds from an absolute root is absolute and proper. -/
theorem FoundBy.absolute_proper {e : String} {p : Pathname} (h : FoundBy v root e p) :
    p.absolute ∧ p.Proper := by
  obtain ⟨ms, -, m, -, rfl, -⟩ := h
  exact ⟨by rw [Pathname.absolute_normalize]; exact Pathname.absolute_join _ hroot,
    (hproper.join (Pathname.proper_ofString m)).normalize⟩

/-- The candidates are the files found, each once, in strictly increasing key order. -/
theorem candidates_eq_ok {patterns : List String} {c : List Pathname}
    (h : candidates v root patterns = .ok c) :
    (∀ p, p ∈ c ↔ ∃ e ∈ patterns.flatMap expandBraces, FoundBy v root e p) ∧
      c.Pairwise (fun p q => fileKey root p < fileKey root q) := by
  refine ⟨fun p => ?_, (candidates_found h).2⟩
  rw [candidates_eq, map_eq_ok] at h
  obtain ⟨found, hf, rfl⟩ := h
  -- every entry found is a file under its own key
  have hentry : ∀ x ∈ found, ∃ e ∈ patterns.flatMap expandBraces, ∃ p, FoundBy v root e p ∧
      x = (fileKey root p, p) := fun x hx => by
    obtain ⟨e, he, r, hr, hx⟩ := (mem_of_flatMapM_eq_ok hf).1 hx
    exact ⟨e, he, (mem_matchedFiles hr).1 hx⟩
  -- so no two entries share a key
  have hinj : ∀ x ∈ found, ∀ y ∈ found, x.1 = y.1 → x = y := by
    intro x hx y hy hk
    obtain ⟨e, -, p, hp, rfl⟩ := hentry x hx
    obtain ⟨e', -, q, hq, rfl⟩ := hentry y hy
    obtain ⟨hpa, hpp⟩ := hp.absolute_proper hroot hproper
    obtain ⟨hqa, hqp⟩ := hq.absolute_proper hroot hproper
    rw [fileKey_inj hpa hqa hpp hqp hk]
  rw [List.mem_map]
  constructor
  · rintro ⟨x, hx, rfl⟩
    obtain ⟨e, he, q, hq, rfl⟩ := hentry x ((mem_foldl_insertKeyed hinj).1 hx)
    exact ⟨e, he, hq⟩
  · rintro ⟨e, he, hp⟩
    obtain ⟨r, hr⟩ := flatMapM_ok_iff.1 ⟨found, hf⟩ e he
    have hx : (fileKey root p, p) ∈ found :=
      (mem_of_flatMapM_eq_ok hf).2 ⟨e, he, r, hr, (mem_matchedFiles hr).2 ⟨p, hp, rfl⟩⟩
    exact ⟨_, (mem_foldl_insertKeyed hinj).2 hx, rfl⟩

/-- Pattern lists with the same expansions give the same candidates, or both fail. -/
theorem candidates_toOption_eq {ps qs : List String}
    (hpq : ∀ e, e ∈ ps.flatMap expandBraces ↔ e ∈ qs.flatMap expandBraces) :
    (candidates v root ps).toOption = (candidates v root qs).toOption := by
  have hok : (∃ c, candidates v root ps = .ok c) ↔ ∃ c, candidates v root qs = .ok c := by
    rw [candidates_ok_iff, candidates_ok_iff]
    exact ⟨fun h e he => h e ((hpq e).2 he), fun h e he => h e ((hpq e).1 he)⟩
  cases hp : candidates v root ps with
  | error e₁ =>
    cases hq : candidates v root qs with
    | error e₂ => rfl
    | ok c₂ => simp [hp, hq] at hok
  | ok c₁ =>
    cases hq : candidates v root qs with
    | error e₂ => simp [hp, hq] at hok
    | ok c₂ =>
      -- both are the same files in strictly increasing key order
      obtain ⟨hm₁, hs₁⟩ := candidates_eq_ok hroot hproper hp
      obtain ⟨hm₂, hs₂⟩ := candidates_eq_ok hroot hproper hq
      have : Std.Irrefl (fun p q : Pathname => fileKey root p < fileKey root q) :=
        ⟨fun p => lt_irrefl _⟩
      have hc : c₁ = c₂ := hs₁.eq_of_mem_iff hs₂ fun p => by
        rw [hm₁, hm₂]
        exact ⟨fun ⟨e, he, hf⟩ => ⟨e, (hpq e).1 he, hf⟩, fun ⟨e, he, hf⟩ => ⟨e, (hpq e).2 he, hf⟩⟩
      rw [hc]

end Candidates

/-! ## Discovery -/

theorem discover_eq (v : Volume) (root : Pathname) (patterns : List String) (filter : Option Exclusions) :
    discover v root patterns filter =
      (candidates v root patterns).map fun c => ⟨c, filter.map fun f => f.keep c⟩ := by
  unfold discover
  cases candidates v root patterns <;> rfl

/-- **Discovery depends on the set of expansions only.** From an absolute root, two pattern lists
whose brace expansions are the same set of texts discover the same files, or both fail. What they
discover is each file that a glob match of an expansion names, read from the root and normalised,
and that the filter keeps, once, in strictly increasing order of keys. -/
theorem discover_eq_of_same_expansions {v : Volume} {root : Pathname} (hroot : root.absolute)
    (hproper : root.Proper) (filter : Option Exclusions) {ps qs : List String}
    (hpq : ∀ e, e ∈ ps.flatMap expandBraces ↔ e ∈ qs.flatMap expandBraces) :
    (discover v root ps filter).toOption = (discover v root qs filter).toOption ∧
      ∀ d, discover v root ps filter = .ok d →
        (∀ p, p ∈ d.files ↔ (∃ e ∈ ps.flatMap expandBraces, FoundBy v root e p) ∧
          ∀ f ∈ filter, f.ignores p = false) ∧
        d.files.Pairwise (fun p q => fileKey root p < fileKey root q) := by
  refine ⟨?_, fun d hd => ?_⟩
  · have hc := candidates_toOption_eq hroot hproper (v := v) hpq
    rw [discover_eq, discover_eq]
    cases hp : candidates v root ps <;> cases hq : candidates v root qs <;>
      simp_all [Except.toOption, Except.map]
  · rw [discover_eq, map_eq_ok] at hd
    obtain ⟨c, hc, rfl⟩ := hd
    obtain ⟨hmem, hsorted⟩ := candidates_eq_ok hroot hproper hc
    cases filter with
    | none => exact ⟨fun p => by simp [Discovery.files, hmem], hsorted⟩
    | some f =>
      refine ⟨fun p => ?_, hsorted.filter _⟩
      simp [Discovery.files, Exclusions.keep, hmem]

/-- A brace pattern, and its expansions listed in another order with a repeat, discover the same
files. -/
theorem discover_braces_same_as_listed :
    (Pathname.ofString "/r").absolute ∧ (Pathname.ofString "/r").Proper ∧
      (∀ e, e ∈ ["src/{a,b}.js"].flatMap expandBraces ↔
        e ∈ ["src/b.js", "src/a.js", "src/a.js"].flatMap expandBraces) ∧
      (discover ((Volume.empty.addFile ["r", "src", "a.js"] []).addFile ["r", "src", "b.js"] [])
          (Pathname.ofString "/r") ["src/{a,b}.js"] none).toOption =
        (discover ((Volume.empty.addFile ["r", "src", "a.js"] []).addFile ["r", "src", "b.js"] [])
          (Pathname.ofString "/r") ["src/b.js", "src/a.js", "src/a.js"] none).toOption := by
  have hpq : ∀ e, e ∈ ["src/{a,b}.js"].flatMap expandBraces ↔
      e ∈ ["src/b.js", "src/a.js", "src/a.js"].flatMap expandBraces := by
    have h₁ : expandBraces "src/{a,b}.js" = ["src/a.js", "src/b.js"] := by decide +kernel
    have h₂ : expandBraces "src/b.js" = ["src/b.js"] := by decide +kernel
    have h₃ : expandBraces "src/a.js" = ["src/a.js"] := by decide +kernel
    simp [h₁, h₂, h₃, or_comm]
  exact ⟨rfl, Pathname.proper_ofString _, hpq,
    (discover_eq_of_same_expansions rfl (Pathname.proper_ofString _) none hpq).1⟩

end EnvAudit.Scan
