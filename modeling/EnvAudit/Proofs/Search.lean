import EnvAudit.Source.Reference
/-!
# The leftmost search for matches

`findFrom` takes a match where one starts and resumes the search where the match ends, so it
passes over whatever starts inside a match. When no match of a pattern can start strictly inside
another match of it (`NoOverlap`), nothing is lost that way: a group is found exactly when some
position of the text has a match with that group (`mem_findAll`).

The condition is stated with `Silent m n prev s`, no match at the first `n` positions of `s`.
Proofs of it are built segment by segment (`Silent.append`) from segments where no character can
start a match (`silent_of_anyStart`) or where every suffix is known to fail (`silent_of_forall`).
-/

namespace EnvAudit.Source

variable {m : Matcher}

/-- `m` has no match at the first `n` positions of `s`, where `prev` stands before `s`. -/
def Silent (m : Matcher) : Nat → Option Char → List Char → Prop
  | 0, _, _ => True
  | _ + 1, _, [] => True
  | n + 1, prev, c :: cs => m prev (c :: cs) = none ∧ Silent m n (some c) cs

/-- No match of `m` starts strictly inside another one. -/
def NoOverlap (m : Matcher) : Prop :=
  ∀ prev c cs h, m prev (c :: cs) = some h → Silent m (h.length - 1) (some c) cs

/-- `m` has a match with group `g` at a position of `s` that is at least `skip`, where `prev`
stands before `s`. -/
def HasMatch (m : Matcher) (g : List Char) (skip : Nat) (prev : Option Char) (s : List Char) :
    Prop :=
  ∃ pre suf h, s = pre ++ suf ∧ skip ≤ pre.length ∧ m (pre.getLast?.or prev) suf = some h ∧
    h.group = g

theorem getLast?_or_cons (c : Char) (pre : List Char) (prev : Option Char) :
    (c :: pre).getLast?.or prev = pre.getLast?.or (some c) := by
  rw [List.getLast?_cons, Option.some_or]
  cases pre.getLast? <;> rfl

theorem Silent.none_at {n : Nat} {prev : Option Char} {pre suf : List Char}
    (h : Silent m n prev (pre ++ suf)) (hlt : pre.length < n) (hsuf : suf ≠ []) :
    m (pre.getLast?.or prev) suf = none := by
  induction pre generalizing n prev with
  | nil =>
    obtain ⟨k, rfl⟩ := Nat.exists_eq_add_one_of_ne_zero (Nat.pos_iff_ne_zero.1 hlt)
    obtain ⟨c, cs, rfl⟩ := List.exists_cons_of_ne_nil hsuf
    exact h.1
  | cons c pre ih =>
    obtain ⟨k, rfl⟩ := Nat.exists_eq_add_one_of_ne_zero (by simp at hlt; omega : n ≠ 0)
    rw [getLast?_or_cons]
    exact ih h.2 (by simp at hlt; omega)

theorem Silent.append {A B : List Char} {n : Nat} {prev : Option Char}
    (hA : Silent m A.length prev (A ++ B)) (hB : Silent m n (A.getLast?.or prev) B) :
    Silent m (A.length + n) prev (A ++ B) := by
  induction A generalizing prev with
  | nil => simpa using hB
  | cons c A ih =>
    rw [List.length_cons, Nat.add_right_comm]
    rw [getLast?_or_cons] at hB
    exact ⟨hA.1, ih hA.2 hB⟩

/-- A segment where every suffix fails, whatever stands before it, is silent. -/
theorem silent_of_forall {A B : List Char} (prev : Option Char)
    (h : ∀ p pre suf, A = pre ++ suf → suf ≠ [] → m p (suf ++ B) = none) :
    Silent m A.length prev (A ++ B) := by
  induction A generalizing prev with
  | nil => trivial
  | cons c A ih =>
    refine ⟨h prev [] (c :: A) rfl (List.cons_ne_nil _ _), ih (some c) ?_⟩
    intro p pre suf hA hsuf
    exact h p (c :: pre) suf (by rw [hA]; rfl) hsuf

/-! ## Characters that can start a match -/

/-- Whether some character of a text, with the character before it, satisfies `start`. -/
def anyStart (start : Option Char → Char → Bool) : Option Char → List Char → Bool
  | _, [] => false
  | prev, c :: cs => start prev c || anyStart start (some c) cs

variable {start : Option Char → Char → Bool}

theorem anyStart_append (prev : Option Char) (A B : List Char) :
    anyStart start prev (A ++ B) = (anyStart start prev A || anyStart start (A.getLast?.or prev) B) := by
  induction A generalizing prev with
  | nil => simp [anyStart]
  | cons c A ih => simp [anyStart, ih, getLast?_or_cons, Bool.or_assoc]

theorem anyStart_eq_false {A : List Char} (prev : Option Char) (h : ∀ c ∈ A, ∀ p, start p c = false) :
    anyStart start prev A = false := by
  induction A generalizing prev with
  | nil => rfl
  | cons c A ih =>
    simp only [anyStart, h c List.mem_cons_self, Bool.false_or]
    exact ih _ fun d hd => h d (List.mem_cons_of_mem c hd)

/-- Where every match starts at a character satisfying `start`, a segment with no such character
is silent. -/
theorem silent_of_anyStart (hm : ∀ prev c cs h, m prev (c :: cs) = some h → start prev c)
    {A B : List Char} {prev : Option Char} (hA : anyStart start prev A = false) :
    Silent m A.length prev (A ++ B) := by
  induction A generalizing prev with
  | nil => trivial
  | cons c A ih =>
    simp only [anyStart, Bool.or_eq_false_iff] at hA
    refine ⟨?_, ih hA.2⟩
    cases hc : m prev (c :: (A ++ B)) with
    | none => rfl
    | some h => simpa [hA.1] using hm _ _ _ _ hc

/-! ## The search finds every match -/

theorem hasMatch_cons {g : List Char} {skip : Nat} {prev : Option Char} {c : Char}
    {rest : List Char} :
    HasMatch m g skip prev (c :: rest) ↔
      (skip = 0 ∧ ∃ h, m prev (c :: rest) = some h ∧ h.group = g) ∨
        HasMatch m g (skip - 1) (some c) rest := by
  constructor
  · rintro ⟨pre, suf, h, hs, hskip, hm, hg⟩
    rcases List.cons_eq_append_iff.1 hs with ⟨rfl, rfl⟩ | ⟨pre', rfl, rfl⟩
    · exact .inl ⟨by simpa using hskip, h, by simpa using hm, hg⟩
    · refine .inr ⟨pre', suf, h, rfl, by simp at hskip; omega, ?_, hg⟩
      rwa [getLast?_or_cons] at hm
  · rintro (⟨rfl, h, hm, hg⟩ | ⟨pre, suf, h, rfl, hskip, hm, hg⟩)
    · exact ⟨[], c :: rest, h, rfl, Nat.le_refl 0, hm, hg⟩
    · refine ⟨c :: pre, suf, h, rfl, by simp; omega, ?_, hg⟩
      rwa [getLast?_or_cons]

section
variable (hnil : ∀ prev, m prev [] = none)
include hnil

theorem hasMatch_nil {g : List Char} {skip : Nat} {prev : Option Char} :
    ¬ HasMatch m g skip prev [] := by
  rintro ⟨pre, suf, h, hs, -, hm, -⟩
  obtain ⟨-, rfl⟩ := List.append_eq_nil_iff.1 hs.symm
  simp [hnil] at hm

/-- A match after a silent stretch lies beyond it. -/
theorem HasMatch.of_silent {g : List Char} {n : Nat} {prev : Option Char} {s : List Char}
    (hs : Silent m n prev s) (h : HasMatch m g 0 prev s) : HasMatch m g n prev s := by
  obtain ⟨pre, suf, h, rfl, -, hm, hg⟩ := h
  refine ⟨pre, suf, h, rfl, Nat.le_of_not_lt fun hlt => ?_, hm, hg⟩
  have hsuf : suf ≠ [] := by rintro rfl; simp [hnil] at hm
  simp [hs.none_at hlt hsuf] at hm

theorem mem_findFrom (hm : NoOverlap m) {g : List Char} {skip : Nat} {prev : Option Char}
    {s : List Char} : g ∈ findFrom m skip prev s ↔ HasMatch m g skip prev s := by
  induction s generalizing skip prev with
  | nil => simp [findFrom, hasMatch_nil hnil]
  | cons c rest ih =>
    rw [hasMatch_cons]
    cases skip with
    | succ k => simp [findFrom, ih]
    | zero =>
      cases hc : m prev (c :: rest) with
      | none => simp [findFrom, hc, ih]
      | some h =>
        -- a match at the head hides the positions inside it, where `m` has none anyway
        simp only [findFrom, hc, List.mem_cons, ih, Option.some.injEq, exists_eq_left', true_and,
          Nat.zero_sub]
        refine or_congr eq_comm ⟨fun hh => ?_, (HasMatch.of_silent hnil (hm _ _ _ _ hc) ·)⟩
        obtain ⟨pre, suf, h', rfl, -, hm', hg⟩ := hh
        exact ⟨pre, suf, h', rfl, Nat.zero_le _, hm', hg⟩

/-- **The leftmost search loses no match.** -/
theorem mem_findAll (hm : NoOverlap m) {g s : List Char} :
    g ∈ findAll m s ↔ ∃ pre suf h, s = pre ++ suf ∧ m pre.getLast? suf = some h ∧ h.group = g := by
  rw [findAll, mem_findFrom hnil hm]
  simp [HasMatch, Option.or_none]

end

end EnvAudit.Source
