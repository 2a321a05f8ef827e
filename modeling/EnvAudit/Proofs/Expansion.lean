import Mathlib.Data.List.Nodup
import EnvAudit.Proofs.BraceGroups
/-!
# Brace expansion is compositional

`expand` does not combine the expansions of the parts of a pattern: for a group of several
alternatives it expands each whole text `pre ++ alternative ++ suf` again from the start, and drops
repeats as it gathers the results. On a balanced pattern it still gives the compositional
expansion `refExpand`, which expands the alternatives, the body and the rest separately and joins
every pair of their expansions, once repeats are dropped (`expandBraces_eq_firsts_of_reference`).

Repeats are handled through `SameFirsts`: two lists are alike when adding either to any list with
`appendNew` adds the same, that is, when they have the same first occurrences in the same order.
It is a congruence for `++` and `flatMap`, and a list is alike to its first occurrences. Two facts
about `expand` carry the main theorem: text without `{` in front comes out in front of every
expansion (`expand_free_append`), and expanding a balanced text followed by any text gives, up to
repeats, every expansion of the first followed by every expansion of the second
(`expand_append`). The expansions of any pattern are distinct (`nodup_expand`).
-/

namespace EnvAudit.Glob

/-! ## Gathering first occurrences -/

section AppendNew
variable {acc l m : List (List Char)} {x : List Char}

@[simp] theorem appendNew_nil : appendNew acc [] = acc := rfl

theorem appendNew_cons : appendNew acc (x :: l) = appendNew (if x ∈ acc then acc else acc ++ [x]) l :=
  rfl

theorem appendNew_append : appendNew acc (l ++ m) = appendNew (appendNew acc l) m :=
  List.foldl_append

theorem mem_appendNew : x ∈ appendNew acc l ↔ x ∈ acc ∨ x ∈ l := by
  induction l generalizing acc with
  | nil => simp
  | cons y l ih =>
    rw [appendNew_cons, ih]
    by_cases hy : y ∈ acc
    · simp only [hy, if_true, List.mem_cons]
      constructor
      · rintro (h | h) <;> simp [h]
      · rintro (h | rfl | h) <;> simp [*]
    · simp [hy, or_assoc]

theorem nodup_appendNew (h : acc.Nodup) : (appendNew acc l).Nodup := by
  induction l generalizing acc with
  | nil => exact h
  | cons y l ih =>
    rw [appendNew_cons]
    split
    · exact ih h
    · rename_i hy
      refine ih (List.nodup_append.2 ⟨h, List.nodup_singleton y, fun a ha b hb => ?_⟩)
      rw [List.mem_singleton.1 hb]
      rintro rfl
      exact hy ha

/-- Members already present add nothing. -/
theorem appendNew_of_subset (h : ∀ y ∈ l, y ∈ acc) : appendNew acc l = acc := by
  induction l with
  | nil => rfl
  | cons y l ih =>
    rw [appendNew_cons, if_pos (h y List.mem_cons_self)]
    exact ih fun z hz => h z (List.mem_cons_of_mem y hz)

theorem eraseDups_of_nodup {α : Type} [BEq α] [LawfulBEq α] {l : List α} (h : l.Nodup) :
    l.eraseDups = l := by
  induction l with
  | nil => rfl
  | cons a l ih =>
    obtain ⟨ha, hl⟩ := List.nodup_cons.1 h
    have hfilter : l.filter (fun b => !b == a) = l := List.filter_eq_self.2 fun b hb => by
      simp only [Bool.not_eq_eq_eq_not, Bool.not_true, beq_eq_false_iff_ne, ne_eq]
      rintro rfl
      exact ha hb
    rw [List.eraseDups_cons, hfilter, ih hl]

/-- Adding to a list without repeats keeps its first occurrences and those of the new list. -/
theorem appendNew_eq_eraseDups (h : acc.Nodup) : appendNew acc l = (acc ++ l).eraseDups := by
  induction l generalizing acc with
  | nil => simp [eraseDups_of_nodup h]
  | cons y l ih =>
    rw [appendNew_cons]
    split
    · rename_i hy
      rw [ih h, List.eraseDups_append, List.eraseDups_append]
      simp [List.removeAll, hy]
    · rename_i hy
      have hnd : (acc ++ [y]).Nodup := by
        refine List.nodup_append.2 ⟨h, List.nodup_singleton y, fun a ha b hb => ?_⟩
        rw [List.mem_singleton.1 hb]
        rintro rfl
        exact hy ha
      rw [ih hnd, List.append_assoc, List.singleton_append]

/-- A fold that adds each list of a family in turn adds their concatenation. -/
theorem foldl_appendNew {α : Type} (g : α → List (List Char)) (l : List α) (acc : List (List Char)) :
    l.foldl (fun acc a => appendNew acc (g a)) acc = appendNew acc (l.flatMap g) := by
  induction l generalizing acc with
  | nil => rfl
  | cons a l ih => rw [List.foldl_cons, ih, List.flatMap_cons, appendNew_append]

end AppendNew

/-! ## Lists with the same first occurrences -/

/-- Two lists with the same first occurrences, in the same order: added to any list, they add the
same members in the same order. -/
def SameFirsts (l m : List (List Char)) : Prop := ∀ acc, appendNew acc l = appendNew acc m

namespace SameFirsts
variable {l l' m m' k : List (List Char)}

@[refl] theorem refl (l : List (List Char)) : SameFirsts l l := fun _ => rfl

@[symm] theorem symm (h : SameFirsts l m) : SameFirsts m l := fun acc => (h acc).symm

theorem trans (h₁ : SameFirsts l m) (h₂ : SameFirsts m k) : SameFirsts l k :=
  fun acc => (h₁ acc).trans (h₂ acc)

instance : Trans SameFirsts SameFirsts SameFirsts := ⟨trans⟩

theorem append (h₁ : SameFirsts l l') (h₂ : SameFirsts m m') : SameFirsts (l ++ m) (l' ++ m') :=
  fun acc => by rw [appendNew_append, appendNew_append, h₁, h₂]

theorem flatMap_congr {α : Type} {f g : α → List (List Char)} {l : List α}
    (h : ∀ x ∈ l, SameFirsts (f x) (g x)) : SameFirsts (l.flatMap f) (l.flatMap g) := by
  induction l with
  | nil => exact refl _
  | cons x l ih =>
    simp only [List.flatMap_cons]
    exact append (h x List.mem_cons_self) (ih fun y hy => h y (List.mem_cons_of_mem x hy))

theorem eraseDups_eq (h : SameFirsts l m) : l.eraseDups = m.eraseDups := by
  have := h []
  rwa [appendNew_eq_eraseDups List.nodup_nil, appendNew_eq_eraseDups List.nodup_nil] at this

end SameFirsts

/-- Members already present add nothing. -/
theorem sameFirsts_append_of_subset {l k : List (List Char)} (h : ∀ y ∈ k, y ∈ l) :
    SameFirsts (l ++ k) l := fun acc => by
  rw [appendNew_append, appendNew_of_subset fun y hy => mem_appendNew.2 (.inr (h y hy))]

/-- Dropping repeats before mapping each member to a list drops only repeats of the result. -/
theorem sameFirsts_flatMap_appendNew (f : List Char → List (List Char)) (acc l : List (List Char)) :
    SameFirsts ((acc ++ l).flatMap f) ((appendNew acc l).flatMap f) := by
  induction l generalizing acc with
  | nil => simpa using SameFirsts.refl _
  | cons x l ih =>
    rw [appendNew_cons]
    split
    · rename_i hx
      -- `f x` repeats members that `acc` already gave
      have hrep : SameFirsts (acc.flatMap f ++ f x) (acc.flatMap f) :=
        sameFirsts_append_of_subset fun y hy => List.mem_flatMap.2 ⟨x, hx, hy⟩
      have e : (acc ++ x :: l).flatMap f = (acc.flatMap f ++ f x) ++ l.flatMap f := by simp
      rw [e]
      exact (hrep.append (SameFirsts.refl _)).trans (by simpa using ih acc)
    · simpa using ih (acc ++ [x])

theorem sameFirsts_appendNew (l : List (List Char)) : SameFirsts (appendNew [] l) l := by
  simpa using (sameFirsts_flatMap_appendNew (fun x => [x]) [] l).symm

namespace SameFirsts
variable {l l' m m' : List (List Char)}

theorem flatMap (h : SameFirsts l m) (f : List Char → List (List Char)) :
    SameFirsts (l.flatMap f) (m.flatMap f) := by
  have hl := sameFirsts_flatMap_appendNew f [] l
  have hm := sameFirsts_flatMap_appendNew f [] m
  rw [List.nil_append, h []] at hl
  rw [List.nil_append] at hm
  exact hl.trans hm.symm

theorem map (h : SameFirsts l m) (f : List Char → List Char) : SameFirsts (l.map f) (m.map f) := by
  simpa [← List.map_eq_flatMap] using h.flatMap fun x => [f x]

end SameFirsts

/-- Each member of `xs` followed by each member of `ys`, in order. -/
def joinEach (xs ys : List (List Char)) : List (List Char) := xs.flatMap fun x => ys.map (x ++ ·)

theorem SameFirsts.joinEach {l l' m m' : List (List Char)} (h₁ : SameFirsts l l') (h₂ : SameFirsts m m') :
    SameFirsts (joinEach l m) (joinEach l' m') :=
  (h₁.flatMap _).trans (SameFirsts.flatMap_congr fun _ _ => h₂.map _)

/-! ## One step of `expand` -/

section Unfold
variable {s pre body suf : List Char}

theorem expand_of_none (h : braceGroup? s = none) : expand s = [s] := by
  rw [expand.eq_def]
  split
  · rfl
  · rename_i heq
    rw [h] at heq
    cases heq

theorem expand_of_single (h : braceGroup? s = some (pre, body, suf)) (hn : (alternatives body).length < 2) :
    expand s = (expand body).flatMap fun x => (expand suf).map fun y => pre ++ '{' :: x ++ '}' :: y := by
  rw [expand.eq_def]
  split
  · rename_i heq
    rw [h] at heq
    cases heq
  · rename_i heq
    rw [h] at heq
    cases heq
    simp [hn]

theorem expand_of_multi (h : braceGroup? s = some (pre, body, suf)) (hn : ¬ (alternatives body).length < 2) :
    expand s = appendNew [] ((alternatives body).flatMap fun a => expand (pre ++ a ++ suf)) := by
  rw [expand.eq_def]
  split
  · rename_i heq
    rw [h] at heq
    cases heq
  · rename_i heq
    rw [h] at heq
    cases heq
    simp only [hn, if_false]
    rw [List.foldl_attach (f := fun acc a => appendNew acc (expand (pre ++ a ++ suf)))]
    exact foldl_appendNew _ _ _

end Unfold

/-! ## Expansions -/

/-- Every expansion of a balanced pattern is balanced. -/
theorem Balanced.of_mem_expand {s x : List Char} (hs : Balanced s) (hx : x ∈ expand s) : Balanced x := by
  induction s using expand.induct generalizing x with
  | case1 s h =>
    rw [expand_of_none h, List.mem_singleton] at hx
    exact hx ▸ hs
  | case2 s pre body suf h _ hn ihsuf ihbody =>
    rw [expand_of_single h hn] at hx
    obtain ⟨y, hy, hx⟩ := List.mem_flatMap.1 hx
    obtain ⟨z, hz, rfl⟩ := List.mem_map.1 hx
    obtain ⟨-, hpre, hbody⟩ := braceGroup?_eq_some h
    obtain ⟨hclose, hsuf⟩ := hs.outside_braceGroup? h
    simpa using ((ihbody hbody hy).group (ihsuf hsuf hz)).free_append hpre hclose
  | case3 s pre body suf h _ hn ih =>
    rw [expand_of_multi h hn] at hx
    obtain ⟨a, ha, hx⟩ := List.mem_flatMap.1 ((mem_appendNew.1 hx).resolve_left List.not_mem_nil)
    obtain ⟨-, hpre, hbody⟩ := braceGroup?_eq_some h
    obtain ⟨hclose, hsuf⟩ := hs.outside_braceGroup? h
    have hpart : Balanced (pre ++ a ++ suf) := by
      simpa using ((hbody.of_mem_alternatives ha).append hsuf).free_append hpre hclose
    exact ih ⟨a, ha⟩ hpart hx

/-- The expansions of a pattern are distinct. For a group kept as written this needs its body to
be balanced: a balanced text followed by `}` is told apart from what follows. -/
theorem nodup_expand (s : List Char) : (expand s).Nodup := by
  induction s using expand.induct with
  | case1 s h => simp [expand_of_none h]
  | case2 s pre body suf h _ hn ihsuf ihbody =>
    rw [expand_of_single h hn]
    obtain ⟨-, -, hbody⟩ := braceGroup?_eq_some h
    refine List.nodup_flatMap.2 ⟨fun x _ => ihsuf.map fun y y' e => by simpa using e, ?_⟩
    refine ihbody.imp_of_mem fun hx hx' hne z hz hz' => ?_
    obtain ⟨y, -, rfl⟩ := List.mem_map.1 hz
    obtain ⟨y', -, e⟩ := List.mem_map.1 hz'
    have := (hbody.of_mem_expand hx').group_inj (hbody.of_mem_expand hx) (by simpa using e)
    exact hne this.1.symm
  | case3 s pre body suf h _ hn _ =>
    rw [expand_of_multi h hn]
    exact nodup_appendNew List.nodup_nil

/-- Text without `{` in front of a pattern comes out in front of each of its expansions. -/
theorem expand_free_append {v : List Char} (hv : '{' ∉ v) (w : List Char) :
    SameFirsts (expand (v ++ w)) ((expand w).map (v ++ ·)) := by
  induction w using expand.induct with
  | case1 w h =>
    rw [expand_of_none h, expand_of_none (by simp [braceGroup?_free_append hv, h])]
    rfl
  | case2 w pre body suf h _ hn _ _ =>
    have h' : braceGroup? (v ++ w) = some (v ++ pre, body, suf) := by simp [braceGroup?_free_append hv, h]
    rw [expand_of_single h' hn, expand_of_single h hn]
    simpa [List.map_flatMap, Function.comp_def] using SameFirsts.refl _
  | case3 w pre body suf h _ hn ih =>
    have h' : braceGroup? (v ++ w) = some (v ++ pre, body, suf) := by simp [braceGroup?_free_append hv, h]
    rw [expand_of_multi h' hn, expand_of_multi h hn]
    calc SameFirsts _ ((alternatives body).flatMap fun a => expand (v ++ (pre ++ a ++ suf))) := by
          simpa using sameFirsts_appendNew _
      SameFirsts _ ((alternatives body).flatMap fun a => (expand (pre ++ a ++ suf)).map (v ++ ·)) :=
          SameFirsts.flatMap_congr fun a ha => ih ⟨a, ha⟩
      _ = ((alternatives body).flatMap fun a => expand (pre ++ a ++ suf)).map (v ++ ·) :=
          List.map_flatMap.symm
      SameFirsts _ _ := ((sameFirsts_appendNew _).symm).map _

/-- Expanding a balanced text followed by any text gives, up to repeats, every expansion of the
first followed by every expansion of the second: the groups of a balanced text close inside it. -/
theorem expand_append {a : List Char} (ha : Balanced a) (w : List Char) :
    SameFirsts (expand (a ++ w)) (joinEach (expand a) (expand w)) := by
  induction a using expand.induct with
  | case1 a h =>
    rw [expand_of_none h]
    simpa [joinEach] using expand_free_append (ha.not_mem_of_braceGroup?_eq_none h) w
  | case2 a pre body suf h _ hn ihsuf _ =>
    obtain ⟨-, hsuf⟩ := ha.outside_braceGroup? h
    rw [expand_of_single (braceGroup?_append h w) hn, expand_of_single h hn]
    calc SameFirsts _ ((expand body).flatMap fun x =>
            (joinEach (expand suf) (expand w)).map fun y => pre ++ '{' :: x ++ '}' :: y) :=
          SameFirsts.flatMap_congr fun x _ => (ihsuf hsuf).map _
      _ = _ := by simp [joinEach, List.flatMap_assoc, List.map_flatMap, List.flatMap_map, Function.comp_def]
  | case3 a pre body suf h _ hn ih =>
    obtain ⟨-, hpre, hbody⟩ := braceGroup?_eq_some h
    obtain ⟨hclose, hsuf⟩ := ha.outside_braceGroup? h
    rw [expand_of_multi (braceGroup?_append h w) hn, expand_of_multi h hn]
    calc SameFirsts _ ((alternatives body).flatMap fun c => expand (pre ++ c ++ suf ++ w)) := by
          simpa using sameFirsts_appendNew _
      SameFirsts _ ((alternatives body).flatMap fun c => joinEach (expand (pre ++ c ++ suf)) (expand w)) :=
          SameFirsts.flatMap_congr fun c hc => ih ⟨c, hc⟩
            (by simpa using ((hbody.of_mem_alternatives hc).append hsuf).free_append hpre hclose)
      _ = joinEach ((alternatives body).flatMap fun c => expand (pre ++ c ++ suf)) (expand w) := by
          simp [joinEach, List.flatMap_assoc]
      SameFirsts _ _ := ((sameFirsts_appendNew _).symm).flatMap _

/-! ## The compositional expansion -/

/-- The expansions of a pattern built from those of its parts. A pattern without a group stands
for itself. In `pre ++ '{' :: body ++ '}' :: suf`, with the group the first one: when the body
has two or more alternatives, each expansion of each alternative, in order, is put between `pre`
and each expansion of `suf`; otherwise each expansion of the body is, inside its braces. Repeats
are kept. -/
def refExpand (s : List Char) : List (List Char) :=
  match h : braceGroup? s with
  | none => [s]
  | some (pre, body, suf) =>
    have := braceGroup?_length h
    if (alternatives body).length < 2 then
      (refExpand body).flatMap fun x => (refExpand suf).map fun y => pre ++ '{' :: x ++ '}' :: y
    else
      (alternatives body).attach.flatMap fun a =>
        (refExpand a.1).flatMap fun x => (refExpand suf).map fun y => pre ++ x ++ y
termination_by s.length
decreasing_by
  · omega
  · omega
  · omega
  · have := length_le_of_mem_alternativesFrom a.2
    omega

section RefUnfold
variable {s pre body suf : List Char}

theorem refExpand_of_none (h : braceGroup? s = none) : refExpand s = [s] := by
  rw [refExpand.eq_def]
  split
  · rfl
  · rename_i heq
    rw [h] at heq
    cases heq

theorem refExpand_of_single (h : braceGroup? s = some (pre, body, suf))
    (hn : (alternatives body).length < 2) :
    refExpand s = (refExpand body).flatMap fun x => (refExpand suf).map fun y => pre ++ '{' :: x ++ '}' :: y := by
  rw [refExpand.eq_def]
  split
  · rename_i heq
    rw [h] at heq
    cases heq
  · rename_i heq
    rw [h] at heq
    cases heq
    simp [hn]

theorem refExpand_of_multi (h : braceGroup? s = some (pre, body, suf))
    (hn : ¬ (alternatives body).length < 2) :
    refExpand s = (alternatives body).flatMap fun a =>
      (refExpand a).flatMap fun x => (refExpand suf).map fun y => pre ++ x ++ y := by
  rw [refExpand.eq_def]
  split
  · rename_i heq
    rw [h] at heq
    cases heq
  · rename_i heq
    rw [h] at heq
    cases heq
    simp [hn]

end RefUnfold

/-- On a balanced pattern, `expand` and the compositional expansion have the same first
occurrences in the same order. -/
theorem expand_sameFirsts_refExpand {s : List Char} (hs : Balanced s) :
    SameFirsts (expand s) (refExpand s) := by
  induction s using refExpand.induct with
  | case1 s h =>
    rw [expand_of_none h, refExpand_of_none h]
  | case2 s pre body suf h _ hn ihsuf ihbody =>
    obtain ⟨-, -, hbody⟩ := braceGroup?_eq_some h
    obtain ⟨-, hsuf⟩ := hs.outside_braceGroup? h
    rw [expand_of_single h hn, refExpand_of_single h hn]
    exact ((ihbody hbody).flatMap _).trans
      (SameFirsts.flatMap_congr fun x _ => (ihsuf hsuf).map _)
  | case3 s pre body suf h _ hn ihsuf ihalt =>
    obtain ⟨-, hpre, hbody⟩ := braceGroup?_eq_some h
    obtain ⟨hclose, hsuf⟩ := hs.outside_braceGroup? h
    rw [expand_of_multi h hn, refExpand_of_multi h hn]
    refine (sameFirsts_appendNew _).trans (SameFirsts.flatMap_congr fun a ha => ?_)
    have hbal := hbody.of_mem_alternatives ha
    -- `pre` comes out in front; the alternative and the rest are expanded together, then apart
    calc SameFirsts (expand (pre ++ a ++ suf)) ((expand (a ++ suf)).map (pre ++ ·)) := by
          simpa using expand_free_append hpre (a ++ suf)
      SameFirsts _ ((joinEach (expand a) (expand suf)).map (pre ++ ·)) :=
          (expand_append hbal suf).map _
      SameFirsts _ ((joinEach (refExpand a) (refExpand suf)).map (pre ++ ·)) :=
          ((ihalt ⟨a, ha⟩ hbal).joinEach (ihsuf hsuf)).map _
      _ = _ := by simp [joinEach, List.map_flatMap, Function.comp_def]

/-- **Brace expansion is compositional.** On a balanced pattern, the expansions are those of
the compositional expansion, each kept at its first occurrence. -/
theorem expandBraces_eq_firsts_of_reference {p : String} (hp : Balanced p.toList) :
    expandBraces p = (refExpand p.toList).eraseDups.map String.ofList := by
  rw [expandBraces, ← (expand_sameFirsts_refExpand hp).eraseDups_eq, eraseDups_of_nodup (nodup_expand _)]

theorem expandBraces_nested_eq_firsts_of_reference :
    Balanced "a{b,{c,d}e,b}{}{f,}".toList ∧
      expandBraces "a{b,{c,d}e,b}{}{f,}" = (refExpand "a{b,{c,d}e,b}{}{f,}".toList).eraseDups.map String.ofList :=
  ⟨by decide, expandBraces_eq_firsts_of_reference (by decide)⟩

end EnvAudit.Glob
