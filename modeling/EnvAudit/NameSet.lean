/-!
# Sets of names

A set of names is kept as a list in strictly increasing code-point order. `insertName` adds one
name at its place, and `sortNames` builds the set of any list of names. Reports list variables
and files in this order.
-/

namespace EnvAudit

/-- Adds `x` to a strictly increasing list at its place, unless it is there already. -/
def insertName (x : String) : List String → List String
  | [] => [x]
  | y :: ys => if x < y then x :: y :: ys else if x = y then y :: ys else y :: insertName x ys

/-- The names of a list, each once, in increasing order. -/
def sortNames (xs : List String) : List String := xs.foldl (fun acc x => insertName x acc) []

example : sortNames ["b", "a", "b", "B"] = ["B", "a", "b"] := by decide

theorem mem_insertName {x y : String} {ys : List String} : y ∈ insertName x ys ↔ y = x ∨ y ∈ ys := by
  induction ys with
  | nil => simp [insertName]
  | cons z zs ih =>
    simp only [insertName]
    split
    · simp
    · split
      · rename_i h; subst h; simp
      · simp only [List.mem_cons, ih]; exact or_left_comm

theorem mem_foldl_insertName {x : String} (xs : List String) (acc : List String) :
    x ∈ xs.foldl (fun acc y => insertName y acc) acc ↔ x ∈ acc ∨ x ∈ xs := by
  induction xs generalizing acc with
  | nil => simp
  | cons y ys ih =>
    rw [List.foldl_cons, ih, mem_insertName, List.mem_cons, @or_comm (x = y) (x ∈ acc), or_assoc]

theorem mem_sortNames {x : String} {xs : List String} : x ∈ sortNames xs ↔ x ∈ xs := by
  simp [sortNames, mem_foldl_insertName]

/-- Names are totally ordered: of two different names, one that is not below the other is
above it. -/
theorem gt_of_not_lt_of_ne {x y : String} (h₁ : ¬ x < y) (h₂ : x ≠ y) : y < x :=
  Decidable.byContradiction fun h => h₂ (String.le_antisymm (String.not_lt.1 h) (String.not_lt.1 h₁))

theorem pairwise_insertName {x : String} {ys : List String} (h : ys.Pairwise (· < ·)) :
    (insertName x ys).Pairwise (· < ·) := by
  induction ys with
  | nil => simp [insertName]
  | cons y ys ih =>
    obtain ⟨hy, hys⟩ := List.pairwise_cons.1 h
    simp only [insertName]
    split
    · rename_i hlt
      refine List.pairwise_cons.2 ⟨fun z hz => ?_, h⟩
      rcases List.mem_cons.1 hz with rfl | hz
      · exact hlt
      · exact String.lt_trans hlt (hy z hz)
    · split
      · exact h
      · rename_i hnlt hne
        -- `x` goes after `y`, which stays below everything inserted behind it
        refine List.pairwise_cons.2 ⟨fun z hz => ?_, ih hys⟩
        rcases mem_insertName.1 hz with rfl | hz
        · exact gt_of_not_lt_of_ne hnlt hne
        · exact hy z hz

end EnvAudit
