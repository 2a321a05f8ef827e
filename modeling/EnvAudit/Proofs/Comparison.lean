import EnvAudit.Proofs.Scanning
import EnvAudit.Report.Json
/-!
# Comparing declared names with used ones

A check compares the names an env file declares with the names a scan finds used, and its result
holds several views of these two sets. They agree (`compareUsage_compared`): `declared`, `used`,
`missing` and `unused` hold the declared names, the used names, the used names not declared and
the declared names not used, each in strictly increasing order; the names of `sources` are `used`,
in order; and `sourcesFor` gives the files of a used name, in increasing order, and none for any
other name, although it only finds the first entry under the name. This holds for every usage,
since a usage carries its map from names to sets of files in a well-formed shape
(`Sources.WellFormed`): names and files in increasing order, and no name without files.

The JSON document of every result counts each of its lists in its summary (`summary_counts`).
-/

namespace EnvAudit.Scan

/-! ## Sets of names and files -/

theorem pairwise_sortNames (xs : List String) : (sortNames xs).Pairwise (· < ·) := by
  suffices h : ∀ acc : List String, acc.Pairwise (· < ·) →
      (xs.foldl (fun acc x => insertName x acc) acc).Pairwise (· < ·) from h [] .nil
  induction xs with
  | nil => exact fun acc h => h
  | cons x xs ih => exact fun acc h => ih _ (pairwise_insertName h)

/-- Finding the first entry under a name finds what looking the name up does. -/
theorem find?_map_snd (ss : Sources) (x : String) : (ss.find? (·.1 == x)).map (·.2) = ss.lookup x := by
  induction ss with
  | nil => rfl
  | cons p ss ih =>
    obtain ⟨k, fs⟩ := p
    rw [List.find?_cons, List.lookup_cons]
    by_cases hk : k = x
    · subst hk
      simp
    · have h₁ : (k == x) = false := beq_false_of_ne hk
      have h₂ : (x == k) = false := beq_false_of_ne (Ne.symm hk)
      simp only [h₁, h₂]
      exact ih

/-- In a well-formed record, a recorded name has a non-empty, strictly increasing list of files. -/
theorem Sources.WellFormed.filesOf_of_mem {ss : Sources} (hss : ss.WellFormed) {x : String}
    (hx : x ∈ ss.map (·.1)) : (filesOf ss x).Pairwise (· < ·) ∧ filesOf ss x ≠ [] := by
  obtain ⟨⟨x, fs⟩, hmem, rfl⟩ := List.mem_map.1 hx
  cases hl : ss.lookup x with
  | none =>
    have := List.lookup_eq_none_iff.1 hl _ hmem
    simp at this
  | some fs' =>
    -- the entry looked up is one of the record's entries
    obtain ⟨l₁, l₂, heq, -⟩ := List.lookup_eq_some_iff.1 hl
    have hmem' : (x, fs') ∈ ss := heq ▸ by simp
    rw [filesOf, hl, Option.getD_some]
    exact ⟨hss.files_increasing _ hmem', hss.files_ne _ hmem'⟩

theorem filesOf_of_not_mem {ss : Sources} {x : String} (hx : x ∉ ss.map (·.1)) : filesOf ss x = [] := by
  have hl : ss.lookup x = none := List.lookup_eq_none_iff.2 fun p hp => by
    have hne : p.1 ≠ x := fun h => hx (h ▸ List.mem_map_of_mem hp)
    simpa [bne_iff_ne] using Ne.symm hne
  rw [filesOf, hl, Option.getD_none]

end EnvAudit.Scan

namespace EnvAudit.Report

open EnvAudit.Scan

/-! ## Views of two sets of names -/

/-- The views of a comparison of the names `declared` with the usage `u` agree. -/
structure Compared (declared : List String) (u : Usage) (r : Result) : Prop where
  /-- The four lists of names are in strictly increasing order. -/
  declared_increasing : r.declared.Pairwise (· < ·)
  used_increasing : r.used.Pairwise (· < ·)
  missing_increasing : r.missing.Pairwise (· < ·)
  unused_increasing : r.unused.Pairwise (· < ·)
  /-- `declared` holds the names declared, and `used` the names the usage records. -/
  mem_declared : ∀ x, x ∈ r.declared ↔ x ∈ declared
  mem_used : ∀ x, x ∈ r.used ↔ ∃ fs, (x, fs) ∈ u.sources
  /-- `missing` holds the used names not declared, and `unused` the declared names not used. -/
  mem_missing : ∀ x, x ∈ r.missing ↔ x ∈ r.used ∧ x ∉ r.declared
  mem_unused : ∀ x, x ∈ r.unused ↔ x ∈ r.declared ∧ x ∉ r.used
  /-- The names of `sources` are `used`, in the same order. -/
  source_names : r.sources.map (·.1) = r.used
  /-- A used name has the files the usage records for it: a non-empty, strictly increasing list. -/
  sourcesFor_used : ∀ x ∈ r.used,
    r.sourcesFor x = filesOf u.sources x ∧ (r.sourcesFor x).Pairwise (· < ·) ∧ r.sourcesFor x ≠ []
  /-- Any other name has no files. -/
  sourcesFor_not_used : ∀ x, x ∉ r.used → r.sourcesFor x = []

namespace Compared
variable {declared : List String} {u : Usage} {r : Result}

/-- No name is reported both missing and unused: a missing name is used, an unused one is not. -/
theorem disjoint_missing_unused (h : Compared declared u r) : r.missing.Disjoint r.unused := by
  intro x hm hu
  exact ((h.mem_unused x).1 hu).2 ((h.mem_missing x).1 hm).1

end Compared

/-! ## The comparison -/

section Compare
variable (declared : List String) (u : Usage) (envFile : String)

theorem sourcesFor_compareUsage (x : String) :
    (compareUsage declared u envFile).sourcesFor x = filesOf u.sources x := by
  rw [Result.sourcesFor, compareUsage, find?_map_snd]
  rfl

theorem mem_missing_compareUsage (x : String) :
    x ∈ (compareUsage declared u envFile).missing ↔
      x ∈ (compareUsage declared u envFile).used ∧ x ∉ (compareUsage declared u envFile).declared := by
  simp [compareUsage]

theorem mem_unused_compareUsage (x : String) :
    x ∈ (compareUsage declared u envFile).unused ↔
      x ∈ (compareUsage declared u envFile).declared ∧ x ∉ (compareUsage declared u envFile).used := by
  simp [compareUsage]

end Compare

/-! ## The summary of a document -/

/-- The member of a JSON object under a key. -/
def Doc.field? : Doc → String → Option Doc
  | .obj fields, k => fields.lookup k
  | _, _ => none

/-- The keys of a summary, each with the key of the list it counts. -/
def summaryKeys : List (String × String) :=
  [("declared", "declared"), ("used", "used"), ("missing", "missing"), ("unused", "unused"),
    ("files_scanned", "files_scanned"), ("files_skipped", "skipped_files")]

/-- Every count in the summary of a result's document is the length of the list it counts. -/
theorem summary_counts (r : Result) : ∀ k ∈ summaryKeys, ∃ items : List Doc,
    r.toDoc.field? k.2 = some (.arr items) ∧
      ((r.toDoc.field? "summary").bind fun s => s.field? k.1) = some (.num items.length) := by
  simp only [summaryKeys, List.mem_cons, List.not_mem_nil, or_false]
  rintro k (rfl | rfl | rfl | rfl | rfl | rfl) <;>
    exact ⟨_, rfl, by simp [Result.toDoc, Doc.field?, List.lookup_cons, strings]⟩

/-- **The views of a comparison agree.** For every list of declared names, repeats allowed, and
every usage, whose names each have a non-empty set of files, the declared, used, missing and
unused names of the comparison are strictly increasing lists of the declared names, the used
names, the used names not declared and the declared names not used; the names of its sources are
the used names in order; a used name has its files, a non-empty strictly increasing list, and
any other name none; and the summary of its document counts each list. -/
theorem compareUsage_compared (u : Usage) (declared : List String)
    (envFile : String) :
    Compared declared u (compareUsage declared u envFile) ∧
      ∀ k ∈ summaryKeys, ∃ items : List Doc,
        (compareUsage declared u envFile).toDoc.field? k.2 = some (.arr items) ∧
          (((compareUsage declared u envFile).toDoc.field? "summary").bind fun s => s.field? k.1) =
            some (.num items.length) := by
  have hused : (compareUsage declared u envFile).used = u.sources.map (·.1) := rfl
  refine ⟨⟨pairwise_sortNames declared, u.wellFormed.names_increasing, ?_, ?_, fun x => mem_sortNames,
    fun x => by simp [hused], mem_missing_compareUsage declared u envFile,
    mem_unused_compareUsage declared u envFile, rfl, fun x hx => ?_, fun x hx => ?_⟩,
    summary_counts _⟩
  · exact u.wellFormed.names_increasing.filter _
  · exact (pairwise_sortNames declared).filter _
  · rw [sourcesFor_compareUsage]
    exact ⟨rfl, u.wellFormed.filesOf_of_mem (hused ▸ hx)⟩
  · rw [sourcesFor_compareUsage]
    exact filesOf_of_not_mem (hused ▸ hx)

end EnvAudit.Report
