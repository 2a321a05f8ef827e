import EnvAudit.Proofs.Discovery
import EnvAudit.Proofs.ExitCode
/-!
# What the exclusion filter of a check leaves out

A check builds its filter from the `node_modules/` line, the extra exclusion lines and, when
asked, the lines of the root's `.gitignore`, in that order, each compiled by the pattern library
it is given. What it needs of the library is `PatternLib.Gitignore`: a line that is no negation
(`!`) gives a pattern that excludes, and `node_modules/` matches every path through a directory
`node_modules`. When no line is a negation, every pattern excludes, so the last pattern that
matches a path excludes it exactly when some pattern matches it (`verdict_eq_any`). Then:

* no file is scanned whose path relative to the root goes through a directory `node_modules`
  (`ThroughNodeModules`, `ignores_of_throughNodeModules`);
* a discovered file outside the root is never left out, since the filter ignores only paths under
  its root (`ignores_outside`);
* more exclusion lines can only leave out more files, so the files scanned shrink to a sublist
  (`ignores_mono`).

The three are put together in `check_scans_without_node_modules`. `gitwildmatch` meets the first
law (`gitwildmatch_excludes`); its `node_modules/` pattern is a regular expression whose leading
part does not cross a line feed, so it misses a path whose names before `node_modules` hold one.
`gitwildmatchByNames` is a library that meets both laws.

A filter matches a path under its root in the path's form relative to the root, so that a relative
path and the same path read from the root are treated alike, only when the root is absolute
(`ignores_root_relative`): the filter relativises absolute paths alone, by their names, and takes
every relative path as already relative to the root.
-/

namespace EnvAudit.Ignore

open EnvAudit.Fs EnvAudit.Text EnvAudit.Scan

/-! ## Rules of plain lines exclude -/

theorem trimRight_prefix (l : List Char) : trimRight l <+: l := by
  have := List.reverse_prefix.2 (List.dropWhile_suffix isBlank (l := l.reverse))
  simpa [trimRight] using this

theorem head_trimRule {l : List Char} {c : Char} (h : (trimRule l).head? = some c) : l.head? = some c := by
  unfold trimRule at h
  split at h
  · exact h
  · obtain ⟨t, ht⟩ := trimRight_prefix l
    cases hr : trimRight l with
    | nil => simp [hr] at h
    | cons d r =>
      rw [hr, List.head?_cons, Option.some.injEq] at h
      rw [← ht, hr, h]
      rfl

/-- A line that does not start with `!` gives, if any, a rule that excludes. -/
theorem Rule.excludes_of_compile {line : String} {r : Rule} (h : Rule.compile line = .ok (some r))
    (hplain : line.toList.head? ≠ some '!') : r.excludes = true := by
  have ht : (trimRule line.toList).head? ≠ some '!' := fun h' => hplain (head_trimRule h')
  unfold Rule.compile at h
  generalize trimRule line.toList = t at h ht
  dsimp only at h
  -- every branch that gives a rule builds it with the sign read off the first character
  repeat' split at h
  all_goals cases h
  all_goals first
    | rfl
    | simp at ht

/-- `gitwildmatch` gives a line that does not start with `!` a pattern that excludes. -/
theorem gitwildmatch_excludes {line : String} {p : Pattern} (h : gitwildmatch.compile line = .ok (some p))
    (hplain : line.toList.head? ≠ some '!') : p.excludes = true := by
  obtain ⟨o, hc, ho⟩ := map_eq_ok.1 h
  cases o with
  | none => cases ho
  | some r =>
    cases ho
    exact Rule.excludes_of_compile hc hplain

/-! ## What a check needs of its pattern library -/

/-- The names of a relative path go through a directory `node_modules`. -/
def ThroughNodeModules (names : List String) : Prop :=
  ∃ pre q post, names = pre ++ "node_modules" :: q :: post

/-- What a check relies on of its pattern library, as gitignore documents its patterns: a line that
does not start with `!` gives a pattern that excludes what it matches, and the line `node_modules/`
matches the names of every path through a directory `node_modules`, joined by `/`. -/
structure PatternLib.Gitignore (lib : PatternLib) : Prop where
  plain_excludes : ∀ line p, lib.compile line = .ok (some p) → line.toList.head? ≠ some '!' →
    p.excludes = true
  nodeModules : ∃ p, lib.compile "node_modules/" = .ok (some p) ∧
    ∀ r : Pathname, r.Proper → ThroughNodeModules r.parts →
      p.matchesPath ("/".intercalate r.parts).toList = true

section Lines
variable {lib : PatternLib}

theorem compileLines_cons {l : String} {ls : List String} {rules : List Pattern} :
    compileLines lib (l :: ls) = .ok rules ↔
      ∃ o rs, lib.compile l = .ok o ∧ compileLines lib ls = .ok rs ∧ rules = o.toList ++ rs := by
  simp only [compileLines, bind_eq_ok, pure_eq_ok]
  constructor
  · rintro ⟨o, ho, rs, hrs, rfl⟩
    exact ⟨o, rs, ho, hrs, rfl⟩
  · rintro ⟨o, rs, ho, hrs, rfl⟩
    exact ⟨o, ho, rs, hrs, rfl⟩

/-- Each compiled pattern comes from one of the lines. -/
theorem mem_compileLines {ls : List String} {rules : List Pattern} (h : compileLines lib ls = .ok rules)
    {r : Pattern} (hr : r ∈ rules) : ∃ l ∈ ls, lib.compile l = .ok (some r) := by
  induction ls generalizing rules with
  | nil =>
    simp only [compileLines, Except.ok.injEq] at h
    simp [← h] at hr
  | cons l ls ih =>
    obtain ⟨o, rs, ho, hrs, rfl⟩ := compileLines_cons.1 h
    rcases List.mem_append.1 hr with hr | hr
    · obtain rfl : o = some r := by simpa using hr
      exact ⟨l, List.mem_cons_self, ho⟩
    · obtain ⟨l', hl', hc⟩ := ih hrs hr
      exact ⟨l', List.mem_cons_of_mem l hl', hc⟩

/-- Compiling fewer of the lines gives fewer of the patterns, in the same order. -/
theorem compileLines_sublist {ls ls' : List String} (hsub : ls.Sublist ls') {rules' : List Pattern}
    (h : compileLines lib ls' = .ok rules') :
    ∃ rules, compileLines lib ls = .ok rules ∧ rules.Sublist rules' := by
  induction hsub generalizing rules' with
  | slnil => exact ⟨[], rfl, List.nil_sublist _⟩
  | cons l _ ih =>
    obtain ⟨o, rs, -, hrs, rfl⟩ := compileLines_cons.1 h
    obtain ⟨rules, hrules, hsub⟩ := ih hrs
    exact ⟨rules, hrules, hsub.trans (List.sublist_append_right _ _)⟩
  | cons_cons l _ ih =>
    obtain ⟨o, rs, ho, hrs, rfl⟩ := compileLines_cons.1 h
    obtain ⟨rules, hrules, hsub⟩ := ih hrs
    exact ⟨o.toList ++ rules, compileLines_cons.2 ⟨o, rules, ho, hrules, rfl⟩, hsub.append_left _⟩

/-- A built filter holds the root and the patterns of the given lines followed by the `.gitignore`
lines, if asked for. -/
theorem build_eq_ok {v : Volume} {root : Pathname} {given : List String} {useGitignore : Bool}
    {f : Exclusions} (h : Exclusions.buildWith lib v root (some given) useGitignore = .ok f) :
    f.root = root ∧ ∃ extra, (useGitignore = true → gitignoreLines v root = .ok extra) ∧
      (useGitignore = false → extra = []) ∧ compileLines lib (given ++ extra) = .ok f.rules := by
  unfold Exclusions.buildWith at h
  cases useGitignore with
  | false =>
    simp only [Option.getD_some, Bool.false_eq_true, if_false, bind_eq_ok, pure_eq_ok] at h
    obtain ⟨extra, rfl, rules, hrules, rfl⟩ := h
    exact ⟨rfl, [], nofun, fun _ => rfl, mapError_eq_ok.1 hrules⟩
  | true =>
    simp only [Option.getD_some, if_true, bind_eq_ok, pure_eq_ok] at h
    obtain ⟨extra, hextra, rules, hrules, rfl⟩ := h
    exact ⟨rfl, extra, fun _ => hextra, nofun, mapError_eq_ok.1 hrules⟩

end Lines

/-! ## Filters whose rules all exclude -/

section Excluding
variable {rules rules' : List Pattern}

/-- When every rule excludes, the last rule that matches excludes exactly when some rule matches. -/
theorem verdict_eq_any (hex : ∀ r ∈ rules, r.excludes = true) (path : List Char) :
    verdict rules path = rules.any (·.matchesPath path) := by
  -- the fold keeps `true` once a rule has matched
  have key : ∀ (rules : List Pattern) (b : Bool), (∀ r ∈ rules, r.excludes = true) →
      rules.foldl (fun acc r => if r.matchesPath path then r.excludes else acc) b =
        (b || rules.any (·.matchesPath path)) := by
    intro rules
    induction rules with
    | nil => simp
    | cons r rs ih =>
      intro b hex
      rw [List.foldl_cons, ih _ fun r' hr' => hex r' (List.mem_cons_of_mem r hr')]
      by_cases hm : r.matchesPath path <;> simp [hm, hex r List.mem_cons_self]
  simpa [verdict] using key rules false hex

theorem verdict_mono (hsub : rules.Sublist rules') (hex : ∀ r ∈ rules', r.excludes = true)
    {path : List Char} (h : verdict rules path = true) : verdict rules' path = true := by
  rw [verdict_eq_any (fun r hr => hex r (hsub.subset hr))] at h
  rw [verdict_eq_any hex]
  obtain ⟨r, hr, hm⟩ := List.any_eq_true.1 h
  exact List.any_eq_true.2 ⟨r, hsub.subset hr, hm⟩

end Excluding

/-- A filter never leaves out a path outside its root. -/
theorem ignores_outside {f : Exclusions} {p : Pathname} (hp : p.absolute) (hout : p.relativeTo? f.root = none) :
    f.ignores p = false := by
  simp [Exclusions.ignores, hp, hout]

/-- A filter with the same root and more rules, all excluding, leaves out at least as much. -/
theorem ignores_mono {f f' : Exclusions} (hroot : f.root = f'.root) (hsub : f.rules.Sublist f'.rules)
    (hex : ∀ r ∈ f'.rules, r.excludes = true) {p : Pathname} (h : f.ignores p = true) :
    f'.ignores p = true := by
  unfold Exclusions.ignores at h ⊢
  rw [← hroot]
  split at h
  · split at h
    · rename_i r _
      simpa [*] using verdict_mono hsub hex h
    · cases h
  · simpa [*] using verdict_mono hsub hex h

/-! ## Paths relative to the root -/

/-- A relative path read from a root lies under the root, and is its own form relative to it. -/
theorem relativeTo?_join {root r : Pathname} (hr : r.absolute = false) :
    (root.join r).relativeTo? root = some r := by
  obtain ⟨a, parts⟩ := r
  obtain rfl : a = .here := by simpa [Pathname.absolute] using hr
  simp [Pathname.join, Pathname.absolute, Pathname.relativeTo?]

/-- A filter leaves out an absolute path exactly when the path lies under the root and the rules
match its key, its text relative to the root. -/
theorem ignores_of_absolute {f : Exclusions} {p : Pathname} (hp : p.absolute) :
    f.ignores p = ((p.relativeTo? f.root).isSome && verdict f.rules (stripLead (fileKey f.root p).toList)) := by
  unfold Exclusions.ignores fileKey Pathname.display
  cases h : p.relativeTo? f.root <;> simp [hp]

/-- **A filter with an absolute root matches a path under it in the path's form relative to the
root.** A relative path and the same path read from the root are left out alike, and discovery with
the filter drops exactly the files found under the root whose key the rules match. -/
theorem ignores_root_relative {root : Pathname} (hroot : root.absolute) :
    (∀ f : Exclusions, f.root = root → ∀ r : Pathname, r.absolute = false →
      f.ignores (root.join r) = f.ignores r) ∧
    ∀ (v : Volume) (patterns : List String) (f : Exclusions), f.root = root →
      (discover v root patterns (some f)).map Discovery.files =
        (candidates v root patterns).map (List.filter fun p =>
          !((p.relativeTo? root).isSome && verdict f.rules (stripLead (fileKey root p).toList))) := by
  refine ⟨fun f hf r hr => ?_, fun v patterns f hf => ?_⟩
  · subst hf
    have hjoin : (f.root.join r).absolute := Pathname.absolute_join r hroot
    simp [Exclusions.ignores, hjoin, hr, relativeTo?_join hr]
  · subst hf
    rw [discover_eq]
    cases hc : candidates v f.root patterns with
    | error e => rfl
    | ok c =>
      -- every candidate is read from the absolute root, so it is absolute
      have habs : ∀ p ∈ c, p.absolute := fun p hp => by
        obtain ⟨e, -, ms, -, m, -, rfl, -⟩ := (candidates_found hc).1 p hp
        rw [Pathname.absolute_normalize]
        exact Pathname.absolute_join _ hroot
      simp only [Except.map, Discovery.files, Option.map_some, Option.getD_some, Exclusions.keep]
      congr 1
      exact List.filter_congr fun p hp => by rw [ignores_of_absolute (habs p hp)]

/-- A filter of the root `/p` built from the anchored line `/a.js` leaves out `a.js` and `/p/a.js`
alike. -/
theorem ignores_root_relative_slash_p :
    (Pathname.ofString "/p").absolute = true ∧
      ∃ f, Exclusions.build Volume.empty (Pathname.ofString "/p") (some ["/a.js"]) false = .ok f ∧
        f.ignores ((Pathname.ofString "/p").join (Pathname.ofString "a.js")) = true ∧
        f.ignores (Pathname.ofString "a.js") = true := by
  have habs : (Pathname.ofString "/p").absolute = true := by decide
  obtain ⟨f, hf⟩ := exists_ok_iff_isOk.2
    (by decide +kernel : (Exclusions.build Volume.empty (Pathname.ofString "/p") (some ["/a.js"]) false).isOk)
  have hrel : f.ignores (Pathname.ofString "a.js") = true := by
    have h : ((Exclusions.build Volume.empty (Pathname.ofString "/p") (some ["/a.js"]) false).map
        (·.ignores (Pathname.ofString "a.js"))).toOption = some true := by decide +kernel
    simpa [hf, Except.map, Except.toOption] using h
  refine ⟨habs, f, hf, ?_, hrel⟩
  rw [(ignores_root_relative habs).1 f (build_eq_ok hf).1 _ (by decide)]
  exact hrel

/-! ## Paths through `node_modules` -/

/-- A path text that starts with a proper name has no leading `/` or `./` to remove. -/
theorem stripLead_name_append {n : List Char} (rest : List Char) (hn : n ≠ [] ∧ n ≠ ['.'] ∧ '/' ∉ n) :
    stripLead (n ++ rest) = n ++ rest := by
  obtain ⟨hne, hdot, hslash⟩ := hn
  match n, hne, hdot, hslash with
  | c :: u, _, hdot, hslash =>
    have hc : c ≠ '/' := fun h => hslash (h ▸ List.mem_cons_self)
    by_cases hcd : c = '.'
    · subst hcd
      obtain ⟨d, u', rfl⟩ : ∃ d u', u = d :: u' := List.exists_cons_of_ne_nil (by simpa using hdot)
      have hd : d ≠ '/' := fun h => hslash (h ▸ List.mem_cons_of_mem _ List.mem_cons_self)
      simp [stripLead, hd]
    · simp [stripLead, hc, hcd]

/-- The names of a proper path, joined by `/`, have no leading `/` or `./` to remove. -/
theorem stripLead_intercalate_parts {r : Pathname} (hr : r.Proper) :
    stripLead ("/".intercalate r.parts).toList = ("/".intercalate r.parts).toList := by
  cases hparts : r.parts with
  | nil => rfl
  | cons n ns =>
    have hhead : "/".intercalate (n :: ns) = n ++ "/".intercalate ("" :: ns) := by
      rw [← String.intercalate_cons_append, String.append_empty]
    rw [hhead, String.toList_append]
    exact stripLead_name_append _ (hr n (by simp [hparts]))

/-- The filter leaves out every path under its root whose relative names go through
`node_modules`, when it holds a pattern that matches such names and all its patterns exclude. -/
theorem ignores_of_throughNodeModules {f : Exclusions} {nm : Pattern} (hmem : nm ∈ f.rules)
    (hmatch : ∀ r : Pathname, r.Proper → ThroughNodeModules r.parts →
      nm.matchesPath ("/".intercalate r.parts).toList = true)
    (hex : ∀ r ∈ f.rules, r.excludes = true) {p r : Pathname} (hp : p.absolute) (hpp : p.Proper)
    (hr : p.relativeTo? f.root = some r) (ht : ThroughNodeModules r.parts) : f.ignores p = true := by
  obtain ⟨hanchor, -, -⟩ := Pathname.relativeTo?_eq_some hr
  have hrp : r.Proper := hpp.of_relativeTo? hr
  have hne : r.parts ≠ [] := by
    obtain ⟨pre, q, post, h⟩ := ht
    simp [h]
  have htext : r.toString = "/".intercalate r.parts := by
    simp [Pathname.toString, hanchor, hne]
  simp only [Exclusions.ignores, hp, if_true, hr, htext, stripLead_intercalate_parts hrp, verdict_eq_any hex,
    List.any_eq_true]
  exact ⟨nm, hmem, hmatch r hrp ht⟩

/-! ## Filters built from plain lines -/

section Build
variable {lib : PatternLib} {v : Volume} {root : Pathname} {exclude : List String} {useGitignore : Bool}
  {f : Exclusions}

/-- Adding exclusion lines adds patterns, keeping the others in order. -/
theorem build_rules_sublist {exclude' : List String} {f' : Exclusions} (hsub : exclude.Sublist exclude')
    (h : Exclusions.buildWith lib v root (some (defaultLines ++ exclude)) useGitignore = .ok f)
    (h' : Exclusions.buildWith lib v root (some (defaultLines ++ exclude')) useGitignore = .ok f') :
    f.rules.Sublist f'.rules := by
  obtain ⟨-, extra, hgx, hgf, hrules⟩ := build_eq_ok h
  obtain ⟨-, extra', hgx', hgf', hrules'⟩ := build_eq_ok h'
  -- both filters read the same `.gitignore` lines
  have hextra : extra' = extra := by
    cases useGitignore with
    | false => rw [hgf rfl, hgf' rfl]
    | true =>
      have := (hgx' rfl).symm.trans (hgx rfl)
      injection this
  rw [hextra] at hrules'
  obtain ⟨rules, hrules₀, hsub'⟩ :=
    compileLines_sublist ((hsub.append_left defaultLines).append_right extra) hrules'
  rw [hrules, Except.ok.injEq] at hrules₀
  exact hrules₀ ▸ hsub'

variable (hlib : lib.Gitignore)
include hlib

/-- A filter built from exclusion lines holds the pattern of `node_modules/`. -/
theorem nodeModules_mem (h : Exclusions.buildWith lib v root (some (defaultLines ++ exclude)) useGitignore = .ok f) :
    ∃ nm ∈ f.rules, ∀ r : Pathname, r.Proper → ThroughNodeModules r.parts →
      nm.matchesPath ("/".intercalate r.parts).toList = true := by
  obtain ⟨nm, hc, hmatch⟩ := hlib.nodeModules
  obtain ⟨-, extra, -, -, hrules⟩ := build_eq_ok h
  obtain ⟨o, rs, ho, -, hf⟩ := compileLines_cons.1 hrules
  rw [hc, Except.ok.injEq] at ho
  exact ⟨nm, by simp [hf, ← ho], hmatch⟩

/-- With no negated exclusion line and no negated `.gitignore` line, every pattern of a built
filter excludes. -/
theorem build_excludes (hplain : ∀ l ∈ exclude, l.toList.head? ≠ some '!')
    (hgit : useGitignore = true → ∀ ls, gitignoreLines v root = .ok ls → ∀ l ∈ ls, l.toList.head? ≠ some '!')
    (h : Exclusions.buildWith lib v root (some (defaultLines ++ exclude)) useGitignore = .ok f) :
    ∀ r ∈ f.rules, r.excludes = true := by
  obtain ⟨-, extra, hgx, hgf, hrules⟩ := build_eq_ok h
  intro r hr
  obtain ⟨l, hl, hc⟩ := mem_compileLines hrules hr
  refine hlib.plain_excludes l r hc ?_
  rcases List.mem_append.1 hl with hl | hl
  · rcases List.mem_append.1 hl with hl | hl
    · obtain rfl : l = "node_modules/" := by simpa [defaultLines] using hl
      decide
    · exact hplain l hl
  · cases useGitignore with
    | false => simp [hgf rfl] at hl
    | true => exact hgit rfl extra (hgx rfl) l hl

end Build

end EnvAudit.Ignore

namespace EnvAudit.Scan

open EnvAudit.Fs

theorem scanned_foldl_add (scans : List FileScan) (u : Usage) :
    (scans.foldl Usage.add u).scanned = u.scanned ++ progress scans := by
  induction scans generalizing u with
  | nil => simp [progress]
  | cons s scans ih =>
    rw [List.foldl_cons, ih]
    cases s <;> simp [Usage.add, progress]

/-- The files scanned are the files read, in order. -/
theorem scanned_ofScans (scans : List FileScan) : (Usage.ofScans scans).scanned = progress scans := by
  simp [Usage.ofScans, Usage.empty, scanned_foldl_add]

/-- Scanning fewer of the files, in the same order, reads fewer of them, in the same order. -/
theorem scanned_sublist {v : Volume} {root : Pathname} {files files' : List Pathname}
    (h : files'.Sublist files) :
    (Usage.ofScans (scanFiles v root files')).scanned.Sublist (Usage.ofScans (scanFiles v root files)).scanned := by
  rw [scanned_ofScans, scanned_ofScans]
  exact (h.map _).filterMap _

end EnvAudit.Scan

namespace EnvAudit

open EnvAudit.Fs EnvAudit.Scan EnvAudit.Ignore

/-- A finished check scans the files that discovery finds with the filter the check built. -/
theorem checkWith_eq_ok {lib : PatternLib} {v : Volume} {c : Config} {ch : Checked}
    (h : (checkWith lib v c).2 = .ok ch) :
    ∃ decls f d, (Dotenv.load v c.envPath).2 = .ok decls ∧
      Exclusions.buildWith lib v c.root (some (defaultLines ++ c.exclude)) c.useGitignore = .ok f ∧
      discover v c.root c.patterns (some f) = .ok d ∧ ch.scans = scanFiles v c.root d.files ∧
      ch.result = Report.compareUsage (decls.map (·.1)) (Usage.ofScans (scanFiles v c.root d.files))
        c.envFile.name := by
  unfold checkWith at h
  rcases hl : Dotenv.load v c.envPath with ⟨log, loaded⟩
  rw [hl] at h
  dsimp only at h
  cases loaded with
  | error e => cases h
  | ok decls =>
    dsimp only at h
    cases hb : Exclusions.buildWith lib v c.root (some (defaultLines ++ c.exclude)) c.useGitignore with
    | error e => rw [hb] at h; cases h
    | ok f =>
      rw [hb] at h
      dsimp only at h
      cases hd : discover v c.root c.patterns (some f) with
      | error e => rw [hd] at h; cases h
      | ok d =>
        rw [hd] at h
        cases h
        exact ⟨decls, f, d, rfl, rfl, hd, rfl, rfl⟩

/-- **What the exclusions of a check leave out.** Take a check from an absolute root, with a pattern
library that reads plain lines and `node_modules/` as gitignore does, whose extra exclusion lines,
and `.gitignore` lines when it reads them, hold no negation. The files it scans are some of the
candidates, in order: none of them lies under the root with relative names that go through
`node_modules`, and every candidate outside the root is among them. A check with more exclusion
lines of the same kind scans a sublist of what this one scans. -/
theorem check_scans_without_node_modules {lib : PatternLib} (hlib : lib.Gitignore) {v : Volume}
    {c : Config} {exclude : List String}
    (hroot : c.root.absolute) (hproper : c.root.Proper) (hmore : c.exclude.Sublist exclude)
    (hplain : ∀ l ∈ exclude, l.toList.head? ≠ some '!')
    (hgit : c.useGitignore = true →
      ∀ ls, gitignoreLines v c.root = .ok ls → ∀ l ∈ ls, l.toList.head? ≠ some '!')
    {ch : Checked} (h : (checkWith lib v c).2 = .ok ch) :
    ∃ cs files, candidates v c.root c.patterns = .ok cs ∧ files.Sublist cs ∧
      ch.scans = scanFiles v c.root files ∧
      (∀ p ∈ files, ∀ r, p.relativeTo? c.root = some r → ¬ ThroughNodeModules r.parts) ∧
      (∀ p ∈ cs, p.relativeTo? c.root = none → p ∈ files) ∧
      ∀ ch', (checkWith lib v { c with exclude := exclude }).2 = .ok ch' →
        ch'.result.scanned.Sublist ch.result.scanned := by
  obtain ⟨decls, f, d, -, hbuild, hdisc, hscans, hres⟩ := checkWith_eq_ok h
  rw [discover_eq, map_eq_ok] at hdisc
  obtain ⟨cs, hcs, rfl⟩ := hdisc
  have hfroot : f.root = c.root := (build_eq_ok hbuild).1
  have hex := build_excludes hlib (fun l hl => hplain l (hmore.subset hl)) hgit hbuild
  -- every candidate is a found file, so an absolute proper path
  have hcand : ∀ p ∈ cs, p.absolute ∧ p.Proper := fun p hp => by
    obtain ⟨e, -, hfe⟩ := ((candidates_eq_ok hroot hproper hcs).1 p).1 hp
    exact hfe.absolute_proper hroot hproper
  refine ⟨cs, f.keep cs, hcs, List.filter_sublist, hscans, ?_, ?_, ?_⟩
  · intro p hp r hr ht
    obtain ⟨hpc, hkeep⟩ := List.mem_filter.1 hp
    obtain ⟨nm, hmem, hmatch⟩ := nodeModules_mem hlib hbuild
    have hign := ignores_of_throughNodeModules hmem hmatch hex (hcand p hpc).1 (hcand p hpc).2
      (hfroot ▸ hr) ht
    simp [hign] at hkeep
  · intro p hp hout
    refine List.mem_filter.2 ⟨hp, ?_⟩
    simp [ignores_outside (hcand p hp).1 (hfroot ▸ hout)]
  · intro ch' h'
    obtain ⟨decls', f', d', -, hbuild', hdisc', -, hres'⟩ := checkWith_eq_ok h'
    rw [discover_eq, map_eq_ok] at hdisc'
    obtain ⟨cs', hcs', rfl⟩ := hdisc'
    -- both checks discover the same candidates, and the second filter leaves out more of them
    obtain rfl : cs' = cs := Except.ok.inj ((show candidates v c.root c.patterns = .ok cs' from hcs').symm.trans hcs)
    have hmono : ∀ p, f.ignores p = true → f'.ignores p = true :=
      fun p => ignores_mono (hfroot.trans (build_eq_ok hbuild').1.symm)
        (build_rules_sublist hmore hbuild hbuild') (build_excludes hlib hplain hgit hbuild')
    have hkeep : (f'.keep cs').Sublist (f.keep cs') := List.monotone_filter_right cs' fun p hp => by
      cases hf : f.ignores p
      · rfl
      · simp [hmono p hf] at hp
    rw [hres, hres']
    exact scanned_sublist hkeep

/-- gitignore's patterns with the line `node_modules/` read by the names of a path: it matches a
text when a piece of it between slashes, other than the last, is `node_modules`. -/
def gitwildmatchByNames : PatternLib :=
  ⟨fun line => if line = "node_modules/" then
      .ok (some ⟨true, fun t => (splitSlash t).dropLast.contains "node_modules".toList⟩)
    else gitwildmatch.compile line⟩

/-- The names of a proper path that has some, joined by `/`, split back at the slashes. -/
theorem splitSlash_intercalate_parts {r : Pathname} (hr : r.Proper) (hne : r.parts ≠ []) :
    splitSlash ("/".intercalate r.parts).toList = r.parts.map String.toList := by
  rw [toList_intercalate_parts, splitSlash_eq_splitOn]
  refine List.splitOn_intercalate '/' (fun q hq => ?_) (by simpa using hne)
  obtain ⟨n, hn, rfl⟩ := List.mem_map.1 hq
  exact (hr n hn).2.2

theorem gitwildmatchByNames_gitignore : gitwildmatchByNames.Gitignore where
  plain_excludes line p h hplain := by
    simp only [gitwildmatchByNames] at h
    split at h
    · cases h
      rfl
    · exact gitwildmatch_excludes h hplain
  nodeModules := by
    refine ⟨⟨true, fun t => (splitSlash t).dropLast.contains "node_modules".toList⟩,
      by simp [gitwildmatchByNames], fun r hr ht => ?_⟩
    obtain ⟨pre, q, post, hparts⟩ := ht
    dsimp only
    rw [splitSlash_intercalate_parts hr (by simp [hparts]), hparts]
    simp [List.dropLast_append_of_ne_nil]

/-- A check of the whole of a volume with a file under `node_modules` gets through, and scans
nothing under `node_modules`. -/
theorem check_volume_skips_node_modules :
    ∃ ch, (checkWith gitwildmatchByNames ((Volume.empty.addFile [".env"] []).addFile ["node_modules", "a.js"] [])
        { root := Pathname.ofString "/", patterns := ["**/*.js"] }).2 = .ok ch ∧
      ∃ cs files, candidates ((Volume.empty.addFile [".env"] []).addFile ["node_modules", "a.js"] [])
          (Pathname.ofString "/") ["**/*.js"] = .ok cs ∧
        ch.scans = scanFiles ((Volume.empty.addFile [".env"] []).addFile ["node_modules", "a.js"] [])
          (Pathname.ofString "/") files ∧
        ∀ p ∈ files, ∀ r, p.relativeTo? (Pathname.ofString "/") = some r → ¬ ThroughNodeModules r.parts := by
  obtain ⟨ch, h⟩ := (checkWith_ok_iff gitwildmatchByNames
    ((Volume.empty.addFile [".env"] []).addFile ["node_modules", "a.js"] [])
    { root := Pathname.ofString "/", patterns := ["**/*.js"] }).2
    ⟨exists_ok_iff_isOk.2 (by decide +kernel), exists_ok_iff_isOk.2 (by decide +kernel),
      exists_ok_iff_isOk.2 (by decide +kernel)⟩
  obtain ⟨cs, files, hcs, -, hscans, hnm, -⟩ :=
    check_scans_without_node_modules gitwildmatchByNames_gitignore rfl (Pathname.proper_ofString _)
      (List.Sublist.refl _) (by simp) (fun h => absurd h Bool.false_ne_true) h
  exact ⟨ch, h, cs, files, hcs, hscans, hnm⟩

end EnvAudit
