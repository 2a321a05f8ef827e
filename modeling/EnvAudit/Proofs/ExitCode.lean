import Mathlib
import EnvAudit.Proofs.Shape
import EnvAudit.Cli.Run
/-!
# When a check run succeeds

A run of `check` whose command line passes exits with code 0 exactly when the check gets through
(`CheckArgs.Finishes`): the output format is known, the scan root is a directory, the env file is
a file whose bytes decode, the exclusion filter is built, and discovery meets no error of the
system. Every other run exits with code 1 and writes nothing to standard output. Discovery fails,
for one, on a pattern under a directory name longer than the system allows: the search yields
that directory itself, and testing it for a file fails.

None of these conditions reads a file other than the env file and the root's `.gitignore`, so
the exit code depends only on the shape of the volume and on those two files
(`run_check_exitCode`): the names that the sources read, missing or unused, never change it.
-/

namespace EnvAudit

open EnvAudit.Fs

theorem toOption_eq_some_iff {ε α : Type} {e : Except ε α} {x : α} :
    e.toOption = some x ↔ e = .ok x := by
  cases e <;> simp [Except.toOption]

theorem exists_ok_iff_isOk {ε α : Type} {e : Except ε α} : (∃ x, e = .ok x) ↔ e.isOk = true := by
  cases e <;> simp [Except.isOk, Except.toBool]

namespace Dotenv

/-- An env file loads exactly when it is a file whose bytes can be read and decoded. -/
theorem load_ok_iff (v : Volume) (path : Pathname) :
    (∃ decls, (load v path).2 = .ok decls) ↔
      v.fileTest path.toString = .ok true ∧
        ∃ bytes cs, v.read path.toString = .ok bytes ∧ Text.decode bytes = .ok cs := by
  unfold load readText
  cases v.fileTest path.toString with
  | error e => simp
  | ok isFile =>
    cases isFile with
    | false => simp
    | true =>
      cases v.read path.toString with
      | error e => simp
      | ok bytes => cases hd : Text.decode bytes <;> simp [hd]

end Dotenv

/-- A check gets through exactly when the env file loads, the filter is built and discovery meets
no error of the system. -/
theorem checkWith_ok_iff (lib : Ignore.PatternLib) (v : Volume) (c : Config) :
    (∃ r, (checkWith lib v c).2 = .ok r) ↔
      (∃ decls, (Dotenv.load v c.envPath).2 = .ok decls) ∧
        (∃ f, Ignore.Exclusions.buildWith lib v c.root (some (Ignore.defaultLines ++ c.exclude))
          c.useGitignore = .ok f) ∧
        ∃ files, Scan.candidates v c.root c.patterns = .ok files := by
  unfold checkWith Scan.discover
  obtain ⟨log, loaded⟩ := Dotenv.load v c.envPath
  cases loaded with
  | error e => simp
  | ok decls =>
    cases Ignore.Exclusions.buildWith lib v c.root (some (Ignore.defaultLines ++ c.exclude)) c.useGitignore with
    | error e => simp
    | ok f => cases Scan.candidates v c.root c.patterns <;> simp [bind, Except.bind, pure, Except.pure]

theorem check_ok_iff (v : Volume) (c : Config) :
    (∃ r, (check v c).2 = .ok r) ↔
      (∃ decls, (Dotenv.load v c.envPath).2 = .ok decls) ∧
        (∃ f, Ignore.Exclusions.build v c.root (some (Ignore.defaultLines ++ c.exclude))
          c.useGitignore = .ok f) ∧
        ∃ files, Scan.candidates v c.root c.patterns = .ok files :=
  checkWith_ok_iff Ignore.gitwildmatch v c

end EnvAudit

namespace EnvAudit.Cli

open EnvAudit.Fs

/-- What a check run needs to get through: a known output format, a scan root that is a
directory, an env file that is a file whose bytes decode, an exclusion filter that is built, and
a discovery that meets no error of the system. -/
structure CheckArgs.Finishes (a : CheckArgs) (v : Volume) : Prop where
  format_known : a.format = "rich" ∨ a.format = "json"
  root_dir : v.probe (a.root v).toString = .ok (some .dir)
  env_file : v.fileTest (a.config v).envPath.toString = .ok true
  env_utf8 : ∃ bytes cs, v.read (a.config v).envPath.toString = .ok bytes ∧ Text.decode bytes = .ok cs
  filter_built : ∃ f, Ignore.Exclusions.build v (a.root v) (some (Ignore.defaultLines ++ a.exclude))
    a.gitignore = .ok f
  discovered : ∃ files, Scan.candidates v (a.root v) (a.config v).patterns = .ok files

namespace CheckArgs

variable (a : CheckArgs) (v : Volume)

theorem finishes_iff :
    a.Finishes v ↔ (a.format = "rich" ∨ a.format = "json") ∧
      v.probe (a.root v).toString = .ok (some .dir) ∧ ∃ r, (check v (a.config v)).2 = .ok r := by
  rw [check_ok_iff, Dotenv.load_ok_iff]
  constructor
  · rintro ⟨hfmt, hroot, hfile, hutf8, hfilter, hfound⟩
    exact ⟨hfmt, hroot, ⟨hfile, hutf8⟩, hfilter, hfound⟩
  · rintro ⟨hfmt, hroot, ⟨hfile, hutf8⟩, hfilter, hfound⟩
    exact ⟨hfmt, hroot, hfile, hutf8, hfilter, hfound⟩

end CheckArgs

/-- A check run whose paths pass either gets through and exits with code 0, or exits with code 1
and writes nothing to standard output. -/
theorem runCheck_cases (v : Volume) (environ : List (String × String)) (a : CheckArgs)
    (he : passable a.envFile = true) (ht : passable a.target = true) :
    a.Finishes v ∧ (runCheck v environ a).exitCode = 0 ∨
      ¬ a.Finishes v ∧ (runCheck v environ a).exitCode = 1 ∧ (runCheck v environ a).stdout = "" := by
  rw [a.finishes_iff v]
  unfold runCheck
  simp only [he, ht, Bool.not_true, Bool.false_eq_true, if_false]
  by_cases hfmt : a.format ≠ "rich" ∧ a.format ≠ "json"
  · -- an unknown format
    rw [if_pos hfmt]
    right
    refine ⟨?_, rfl, rfl⟩
    rintro ⟨hknown, -⟩
    exact hknown.elim hfmt.1 hfmt.2
  · rw [if_neg hfmt]
    have hknown : a.format = "rich" ∨ a.format = "json" := by
      by_cases h : a.format = "rich"
      · exact .inl h
      · exact .inr (by simpa [h] using hfmt)
    cases hroot : v.probe (a.root v).toString with
    | error e => simp
    | ok node =>
      cases node with
      | none => simp
      | some n =>
        cases n with
        | file bytes => simp
        | dir =>
          obtain ⟨steps, res⟩ := check v (a.config v)
          cases res with
          | error e =>
            cases e with
            | envFile e => cases e <;> simp
            | filter e => simp
            | system e => simp
          | ok c => simp [hknown]

section
variable {v : Volume} {environ : List (String × String)} {a : CheckArgs}
  (he : passable a.envFile = true) (ht : passable a.target = true)
include he ht

theorem runCheck_exitCode_of_finishes (h : a.Finishes v) : (runCheck v environ a).exitCode = 0 := by
  rcases runCheck_cases v environ a he ht with ⟨-, h0⟩ | ⟨hnot, -⟩
  · exact h0
  · exact absurd h hnot

theorem runCheck_exitCode_of_not_finishes (h : ¬ a.Finishes v) :
    (runCheck v environ a).exitCode = 1 ∧ (runCheck v environ a).stdout = "" := by
  rcases runCheck_cases v environ a he ht with ⟨hfin, -⟩ | ⟨-, h1, hout⟩
  · exact absurd hfin h
  · exact ⟨h1, hout⟩

end

namespace CheckArgs

variable (a : CheckArgs)

theorem root_congr {v w : Volume} (hs : v.shape = w.shape) : a.root w = a.root v := by
  unfold root
  rw [← Volume.shape_cwd w, ← hs, Volume.shape_cwd]

theorem config_congr {v w : Volume} (hs : v.shape = w.shape) : a.config w = a.config v := by
  unfold config
  rw [root_congr a hs]

/-- Whether a check run gets through does not depend on the contents of any file but the env file
and the root's `.gitignore`. -/
theorem finishes_congr {v w : Volume} (hs : v.shape = w.shape)
    (henv : w.read (a.config v).envPath.toString = v.read (a.config v).envPath.toString)
    (hgit : w.read ((a.root v).child ".gitignore").toString =
      v.read ((a.root v).child ".gitignore").toString) :
    a.Finishes v ↔ a.Finishes w := by
  have hroot := root_congr a hs
  have hcfg := config_congr a hs
  have hdir : v.probe (a.root v).toString = .ok (some .dir) ↔
      w.probe (a.root w).toString = .ok (some .dir) := by
    rw [hroot]
    exact Volume.probe_eq_dir_congr hs _
  have hfile : v.fileTest (a.config v).envPath.toString = .ok true ↔
      w.fileTest (a.config w).envPath.toString = .ok true := by
    rw [hcfg, Volume.fileTest_congr hs]
  have hutf8 : (∃ bytes cs, v.read (a.config v).envPath.toString = .ok bytes ∧
      Text.decode bytes = .ok cs) ↔
      ∃ bytes cs, w.read (a.config w).envPath.toString = .ok bytes ∧ Text.decode bytes = .ok cs := by
    rw [hcfg, henv]
  have hfilter : (∃ f, Ignore.Exclusions.build v (a.root v) (some (Ignore.defaultLines ++ a.exclude))
      a.gitignore = .ok f) ↔
      ∃ f, Ignore.Exclusions.build w (a.root w) (some (Ignore.defaultLines ++ a.exclude))
        a.gitignore = .ok f := by
    rw [hroot, Ignore.build_congr hs hgit.symm]
  have hfound : (∃ files, Scan.candidates v (a.root v) (a.config v).patterns = .ok files) ↔
      ∃ files, Scan.candidates w (a.root w) (a.config w).patterns = .ok files := by
    rw [hroot, hcfg, Scan.candidates_congr hs]
  constructor
  · rintro ⟨h1, h2, h3, h4, h5, h6⟩
    exact ⟨h1, hdir.1 h2, hfile.1 h3, hutf8.1 h4, hfilter.1 h5, hfound.1 h6⟩
  · rintro ⟨h1, h2, h3, h4, h5, h6⟩
    exact ⟨h1, hdir.2 h2, hfile.2 h3, hutf8.2 h4, hfilter.2 h5, hfound.2 h6⟩

end CheckArgs

theorem run_of_parse {args : List String} {a : CheckArgs} (hparse : Command.parse args = some (.check a []))
    (v : Volume) (environ : List (String × String)) : run v environ args = runCheck v environ a := by
  simp [run, hparse]

/-- A run of a check command line whose paths hold no NUL character exits with code 0 exactly when
the check gets through, and with code 1 and nothing on standard output otherwise. Its exit code
is the same on every volume of the same shape whose env file and root `.gitignore` read alike. -/
theorem run_check_exitCode (v : Volume) (environ : List (String × String)) (args : List String)
    (a : CheckArgs) (hparse : Command.parse args = some (.check a []))
    (he : passable a.envFile = true) (ht : passable a.target = true) :
    ((run v environ args).exitCode = 0 ↔ a.Finishes v) ∧
      ((run v environ args).exitCode ≠ 0 →
        (run v environ args).exitCode = 1 ∧ (run v environ args).stdout = "") ∧
      ∀ w : Volume, v.shape = w.shape →
        w.read (a.config v).envPath.toString = v.read (a.config v).envPath.toString →
        w.read ((a.root v).child ".gitignore").toString =
          v.read ((a.root v).child ".gitignore").toString →
        (run w environ args).exitCode = (run v environ args).exitCode := by
  simp only [run_of_parse hparse]
  refine ⟨?_, ?_, ?_⟩
  · constructor
    · intro h0
      by_cases hfin : a.Finishes v
      · exact hfin
      · rw [(runCheck_exitCode_of_not_finishes he ht hfin).1] at h0
        exact absurd h0 Nat.one_ne_zero
    · exact runCheck_exitCode_of_finishes he ht
  · intro hne
    by_cases hfin : a.Finishes v
    · exact absurd (runCheck_exitCode_of_finishes he ht hfin) hne
    · exact runCheck_exitCode_of_not_finishes he ht hfin
  · intro w hs henv hgit
    have hfin := a.finishes_congr hs henv hgit
    by_cases hv : a.Finishes v
    · rw [runCheck_exitCode_of_finishes he ht hv, runCheck_exitCode_of_finishes he ht (hfin.1 hv)]
    · rw [(runCheck_exitCode_of_not_finishes he ht hv).1,
        (runCheck_exitCode_of_not_finishes he ht (mt hfin.2 hv)).1]

/-- Checking the working directory of a volume that holds only an env file gets through. -/
theorem run_check_env_only : (run ⟨[([".env"], .file [65, 61, 49])], []⟩ [] ["check"]).exitCode = 0 := by
  have hparse : Command.parse ["check"] = some (.check {} []) := by decide +kernel
  refine (run_check_exitCode _ [] ["check"] {} hparse (by decide) (by decide)).1.2
    ⟨.inl rfl, ?_, ?_, ⟨[65, 61, 49], ['A', '=', '1'], ?_, ?_⟩, ?_, ?_⟩
  · exact toOption_eq_some_iff.1 (by decide +kernel)
  · exact toOption_eq_some_iff.1 (by decide +kernel)
  · exact toOption_eq_some_iff.1 (by decide +kernel)
  · exact toOption_eq_some_iff.1 (by decide +kernel)
  · exact exists_ok_iff_isOk.2 (by decide +kernel)
  · exact exists_ok_iff_isOk.2 (by decide +kernel)

set_option maxRecDepth 20000 in
/-- A pattern under a directory name longer than the system allows: the format is known, the root
is a directory, the env file is a file whose bytes decode and the filter is built, yet the run
exits with code 1, since discovery tests a path whose name is too long. -/
theorem run_check_long_name_fails :
    let v : Volume := ⟨[([".env"], .file [65, 61, 49, 10])], []⟩
    let pattern := String.ofList (List.replicate 256 'x') ++ "/**"
    let a : CheckArgs := { patterns := [pattern] }
    Command.parse ["check", "-p", pattern] = some (.check a []) ∧
      (a.format = "rich" ∨ a.format = "json") ∧
      v.probe (a.root v).toString = .ok (some .dir) ∧
      v.fileTest (a.config v).envPath.toString = .ok true ∧
      (∃ bytes cs, v.read (a.config v).envPath.toString = .ok bytes ∧ Text.decode bytes = .ok cs) ∧
      (∃ f, Ignore.Exclusions.build v (a.root v) (some (Ignore.defaultLines ++ a.exclude))
        a.gitignore = .ok f) ∧
      (run v [] ["check", "-p", pattern]).exitCode = 1 := by
  intro v pattern a
  have hparse : Command.parse ["check", "-p", pattern] = some (.check a []) := by cbv
  -- discovery fails, so the run does not finish
  have hfound : ¬ ∃ files, Scan.candidates v (a.root v) (a.config v).patterns = .ok files := by
    rw [exists_ok_iff_isOk]
    decide +kernel
  refine ⟨hparse, .inl rfl, ?_, ?_, ⟨[65, 61, 49, 10], ['A', '=', '1', '\n'], ?_, ?_⟩, ?_, ?_⟩
  · exact toOption_eq_some_iff.1 (by decide +kernel)
  · exact toOption_eq_some_iff.1 (by decide +kernel)
  · exact toOption_eq_some_iff.1 (by decide +kernel)
  · exact toOption_eq_some_iff.1 (by decide +kernel)
  · exact exists_ok_iff_isOk.2 (by decide +kernel)
  · rw [run_of_parse hparse]
    exact (runCheck_exitCode_of_not_finishes (by decide) (by decide) fun h => hfound h.discovered).1

end EnvAudit.Cli
