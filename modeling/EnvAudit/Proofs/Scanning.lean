import EnvAudit.Proofs.Exclusion
/-!
# What a scan of source files records

Scanning reads the files in turn and adds what each gives to a record of usage (`Usage.add`).
`Usage.Accounts` says what the record of a list of files holds: the files read and the files
skipped, in order and shown from the root, and for each name exactly the files read that read it.
One more file keeps the account (`Accounts.add`), so the record of every list of files accounts
for it (`accounts_ofScans`).

Scanning files given by name fails as a whole when one of them holds a NUL character, since
opening it fails with an error that no file scan catches, where a file that cannot be read should
only be skipped (`scanGiven_nul_fails`). Otherwise every file is handled (`scanGiven_accounts`). The files that discovery finds come in increasing order of their keys,
which are the paths the files are shown under, so the files a scan of them reads are in strictly
increasing order as well.
-/

namespace EnvAudit.Scan

open EnvAudit.Fs EnvAudit.Text EnvAudit.Ignore

/-! ## Sets of files by name -/

/-- The files recorded against a name: none when the name is not recorded. -/
def filesOf (ss : Sources) (n : String) : List String := (ss.lookup n).getD []

theorem lookup_eq_none_of_lt {name : String} {ss : Sources} (h : ∀ m ∈ ss.map (·.1), name < m) :
    ss.lookup name = none := by
  rw [List.lookup_eq_none_iff]
  intro e he
  have hlt := h e.1 (List.mem_map_of_mem he)
  simpa using ne_of_lt hlt

theorem filesOf_cons_self (name : String) (fs : List String) (ss : Sources) :
    filesOf ((name, fs) :: ss) name = fs := by
  simp [filesOf]

theorem filesOf_cons_of_ne {name m : String} (h : m ≠ name) (fs : List String) (ss : Sources) :
    filesOf ((name, fs) :: ss) m = filesOf ss m := by
  simp [filesOf, List.lookup_cons, beq_false_of_ne h]

/-- Recording that `file` reads `name` adds `file` to the files of `name` and leaves the other names
alone. -/
theorem filesOf_addSource {ss : Sources} (h : (ss.map (·.1)).Pairwise (· < ·)) (name file m : String) :
    filesOf (addSource name file ss) m =
      if m = name then insertName file (filesOf ss name) else filesOf ss m := by
  induction ss with
  | nil =>
    rw [addSource]
    by_cases hm : m = name
    · subst hm
      simp [filesOf, insertName]
    · rw [filesOf_cons_of_ne hm]
      simp [hm, filesOf]
  | cons x ss ih =>
    obtain ⟨n, fs⟩ := x
    obtain ⟨hn, hss⟩ := List.pairwise_cons.1 h
    simp only [addSource]
    split
    · -- a new name, below all recorded ones, so recorded nowhere yet
      rename_i hlt
      have hnone : ((n, fs) :: ss).lookup name = none :=
        lookup_eq_none_of_lt fun k hk => (List.mem_cons.1 hk).elim (· ▸ hlt) (lt_trans hlt <| hn k ·)
      by_cases hm : m = name
      · subst hm
        rw [filesOf_cons_self]
        simp [filesOf, hnone, insertName]
      · simp [filesOf_cons_of_ne hm, hm]
    · split
      · rename_i heq
        subst heq
        by_cases hm : m = name
        · subst hm
          simp [filesOf_cons_self]
        · simp [filesOf_cons_of_ne hm, hm]
      · rename_i hne
        by_cases hmn : m = n
        · subst hmn
          simp [filesOf_cons_self, Ne.symm hne]
        · rw [filesOf_cons_of_ne hmn, ih hss]
          by_cases hm : m = name
          · subst hm
            simp [filesOf_cons_of_ne hmn]
          · simp [filesOf_cons_of_ne hmn, hm]

theorem mem_filesOf_addSource {ss : Sources} (h : (ss.map (·.1)).Pairwise (· < ·)) {name file m f : String} :
    f ∈ filesOf (addSource name file ss) m ↔ (m = name ∧ f = file) ∨ f ∈ filesOf ss m := by
  rw [filesOf_addSource h]
  by_cases hm : m = name
  · subst hm
    simp [mem_insertName]
  · simp [hm]

/-- Recording that `file` reads each of `names` adds `file` to the files of exactly those names. -/
theorem mem_filesOf_foldl_addSource {ss : Sources} (h : ss.WellFormed) (names : List String)
    {file m f : String} :
    f ∈ filesOf (names.foldl (fun s n => addSource n file s) ss) m ↔
      f ∈ filesOf ss m ∨ (m ∈ names ∧ f = file) := by
  induction names generalizing ss with
  | nil => simp
  | cons n names ih =>
    rw [List.foldl_cons, ih (h.addSource n file), mem_filesOf_addSource h.names_increasing,
      List.mem_cons]
    tauto

/-! ## The record of a scan -/

/-- Whether the file at `p` can be read. -/
def readable (v : Volume) (p : Pathname) : Bool := (v.read p.toString).isOk

/-- The record of a file that cannot be read: the path it is shown under, and the text of the
error. -/
def skipRecord (v : Volume) (root p : Pathname) : Option Skipped :=
  match v.read p.toString with
  | .error e => some ⟨p.display root, e.message⟩
  | .ok _ => none

/-- The text that the bytes of a source file are scanned as: UTF-8 with the bytes that decode to
nothing dropped, and each line break read as a line feed. -/
def sourceText (bytes : List UInt8) : String := String.ofList (normalizeNewlines (decodeLossy bytes))

/-- The file at `p` can be read, and its text reads `name`. -/
def ReadsName (v : Volume) (p : Pathname) (name : String) : Prop :=
  ∃ bytes, v.read p.toString = .ok bytes ∧ name ∈ Source.usedNames (sourceText bytes)

/-- What the record of scanning the files `fs` from `root` holds. -/
structure Usage.Accounts (v : Volume) (root : Pathname) (fs : List Pathname) (u : Usage) : Prop where
  /-- The files read, in order, each by the path it is shown under. -/
  scanned : u.scanned = (fs.filter (readable v)).map (·.display root)
  /-- The files that could not be read, in order, each with the text of its error. -/
  skipped : u.skipped = fs.filterMap (skipRecord v root)
  /-- A name maps to exactly the files read whose text reads it. -/
  files : ∀ name f, f ∈ filesOf u.sources name ↔ ∃ p ∈ fs, p.display root = f ∧ ReadsName v p name

theorem Usage.Accounts.nil (v : Volume) (root : Pathname) : Usage.empty.Accounts v root [] where
  scanned := rfl
  skipped := rfl
  files := by simp [filesOf, Usage.empty]

theorem scanFile_of_ok {v : Volume} {p : Pathname} {bytes : List UInt8} (h : v.read p.toString = .ok bytes)
    (root : Pathname) :
    scanFile v root p = .read (p.display root) (Source.usedNames (sourceText bytes)) := by
  simp [scanFile, h, sourceText]

theorem scanFile_of_error {v : Volume} {p : Pathname} {e : OsError} (h : v.read p.toString = .error e)
    (root : Pathname) : scanFile v root p = .skipped ⟨p.display root, e.message⟩ := by
  simp [scanFile, h]

/-- One more file keeps the account: a file that is read joins the files scanned and the files of
each name it reads, and one that is not joins the files skipped. -/
theorem Usage.Accounts.add {v : Volume} {root : Pathname} {fs : List Pathname} {u : Usage}
    (h : u.Accounts v root fs) (p : Pathname) : (u.add (scanFile v root p)).Accounts v root (fs ++ [p]) := by
  cases hr : v.read p.toString with
  | error e =>
    have hunread : readable v p = false := by simp [readable, hr, Except.isOk, Except.toBool]
    rw [scanFile_of_error hr]
    refine ⟨?_, ?_, fun name f => ?_⟩
    · simp [Usage.add, h.scanned, hunread]
    · simp [Usage.add, h.skipped, skipRecord, hr]
    · -- a file that cannot be read reads no name
      rw [Usage.add, h.files]
      simp [ReadsName, hr, or_and_right, exists_or]
  | ok bytes =>
    have hread : readable v p = true := by simp [readable, hr, Except.isOk, Except.toBool]
    rw [scanFile_of_ok hr]
    refine ⟨?_, ?_, fun name f => ?_⟩
    · simp [Usage.add, h.scanned, hread]
    · simp [Usage.add, h.skipped, skipRecord, hr]
    · rw [Usage.add, mem_filesOf_foldl_addSource u.wellFormed, h.files]
      simp only [ReadsName, List.mem_append, List.mem_singleton, or_and_right, exists_or,
        exists_eq_left, hr, Except.ok.injEq, exists_eq_left']
      exact or_congr_right ⟨fun h => ⟨h.2.symm, h.1⟩, fun h => ⟨h.2, h.1.symm⟩⟩

/-- Scanning files in turn from a record that accounts for earlier files accounts for all of
them. -/
theorem Usage.Accounts.foldl {v : Volume} {root : Pathname} {fs : List Pathname} {u : Usage}
    (h : u.Accounts v root fs) (rest : List Pathname) :
    ((scanFiles v root rest).foldl Usage.add u).Accounts v root (fs ++ rest) := by
  induction rest generalizing fs u with
  | nil => simpa [scanFiles] using h
  | cons p rest ih =>
    rw [scanFiles, List.map_cons, List.foldl_cons, ← List.singleton_append, ← List.append_assoc]
    exact ih (h.add p)

/-- **The record of a scan accounts for the files scanned**, whatever they are. -/
theorem accounts_ofScans (v : Volume) (root : Pathname) (fs : List Pathname) :
    (Usage.ofScans (scanFiles v root fs)).Accounts v root fs := by
  simpa [Usage.ofScans] using (Usage.Accounts.nil v root).foldl fs

/-! ## Scanning files given by name -/

theorem passable_of_fileTest {v : Volume} {path : String} (h : v.fileTest path = .ok true) :
    passable path = true := by
  cases hp : passable path with
  | true => rfl
  | false => simp [Volume.fileTest, Volume.probe, hp, Except.map] at h

theorem scanGiven_of_passable {v : Volume} {root : Pathname} {fs : List Pathname}
    (h : ∀ p ∈ fs, passable p.toString = true) : scanGiven v root fs = .ok (scanFiles v root fs) := by
  simp [scanGiven, List.all_eq_true.2 h]

/-- The files that discovery finds can all be handed to the system, and the paths they are shown
under from the root, which are their keys, come in strictly increasing order. -/
theorem discover_files_shown {v : Volume} {root : Pathname} {patterns : List String}
    {filter : Option Exclusions} {d : Discovery} (h : discover v root patterns filter = .ok d) :
    (∀ p ∈ d.files, passable p.toString = true) ∧ (d.files.map (·.display root)).Pairwise (· < ·) := by
  rw [discover_eq, map_eq_ok] at h
  obtain ⟨c, hc, rfl⟩ := h
  obtain ⟨hfound, hinc⟩ := candidates_found hc
  -- the files are the candidates, or those of them that the filter keeps
  have hsub : (Discovery.files ⟨c, filter.map fun f => f.keep c⟩).Sublist c := by
    cases filter with
    | none => exact List.Sublist.refl c
    | some f => exact List.filter_sublist
  refine ⟨fun p hp => ?_, List.pairwise_map.2 (hinc.sublist hsub)⟩
  obtain ⟨e, -, ms, -, m, -, rfl, htest⟩ := hfound p (hsub.subset hp)
  exact passable_of_fileTest htest

/-- **Scanning files handles each of them once, in order.** When no file holds a NUL character,
the files read are announced in turn and make up the files scanned, the others are skipped with the
text of their error, and each name maps to exactly the files read whose text reads it. A scan of
the files that discovery finds reads them in strictly increasing order of the paths they are shown
under. -/
theorem scanGiven_accounts (v : Volume) (root : Pathname) :
    (∀ fs, (∀ p ∈ fs, passable p.toString = true) → ∃ scans, scanGiven v root fs = .ok scans ∧
      progress scans = (Usage.ofScans scans).scanned ∧ (Usage.ofScans scans).Accounts v root fs) ∧
    ∀ patterns filter d, discover v root patterns filter = .ok d →
      ∃ scans, scanGiven v root d.files = .ok scans ∧ (Usage.ofScans scans).scanned.Pairwise (· < ·) := by
  refine ⟨fun fs hfs => ?_, fun patterns filter d hd => ?_⟩
  · exact ⟨_, scanGiven_of_passable hfs, (scanned_ofScans _).symm, accounts_ofScans v root fs⟩
  · obtain ⟨hpass, hinc⟩ := discover_files_shown hd
    -- the files read are some of the files found, in the same order
    refine ⟨_, scanGiven_of_passable hpass, ?_⟩
    rw [(accounts_ofScans v root d.files).scanned]
    exact hinc.sublist ((List.filter_sublist).map _)

/-- A scan of one file that cannot be read skips it. -/
theorem scanGiven_skips_missing :
    (∀ p ∈ [Pathname.ofString "/a.js"], passable p.toString = true) ∧
      ∃ scans, scanGiven Volume.empty (Pathname.ofString "/") [Pathname.ofString "/a.js"] = .ok scans ∧
        progress scans = (Usage.ofScans scans).scanned ∧
        (Usage.ofScans scans).Accounts Volume.empty (Pathname.ofString "/") [Pathname.ofString "/a.js"] :=
  ⟨by decide, (scanGiven_accounts Volume.empty (Pathname.ofString "/")).1 _ (by decide)⟩

/-- A path holding a NUL character fails the scan of every file given with it, where the scan
should have skipped the file and gone on: no record of usage comes of it. -/
theorem scanGiven_nul_fails :
    ¬ ∃ scans, scanGiven Volume.empty (Pathname.ofString "/")
      [Pathname.ofString "/a.js", Pathname.ofString "/b\x00.js"] = .ok scans := by
  rintro ⟨scans, h⟩
  rw [scanGiven, if_neg (by decide)] at h
  cases h

end EnvAudit.Scan
