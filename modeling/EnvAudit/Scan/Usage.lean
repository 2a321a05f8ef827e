import EnvAudit.Source.Reference
import EnvAudit.Fs.Volume
import EnvAudit.Text.Utf8
import EnvAudit.NameSet
import EnvAudit.Log
/-!
# Scanning source files

Each file to scan is read in turn, in the order given; it is shown by its path relative to the
scan root when it lies under it. A file that cannot be read is skipped with the reason. A file
that can is decoded as UTF-8 with undecodable bytes dropped, and the names it reads are recorded
against it. The usage of a scan maps each name to the set of files that read it, and lists the
files scanned and the files skipped, each in scan order.

The map is kept as a list of names in increasing order, each with its files in increasing order
(`Sources.WellFormed`); a usage carries the proof that its map has that form, and recording a file
keeps it.
-/

namespace EnvAudit.Scan

open EnvAudit.Fs
open EnvAudit.Text

/-- A file that could not be read, and why. -/
structure Skipped where
  path : String
  reason : String
  deriving DecidableEq, Repr

/-- What scanning one file gives. -/
inductive FileScan where
  /-- The file was read; these are the names it reads. -/
  | read (path : String) (names : List String)
  /-- The file could not be read. -/
  | skipped (s : Skipped)
  deriving DecidableEq, Repr

/-- Scans the file at `p`, shown relative to `root`. -/
def scanFile (v : Volume) (root p : Pathname) : FileScan :=
  let shown := p.display root
  match v.read p.toString with
  | .error e => .skipped ⟨shown, e.message⟩
  | .ok bytes => .read shown (Source.usedNames (String.ofList (normalizeNewlines (decodeLossy bytes))))

/-- The names read by the scanned files, each with the set of files that read it, both in
increasing order. -/
abbrev Sources := List (String × List String)

/-- Records that `file` reads `name`. -/
def addSource (name file : String) : Sources → Sources
  | [] => [(name, [file])]
  | (n, fs) :: rest =>
    if name < n then (name, [file]) :: (n, fs) :: rest
    else if name = n then (n, insertName file fs) :: rest
    else (n, fs) :: addSource name file rest

/-! ## Maps from names to sets of files -/

/-- Names in strictly increasing order, each with a non-empty, strictly increasing list of files:
a map from names to non-empty sets of files. -/
structure Sources.WellFormed (ss : Sources) : Prop where
  names_increasing : (ss.map (·.1)).Pairwise (· < ·)
  files_ne : ∀ e ∈ ss, e.2 ≠ []
  files_increasing : ∀ e ∈ ss, e.2.Pairwise (· < ·)

theorem Sources.WellFormed.nil : Sources.WellFormed [] := ⟨.nil, nofun, nofun⟩

/-- Recording a file under a name keeps every entry but one: the name gets a new entry, or its
entry gets the file. -/
theorem mem_addSource {name file : String} {ss : Sources} {e : String × List String}
    (h : e ∈ addSource name file ss) :
    e ∈ ss ∨ e = (name, [file]) ∨ ∃ fs, (name, fs) ∈ ss ∧ e = (name, insertName file fs) := by
  induction ss with
  | nil => simp_all [addSource]
  | cons x ss ih =>
    obtain ⟨n, fs⟩ := x
    simp only [addSource] at h
    split at h
    · rcases List.mem_cons.1 h with rfl | h
      · exact .inr (.inl rfl)
      · exact .inl h
    · split at h
      · rename_i heq
        subst heq
        rcases List.mem_cons.1 h with rfl | h
        · exact .inr (.inr ⟨fs, List.mem_cons_self, rfl⟩)
        · exact .inl (List.mem_cons_of_mem _ h)
      · rcases List.mem_cons.1 h with rfl | h
        · exact .inl List.mem_cons_self
        · rcases ih h with h | h | ⟨fs', hfs, rfl⟩
          · exact .inl (List.mem_cons_of_mem _ h)
          · exact .inr (.inl h)
          · exact .inr (.inr ⟨fs', List.mem_cons_of_mem _ hfs, rfl⟩)

theorem mem_addSource_name {name file : String} {ss : Sources} {e : String × List String}
    (h : e ∈ addSource name file ss) : e.1 = name ∨ e.1 ∈ ss.map (·.1) := by
  rcases mem_addSource h with h | rfl | ⟨fs, -, rfl⟩
  · exact .inr (List.mem_map_of_mem h)
  · exact .inl rfl
  · exact .inl rfl

theorem names_increasing_addSource {ss : Sources} (h : (ss.map (·.1)).Pairwise (· < ·))
    (name file : String) : ((addSource name file ss).map (·.1)).Pairwise (· < ·) := by
  induction ss with
  | nil => simp [addSource]
  | cons x ss ih =>
    obtain ⟨n, fs⟩ := x
    obtain ⟨hn, hss⟩ := List.pairwise_cons.1 h
    simp only [addSource]
    split
    · -- a new name before all others
      rename_i hlt
      refine List.pairwise_cons.2 ⟨fun m hm => ?_, h⟩
      rcases List.mem_cons.1 hm with rfl | hm
      · exact hlt
      · exact String.lt_trans hlt (hn m hm)
    · split
      · -- the name is there, and the names stay
        simpa using h
      · -- the name goes further on, after `n`
        rename_i hnlt hne
        refine List.pairwise_cons.2 ⟨fun m hm => ?_, ih hss⟩
        obtain ⟨e, he, rfl⟩ := List.mem_map.1 hm
        rcases mem_addSource_name he with h | h
        · rw [h]
          exact gt_of_not_lt_of_ne hnlt hne
        · exact hn _ h

theorem Sources.WellFormed.addSource {ss : Sources} (h : ss.WellFormed) (name file : String) :
    (Scan.addSource name file ss).WellFormed := by
  refine ⟨names_increasing_addSource h.names_increasing name file, fun e he => ?_, fun e he => ?_⟩
  · rcases mem_addSource he with he | rfl | ⟨fs, -, rfl⟩
    · exact h.files_ne e he
    · simp
    · exact List.ne_nil_of_mem (mem_insertName.2 (.inl rfl))
  · rcases mem_addSource he with he | rfl | ⟨fs, hfs, rfl⟩
    · exact h.files_increasing e he
    · simp
    · exact pairwise_insertName (h.files_increasing _ hfs)

theorem Sources.WellFormed.foldl_addSource {ss : Sources} (h : ss.WellFormed) (names : List String)
    (file : String) : (names.foldl (fun s n => Scan.addSource n file s) ss).WellFormed := by
  induction names generalizing ss with
  | nil => exact h
  | cons n names ih => exact ih (h.addSource n file)

/-- Recording files under names, one pair at a time, keeps the map well formed. -/
theorem Sources.WellFormed.foldl_addPairs {ss : Sources} (h : ss.WellFormed) (pairs : List (String × String)) :
    (pairs.foldl (fun s p => Scan.addSource p.1 p.2 s) ss).WellFormed := by
  induction pairs generalizing ss with
  | nil => exact h
  | cons p pairs ih => exact ih (h.addSource p.1 p.2)

/-! ## The usage of a scan -/

/-- The outcome of scanning a list of files. -/
structure Usage where
  sources : Sources
  /-- The files read, in scan order. -/
  scanned : List String
  /-- The files skipped, in scan order. -/
  skipped : List Skipped
  /-- The names read map to non-empty sets of files. -/
  wellFormed : sources.WellFormed
  deriving DecidableEq, Repr

/-- The usage before any file is scanned. -/
def Usage.empty : Usage := ⟨[], [], [], .nil⟩

/-- Adds the outcome of scanning one more file. -/
def Usage.add (u : Usage) : FileScan → Usage
  | .read path names =>
    ⟨names.foldl (fun s n => addSource n path s) u.sources, u.scanned ++ [path], u.skipped,
      u.wellFormed.foldl_addSource names path⟩
  | .skipped s => ⟨u.sources, u.scanned, u.skipped ++ [s], u.wellFormed⟩

/-- The usage of a sequence of file scans. -/
def Usage.ofScans (scans : List FileScan) : Usage := scans.foldl Usage.add .empty

/-- The usage that records each file of `pairs` under its name, with the files scanned and the
files skipped as given. -/
def Usage.ofPairs (pairs : List (String × String)) (scanned : List String) (skipped : List Skipped) : Usage :=
  ⟨pairs.foldl (fun s p => addSource p.1 p.2 s) [], scanned, skipped, Sources.WellFormed.nil.foldl_addPairs pairs⟩

/-- The record a file scan logs. -/
def FileScan.log : FileScan → Log.Entry
  | .read path names => Log.debug (path ++ ": " ++ toString names.length ++ " env var references")
  | .skipped s => Log.warning ("Skipping unreadable file " ++ s.path ++ ": " ++ s.reason)

/-- The files read, in order: each is announced as it is scanned. -/
def progress (scans : List FileScan) : List String :=
  scans.filterMap fun
    | .read path _ => some path
    | .skipped _ => none

/-- Scans files in order. -/
def scanFiles (v : Volume) (root : Pathname) (files : List Pathname) : List FileScan :=
  files.map (scanFile v root)

/-- Scans files given by name, in order. A path holding a NUL character fails the whole scan, since
opening it fails with an error that no file scan catches. -/
def scanGiven (v : Volume) (root : Pathname) (files : List Pathname) : Except SystemError (List FileScan) :=
  if files.all fun p => passable p.toString then .ok (scanFiles v root files) else .error .unpassable

end EnvAudit.Scan
