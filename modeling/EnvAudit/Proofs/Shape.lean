import EnvAudit.Scan.Discovery
import EnvAudit.Dotenv.Load
/-!
# What depends only on the tree of names

The shape of a volume is its tree of names and kinds, with every file emptied (`Volume.shape`).
Resolving a path, testing for an entry, a file or a directory, listing a directory and searching
a volume with glob patterns look at nothing else, so they answer alike on a volume and on its
shape (`fileTest_shape`, `glob_shape`), and so does discovery (`candidates_shape`). Loading an env
file and building an exclusion filter look, besides, at the bytes of one file each: two volumes of
one shape that hold the same bytes there load and build alike (`load_congr`, `build_congr`).
-/

namespace EnvAudit.Fs

/-- A node with its bytes dropped. -/
def Node.erase : Node → Node
  | .file _ => .file []
  | .dir => .dir

@[simp] theorem Node.erase_eq_dir {n : Node} : n.erase = .dir ↔ n = .dir := by
  cases n <;> simp [Node.erase]

/-- The shape of a volume: its entries with every file emptied, and its working directory. -/
def Volume.shape (v : Volume) : Volume := ⟨v.entries.map fun e => (e.1, e.2.erase), v.cwd⟩

@[simp] theorem Node.map_erase_beq_dir (o : Option Node) :
    (o.map Node.erase == some .dir) = (o == some .dir) := by
  cases o with
  | none => rfl
  | some n => cases n <;> rfl

namespace Volume

variable (v : Volume)

@[simp] theorem shape_entries : v.shape.entries = v.entries.map fun e => (e.1, e.2.erase) := rfl

@[simp] theorem shape_cwd : v.shape.cwd = v.cwd := rfl

theorem node?_shape (parts : List String) : v.shape.node? parts = (v.node? parts).map Node.erase := by
  unfold node?
  split
  · rfl
  · rw [shape_entries, ← List.map_reverse, List.find?_map]
    simp [Function.comp_def, Option.map_map]

theorem walk_shape (cur ns : List String) : v.shape.walk cur ns = v.walk cur ns := by
  induction ns generalizing cur with
  | nil => rfl
  | cons n ns ih =>
    unfold walk
    rw [node?_shape, node?_shape]
    cases h : v.node? cur with
    | none => rfl
    | some node =>
      cases node with
      | file bytes => rfl
      | dir =>
        simp only [Option.map_some, Node.erase, ih]
        cases v.node? (cur ++ [n]) <;> rfl

theorem resolve_shape (path : String) : v.shape.resolve path = v.resolve path := by
  unfold resolve
  split
  · rfl
  · split <;> simp [walk_shape]

theorem probe_shape (path : String) :
    v.shape.probe path = (v.probe path).map (Option.map Node.erase) := by
  unfold probe
  rw [resolve_shape]
  split
  · rfl
  · split
    · simp [node?_shape, Except.map]
    · rfl
    · rfl

theorem fileTest_shape (path : String) : v.shape.fileTest path = v.fileTest path := by
  unfold fileTest
  rw [probe_shape]
  cases v.probe path with
  | error e => rfl
  | ok node =>
    cases node with
    | none => rfl
    | some n => cases n <;> rfl

theorem fileTest_congr {v w : Volume} (hs : v.shape = w.shape) (path : String) :
    v.fileTest path = w.fileTest path := by
  rw [← fileTest_shape v, hs, fileTest_shape]

theorem probe_congr {v w : Volume} (hs : v.shape = w.shape) (path : String) :
    (v.probe path).map (Option.map Node.erase) = (w.probe path).map (Option.map Node.erase) := by
  rw [← probe_shape v, hs, probe_shape]

@[simp] theorem map_erase_eq_dir (e : Except OsError (Option Node)) :
    e.map (Option.map Node.erase) = .ok (some .dir) ↔ e = .ok (some .dir) := by
  rcases e with e | _ | n
  · simp [Except.map]
  · simp [Except.map]
  · cases n <;> simp [Except.map, Node.erase]

theorem probe_eq_dir_congr {v w : Volume} (hs : v.shape = w.shape) (path : String) :
    v.probe path = .ok (some .dir) ↔ w.probe path = .ok (some .dir) := by
  rw [← map_erase_eq_dir, probe_congr hs, map_erase_eq_dir]

theorem lookup?_shape (path : String) : v.shape.lookup? path = (v.lookup? path).map Node.erase := by
  unfold lookup?
  rw [resolve_shape]
  split <;> simp [node?_shape]

theorem present_shape (path : String) : v.shape.present path = v.present path := by
  simp [present, lookup?_shape]

theorem isDir_shape (path : String) : v.shape.isDir path = v.isDir path := by
  unfold isDir
  rw [lookup?_shape]
  cases v.lookup? path with
  | none => rfl
  | some n => cases n <;> rfl

theorem children_shape (parts : List String) : v.shape.children parts = v.children parts := by
  simp only [children, shape_entries, node?_shape, Node.map_erase_beq_dir, List.filterMap_map,
    Function.comp_def]

theorem list?_shape (path : String) : v.shape.list? path = v.list? path := by
  unfold list?
  rw [resolve_shape]
  split <;> simp [node?_shape, children_shape]

theorem descendants_shape (parts : List String) (keep : String → Bool) :
    v.shape.descendants parts keep = (v.descendants parts keep).map fun e => (e.1, e.2.erase) := by
  simp only [descendants, shape_entries, List.map_map, Function.comp_def, node?_shape,
    List.map_filterMap]
  congr 1
  funext p
  split <;> simp [Option.map_map, Function.comp_def]

end Volume

end EnvAudit.Fs

namespace EnvAudit.Glob

open EnvAudit.Fs

variable (v : Volume)

theorem matchEntries_shape (dir pattern : List Char) (dirsOnly : Bool) :
    matchEntries v.shape dir pattern dirsOnly = matchEntries v dir pattern dirsOnly := by
  simp [matchEntries, Volume.list?_shape]

theorem entriesBelow_shape (dir : List Char) (dirsOnly : Bool) :
    entriesBelow v.shape dir dirsOnly = entriesBelow v dir dirsOnly := by
  unfold entriesBelow
  rw [Volume.resolve_shape]
  split
  · rfl
  · congr 2
    split
    · simp only [Volume.node?_shape, Node.map_erase_beq_dir, Volume.descendants_shape,
        List.filterMap_map]
      split
      · congr 1
        funext e
        obtain ⟨names, n⟩ := e
        cases n <;> rfl
      · rfl
    · rfl

theorem exactEntry_shape (dir name : List Char) : exactEntry v.shape dir name = exactEntry v dir name := by
  simp [exactEntry, Volume.isDir_shape, Volume.present_shape]

theorem matchName_shape (dir name : List Char) (dirsOnly : Bool) :
    matchName v.shape dir name dirsOnly = matchName v dir name dirsOnly := by
  simp [matchName, entriesBelow_shape, matchEntries_shape, exactEntry_shape]

/-- A glob search answers alike on a volume and on its shape: the recursion on the pattern's head
meets the same directories on both. -/
theorem search_shape (base : List Char) (dirsOnly : Bool) (pattern : List Char) :
    search v.shape base dirsOnly pattern = search v base dirsOnly pattern := by
  rw [search, search]
  simp only [Volume.present_shape, Volume.isDir_shape, matchName_shape]
  split
  · rfl
  · split
    · rfl
    · split
      · rename_i h
        have := h.1
        rw [search_shape base true (splitHead pattern).1]
      · rfl
termination_by pattern.length

theorem glob_shape (base pattern : String) : glob v.shape base pattern = glob v base pattern := by
  simp [glob, search_shape]

end EnvAudit.Glob

namespace EnvAudit.Scan

open EnvAudit.Fs

variable (v : Volume)

theorem matchedFiles_shape (root : Pathname) (pattern : String) :
    matchedFiles v.shape root pattern = matchedFiles v root pattern := by
  simp [matchedFiles, Glob.glob_shape, Volume.fileTest_shape]

/-- Discovery finds the same candidates on a volume and on its shape. -/
theorem candidates_shape (root : Pathname) (patterns : List String) :
    candidates v.shape root patterns = candidates v root patterns := by
  have h : matchedFiles v.shape root = matchedFiles v root := funext (matchedFiles_shape v root)
  simp [candidates, h]

theorem candidates_congr {v w : Volume} (hs : v.shape = w.shape) (root : Pathname)
    (patterns : List String) : candidates v root patterns = candidates w root patterns := by
  rw [← candidates_shape v, hs, candidates_shape]

end EnvAudit.Scan

namespace EnvAudit.Ignore

open EnvAudit.Fs

section
variable {v w : Volume} (hs : v.shape = w.shape) {root : Pathname}
  (hread : v.read (root.child ".gitignore").toString = w.read (root.child ".gitignore").toString)
include hs hread

theorem gitignoreLines_congr : gitignoreLines v root = gitignoreLines w root := by
  simp [gitignoreLines, Volume.fileTest_congr hs, hread]

/-- An exclusion filter is built alike on two volumes of one shape whose `.gitignore` files at the
root read alike. -/
theorem build_congr (patterns : Option (List String)) (useGitignore : Bool) :
    Exclusions.build v root patterns useGitignore = Exclusions.build w root patterns useGitignore := by
  simp [Exclusions.build, Exclusions.buildWith, gitignoreLines_congr hs hread]

end

end EnvAudit.Ignore

namespace EnvAudit.Dotenv

open EnvAudit.Fs

/-- An env file loads alike from two volumes of one shape where it reads alike. -/
theorem load_congr {v w : Volume} (hs : v.shape = w.shape) {path : Pathname}
    (hread : v.read path.toString = w.read path.toString) : load v path = load w path := by
  simp [load, readText, Volume.fileTest_congr hs, hread]

end EnvAudit.Dotenv
