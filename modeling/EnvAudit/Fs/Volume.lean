import EnvAudit.Fs.Path
import EnvAudit.Text.Literal
/-!
# Volumes

A volume is a tree of directories and files, each file holding bytes, together with the working
directory from which relative paths are read. Entries are kept by their absolute names; the root
is always a directory.

A path in text is *resolved* name by name from the root or the working directory: an empty name
and `.` stay, `..` goes to the parent (the root is its own parent), and any other name must be an
entry of the current directory. Every step starts from a directory: a step out of a file fails
with `notDir`, and a missing entry with `noEntry`. Reading a file that resolves to a directory
fails with `isDir`. A path holding a NUL character names no entry. A name of more than 255 bytes,
met on the way, fails with `nameTooLong`, as does a path text of 4096 bytes or more.
-/

namespace EnvAudit.Fs

/-- What an entry of a volume is. -/
inductive Node where
  | file (bytes : List UInt8)
  | dir
  deriving DecidableEq, Repr

/-- A tree of files and directories, and a working directory. -/
structure Volume where
  /-- Entries by their absolute names. A later entry of the same names hides an earlier one. -/
  entries : List (List String × Node)
  /-- The absolute names of the working directory. -/
  cwd : List String
  deriving Repr

/-- Why a path cannot be read. -/
inductive Errno where
  | noEntry
  | notDir
  | isDir
  | nameTooLong
  deriving DecidableEq, Repr

/-- A failed access: its cause and the path as given. -/
structure OsError where
  errno : Errno
  path : String
  deriving DecidableEq, Repr

/-- The number of an error cause. -/
def Errno.code : Errno → Nat
  | .noEntry => 2
  | .notDir => 20
  | .isDir => 21
  | .nameTooLong => 36

/-- The description of an error cause. -/
def Errno.text : Errno → String
  | .noEntry => "No such file or directory"
  | .notDir => "Not a directory"
  | .isDir => "Is a directory"
  | .nameTooLong => "File name too long"

/-- The report of a failed access. -/
def OsError.message (e : OsError) : String :=
  "[Errno " ++ toString e.errno.code ++ "] " ++ e.errno.text ++ ": " ++ Text.literal e.path

/-- Whether a path text can be handed to the system at all: one that holds a NUL character
cannot, since the system reads a path only up to its first NUL. Such a path is refused before
any entry is looked up. -/
def passable (path : String) : Bool := !path.toList.contains (Char.ofNat 0)

/-- The report of a path that cannot be handed to the system. -/
def unpassableMessage : String := "embedded null byte"

/-- An error of the system that the program lets through where it arises. -/
inductive SystemError where
  /-- A path holding a NUL character was handed to the system. -/
  | unpassable
  /-- An access failed. -/
  | access (e : OsError)
  deriving DecidableEq, Repr

/-- The report of an error of the system. -/
def SystemError.message : SystemError → String
  | .unpassable => unpassableMessage
  | .access e => e.message

/-- The most bytes a name may have. -/
def nameMax : Nat := 255

/-- The fewest bytes of a path that the system refuses as too long. -/
def pathMax : Nat := 4096

namespace Volume

/-- The empty volume, working in the root. -/
def empty : Volume := ⟨[], []⟩

/-- The entry at the absolute names `parts`. -/
def node? (v : Volume) (parts : List String) : Option Node :=
  if parts.isEmpty then some .dir else (v.entries.reverse.find? (·.1 == parts)).map (·.2)

/-- Adds a directory and every missing directory above it. -/
def addDir (v : Volume) (parts : List String) : Volume :=
  let missing := (List.range (parts.length + 1)).filterMap fun k =>
    let p := parts.take k
    if p.isEmpty || (v.node? p).isSome then none else some (p, Node.dir)
  { v with entries := v.entries ++ missing }

/-- Adds a file, and every missing directory above it. -/
def addFile (v : Volume) (parts : List String) (bytes : List UInt8) : Volume :=
  let v' := v.addDir parts.dropLast
  { v' with entries := v'.entries ++ [(parts, .file bytes)] }

/-- Resolves names one by one from the directory `cur`. -/
def walk (v : Volume) (cur : List String) : List String → Except Errno (List String)
  | [] => .ok cur
  | n :: ns =>
    match v.node? cur with
    | some .dir =>
      if n = "" ∨ n = "." then v.walk cur ns
      else if n = ".." then v.walk cur.dropLast ns
      else if n.utf8ByteSize > nameMax then .error .nameTooLong
      else
        match v.node? (cur ++ [n]) with
        | some _ => v.walk (cur ++ [n]) ns
        | none => .error .noEntry
    | _ => .error .notDir

/-- The absolute names that a path in text resolves to. -/
def resolve (v : Volume) (path : String) : Except Errno (List String) :=
  if path.utf8ByteSize ≥ pathMax then .error .nameTooLong
  else match path.toList with
  | [] => .error .noEntry
  | '/' :: rest => v.walk [] ((splitSlash rest).map String.ofList)
  | cs => v.walk v.cwd ((splitSlash cs).map String.ofList)

/-- The entry that a path in text resolves to. -/
def lookup? (v : Volume) (path : String) : Option Node :=
  match v.resolve path with
  | .ok parts => v.node? parts
  | .error _ => none

/-- Whether a path resolves to an entry. -/
def present (v : Volume) (path : String) : Bool := (v.lookup? path).isSome

/-- Whether a path resolves to a file. -/
def isFile (v : Volume) (path : String) : Bool :=
  match v.lookup? path with
  | some (.file _) => true
  | _ => false

/-- Whether a path resolves to a directory. -/
def isDir (v : Volume) (path : String) : Bool :=
  match v.lookup? path with
  | some .dir => true
  | _ => false

/-- The entry a path resolves to, as a test for an entry sees it: none when there is no such
entry (a missing name, a step out of a file, or a path holding a NUL character), and an error
for a name or a path that is too long, which such a test reports. -/
def probe (v : Volume) (path : String) : Except OsError (Option Node) :=
  if !passable path then .ok none
  else
    match v.resolve path with
    | .ok parts => .ok (v.node? parts)
    | .error .nameTooLong => .error ⟨.nameTooLong, path⟩
    | .error _ => .ok none

/-- Whether a path resolves to a file, as a test that reports a name or path too long. -/
def fileTest (v : Volume) (path : String) : Except OsError Bool :=
  (v.probe path).map fun
    | some (.file _) => true
    | _ => false

/-- The bytes of the file a path resolves to. -/
def read (v : Volume) (path : String) : Except OsError (List UInt8) :=
  match v.resolve path with
  | .error e => .error ⟨e, path⟩
  | .ok parts =>
    match v.node? parts with
    | some (.file bytes) => .ok bytes
    | some .dir => .error ⟨.isDir, path⟩
    | none => .error ⟨.noEntry, path⟩

/-- The entries of the directory at the absolute names `parts`: their names, and whether each is
a directory. -/
def children (v : Volume) (parts : List String) : List (String × Bool) :=
  let direct := v.entries.filterMap fun e =>
    if e.1.length = parts.length + 1 ∧ parts.isPrefixOf e.1 then e.1.getLast? else none
  (direct.eraseDups).map fun n => (n, v.node? (parts ++ [n]) == some .dir)

/-- The entries of the directory a path resolves to; none when it is no directory. -/
def list? (v : Volume) (path : String) : Option (List (String × Bool)) :=
  match v.resolve path with
  | .ok parts => if v.node? parts == some .dir then some (v.children parts) else none
  | .error _ => none

/-- The entries below the directory at `parts`, as relative names, whose every name is accepted by
`keep`. -/
def descendants (v : Volume) (parts : List String) (keep : String → Bool) :
    List (List String × Node) :=
  (v.entries.map (·.1)).eraseDups.filterMap fun p =>
    if parts.isPrefixOf p ∧ parts.length < p.length ∧ (p.drop parts.length).all keep then
      (v.node? p).map fun n => (p.drop parts.length, n)
    else none

end Volume

end EnvAudit.Fs
