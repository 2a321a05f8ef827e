import EnvAudit.Cli.Run
/-!
# The command-line program

Loads the working directory's tree into a volume, runs the command line on it, and writes what
the run gives: its report on standard output, its progress, log records and errors on standard
error, and its exit code.
-/

open EnvAudit

/-- Adds the entries of a directory, and everything below them, to a volume. -/
partial def loadEntries (v : Fs.Volume) (parts : List String) (entries : Array IO.FS.DirEntry) :
    IO Fs.Volume := do
  let mut v := v
  for e in entries do
    let here := parts ++ [e.fileName]
    if ← e.path.isDir then
      v ← loadEntries (v.addDir here) here (← e.path.readDir)
    else
      v := v.addFile here (← IO.FS.readBinFile e.path).toList
  return v

def main (args : List String) : IO UInt32 := do
  let cwd ← IO.currentDir
  let parts := (Fs.Pathname.ofString cwd.toString).parts
  let v ← loadEntries ({ Fs.Volume.empty with cwd := parts }.addDir parts) parts (← cwd.readDir)
  let environ := match ← IO.getEnv "EASTER_EGG" with
    | some value => [("EASTER_EGG", value)]
    | none => []
  let o := Cli.run v environ args
  IO.print o.stdout
  match o.stderr with
  | some err => IO.eprint err
  | none => IO.eprintln "Usage: check [TARGET] [OPTIONS] | version"
  match o.stopped with
  | some e => IO.eprintln e.message
  | none => pure ()
  return o.exitCode.toUInt32
