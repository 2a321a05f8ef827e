/-!
# Command-line arguments

The command line names a command, `check` or `version`, and then its arguments. Options of
`check`:

* `--env-file`/`-e` FILE, `--format`/`-f` FORMAT: the last one given counts;
* `--pattern`/`-p` GLOB and `--exclude`/`-x` RULE: each one given counts, in order;
* `--gitignore`/`--no-gitignore` and `--verbose`/`-v`: switches, the last one given counts.

A long option takes its value after `=` or as the next argument; a short one from the rest of
its argument or as the next argument, and short switches may be grouped (`-vf json`). A value
is taken as it is, even when it starts with `-`. A switch takes no value. `--` ends the options;
the first argument that is not an option is the target directory, and any more of them are a
usage error, found only after the options have been read. Anything else is a usage error.
-/

namespace EnvAudit.Cli

/-- The arguments of a `check` command. -/
structure CheckArgs where
  target : String := "."
  envFile : String := ".env"
  patterns : List String := []
  exclude : List String := []
  gitignore : Bool := false
  format : String := "rich"
  verbose : Bool := false
  deriving DecidableEq, Repr

/-- A command line. -/
inductive Command where
  /-- A `check` command, with the arguments that stand beyond its one target: a command line
  that has any is a usage error once its options have been read. -/
  | check (a : CheckArgs) (extra : List String)
  | version
  /-- A request for help text. -/
  | help
  deriving DecidableEq, Repr

/-- An option of `check`. -/
inductive Opt where
  | envFile
  | pattern
  | exclude
  | format
  | gitignore (on : Bool)
  | verbose
  | help
  deriving DecidableEq, Repr

/-- Whether an option takes a value. -/
def Opt.takesValue : Opt → Bool
  | .envFile | .pattern | .exclude | .format => true
  | _ => false

/-- The option of a long name. -/
def Opt.ofLong? : String → Option Opt
  | "--env-file" => some .envFile
  | "--pattern" => some .pattern
  | "--exclude" => some .exclude
  | "--format" => some .format
  | "--gitignore" => some (.gitignore true)
  | "--no-gitignore" => some (.gitignore false)
  | "--verbose" => some .verbose
  | "--help" => some .help
  | _ => none

/-- The option of a short name. -/
def Opt.ofShort? : Char → Option Opt
  | 'e' => some .envFile
  | 'p' => some .pattern
  | 'x' => some .exclude
  | 'f' => some .format
  | 'v' => some .verbose
  | _ => none

/-- What parsing `check` arguments gathers. -/
structure Gathered where
  args : CheckArgs := {}
  positional : List String := []
  help : Bool := false

/-- Records one option with its value. -/
def Gathered.set (g : Gathered) (o : Opt) (value : String) : Gathered :=
  match o with
  | .envFile => { g with args := { g.args with envFile := value } }
  | .pattern => { g with args := { g.args with patterns := g.args.patterns ++ [value] } }
  | .exclude => { g with args := { g.args with exclude := g.args.exclude ++ [value] } }
  | .format => { g with args := { g.args with format := value } }
  | .gitignore on => { g with args := { g.args with gitignore := on } }
  | .verbose => { g with args := { g.args with verbose := true } }
  | .help => { g with help := true }

/-- Reads a group of short options (the characters after `-`), where `next` is the argument after
the group: the gathered arguments and whether `next` was taken as a value, or none on a usage
error. -/
def shortGroup (g : Gathered) (next : Option String) : List Char → Option (Gathered × Bool)
  | [] => some (g, false)
  | c :: cs =>
    match Opt.ofShort? c with
    | none => none
    | some o =>
      if o.takesValue then
        if cs.isEmpty then next.map fun v => (g.set o v, true)
        else some (g.set o (String.ofList cs), false)
      else shortGroup (g.set o "") next cs

/-- Reads the long option `name`, with the value after `=` if any, where `next` is the argument
after it. -/
def longOption (g : Gathered) (next : Option String) (name : String) (attached : Option String) :
    Option (Gathered × Bool) :=
  match Opt.ofLong? name with
  | none => none
  | some o =>
    if o.takesValue then
      match attached with
      | some v => some (g.set o v, false)
      | none => next.map fun v => (g.set o v, true)
    else if attached.isSome then none
    else some (g.set o "", false)

/-- Reads one argument that starts with `-` and is longer than it, where `next` is the argument
after it. -/
def option (g : Gathered) (arg : String) (next : Option String) : Option (Gathered × Bool) :=
  let (name, attached) : String × Option String :=
    match arg.splitOn "=" with
    | n :: v :: vs => (n, some ("=".intercalate (v :: vs)))
    | _ => (arg, none)
  match Opt.ofLong? name with
  | some _ => longOption g next name attached
  | none =>
    if arg.startsWith "--" then none
    else shortGroup g next (arg.toList.drop 1)

/-- Reads the arguments of `check`. -/
def gather (g : Gathered) : List String → Option Gathered
  | [] => some g
  | arg :: rest =>
    if arg = "--" then some { g with positional := g.positional ++ rest }
    else if arg.startsWith "-" ∧ arg.length > 1 then
      match option g arg rest.head? with
      | some (g', taken) => gather g' (if taken then rest.drop 1 else rest)
      | none => none
    else gather { g with positional := g.positional ++ [arg] } rest
termination_by args => args.length
decreasing_by
  · split <;> simp only [List.length_cons, List.length_drop] <;> omega
  · simp only [List.length_cons]
    omega

/-- Reads the options before the command name: whether help was asked, and the arguments from
the command name on. -/
def leading (help : Bool) : List String → Option (Bool × List String)
  | [] => some (help, [])
  | arg :: rest =>
    if arg = "--" then some (help, rest)
    else if arg.startsWith "-" ∧ arg.length > 1 then
      if arg = "--help" then leading true rest else none
    else some (help, arg :: rest)

/-- Reads the arguments of `version`, which takes none: whether help was asked. -/
def versionHelp (help : Bool) : List String → Option Bool
  | [] => some help
  | arg :: rest =>
    if arg = "--" then (if rest.isEmpty then some help else none)
    else if arg = "--help" then versionHelp true rest
    else none

/-- Reads a command line. -/
def Command.parse (args : List String) : Option Command :=
  match leading false args with
  | none => none
  | some (true, _) => some .help
  | some (false, cmd :: rest) =>
    if cmd = "check" then
      (gather {} rest).bind fun g =>
        if g.help then some .help
        else match g.positional with
          | [] => some (.check g.args [])
          | t :: ts => some (.check { g.args with target := t } ts)
    else if cmd = "version" then
      (versionHelp false rest).map fun help => if help then .help else .version
    else none
  | some (false, []) => none

end EnvAudit.Cli
