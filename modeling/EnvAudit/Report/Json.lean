import EnvAudit.Report.Result
/-!
# JSON documents

Results are also written as JSON documents. A document is printed with an indent of two spaces:
each member of a non-empty array or object on a line of its own, a key and its value separated
by `": "`, members by `","`, and `[]` and `{}` for empty ones. In strings, the quote and the
backslash are escaped, line feed, carriage return, tab, backspace and form feed take their short
escapes, other characters below U+0020 are written `\u00hh`, and all others stand as they are.
-/

namespace EnvAudit.Report

/-- A JSON value of the kinds results use. -/
inductive Doc where
  | str (s : String)
  | num (n : Nat)
  | arr (items : List Doc)
  | obj (fields : List (String × Doc))
  deriving Repr

/-- How one character is written inside a JSON string. -/
def jsonChar (c : Char) : List Char :=
  if c = '"' then ['\\', '"']
  else if c = '\\' then ['\\', '\\']
  else if c = '\n' then ['\\', 'n']
  else if c = '\r' then ['\\', 'r']
  else if c = '\t' then ['\\', 't']
  else if c = '\x08' then ['\\', 'b']
  else if c = '\x0c' then ['\\', 'f']
  else if c.toNat < 0x20 then '\\' :: 'u' :: Text.hexDigits 4 c.toNat
  else [c]

/-- A JSON string literal. -/
def jsonString (s : String) : String := String.ofList ('"' :: s.toList.flatMap jsonChar ++ ['"'])

/-- Spaces for an indent of `depth` levels. -/
def indent (depth : Nat) : String := String.ofList (List.replicate (2 * depth) ' ')

mutual
/-- The text of a document whose first line stands at `depth`. -/
def Doc.render (depth : Nat) : Doc → String
  | .str s => jsonString s
  | .num n => toString n
  | .arr [] => "[]"
  | .arr (x :: xs) => "[\n" ++ renderItems (depth + 1) (x :: xs) ++ "\n" ++ indent depth ++ "]"
  | .obj [] => "\x7b\x7d"
  | .obj (f :: fs) => "\x7b\n" ++ renderFields (depth + 1) (f :: fs) ++ "\n" ++ indent depth ++ "\x7d"

/-- The members of an array, one per line. -/
def renderItems (depth : Nat) : List Doc → String
  | [] => ""
  | [x] => indent depth ++ x.render depth
  | x :: xs => indent depth ++ x.render depth ++ ",\n" ++ renderItems depth xs

/-- The members of an object, one per line. -/
def renderFields (depth : Nat) : List (String × Doc) → String
  | [] => ""
  | [(k, v)] => indent depth ++ jsonString k ++ ": " ++ v.render depth
  | (k, v) :: fs => indent depth ++ jsonString k ++ ": " ++ v.render depth ++ ",\n" ++ renderFields depth fs
end

/-- An array of strings. -/
def strings (xs : List String) : Doc := .arr (xs.map .str)

/-- A result as a document: the env file, the four name lists, the sources, the files scanned
and skipped, and a summary of counts. -/
def Result.toDoc (r : Result) : Doc :=
  .obj [("env_file", .str r.envFile), ("missing", strings r.missing), ("unused", strings r.unused),
    ("declared", strings r.declared), ("used", strings r.used),
    ("sources", .obj (r.sources.map fun s => (s.1, strings s.2))),
    ("files_scanned", strings r.scanned),
    ("skipped_files", .arr (r.skipped.map fun s => .obj [("file_path", .str s.path), ("reason", .str s.reason)])),
    ("summary", .obj [("declared", .num r.declared.length), ("used", .num r.used.length),
      ("missing", .num r.missing.length), ("unused", .num r.unused.length),
      ("files_scanned", .num r.scanned.length), ("files_skipped", .num r.skipped.length)])]

/-- A result as JSON text. -/
def Result.toJson (r : Result) : String := r.toDoc.render 0

example : (Doc.obj [("a", strings ["x"]), ("b", .arr []), ("c", .obj [])]).render 0 =
    "\x7b\n  \"a\": [\n    \"x\"\n  ],\n  \"b\": [],\n  \"c\": \x7b\x7d\n\x7d" := by decide +kernel

end EnvAudit.Report
