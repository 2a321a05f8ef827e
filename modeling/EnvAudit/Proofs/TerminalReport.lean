import Mathlib
import EnvAudit.Report.Terminal
import EnvAudit.Report.Json
import EnvAudit.Dotenv.Line
import EnvAudit.Proofs.Markup
/-!
# Reading the terminal report back

The terminal report lays a result out in lines: the missing names as bullets `   • n` under a
header that names the env file, each followed by the files that read it, indented by seven
spaces; then the unused names as bullets under their own header; a line saying so where a list
is empty; and a greeting after the first rule when asked for.

The report is printed to a console taken as a parameter. What it needs of the console is
`Console.Markup`, what the console documents of its markup, where the program's console `rich`
does it (`rich_markup`): a line without brackets, control characters or emoji codes shows as it
is, and an escaped text without backslashes shows as itself, between such text or inside a
`[dim]` tag. A backslash is the one exception to the escaping: a path ending in two of them loses
one before the closing `[/dim]` tag. An emoji code, a name between two colons such as `:smile:`,
would show as its emoji, also when the colon the header puts after the env file closes it.

So when names are dotenv names (word characters, `.` and `-`) and the env file and the files hold
no backslash, no control character and no emoji code, the console shows every line as it is laid
out (`terminal_eq_shownLines`).

The layout is also unambiguous: a file line starts with seven spaces and a bullet with three
spaces and `•`, so neither is read as the other, and neither is blank. `readReport` reads the
printed lines back and gives the greeting, the env file, each missing name with its files and
the unused names (`readReport_shownLines`); the only lines that start with a check mark are
those of the empty lists (`checkLines_shownLines`). `terminal_reads_back` puts these together
with the JSON document, which lists the same missing and unused names.
-/

namespace EnvAudit.Report

open EnvAudit.Text

/-! ## Emoji codes -/

/-- Whether a text holds no emoji code: every piece of it between two colons is empty or holds a
blank, so no name without blanks stands between two colons. -/
def emojiFree (t : String) : Bool :=
  ((t.toList.splitOn ':').drop 1).dropLast.all fun x => x.isEmpty || x.any Char.isWhitespace

theorem emojiFree_of_not_mem {t : String} (h : ':' ∉ t.toList) : emojiFree t = true := by
  simp [emojiFree, List.splitOn_eq_singleton h]

/-- Text without colons in front of another adds no emoji code to it. -/
theorem emojiFree_append_left {p : String} (hp : ':' ∉ p.toList) (t : String) :
    emojiFree (p ++ t) = emojiFree t := by
  -- splitting at the colons only lengthens the first piece
  have key : ∀ u : List Char, ':' ∉ u → ((u ++ t.toList).splitOn ':').drop 1 = (t.toList.splitOn ':').drop 1 := by
    intro u hu
    induction u with
    | nil => rfl
    | cons c u ih =>
      have hc : (c == ':') = false := beq_eq_false_iff_ne.2 fun h => hu (h ▸ List.mem_cons_self)
      rw [List.cons_append, List.splitOn_cons_eq_if_modifyHead, hc, if_neg Bool.false_ne_true,
        List.drop_modifyHead_of_pos Nat.one_pos, ih fun h => hu (List.mem_cons_of_mem c h)]
  simp only [emojiFree, String.toList_append, key p.toList hp]

/-! ## What a report needs of its console -/

/-- Paths shown in a report: no backslash and no control character. -/
def IsShownPath (f : String) : Prop := ∀ c ∈ f.toList, c ≠ '\\' ∧ 0x20 ≤ c.toNat

/-- Text that reads as itself next to markup: no backslash, no bracket and no control character. -/
def IsBare (t : String) : Prop := ∀ c ∈ t.toList, c ≠ '\\' ∧ c ≠ '[' ∧ c ≠ ']' ∧ 0x20 ≤ c.toNat

instance (f : String) : Decidable (IsShownPath f) :=
  decidable_of_iff ((f.toList.all fun c => c != '\\' && 0x20 ≤ c.toNat) = true) (by simp [IsShownPath])

instance (t : String) : Decidable (IsBare t) :=
  decidable_of_iff ((t.toList.all fun c => c != '\\' && c != '[' && c != ']' && 0x20 ≤ c.toNat) = true)
    (by simp [IsBare, and_assoc])

theorem IsShownPath.backslash_not_mem {f : String} (hf : IsShownPath f) : '\\' ∉ f.toList :=
  fun hm => (hf _ hm).1 rfl

theorem IsShownPath.shown {f : String} (hf : IsShownPath f) : ∀ c ∈ f.toList, 0x20 ≤ c.toNat :=
  fun c hc => (hf c hc).2

theorem IsBare.plain {t : String} (ht : IsBare t) : ∀ c ∈ t.toList, c ≠ '\\' ∧ c ≠ '[' :=
  fun c hc => ⟨(ht c hc).1, (ht c hc).2.1⟩

theorem IsBare.backslash_not_mem {t : String} (ht : IsBare t) : '\\' ∉ t.toList :=
  fun hm => (ht.plain _ hm).1 rfl

theorem IsBare.shown {t : String} (ht : IsBare t) : ∀ c ∈ t.toList, 0x20 ≤ c.toNat :=
  fun c hc => (ht c hc).2.2.2

/-- What a report needs of the console it is printed to, as the console documents its markup: a
line without brackets, control characters or emoji codes shows as it is; an escaped text without
backslashes shows as itself between bare text, and inside a `[dim]` tag, when no emoji code
forms around it. -/
structure Console.Markup (con : Console) : Prop where
  plain : ∀ m : String, (∀ c ∈ m.toList, c ≠ '[' ∧ 0x20 ≤ c.toNat) → emojiFree m = true →
    con.showLine m = m ++ "\n"
  escaped : ∀ p f q : String, IsBare p → IsBare q → IsShownPath f → emojiFree (p ++ f ++ q) = true →
    con.showLine (p ++ con.escape f ++ q) = p ++ f ++ q ++ "\n"
  dim : ∀ p f : String, IsBare p → IsShownPath f → emojiFree p = true → emojiFree f = true →
    con.showLine (p ++ "[dim]" ++ con.escape f ++ "[/dim]") = p ++ f ++ "\n"

/-! ## The program's console -/

/-- The console drops no character of a text that holds no control character, and expands no
tab in it. -/
theorem expandTabs_filter_of_shown {l : List Char} (h : ∀ c ∈ l, 0x20 ≤ c.toNat) :
    expandTabs (l.filter fun c => !isDropped c) = l := by
  have hkeep : l.filter (fun c => !isDropped c) = l := by
    refine List.filter_eq_self.2 fun c hc => ?_
    have := h c hc
    simp only [isDropped, Bool.not_eq_true', Bool.or_eq_false_iff, beq_eq_false_iff_ne, ne_eq]
    refine ⟨⟨⟨⟨?_, ?_⟩, ?_⟩, ?_⟩, ?_⟩ <;> rintro rfl <;> simp at this
  have hnl : '\n' ∉ l := fun hm => by simpa using h _ hm
  have htab : '\t' ∉ l := fun hm => by simpa using h _ hm
  rw [hkeep, expandTabs, List.splitOn_eq_singleton hnl, List.map_singleton,
    List.splitOn_eq_singleton htab, List.intercalate_singleton]
  simp [expandPieces]

/-- A line of markup whose shown text holds no control character is shown as that text. -/
theorem showLine_of_shown {m : String} (h : ∀ c ∈ markupText m, 0x20 ≤ c.toNat) :
    showLine m = String.ofList (markupText m) ++ "\n" := by
  rw [showLine, expandTabs_filter_of_shown h]
  apply String.toList_injective
  simp

/-- A line without brackets or control characters is shown as it is. -/
theorem showLine_of_plain {m : String} (h : ∀ c ∈ m.toList, c ≠ '[' ∧ 0x20 ≤ c.toNat) :
    showLine m = m ++ "\n" := by
  have hopen : m.toList.contains '[' = false := by
    simpa using fun hm => (h '[' hm).1 rfl
  have hmark : markupText m = m.toList := by
    simp only [markupText, hopen, Bool.false_eq_true, if_false]
  rw [showLine_of_shown (by rw [hmark]; exact fun c hc => (h c hc).2), hmark, String.ofList_toList]

/-- A line of markup that shows a text without control characters is shown as that text. -/
theorem showLine_of_markupText {m t : String} (hm : markupText m = t.toList)
    (ht : ∀ c ∈ t.toList, 0x20 ≤ c.toNat) : showLine m = t ++ "\n" := by
  rw [showLine_of_shown (hm ▸ ht), hm, String.ofList_toList]

theorem closeTag_of_isBare {t : String} (ht : IsBare t) : closeTag t.toList = none := by
  have key : ∀ l : List Char, (∀ c ∈ l, c ≠ '[' ∧ c ≠ ']') → closeTag l = none := by
    intro l hl
    induction l with
    | nil => rfl
    | cons c l ih =>
      have hc := hl c List.mem_cons_self
      rw [closeTag_cons_of_ne hc.2 hc.1, ih fun d hd => hl d (List.mem_cons_of_mem c hd)]
      rfl
  exact key _ fun c hc => ⟨(ht c hc).2.1, (ht c hc).2.2.1⟩

/-- An escaped path between bare text shows as itself. -/
theorem markupText_escaped {p f q : String} (hp : IsBare p) (hq : IsBare q) (hf : IsShownPath f) :
    markupText (p ++ escape f ++ q) = (p ++ f ++ q).toList := by
  have hqopen : '[' ∉ q.toList := fun hm => (hq.plain _ hm).2 rfl
  rw [markupText_eq_showFrom]
  simp only [String.toList_append, escape_toList hf.backslash_not_mem, List.append_assoc]
  rw [showFrom_append_of_plain hp.plain,
    showFrom_escapeTags (by simpa using hp.backslash_not_mem) hf.backslash_not_mem hq.backslash_not_mem
      (closeTag_of_isBare hq),
    showFrom_of_not_mem_open hqopen, unescapeBrackets_of_not_mem (by simpa using hq.backslash_not_mem)]
  simp

theorem tagAt?_dim (after : List Char) :
    tagAt? ('[' :: 'd' :: 'i' :: 'm' :: ']' :: after) = some (0, ['d', 'i', 'm'], after) := by
  simp [tagAt?, closeTag, isTagStart]

theorem showFrom_close_dim : showFrom [] "[/dim]".toList = [] := by
  have h : tagAt? "[/dim]".toList = some (0, ['/', 'd', 'i', 'm'], []) := by
    simp [tagAt?, closeTag, isTagStart]
  rw [show "[/dim]".toList = '[' :: "/dim]".toList from rfl] at h ⊢
  rw [showFrom_of_tagAt h]
  simp [showFrom, unescapeBrackets]

/-- An escaped path inside a `[dim]` tag after bare text shows as itself. -/
theorem markupText_dim {p f : String} (hp : IsBare p) (hf : IsShownPath f) :
    markupText (p ++ "[dim]" ++ escape f ++ "[/dim]") = (p ++ f).toList := by
  rw [markupText_eq_showFrom]
  simp only [String.toList_append, escape_toList hf.backslash_not_mem, List.append_assoc]
  rw [showFrom_append_of_plain hp.plain,
    show "[dim]".toList ++ (escapeTags f.toList ++ "[/dim]".toList) =
      '[' :: 'd' :: 'i' :: 'm' :: ']' :: (escapeTags f.toList ++ "[/dim]".toList) from rfl,
    showFrom_of_tagAt (tagAt?_dim _),
    showFrom_escapeTags (by simp) hf.backslash_not_mem (by simp) (by simp [closeTag]), showFrom_close_dim]
  simp [unescapeBrackets_of_not_mem hp.backslash_not_mem]

theorem shown_append {p q : String} (hp : ∀ c ∈ p.toList, 0x20 ≤ c.toNat) (hq : ∀ c ∈ q.toList, 0x20 ≤ c.toNat) :
    ∀ c ∈ (p ++ q).toList, 0x20 ≤ c.toNat := by
  intro c hc
  rw [String.toList_append, List.mem_append] at hc
  exact hc.elim (hp c) (hq c)

/-- The program's console does what a report needs of it. -/
theorem rich_markup : rich.Markup where
  plain _ h _ := showLine_of_plain h
  escaped _ _ _ hp hq hf _ :=
    showLine_of_markupText (markupText_escaped hp hq hf) (shown_append (shown_append hp.shown hf.shown) hq.shown)
  dim _ _ hp hf _ _ := showLine_of_markupText (markupText_dim hp hf) (shown_append hp.shown hf.shown)

/-! ## Names -/

/-- Names are runs of the characters of dotenv names: word characters, dots and hyphens. -/
def IsName (n : String) : Prop := ∀ c ∈ n.toList, Dotenv.isNameChar c = true

instance (n : String) : Decidable (IsName n) :=
  decidable_of_iff ((n.toList.all Dotenv.isNameChar) = true) (by simp [IsName])

theorem isNameChar_shown {c : Char} (h : Dotenv.isNameChar c = true) :
    c ≠ '[' ∧ c ≠ ':' ∧ 0x20 ≤ c.toNat := by
  by_cases hc : c.toNat < 0x80
  · -- below U+0080 the word characters are letters, digits and `_`, checked one by one
    have key : ∀ n, n < 0x80 → Dotenv.isNameChar (Char.ofNat n) = true →
        Char.ofNat n ≠ '[' ∧ Char.ofNat n ≠ ':' ∧ 0x20 ≤ n := by decide
    have := key c.toNat hc (by rwa [Char.ofNat_toNat])
    rwa [Char.ofNat_toNat] at this
  · refine ⟨?_, ?_, by omega⟩ <;> rintro rfl <;> exact hc (by decide)

theorem IsName.bullet {n : String} (hn : IsName n) :
    ∀ c ∈ ("   • " ++ n).toList, c ≠ '[' ∧ c ≠ ':' ∧ 0x20 ≤ c.toNat := by
  have hbullet : ∀ c ∈ "   • ".toList, c ≠ '[' ∧ c ≠ ':' ∧ 0x20 ≤ c.toNat := by simp
  intro c hc
  rw [String.toList_append, List.mem_append] at hc
  rcases hc with hc | hc
  · exact hbullet c hc
  · exact isNameChar_shown (hn c hc)

/-! ## The layout -/

theorem rule_toList : rule.toList = List.replicate 30 '─' := by
  unfold rule
  rw [String.toList_ofList]

/-- The lines of a bullet and of the files listed under it. -/
def entryLines (e : String × List String) : List String :=
  ("   • " ++ e.1) :: e.2.map ("       " ++ ·)

/-- The missing names, each with the files listed under it. -/
def Result.shownMissing (r : Result) (showSources : Bool) : List (String × List String) :=
  r.missing.map fun n => (n, if showSources then r.sourcesFor n else [])

/-- The lines about missing names as the console shows them when names and paths show as
themselves. -/
def shownMissingLines (r : Result) (showSources : Bool) : List String :=
  if r.missing.isEmpty then ["✔ No missing variables!"]
  else ("❌ Used but not defined in " ++ r.envFile ++ ":") :: (r.shownMissing showSources).flatMap entryLines

/-- The lines of the terminal report as the console shows them when names and paths show as
themselves. -/
def Result.shownLines (r : Result) (showSources egg : Bool) : List String :=
  ["", "✅ Env Usage Report", "", rule, ""] ++
    (if egg then ["    " ++ greeting, ""] else []) ++
    shownMissingLines r showSources ++ [""] ++ unusedLines r ++ ["", rule, ""]

/-- What the names, the files and the env file of a result must be for its report to show them as
they are. -/
structure Result.Showable (r : Result) : Prop where
  missing_names : ∀ n ∈ r.missing, IsName n
  unused_names : ∀ n ∈ r.unused, IsName n
  files : ∀ n ∈ r.missing, ∀ f ∈ r.sourcesFor n, IsShownPath f
  env_file : IsShownPath r.envFile
  /-- no file forms an emoji code -/
  files_emojiFree : ∀ n ∈ r.missing, ∀ f ∈ r.sourcesFor n, emojiFree f = true
  /-- the env file forms no emoji code, also with the colon the header puts after it -/
  env_file_emojiFree : emojiFree (r.envFile ++ ":") = true

instance (r : Result) : Decidable r.Showable :=
  decidable_of_iff ((∀ n ∈ r.missing, IsName n) ∧ (∀ n ∈ r.unused, IsName n) ∧
      (∀ n ∈ r.missing, ∀ f ∈ r.sourcesFor n, IsShownPath f) ∧ IsShownPath r.envFile ∧
      (∀ n ∈ r.missing, ∀ f ∈ r.sourcesFor n, emojiFree f = true) ∧ emojiFree (r.envFile ++ ":") = true)
    ⟨fun ⟨h₁, h₂, h₃, h₄, h₅, h₆⟩ => ⟨h₁, h₂, h₃, h₄, h₅, h₆⟩,
      fun h => ⟨h.1, h.2, h.3, h.4, h.5, h.6⟩⟩

section Layout
variable {con : Console} (hcon : con.Markup) {r : Result} {showSources egg : Bool}
include hcon

/-- A line without brackets, colons or control characters shows as it is. -/
theorem Console.Markup.showLine_fixed {m : String} (h : ∀ c ∈ m.toList, c ≠ '[' ∧ c ≠ ':' ∧ 0x20 ≤ c.toNat) :
    con.showLine m = m ++ "\n" :=
  hcon.plain m (fun c hc => ⟨(h c hc).1, (h c hc).2.2⟩) (emojiFree_of_not_mem fun hm => (h _ hm).2.1 rfl)

theorem map_showLine_fixed (ms : List String)
    (h : ∀ m ∈ ms, ∀ c ∈ m.toList, c ≠ '[' ∧ c ≠ ':' ∧ 0x20 ≤ c.toNat) :
    ms.map con.showLine = ms.map (· ++ "\n") :=
  List.map_congr_left fun m hm => hcon.showLine_fixed (h m hm)

theorem missingLines_shown (hr : r.Showable) :
    (missingLines con r showSources).map con.showLine = (shownMissingLines r showSources).map (· ++ "\n") := by
  unfold missingLines shownMissingLines
  split
  · simp [hcon.showLine_fixed (m := "✔ No missing variables!") (by simp)]
  · have hhead : con.showLine ("❌ Used but not defined in " ++ con.escape r.envFile ++ ":") =
        "❌ Used but not defined in " ++ r.envFile ++ ":" ++ "\n" := by
      refine hcon.escaped "❌ Used but not defined in " r.envFile ":" (by decide) (by decide) hr.env_file ?_
      rw [String.append_assoc, emojiFree_append_left (by simp)]
      exact hr.env_file_emojiFree
    rw [List.map_cons, List.map_cons, hhead, List.map_flatMap, List.map_flatMap, Result.shownMissing,
      List.flatMap_map]
    refine congrArg (_ :: ·) (List.flatMap_congr fun n hn => ?_)
    rw [entryLines, List.map_cons, List.map_cons, hcon.showLine_fixed (hr.missing_names n hn).bullet]
    refine congrArg (_ :: ·) ?_
    cases showSources with
    | false => simp
    | true =>
      simp only [↓reduceIte, List.map_map]
      refine List.map_congr_left fun f hf => ?_
      exact hcon.dim "       " f (by decide) (hr.files n hn f hf) (by decide) (hr.files_emojiFree n hn f hf)

theorem unusedLines_shown (hr : r.Showable) :
    (unusedLines r).map con.showLine = (unusedLines r).map (· ++ "\n") := by
  unfold unusedLines
  split
  · simp [hcon.showLine_fixed (m := "✔ No unused variables!") (by simp)]
  · -- the header has one colon, so no emoji code
    rw [List.map_cons, List.map_cons, hcon.plain _ (by simp) (by decide), List.map_map, List.map_map]
    exact congrArg (_ :: ·) (List.map_congr_left fun n hn => hcon.showLine_fixed (hr.unused_names n hn).bullet)

/-- **The report shows its layout.** A console that reads markup as documented shows each line of
the terminal report of a showable result as it is laid out. -/
theorem terminal_eq_shownLines (hr : r.Showable) :
    r.terminalWith con showSources egg = String.join ((r.shownLines showSources egg).map (· ++ "\n")) := by
  have hegg : (if egg then ["    " ++ greeting, ""] else []).map con.showLine =
      (if egg then ["    " ++ greeting, ""] else []).map (· ++ "\n") :=
    map_showLine_fixed hcon _ (by cases egg <;> simp [greeting])
  simp only [Result.terminalWith, Result.terminalLines, Result.shownLines, List.map_append,
    missingLines_shown hcon hr, unusedLines_shown hcon hr, hegg,
    map_showLine_fixed hcon ["", "✅ Env Usage Report", "", rule, ""] (by simp [rule_toList]),
    map_showLine_fixed hcon [""] (by simp), map_showLine_fixed hcon ["", rule, ""] (by simp [rule_toList])]

end Layout

/-! ## Reading a report back -/

/-- The lines of a text that ends each of its lines with a line feed. -/
def printedLines (out : String) : List String :=
  ((out.toList.splitOn '\n').dropLast).map String.ofList

/-- The text of a line after `pre`, when the line starts with it. -/
def afterPrefix (pre line : String) : Option String :=
  (pre.toList.isPrefixOf? line.toList).map String.ofList

/-- The name of a bullet line. -/
def bulletName? : String → Option String := afterPrefix "   • "

/-- The file of a line listing a file under a bullet. -/
def fileName? : String → Option String := afterPrefix "       "

/-- The env file named by the header of the missing names. -/
def headerFile? (line : String) : Option String :=
  (afterPrefix "❌ Used but not defined in " line).bind fun s =>
    if s.toList.getLast? = some ':' then some (String.ofList s.toList.dropLast) else none

/-- The bullets at the head of `ls`, each with the files listed under it, and the lines after
them. -/
def readEntries : List String → List (String × List String) × List String
  | [] => ([], [])
  | l :: ls =>
    match bulletName? l with
    | none => ([], l :: ls)
    | some n =>
      let rest := readEntries (ls.dropWhile fun m => (fileName? m).isSome)
      ((n, (ls.takeWhile fun m => (fileName? m).isSome).filterMap fileName?) :: rest.1, rest.2)
termination_by ls => ls.length
decreasing_by
  have := (List.dropWhile_suffix (l := ls) fun m => (fileName? m).isSome).length_le
  simp only [List.length_cons]
  omega

/-- The bullets at the head of `ls`, and the lines after them. -/
def readBullets : List String → List String × List String
  | [] => ([], [])
  | l :: ls =>
    match bulletName? l with
    | none => ([], l :: ls)
    | some n => Prod.map (n :: ·) id (readBullets ls)

/-- Reads the greeting: whether it is there, and the lines after it. -/
def readGreeting (ls : List String) : Bool × List String :=
  match ["    " ++ greeting, ""].isPrefixOf? ls with
  | some rest => (true, rest)
  | none => (false, ls)

/-- Reads the missing names: the env file named by their header, each name with the files listed
under it, and the lines after them. There is no header when no name is missing. -/
def readMissing : List String → Option (Option String × List (String × List String) × List String)
  | [] => none
  | l :: ls =>
    match headerFile? l with
    | some e =>
      let entries := readEntries ls
      if entries.1.isEmpty then none else some (some e, entries)
    | none => if l = "✔ No missing variables!" then some (none, [], ls) else none

/-- Reads the unused names and the lines after them. -/
def readUnused : List String → Option (List String × List String)
  | [] => none
  | l :: ls =>
    if l = "✔ No unused variables!" then some ([], ls)
    else if l = "⚠ Defined but not used in code:" then
      let names := readBullets ls
      if names.1.isEmpty then none else some names
    else none

/-- What a terminal report says: whether it greets, the env file it names, the missing names
with the files listed under each, and the unused names. -/
structure ReadReport where
  greets : Bool
  envFile : Option String
  missing : List (String × List String)
  unused : List String
  deriving DecidableEq, Repr

/-- Reads a terminal report from its lines; none when the lines are not laid out as a report. -/
def readReport (ls : List String) : Option ReadReport := do
  let ls ← ["", "✅ Env Usage Report", "", rule, ""].isPrefixOf? ls
  let (greets, ls) := readGreeting ls
  let (envFile, missing, ls) ← readMissing ls
  let ls ← [""].isPrefixOf? ls
  let (unused, ls) ← readUnused ls
  let ls ← ["", rule, ""].isPrefixOf? ls
  if ls.isEmpty then some ⟨greets, envFile, missing, unused⟩ else none

/-- The value of a member of a JSON object. -/
def Doc.member? : Doc → String → Option Doc
  | .obj fields, key => fields.lookup key
  | _, _ => none

section Reading
variable {r : Result} {showSources egg : Bool}

theorem printedLines_join {ls : List String} (h : ∀ l ∈ ls, '\n' ∉ l.toList) :
    printedLines (String.join (ls.map (· ++ "\n"))) = ls := by
  -- the text is the lines, with an empty last one, joined by line feeds
  have htext : (String.join (ls.map (· ++ "\n"))).toList =
      ['\n'].intercalate (ls.map String.toList ++ [[]]) := by
    induction ls with
    | nil => simp
    | cons l ls ih =>
      rw [List.map_cons, String.join_cons, String.toList_append,
        ih fun m hm => h m (List.mem_cons_of_mem l hm), List.map_cons, List.cons_append,
        List.intercalate_cons_of_ne_nil (by simp)]
      simp
  have hsplit : ∀ l ∈ ls.map String.toList ++ [[]], '\n' ∉ l := by
    intro l hl
    rcases List.mem_append.1 hl with hl | hl
    · obtain ⟨m, hm, rfl⟩ := List.mem_map.1 hl
      exact h m hm
    · simp [List.mem_singleton.1 hl]
  rw [printedLines, htext, List.splitOn_intercalate '\n' hsplit (by simp), List.dropLast_concat,
    List.map_map]
  simp

theorem afterPrefix_eq_some {pre line s : String} : afterPrefix pre line = some s ↔ line = pre ++ s := by
  constructor
  · intro h
    obtain ⟨t, ht, rfl⟩ := Option.map_eq_some_iff.1 h
    rw [List.isPrefixOf?_eq_some_iff_append_eq] at ht
    apply String.toList_injective
    simp [← ht]
  · rintro rfl
    simp [afterPrefix]

@[simp] theorem afterPrefix_append (pre s : String) : afterPrefix pre (pre ++ s) = some s :=
  afterPrefix_eq_some.2 rfl

/-- Lines that differ in their first `k` characters. -/
theorem append_ne_append {p q s t : String} (k : Nat) (hp : k ≤ p.toList.length)
    (hq : k ≤ q.toList.length) (hne : p.toList.take k ≠ q.toList.take k) : p ++ s ≠ q ++ t := by
  intro h
  have htake := congrArg (fun u : String => u.toList.take k) h
  simp only [String.toList_append, List.take_append_of_le_length hp,
    List.take_append_of_le_length hq] at htake
  exact hne htake

theorem afterPrefix_append_eq_none {p q s : String} (k : Nat) (hp : k ≤ p.toList.length)
    (hq : k ≤ q.toList.length) (hne : p.toList.take k ≠ q.toList.take k) :
    afterPrefix q (p ++ s) = none :=
  Option.eq_none_iff_forall_ne_some.2 fun _ h =>
    append_ne_append k hp hq hne (afterPrefix_eq_some.1 h)

theorem afterPrefix_empty {pre : String} (h : pre.toList ≠ []) : afterPrefix pre "" = none :=
  Option.eq_none_iff_forall_ne_some.2 fun t ht => by
    have := congrArg String.toList (afterPrefix_eq_some.1 ht)
    simp only [String.toList_empty, String.toList_append] at this
    exact h (List.append_eq_nil_iff.1 this.symm).1

theorem fileName?_bullet (n : String) : fileName? ("   • " ++ n) = none :=
  afterPrefix_append_eq_none 4 (by simp) (by simp) (by simp)

theorem fileName?_empty : fileName? "" = none := afterPrefix_empty (by simp)

theorem bulletName?_empty : bulletName? "" = none := afterPrefix_empty (by simp)

theorem headerFile?_header (e : String) :
    headerFile? ("❌ Used but not defined in " ++ e ++ ":") = some e := by
  have hlast : (e ++ ":").toList.getLast? = some ':' := by
    simp [String.toList_append, List.getLast?_append]
  rw [headerFile?, String.append_assoc, afterPrefix_append, Option.bind_some, if_pos hlast]
  simp [String.toList_append]

theorem fileName?_fileLine (f : String) : fileName? ("       " ++ f) = some f := afterPrefix_append _ _

/-- File lines are taken up to the first line that lists no file. -/
theorem span_fileLines (fs : List String) {tail : List String}
    (htail : ∀ l ∈ tail.head?, fileName? l = none) :
    (fs.map ("       " ++ ·) ++ tail).takeWhile (fun m => (fileName? m).isSome) =
        fs.map ("       " ++ ·) ∧
      (fs.map ("       " ++ ·) ++ tail).dropWhile (fun m => (fileName? m).isSome) = tail := by
  have hfiles : ∀ a ∈ fs.map ("       " ++ ·), (fileName? a).isSome := by
    simp [fileName?_fileLine]
  rw [List.takeWhile_append_of_pos hfiles, List.dropWhile_append_of_pos hfiles]
  cases tail with
  | nil => simp
  | cons l ls => simp [htail l rfl]

theorem fileName?_head_entryLines (es : List (String × List String)) (more : List String) :
    ∀ l ∈ (es.flatMap entryLines ++ "" :: more).head?, fileName? l = none := by
  cases es with
  | nil => simp [fileName?_empty]
  | cons e es => simp [entryLines, fileName?_bullet]

/-- The entries are read up to the blank line after them. -/
theorem readEntries_entryLines (es : List (String × List String)) (more : List String) :
    readEntries (es.flatMap entryLines ++ "" :: more) = (es, "" :: more) := by
  induction es with
  | nil => simp [readEntries, bulletName?_empty]
  | cons e es ih =>
    obtain ⟨htake, hdrop⟩ := span_fileLines e.2 (fileName?_head_entryLines es more)
    have hnames : (e.2.map ("       " ++ ·)).filterMap fileName? = e.2 := by
      simp [List.filterMap_map, fileName?_fileLine]
    rw [List.flatMap_cons, List.append_assoc, entryLines, List.cons_append, readEntries,
      bulletName?, afterPrefix_append]
    simp only [htake, hdrop, hnames, ih]

/-- The bullets are read up to the blank line after them. -/
theorem readBullets_bullets (ns more : List String) :
    readBullets (ns.map ("   • " ++ ·) ++ "" :: more) = (ns, "" :: more) := by
  induction ns with
  | nil => simp [readBullets, bulletName?_empty]
  | cons n ns ih => simp [readBullets, bulletName?, ih]

theorem isPrefixOf?_append (xs ys : List String) : xs.isPrefixOf? (xs ++ ys) = some ys :=
  List.isPrefixOf?_eq_some_iff_append_eq.2 rfl

/-- The missing names start with a line that is not the greeting. -/
theorem readGreeting_shown (r : Result) (showSources egg : Bool) (more : List String) :
    readGreeting ((if egg then ["    " ++ greeting, ""] else []) ++ (shownMissingLines r showSources ++ more)) =
      (egg, shownMissingLines r showSources ++ more) := by
  cases egg with
  | true => rw [if_pos rfl, readGreeting, isPrefixOf?_append]
  | false =>
    have hhead : ∀ l ∈ (shownMissingLines r showSources ++ more).head?, l ≠ "    " ++ greeting := by
      unfold shownMissingLines
      split
      · simp [greeting]
      · simpa [String.append_assoc] using
          append_ne_append (t := greeting) (s := r.envFile ++ ":") 1 (by simp) (by simp) (by simp)
    cases h : shownMissingLines r showSources ++ more with
    | nil => simp [readGreeting, List.isPrefixOf?]
    | cons l ls =>
      have hl : l ≠ "    " ++ greeting := hhead l (by simp [h])
      simp [readGreeting, List.isPrefixOf?, Ne.symm hl]

theorem readMissing_shown (r : Result) (showSources : Bool) (more : List String) :
    readMissing (shownMissingLines r showSources ++ "" :: more) =
      some (if r.missing.isEmpty then none else some r.envFile, r.shownMissing showSources, "" :: more) := by
  unfold shownMissingLines
  split
  case isTrue h =>
    have hnone : headerFile? "✔ No missing variables!" = none := by
      simp [headerFile?, afterPrefix, List.isPrefixOf?]
    simp [readMissing, hnone, Result.shownMissing, List.isEmpty_iff.1 h]
  case isFalse h =>
    have hne : (r.shownMissing showSources).isEmpty = false := by
      simpa [Result.shownMissing] using h
    simp [readMissing, headerFile?_header, readEntries_entryLines, hne]

theorem readUnused_shown (r : Result) (more : List String) :
    readUnused (unusedLines r ++ "" :: more) = some (r.unused, "" :: more) := by
  unfold unusedLines
  split
  case isTrue h => simp [readUnused, List.isEmpty_iff.1 h]
  case isFalse h =>
    have hne : "⚠ Defined but not used in code:" ≠ "✔ No unused variables!" := by simp
    simp [readUnused, hne, readBullets_bullets, h]

/-- **The layout reads back.** -/
theorem readReport_shownLines (r : Result) (showSources egg : Bool) :
    readReport (r.shownLines showSources egg) =
      some ⟨egg, if r.missing.isEmpty then none else some r.envFile, r.shownMissing showSources,
        r.unused⟩ := by
  -- the blank line before the unused names is joined to them only once the lines are reassociated
  simp only [Result.shownLines, List.append_assoc]
  simp only [List.singleton_append]
  simp only [readReport, isPrefixOf?_append, Option.bind_eq_bind, Option.bind_some, readGreeting_shown,
    readMissing_shown]
  simp [List.isPrefixOf?, readUnused_shown]

theorem lineFeed_not_mem {l : String} (h : ∀ c ∈ l.toList, 0x20 ≤ c.toNat) : '\n' ∉ l.toList :=
  fun hm => by simpa using h _ hm

theorem lineFeed_not_mem_entryLines {n : String} {fs : List String} (hn : IsName n)
    (hfs : ∀ f ∈ fs, IsShownPath f) : ∀ l ∈ entryLines (n, fs), '\n' ∉ l.toList := by
  intro l hl
  rcases List.mem_cons.1 hl with rfl | hl
  · exact lineFeed_not_mem fun c hc => (hn.bullet c hc).2.2
  · obtain ⟨f, hf, rfl⟩ := List.mem_map.1 hl
    exact lineFeed_not_mem (shown_append (by simp) (hfs f hf).shown)

theorem lineFeed_not_mem_shownMissingLines (hr : r.Showable) :
    ∀ l ∈ shownMissingLines r showSources, '\n' ∉ l.toList := by
  unfold shownMissingLines
  split
  · simp
  · intro l hl
    rcases List.mem_cons.1 hl with rfl | hl
    · rw [String.append_assoc]
      exact lineFeed_not_mem (shown_append (by simp) (shown_append hr.env_file.shown (by simp)))
    · obtain ⟨e, he, hl⟩ := List.mem_flatMap.1 hl
      obtain ⟨n, hn, rfl⟩ := List.mem_map.1 he
      refine lineFeed_not_mem_entryLines (hr.missing_names n hn) (fun f hf => ?_) l hl
      cases showSources
      · simp at hf
      · exact hr.files n hn f hf

theorem lineFeed_not_mem_unusedLines (hr : r.Showable) : ∀ l ∈ unusedLines r, '\n' ∉ l.toList := by
  unfold unusedLines
  split
  · simp
  · intro l hl
    rcases List.mem_cons.1 hl with rfl | hl
    · simp
    · obtain ⟨n, hn, rfl⟩ := List.mem_map.1 hl
      exact lineFeed_not_mem fun c hc => ((hr.unused_names n hn).bullet c hc).2.2

/-- No line of the layout holds a line feed. -/
theorem lineFeed_not_mem_shownLines (hr : r.Showable) :
    ∀ l ∈ r.shownLines showSources egg, '\n' ∉ l.toList := by
  simp only [Result.shownLines, List.forall_mem_append]
  refine ⟨⟨⟨⟨⟨by simp [rule_toList], by cases egg <;> simp [greeting]⟩,
    lineFeed_not_mem_shownMissingLines hr⟩, by simp⟩, lineFeed_not_mem_unusedLines hr⟩,
    by simp [rule_toList]⟩

/-- The lines of the layout that start with a check mark are the lines saying a list is empty,
one for each empty list. -/
theorem checkLines_shownLines (r : Result) (showSources egg : Bool) :
    (r.shownLines showSources egg).filter (fun l => l.toList.head? == some '✔') =
      (if r.missing.isEmpty then ["✔ No missing variables!"] else []) ++
        (if r.unused.isEmpty then ["✔ No unused variables!"] else []) := by
  have hmissing : (shownMissingLines r showSources).filter (fun l => l.toList.head? == some '✔') =
      if r.missing.isEmpty then ["✔ No missing variables!"] else [] := by
    unfold shownMissingLines
    split
    · simp
    · -- the header starts with a cross, bullets and files with a blank
      refine List.filter_eq_nil_iff.2 fun l hl => ?_
      rcases List.mem_cons.1 hl with rfl | hl
      · simp
      · obtain ⟨e, -, hl⟩ := List.mem_flatMap.1 hl
        rcases List.mem_cons.1 hl with rfl | hl
        · simp
        · obtain ⟨f, -, rfl⟩ := List.mem_map.1 hl
          simp
  have hunused : (unusedLines r).filter (fun l => l.toList.head? == some '✔') =
      if r.unused.isEmpty then ["✔ No unused variables!"] else [] := by
    unfold unusedLines
    split
    · simp
    · refine List.filter_eq_nil_iff.2 fun l hl => ?_
      rcases List.mem_cons.1 hl with rfl | hl
      · simp
      · obtain ⟨n, -, rfl⟩ := List.mem_map.1 hl
        simp
  have hegg : (if egg then ["    " ++ greeting, ""] else []).filter
      (fun l => l.toList.head? == some '✔') = [] := by
    cases egg <;> simp [greeting]
  simp only [Result.shownLines, List.filter_append, hmissing, hunused, hegg]
  simp [rule_toList]

/-- Each line saying a list is empty is shown exactly when that list is empty. -/
theorem emptyLines_mem_shownLines (r : Result) (showSources egg : Bool) :
    ("✔ No missing variables!" ∈ r.shownLines showSources egg ↔ r.missing = []) ∧
      ("✔ No unused variables!" ∈ r.shownLines showSources egg ↔ r.unused = []) := by
  have hcheck : ("✔ No missing variables!".toList.head? == some '✔') = true ∧
      ("✔ No unused variables!".toList.head? == some '✔') = true := by
    simp
  have hne : "✔ No missing variables!" ≠ "✔ No unused variables!" := by simp
  have hmem : ∀ l : String, (l.toList.head? == some '✔') = true →
      (l ∈ r.shownLines showSources egg ↔
        l ∈ (r.shownLines showSources egg).filter fun l => l.toList.head? == some '✔') :=
    fun l hl => by simp [List.mem_filter, hl]
  rw [hmem _ hcheck.1, hmem _ hcheck.2, checkLines_shownLines]
  cases hm : r.missing.isEmpty <;> cases hu : r.unused.isEmpty <;>
    simp_all [List.isEmpty_iff, Ne.symm hne]

/-- A console that reads markup as documented shows the layout, line by line. -/
theorem printedLines_terminal {con : Console} (hcon : con.Markup) (hr : r.Showable) :
    printedLines (r.terminalWith con showSources egg) = r.shownLines showSources egg := by
  rw [terminal_eq_shownLines hcon hr, printedLines_join (lineFeed_not_mem_shownLines hr)]

/-- The greeting is two lines after the first rule. -/
theorem shownLines_greets (r : Result) (showSources : Bool) :
    r.shownLines showSources true =
      (r.shownLines showSources false).take 5 ++ ["    " ++ greeting, ""] ++
        (r.shownLines showSources false).drop 5 := by
  simp [Result.shownLines]

end Reading

/-- **The terminal report reads back.** On a console that reads markup as documented, when the
names of a result are dotenv names and its env file and files hold no backslash, no control
character and no emoji code, the lines the console shows read back as whether it greets, the env
file (named only when names are missing), each missing name in order with the files listed under
it when sources are shown, and the unused names in order. The line saying a list is empty is shown
exactly when it is; the greeting adds its two lines after the first rule and changes nothing else;
and the JSON document of the result lists the same missing and unused names. -/
theorem terminal_reads_back {con : Console} (hcon : con.Markup) {r : Result} (hr : r.Showable)
    (showSources egg : Bool) :
    readReport (printedLines (r.terminalWith con showSources egg)) =
        some ⟨egg, if r.missing.isEmpty then none else some r.envFile,
          r.missing.map fun n => (n, if showSources then r.sourcesFor n else []), r.unused⟩ ∧
      ("✔ No missing variables!" ∈ printedLines (r.terminalWith con showSources egg) ↔ r.missing = []) ∧
      ("✔ No unused variables!" ∈ printedLines (r.terminalWith con showSources egg) ↔ r.unused = []) ∧
      printedLines (r.terminalWith con showSources true) =
        (printedLines (r.terminalWith con showSources false)).take 5 ++ ["    " ++ greeting, ""] ++
          (printedLines (r.terminalWith con showSources false)).drop 5 ∧
      r.toDoc.member? "missing" = some (strings r.missing) ∧
      r.toDoc.member? "unused" = some (strings r.unused) := by
  have hempty := emptyLines_mem_shownLines r showSources egg
  refine ⟨?_, ?_, ?_, ?_, ?_, ?_⟩
  · rw [printedLines_terminal hcon hr, readReport_shownLines]
    simp only [Result.shownMissing]
  · rw [printedLines_terminal hcon hr]
    exact hempty.1
  · rw [printedLines_terminal hcon hr]
    exact hempty.2
  · rw [printedLines_terminal hcon hr, printedLines_terminal hcon hr, shownLines_greets]
  · simp [Doc.member?, Result.toDoc, List.lookup]
  · simp [Doc.member?, Result.toDoc, List.lookup]

/-- A result with one missing name read in one file and one unused name reads back from the
program's console. -/
theorem terminal_reads_back_sources :
    readReport (printedLines (Result.terminal ⟨["A"], ["B"], ["B"], ["A"], [("B", ["src/a.js"])],
        ["src/a.js"], [], ".env"⟩ true false)) =
      some ⟨false, some ".env", [("B", ["src/a.js"])], ["A"]⟩ := by
  have h := (terminal_reads_back rich_markup (r := ⟨["A"], ["B"], ["B"], ["A"], [("B", ["src/a.js"])],
    ["src/a.js"], [], ".env"⟩) (by decide) true false).1
  refine h.trans ?_
  simp [Result.sourcesFor]

end EnvAudit.Report
