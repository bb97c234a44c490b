import Narwhal.Lib.TextLines

open pylib

namespace narwhal.git

/-! ### Trees -/

inductive Mode where
  | regular
  | executable
deriving DecidableEq

def Mode.text : Mode → Str
  | .regular => lit "100644"
  | .executable => lit "100755"

/-- A text file: the lines that end with a line feed, and what follows the last of them. -/
structure File where
  mode : Mode
  lines : List Str
  rest : Str
  lines_ended : ∀ line ∈ lines, 10 ∉ line
  rest_open : 10 ∉ rest
deriving DecidableEq

/-- The files at their paths. -/
abbrev Tree := Str → Option File

/-- A line as `git diff` compares it; only the last one of a file may not be ended. -/
structure Record where
  text : Str
  ended : Bool
deriving DecidableEq

def File.records (file : File) : List Record :=
  file.lines.map (Record.mk · true) ++ if file.rest = [] then [] else [⟨file.rest, false⟩]

/-! ### Differences -/

structure Hunk where
  /-- what follows `@@ -` in the header: the line numbers, and a heading from the file -/
  heading : Str
  removed : List Record
  added : List Record
deriving DecidableEq

/-- The hunks take the old lines to the new ones. -/
inductive Edits : List Record → List Hunk → List Record → Prop
  | same (kept : List Record) : Edits kept [] kept
  | hunk (kept : List Record) (h : Hunk) {old new : List Record} {hunks : List Hunk} (rest : Edits old hunks new) :
    Edits (kept ++ h.removed ++ old) (h :: hunks) (kept ++ h.added ++ new)

inductive Kind where
  | modified
  | added
  | deleted
  | renamed (source similarity : Str)
deriving DecidableEq

structure Change where
  kind : Kind
  path : Str
  old : File
  new : File
  /-- what follows `index ` where there is such a line -/
  index : Option Str
  hunks : List Hunk

/-- The paths at which the trees differ by the change. -/
def Change.paths (c : Change) : List Str :=
  match c.kind with
  | .renamed source _ => [source, c.path]
  | _ => [c.path]

/-- The text holds printable ASCII only. -/
def Plain (text : Str) : Prop := ∀ c ∈ text, 32 ≤ c ∧ c < 127

instance (text : Str) : Decidable (Plain text) := inferInstanceAs (Decidable (∀ c ∈ text, 32 ≤ c ∧ c < 127))

/-- What the change says of the two trees. -/
structure Change.Correct (base head : Tree) (c : Change) : Prop where
  kind : match c.kind with
    | .modified => base c.path = some c.old ∧ head c.path = some c.new
    | .added => base c.path = none ∧ head c.path = some c.new
    | .deleted => base c.path = some c.old ∧ head c.path = none
    | .renamed source _ =>
      base source = some c.old ∧ head source = none ∧ base c.path = none ∧ head c.path = some c.new
  edits : c.kind = .modified → Edits c.old.records c.hunks c.new.records
  headings : ∀ h ∈ c.hunks, 10 ∉ h.heading
  texts : ∀ h ∈ c.hunks, ∀ r ∈ h.removed ++ h.added, 10 ∉ r.text
  index : ∀ text ∈ c.index, Plain text
  similarity : ∀ source text, c.kind = .renamed source text → Plain text
  path : c.path ≠ []

/-- The changes between two trees: each is right, and none is missing. -/
structure Correct (base head : Tree) (changes : List Change) : Prop where
  sound : ∀ c ∈ changes, c.Correct base head
  complete : ∀ path, base path ≠ head path → ∃ c ∈ changes, path ∈ c.paths

/-! ### What is printed -/

/-- A code point in a quoted name. -/
def escape (c : Nat) : Str :=
  if c = 34 ∨ c = 92 then [92, c]
  else if 7 ≤ c ∧ c ≤ 13 then 92 :: ((lit "abtnvfr")[c - 7]?).toList
  else if 32 ≤ c ∧ c < 127 then [c]
  else ((utf8EncodePoint c).getD []).flatMap fun b => [92, 48 + b.toNat / 64, 48 + b.toNat / 8 % 8, 48 + b.toNat % 8]

/-- A name as it is printed: quoted where it holds anything but plain ASCII. -/
def quoteName (side path : Str) : Str :=
  if ∀ c ∈ path, 32 ≤ c ∧ c < 127 ∧ c ≠ 34 ∧ c ≠ 92 then side ++ path
  else 34 :: side ++ path.flatMap escape ++ [34]

/-- A name in a line of its own ends with a tab where it holds a blank. -/
def nameLine (sign side path : Str) : Str := sign ++ quoteName side path ++ if 32 ∈ path then [9] else []

def Record.lines (sign : Nat) (r : Record) : List Str :=
  (sign :: r.text) :: if r.ended then [] else [lit "\\ No newline at end of file"]

def Hunk.lines (h : Hunk) : List Str :=
  (lit "@@ -" ++ h.heading) :: h.removed.flatMap (Record.lines 45) ++ h.added.flatMap (Record.lines 43)

def Change.source (c : Change) : Str :=
  match c.kind with
  | .renamed source _ => source
  | _ => c.path

def Change.modeLines (c : Change) : List Str :=
  if c.old.mode = c.new.mode then [] else [lit "old mode " ++ c.old.mode.text, lit "new mode " ++ c.new.mode.text]

def Change.kindLines (c : Change) : List Str :=
  match c.kind with
  | .modified => c.modeLines
  | .added => [lit "new file mode " ++ c.new.mode.text]
  | .deleted => [lit "deleted file mode " ++ c.old.mode.text]
  | .renamed source similarity =>
    c.modeLines ++ [lit "similarity index " ++ similarity, lit "rename from " ++ quoteName [] source,
      lit "rename to " ++ quoteName [] c.path]

def Change.nameLines (c : Change) : List Str :=
  if c.hunks = [] then []
  else
    [if c.kind = .added then lit "--- /dev/null" else nameLine (lit "--- ") (lit "a/") c.source,
      if c.kind = .deleted then lit "+++ /dev/null" else nameLine (lit "+++ ") (lit "b/") c.path]

def Change.metadata (c : Change) : List Str :=
  c.kindLines ++ (c.index.map (lit "index " ++ ·)).toList ++ c.nameLines

def Change.header (c : Change) : Str :=
  lit "diff --git " ++ quoteName (lit "a/") c.source ++ 32 :: quoteName (lit "b/") c.path

def Change.lines (c : Change) : List Str := c.header :: c.metadata ++ c.hunks.flatMap Hunk.lines

/-- `git diff --name-only` -/
def nameOnly (changes : List Change) : Str := unlines (changes.map fun c => quoteName [] c.path)

/-- `git diff -U0` -/
def diffU0 (changes : List Change) : Str := unlines (changes.flatMap Change.lines)

end narwhal.git
