import Narwhal.Lib.DecodeLines
import Narwhal.Lib.Json

open pylib

namespace narwhal.raw_diff

/-! ### What differs -/

/-- A line of a file; only the last one of a file may not be ended. -/
structure Line where
  text : Bytes
  ended : Bool
  text_open : 10 ∉ text
deriving DecidableEq

structure Hunk where
  /-- the lines between the hunk before it and this one -/
  kept : List Line
  removed : List Line
  added : List Line
  /-- a line of the old file, perhaps cut off, that stands in the header after the numbers -/
  heading : Bytes
  heading_open : 10 ∉ heading

inductive Mode where
  | regular
  | executable
  | symlink
deriving DecidableEq

inductive Kind where
  | modified
  | added
  | deleted
  | renamed (source : Bytes) (similarity : Nat)
deriving DecidableEq

structure Change where
  kind : Kind
  path : Bytes
  oldMode : Mode
  newMode : Mode
  /-- the object names on the line `index`, where there is such a line -/
  index : Option Str
  hunks : List Hunk
  path_ne : path ≠ []
  index_plain : ∀ names ∈ index, ∀ c ∈ names, 32 ≤ c ∧ c < 127

/-- The new version up to the last hunk, with the lines that the old one does not have marked. -/
def Change.newVersion (c : Change) : List (Line × Bool) :=
  c.hunks.flatMap fun h => h.kept.map (·, false) ++ h.added.map (·, true)

/-- The line of this number in the new version is an added or modified one. -/
def Change.Adds (c : Change) (n : Nat) : Prop := 0 < n ∧ ∃ line, c.newVersion[n - 1]? = some (line, true)

/-- A file's name as Python has it: octets that are no UTF-8 become lone surrogates. -/
def fsdecodeFuel : Nat → Bytes → Str
  | 0, _ => []
  | _, [] => []
  | fuel + 1, b :: rest =>
    match utf8DecodePoint (b :: rest) with
    | some (n, tail) => n :: fsdecodeFuel fuel tail
    | none => (0xDC00 + b.toNat) :: fsdecodeFuel fuel rest

def fsdecode (path : Bytes) : Str := fsdecodeFuel path.length path

def Change.name (c : Change) : Str := fsdecode c.path

/-! ### What is printed -/

/-- An octet in a quoted name. -/
def escape (b : UInt8) : Bytes :=
  if b = 34 ∨ b = 92 then [92, b]
  else if 7 ≤ b ∧ b ≤ 13 then 92 :: ((blit "abtnvfr")[b.toNat - 7]?).toList
  else if 32 ≤ b ∧ b < 127 then [b]
  else [92, 48 + b / 64, 48 + b / 8 % 8, 48 + b % 8]

/-- The name is printed as it is. -/
def Unquoted (path : Bytes) : Prop := ∀ b ∈ path, 32 ≤ b ∧ b < 127 ∧ b ≠ 34 ∧ b ≠ 92

instance (path : Bytes) : Decidable (Unquoted path) :=
  inferInstanceAs (Decidable (∀ b ∈ path, 32 ≤ b ∧ b < 127 ∧ b ≠ 34 ∧ b ≠ 92))

def quoteName (side path : Bytes) : Bytes :=
  if Unquoted path then side ++ path else 34 :: side ++ path.flatMap escape ++ [34]

/-- A name on a line of its own ends with a tab where it holds a blank. -/
def nameLine (side path : Bytes) : Bytes := quoteName side path ++ if 32 ∈ path then [9] else []

def Mode.text : Mode → String
  | .regular => "100644"
  | .executable => "100755"
  | .symlink => "120000"

/-- Where lines of a version stand: the first of them, or the line before where there is none. -/
def rangeText (before count : Nat) : Str :=
  natRepr (if count = 0 then before else before + 1) ++ if count = 1 then [] else 44 :: natRepr count

/-- A printed line. -/
inductive DiffLine where
  | git (source path : Bytes)
  | oldMode (mode : Mode)
  | newMode (mode : Mode)
  | newFile (mode : Mode)
  | deletedFile (mode : Mode)
  | similarity (percent : Nat)
  | renameFrom (source : Bytes)
  | renameTo (path : Bytes)
  | index (names : Str)
  | oldName (source : Option Bytes)
  | newName (path : Option Bytes)
  /-- the header of a hunk: the lines before it in both versions, and how many it takes -/
  | hunk (oldLine oldCount newLine newCount : Nat) (heading : Bytes)
  | removed (text : Bytes)
  | added (text : Bytes)
  | noNewline

def DiffLine.text : DiffLine → Bytes
  | git source path => blit "diff --git " ++ quoteName (blit "a/") source ++ 32 :: quoteName (blit "b/") path
  | oldMode mode => blit "old mode " ++ blit mode.text
  | newMode mode => blit "new mode " ++ blit mode.text
  | newFile mode => blit "new file mode " ++ blit mode.text
  | deletedFile mode => blit "deleted file mode " ++ blit mode.text
  | similarity percent => blit "similarity index " ++ asciiBytes (natRepr percent) ++ blit "%"
  | renameFrom source => blit "rename from " ++ quoteName [] source
  | renameTo path => blit "rename to " ++ quoteName [] path
  | index names => blit "index " ++ asciiBytes names
  | oldName source => blit "--- " ++ source.elim (blit "/dev/null") (nameLine (blit "a/"))
  | newName path => blit "+++ " ++ path.elim (blit "/dev/null") (nameLine (blit "b/"))
  | hunk oldLine oldCount newLine newCount heading =>
    asciiBytes (lit "@@ -" ++ rangeText oldLine oldCount ++ lit " +" ++ rangeText newLine newCount ++ lit " @@") ++
      if heading = [] then [] else 32 :: heading
  | removed text => 45 :: text
  | added text => 43 :: text
  | noNewline => blit "\\ No newline at end of file"

def Line.lines (sign : Bytes → DiffLine) (line : Line) : List DiffLine :=
  sign line.text :: if line.ended then [] else [.noNewline]

def Hunk.lines (h : Hunk) (oldLine newLine : Nat) : List DiffLine :=
  .hunk oldLine h.removed.length newLine h.added.length h.heading ::
    (h.removed.flatMap (Line.lines .removed) ++ h.added.flatMap (Line.lines .added))

/-- The hunks of a file, after so many lines of both versions. -/
def hunkLines : Nat → Nat → List Hunk → List DiffLine
  | _, _, [] => []
  | oldLine, newLine, h :: hunks =>
    h.lines (oldLine + h.kept.length) (newLine + h.kept.length) ++
      hunkLines (oldLine + h.kept.length + h.removed.length) (newLine + h.kept.length + h.added.length) hunks

def Change.source (c : Change) : Bytes :=
  match c.kind with
  | .renamed source _ => source
  | _ => c.path

def Change.modeLines (c : Change) : List DiffLine :=
  if c.oldMode = c.newMode then [] else [.oldMode c.oldMode, .newMode c.newMode]

def Change.kindLines (c : Change) : List DiffLine :=
  match c.kind with
  | .modified => c.modeLines
  | .added => [.newFile c.newMode]
  | .deleted => [.deletedFile c.oldMode]
  | .renamed source similarity => c.modeLines ++ [.similarity similarity, .renameFrom source, .renameTo c.path]

def Change.nameLines (c : Change) : List DiffLine :=
  if c.hunks.isEmpty then []
  else [.oldName (if c.kind = .added then none else some c.source), .newName (if c.kind = .deleted then none else some c.path)]

def Change.lines (c : Change) : List DiffLine :=
  .git c.source c.path :: c.kindLines ++ (c.index.map DiffLine.index).toList ++ c.nameLines ++ hunkLines 0 0 c.hunks

/-- `git diff --unified=0 --no-color` -/
def diffU0 (changes : List Change) : Bytes := (changes.flatMap Change.lines).flatMap fun line => line.text ++ [10]

end narwhal.raw_diff
