import Narwhal.Ci.RawDiff
import Narwhal.Ci.UsesLine
import Narwhal.Lib.JsMap

open pylib
open narwhal.action_bump (cut isAlnum)

namespace narwhal.markdownlint_changed

/-- `range(start, stop)` -/
structure Range where
  start : Nat
  stop : Nat
deriving DecidableEq

/-- The ranges of each file, in the order in which a `dict` keeps its keys. -/
abbrev Ranges := jslib.JsMap Str (List Range)

section

/-! The value of a character as a decimal digit (`\d`), and whether it belongs to words (`\w`). -/
variable (decimal : Nat → Option Nat) (isWord : Nat → Bool)

/-! ### The diff -/

/-- `int` of the longest `\d+`, and what follows it -/
def readNumber (s : Str) : Option (Nat × Str) :=
  (cut (fun c => (decimal c).isSome) s).map fun found =>
    (found.1.foldl (fun n c => 10 * n + (decimal c).getD 0) 0, found.2)

/-- `(\d+)(?:,(\d+))?` where a blank follows -/
def readRange (s : Str) : Option (Nat × Option Nat × Str) := do
  let (start, s) ← readNumber decimal s
  match action_bump.word [44] s with
  | none => some (start, none, s)
  | some s =>
    let (count, s) ← readNumber decimal s
    some (start, some count, s)

/-- `HUNK_RE.match(raw)`: its first group, and its second one or 1 -/
def hunkRange (raw : Str) : Option (Nat × Nat) := do
  let s ← action_bump.word (lit "@@ -") raw
  let (_, _, s) ← readRange decimal s
  let s ← action_bump.word (lit " +") s
  let (start, count, s) ← readRange decimal s
  let _ ← action_bump.word (lit " @@") s
  some (start, count.getD 1)

structure Scan where
  changed : Ranges
  current : Option Str

/-- `changed.get(path, [])` -/
def ranges (changed : Ranges) (path : Str) : List Range := (changed.get path).getD []

def scanLine (s : Scan) (raw : Str) : Scan :=
  if (lit "+++ b/").isPrefixOf raw then { s with current := some (raw.drop 6) }
  else match s.current with
    | none => s
    | some path =>
      if path = [] ∨ (lit "@@").isPrefixOf raw = false then s
      else match hunkRange decimal raw with
        | none => s
        | some (start, count) =>
          if count > 0 then
            { s with changed := s.changed.set path (ranges s.changed path ++ [⟨start, start + count⟩]) }
          else s

def scan (lines : List Str) : Scan := lines.foldl (scanLine decimal) ⟨.empty, none⟩

/-- `none` is the error of decoding what git prints. -/
def diff_ranges (diff : Bytes) : Option Ranges :=
  (utf8Decode diff).map fun text => (scan decimal (splitLines (universalNewlines text))).changed

/-- `changed.update(other)` -/
def update (changed other : Ranges) : Ranges := other.entries.foldl (fun changed entry => changed.set entry.1 entry.2) changed

/-- There is a second diff where the baseline is an ancestor; the first one then leaves out its files. -/
def changed_line_ranges (base : Bytes) (portal : Option Bytes) : Option Ranges :=
  match portal with
  | none => diff_ranges decimal base
  | some portal => do
    let changed ← diff_ranges decimal base
    let later ← diff_ranges decimal portal
    some (update changed later)

/-! ### The findings -/

def line_changed (ranges : List Range) (line : Nat) : Bool := ranges.any fun item => item.start ≤ line && line < item.stop

/-- `git ls-files` without the archive -/
def active_markdown_files (tracked : Str) : List Str :=
  (splitLines tracked).filter fun path => !(lit "docs/archive/").isPrefixOf path

def isLetter (c : Nat) : Bool := (65 ≤ c && c < 91) || (97 ≤ c && c < 123)

/-- `\b` at this place, which is not the start -/
def boundaryAt (s : Str) (i : Nat) : Bool := s[i - 1]?.any isWord != s[i]?.any isWord

/-- `(MD\d+|[A-Za-z][A-Za-z0-9-]*)\b` at the start -/
def matchesRule (s : Str) : Bool :=
  (match action_bump.word (lit "MD") s with
    | none => false
    | some rest => (List.range (rest.takeWhile fun c => (decimal c).isSome).length).any fun k => boundaryAt isWord s (k + 3)) ||
  match s with
  | [] => false
  | c :: rest =>
    isLetter c && (List.range ((rest.takeWhile fun c => isAlnum c || c == 45).length + 1)).any fun k => boundaryAt isWord s (k + 1)

/-- `:(\d+)(?::\d+)?\s+(MD\d+|[A-Za-z][A-Za-z0-9-]*)\b` at the start -/
def findingTail (s : Str) : Option Nat := do
  let s ← action_bump.word [58] s
  let (line, s) ← readNumber decimal s
  let s := ((action_bump.word [58] s).bind (readNumber decimal)).elim s Prod.snd
  let (_, s) ← cut isSpace s
  if matchesRule decimal isWord s then some line else none

/-- `LINT_RE.match(raw)`: its first group and the number of the second one -/
def lintMatch : Str → Option (Str × Nat)
  | [] => none
  | c :: rest =>
    match findingTail decimal isWord (c :: rest) with
    | some line => some ([], line)
    | none => if c = 10 then none else (lintMatch rest).map fun found => (c :: found.1, found.2)

structure Lint where
  returncode : Int
  stdout : Str
  stderr : Str

structure Report where
  code : Int
  changedActive : List Str
  violations : List Str

def isViolation (changed : Ranges) (raw : Str) : Bool :=
  match lintMatch decimal isWord raw with
  | none => false
  | some (path, line) =>
    let found := ranges changed (removeHead (lit "./") path)
    found ≠ [] && line_changed found line

def main (base : Bytes) (portal : Option Bytes) (tracked : Str) (lint : Lint) : Option Report := do
  let changed ← changed_line_ranges decimal base portal
  let active := active_markdown_files tracked
  if active = [] then return ⟨0, [], []⟩
  if lint.returncode ≠ 0 ∧ lint.returncode ≠ 1 then return ⟨lint.returncode, [], []⟩
  let violations := (splitLines (lint.stdout ++ lint.stderr)).filter (isViolation decimal isWord changed)
  let changedActive := ((changed.entries.map Prod.fst).filter (· ∈ active)).mergeSort
  return ⟨if violations = [] then 0 else 1, changedActive, violations⟩

end

end narwhal.markdownlint_changed
