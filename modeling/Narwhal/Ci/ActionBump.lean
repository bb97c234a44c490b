import Narwhal.Lib.Hex
import Narwhal.Lib.Split
import Narwhal.Lib.TextLines

open pylib

namespace narwhal.action_bump

/-! ### A line that uses an action -/

/-- What the parts of `USES_RE` match. -/
structure Uses where
  lead : Str
  /-- group 1 -/
  marker : Option Str
  gap : Str
  ref : Str
  sha : Str
  beforeHash : Str
  afterHash : Str
  tag : Str
  trail : Str
deriving DecidableEq, Repr

/-- A run of code points of a kind, as long as possible and not empty, and what follows it. -/
def cut (kind : Nat → Bool) (s : Str) : Option (Str × Str) :=
  if s.takeWhile kind = [] then none else some (s.takeWhile kind, s.dropWhile kind)

/-- What follows a word. -/
def word (w s : Str) : Option Str := if w.isPrefixOf s then some (s.drop w.length) else none

def isDigit (c : Nat) : Bool := 48 ≤ c && c < 58

def isAlnum (c : Nat) : Bool := isDigit c || (65 ≤ c && c < 91) || (97 ≤ c && c < 123)

/-- A character of a reference: alphanumeric, or one of `_`, `.`, `/` and `-`. -/
def isRefChar (c : Nat) : Bool := isAlnum c || c == 95 || c == 46 || c == 47 || c == 45

/-- A slash with something before and after it, in a text of these characters. -/
def isRef (ref : Str) : Bool := ref.takeWhile (· != 47) ≠ [] && (ref.dropWhile (· != 47)).tail ≠ []

/-- A character of a tag: alphanumeric, or one of `.`, `+` and `-`. -/
def isTagChar (c : Nat) : Bool := isAlnum c || c == 46 || c == 43 || c == 45

/-- `v?[0-9]` at the start of a text of these characters -/
def isTag : Str → Bool
  | 118 :: c :: _ => isDigit c
  | c :: _ => isDigit c
  | [] => false

/-- `[0-9a-f]{40}` -/
def cutSha (s : Str) : Option (Str × Str) :=
  if (s.take 40).length = 40 ∧ (s.take 40).all isLowerHex then some (s.take 40, s.drop 40) else none

/-- `(-\s+)?` -/
def cutMarker (s : Str) : Option (Option Str × Str) :=
  match word [45] s with
  | none => some (none, s)
  | some rest => (cut isSpace rest).map fun found => (some (45 :: found.1), found.2)

/-- `USES_RE.match(line)` -/
def usesRe (line : Str) : Option Uses := do
  let (lead, s) ← cut isSpace line
  let (marker, s) ← cutMarker s
  let s ← word (lit "uses:") s
  let (gap, s) ← cut isSpace s
  let (ref, s) ← (cut isRefChar s).filter fun found => isRef found.1
  let s ← word [64] s
  let (sha, s) ← cutSha s
  let (beforeHash, s) ← cut isSpace s
  let s ← word [35] s
  let (afterHash, s) ← cut isSpace s
  let (tag, trail) ← (cut isTagChar s).filter fun found => isTag found.1
  if trail.all isSpace then some ⟨lead, marker, gap, ref, sha, beforeHash, afterHash, tag, trail⟩ else none

/-- The line up to the SHA. -/
def Uses.before (u : Uses) : Str := u.lead ++ u.marker.getD [] ++ lit "uses:" ++ u.gap ++ u.ref ++ [64]

/-- The line between the SHA and the tag. -/
def Uses.between (u : Uses) : Str := u.beforeHash ++ 35 :: u.afterHash

/-- The line with `<SHA>` and `<TAG>`. -/
def Uses.norm (u : Uses) : Str := u.before ++ lit "<SHA>" ++ u.between ++ lit "<TAG>" ++ u.trail

def parse_version_part (part : Str) : Option Nat :=
  if part.takeWhile isDigit = [] then none
  else some ((part.takeWhile isDigit).foldl (fun n c => 10 * n + (c - 48)) 0)

def parse_version_tag (tag : Str) : Option (List Nat) :=
  (split [46] (if tag.head? = some 118 then tag.tail else tag)).mapM parse_version_part

/-! ### The diff -/

structure HunkText where
  header : Str
  lines : List Str
deriving DecidableEq, Repr

structure FileDiff where
  header : Str
  metadata : List Str
  hunks : List HunkText
deriving DecidableEq, Repr

def FileDiff.add (fd : FileDiff) (line : Str) : FileDiff :=
  if (lit "@@").isPrefixOf line then { fd with hunks := fd.hunks ++ [⟨line, []⟩] }
  else match fd.hunks.getLast? with
    | none => { fd with metadata := fd.metadata ++ [line] }
    | some hunk => { fd with hunks := fd.hunks.dropLast ++ [{ hunk with lines := hunk.lines ++ [line] }] }

/-- The files so far and the current one, after one more line. -/
def readLine (state : List FileDiff × Option FileDiff) (line : Str) : List FileDiff × Option FileDiff :=
  if (lit "diff --git ").isPrefixOf line then (state.1 ++ state.2.toList, some ⟨line, [], []⟩)
  else (state.1, state.2.map fun fd => fd.add line)

def readDiff (lines : List Str) : List FileDiff :=
  (lines.foldl readLine ([], none)).1 ++ (lines.foldl readLine ([], none)).2.toList

/-! ### What is checked -/

/-- A reason against the exemption, with what its text names. -/
inductive Reason where
  | namesFailed
  | emptyDiff
  | notWorkflow (path : Str)
  | diffFailed
  | unsupported (what header : Str)
  | noHunks (header : Str)
  | unexpectedLine (line : Str)
  | emptyHunk
  | pureAdditions (count : Nat)
  | pureDeletions (count : Nat)
  | countMismatch (removed added : Nat)
  | removedNotUses (line : Str)
  | addedNotUses (line : Str)
  | indentation (removed added : Str)
  | marker (removed added : Option Str)
  | refChanged (removed added : Str)
  | beyond (removed added : Str)
  | unchanged
  | unparseable (removed added : Str)
  | downgrade (removed added : Str)
  | refShape (ref : Str)
  | noBumps
  | timedOut (key : Str)
  | lsRemoteError (key : Str)
  | lsRemoteFailed (key : Str)
  | tagNotFound (tag owner repo : Str)
  | shaMismatch (key resolved sha : Str)
deriving DecidableEq, Repr

structure Bump where
  ref : Str
  owner : Str
  repo : Str
  oldSha : Str
  newSha : Str
  oldTag : Str
  tag : Str
deriving DecidableEq, Repr

def isWorkflow (path : Str) : Bool :=
  match split [47] path with
  | [github, workflows, name] =>
    github = lit ".github" && workflows = lit "workflows" &&
      ((lit ".yml").isSuffixOf name || (lit ".yaml").isSuffixOf name)
  | _ => false

def forbidden : List Str :=
  ["new file mode", "deleted file mode", "old mode", "new mode", "similarity index", "rename from", "rename to",
    "Binary files"].map lit

def expect (ok : Bool) (reason : Reason) : List Reason := if ok then [] else [reason]

def tagReasons (removed added : Str) : List Reason :=
  match parse_version_tag removed, parse_version_tag added with
  | some old, some new => expect (old < new) (.downgrade removed added)
  | _, _ => [.unparseable removed added]

/-- The reasons against a pair of lines that both match, in their order. -/
def matchReasons (removed added : Str) (r a : Uses) : List Reason :=
  expect (r.lead = a.lead) (.indentation r.lead a.lead) ++
    expect (r.marker.getD [] = a.marker.getD []) (.marker r.marker a.marker) ++
    expect (r.ref = a.ref) (.refChanged r.ref a.ref) ++
    expect (r.norm = a.norm) (.beyond removed added) ++
    expect (!(r.sha = a.sha && r.tag = a.tag)) .unchanged ++
    tagReasons r.tag a.tag ++
    expect (2 ≤ (split [47] a.ref).length) (.refShape a.ref)

def checkPair (pair : Str × Str) : List Reason × List Bump :=
  match usesRe pair.1, usesRe pair.2 with
  | some r, some a =>
    (matchReasons pair.1 pair.2 r a,
      match split [47] a.ref with
      | owner :: repo :: _ => [⟨a.ref, owner, repo, r.sha, a.sha, r.tag, a.tag⟩]
      | _ => [])
  | r, a => (expect r.isSome (.removedNotUses pair.1) ++ expect a.isSome (.addedNotUses pair.2), [])

def removedOf (lines : List Str) : List Str := lines.filterMap (word [45])

def addedOf (lines : List Str) : List Str := lines.filterMap (word [43])

def checkHunk (hunk : HunkText) : List Reason × List Bump :=
  let removed := removedOf hunk.lines
  let added := addedOf hunk.lines
  let unexpected := (hunk.lines.filter fun line => !([45].isPrefixOf line || [43].isPrefixOf line)).map .unexpectedLine
  if removed = [] ∧ added = [] then (unexpected ++ [.emptyHunk], [])
  else if removed = [] then (unexpected ++ [.pureAdditions added.length], [])
  else if added = [] then (unexpected ++ [.pureDeletions removed.length], [])
  else if removed.length ≠ added.length then (unexpected ++ [.countMismatch removed.length added.length], [])
  else (unexpected ++ (removed.zip added).flatMap fun pair => (checkPair pair).1,
    (removed.zip added).flatMap fun pair => (checkPair pair).2)

def checkFile (fd : FileDiff) : List Reason × List Bump :=
  ((fd.metadata.flatMap fun line =>
      (forbidden.filter fun what => what.isPrefixOf line).map fun what => .unsupported what fd.header) ++
    expect (fd.hunks ≠ []) (.noHunks fd.header) ++ fd.hunks.flatMap fun hunk => (checkHunk hunk).1,
    fd.hunks.flatMap fun hunk => (checkHunk hunk).2)

/-! ### The upstream tags -/

/-- A line that `git ls-remote` prints. -/
structure Ref where
  sha : Str
  name : Str
deriving DecidableEq, Repr

inductive LsRemote where
  | timedOut
  | error
  | failed
  | listed (refs : List Ref)
deriving DecidableEq, Repr

def stdout (refs : List Ref) : Str := unlines (refs.map fun r => r.sha ++ 9 :: r.name)

def lower (s : Str) : Str := s.map fun c => if 65 ≤ c ∧ c < 91 then c + 32 else c

/-- `line.strip().split(None, 1)` where that has two parts -/
def splitOnce (line : Str) : Option (Str × Str) :=
  match (strip line).dropWhile (fun c => !isSpace c) with
  | [] => none
  | rest => some ((strip line).takeWhile (fun c => !isSpace c), rest.dropWhile isSpace)

def tagRef (tag : Str) : Str := lit "refs/tags/" ++ tag

def peeledRef (tag : Str) : Str := tagRef tag ++ lit "^\x7b\x7d"

/-- `peeled` and `plain` after one more line. -/
def readRef (tag : Str) (found : Option Str × Option Str) (line : Str) : Option Str × Option Str :=
  match splitOnce line with
  | none => found
  | some (sha, name) =>
    if strip name = peeledRef tag then (some (lower (strip sha)), found.2)
    else if strip name = tagRef tag then (found.1, some (lower (strip sha)))
    else found

def resolved (tag : Str) (text : Str) : Option Str :=
  let found := (splitLines (universalNewlines text)).foldl (readRef tag) (none, none)
  found.1.or found.2

/-- What the script reads from git. -/
structure Git where
  /-- `git diff --name-only`; `none` when it fails -/
  names : Option Str
  /-- `git diff -U0` -/
  diff : Option Str
  ls_remote (owner repo tag : Str) : LsRemote

def Bump.key (b : Bump) : Str := b.owner ++ 47 :: b.repo ++ 64 :: b.tag

def shaReasons (b : Bump) (sha : Option Str) : List Reason :=
  match sha with
  | none | some [] => [.tagNotFound b.tag b.owner b.repo]
  | some sha => expect (lower b.newSha = sha) (.shaMismatch b.key sha b.newSha)

/-- The reasons so far and the cache, after one more bump. -/
def resolveBump (git : Git) (state : List Reason × List (Str × Option Str)) (b : Bump) :
    List Reason × List (Str × Option Str) :=
  match state.2.lookup b.key with
  | some sha => (state.1 ++ shaReasons b sha, state.2)
  | none =>
    match git.ls_remote b.owner b.repo b.tag with
    | .timedOut => (state.1 ++ [.timedOut b.key], state.2)
    | .error => (state.1 ++ [.lsRemoteError b.key], state.2)
    | .failed => (state.1 ++ [.lsRemoteFailed b.key], state.2)
    | .listed refs =>
      (state.1 ++ shaReasons b (resolved b.tag (stdout refs)), (b.key, resolved b.tag (stdout refs)) :: state.2)

def resolve_upstream (git : Git) (bumps : List Bump) : List Reason := (bumps.foldl (resolveBump git) ([], [])).1

/-! ### The verdict -/

structure Report where
  isExempt : Bool
  reasons : List Reason
  bumps : List Bump
deriving DecidableEq, Repr

def refused (reasons : List Reason) : Report := ⟨false, reasons, []⟩

/-- The changed paths, one for each line that is not blank. -/
def changedPaths (names : Str) : List Str :=
  ((splitLines (universalNewlines names)).map strip).filter fun p => p ≠ []

def check_bump (git : Git) : Report :=
  match git.names with
  | none => refused [.namesFailed]
  | some names =>
    let changed := changedPaths names
    if changed = [] then refused [.emptyDiff]
    else
      let outside := (changed.filter fun p => !isWorkflow p).map .notWorkflow
      match git.diff with
      | none => refused (outside ++ [.diffFailed])
      | some diff =>
        let files := readDiff (splitLines (universalNewlines diff))
        let reasons := outside ++ files.flatMap fun fd => (checkFile fd).1
        let bumps := files.flatMap fun fd => (checkFile fd).2
        if bumps = [] ∧ reasons = [] then refused [.noBumps]
        else if reasons ≠ [] then refused reasons
        else if resolve_upstream git bumps ≠ [] then refused (resolve_upstream git bumps)
        else ⟨true, [], bumps⟩

end narwhal.action_bump
