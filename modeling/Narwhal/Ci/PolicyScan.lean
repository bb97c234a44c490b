import Narwhal.Lib.Split
import Narwhal.Lib.TextLines

open pylib

namespace narwhal.permissive_ingress_isolation

/-! ### Kind declarations -/

section

/-! The letters and digits outside ASCII, by Unicode's tables. -/
variable (alnum : Nat → Bool)

/-- `\w` -/
def isWord (c : Nat) : Bool :=
  if c < 128 then (48 ≤ c && c < 58) || (65 ≤ c && c < 91) || (97 ≤ c && c < 123) || c == 95
  else alnum c && !isSpace c

def isQuote (c : Nat) : Bool := c == 34 || c == 39

/-- `["']?` -/
def skipQuote : Str → Str
  | [] => []
  | c :: rest => if isQuote c then rest else c :: rest

/-- What follows `:\s*["']?`. -/
def afterColon : Str → Option Str
  | 58 :: rest => some (skipQuote (rest.dropWhile isSpace))
  | _ => none

/-- What follows `kind["']?\s*:\s*["']?`. -/
def afterKind (s : Str) : Option Str :=
  if (lit "kind").isPrefixOf s then afterColon ((skipQuote (s.drop 4)).dropWhile isSpace) else none

/-- `kind["']?\s*:\s*["']?` and then a name up to a word boundary, of which `\w*` takes all but its
    end. -/
def matchKind (isName : Str → Bool) (s : Str) : Option Str :=
  match afterKind s with
  | some rest =>
    if isName (rest.takeWhile (isWord alnum)) then some (s.take (s.length - (rest.dropWhile (isWord alnum)).length))
    else none
  | none => none

/-- `\w*NetworkPolicy` -/
def isPolicyName (word : Str) : Bool := (lit "NetworkPolicy").isSuffixOf word

def isAuthenticationName (word : Str) : Bool := word == lit "PeerAuthentication"

def KIND_RE : Str → Option Str := matchKind alnum fun word => isAuthenticationName word || isPolicyName word

def NP_RE : Str → Option Str := matchKind alnum isPolicyName

def PA_RE : Str → Option Str := matchKind alnum isAuthenticationName

/-- `pattern.search(s)` -/
def search (pattern : Str → Option Str) (s : Str) : Bool := s.tails.any fun t => (pattern t).isSome

/-! ### Heredocs -/

def isComment (line : Str) : Bool := (line.dropWhile isSpace).head? == some 35

/-- `"\n".join(lines)` -/
def joinLines (lines : List Str) : Str := [10].intercalate lines

def strip (text : Str) : Str := joinLines ((splitLines text).filter fun line => !isComment line)

/-- `(-?)\s*(['\"]?)(\w+)\2`: whether tabs are stripped, and the delimiter. -/
def delimiterAt (s : Str) : Option (Bool × Str) :=
  let tabs := s.head? == some 45
  let s := (if tabs then s.tail else s).dropWhile isSpace
  let quoted := s.head?.filter isQuote
  let s := skipQuote s
  let word := s.takeWhile (isWord alnum)
  if word ≠ [] ∧ quoted.all (fun c => (s.drop word.length).head? == some c) then some (tabs, word) else none

/-- The first match of the pattern for the start of a heredoc; `prev` when the last character was a
    `<`. -/
def openingFrom (prev : Bool) : Str → Option (Bool × Str)
  | [] => none
  | c :: rest =>
    let here := if !prev && c == 60 && rest.head? == some 60 && rest.tail.head? != some 60 then
      delimiterAt alnum rest.tail else none
    here.or (openingFrom (c == 60) rest)

def opening (line : Str) : Option (Bool × Str) := openingFrom alnum false line

/-- The lines of the body of a heredoc, by their numbers, and whether leading tabs are stripped. -/
structure Span where
  start : Nat
  stop : Nat
  tabs : Bool
deriving DecidableEq

/-- `line.lstrip("\t") if tabs else line` -/
def chop (tabs : Bool) (line : Str) : Str := if tabs then line.dropWhile (· == 9) else line

/-- The loop over the lines, outside of a heredoc or in one, of which the start and the opening are
    known. A heredoc without an end has all lines that follow. -/
def spansFrom : Option (Nat × Bool × Str) → Nat → List Str → List Span
  | none, _, [] => []
  | some (start, tabs, _), i, [] => [⟨start, i, tabs⟩]
  | none, i, line :: rest => spansFrom ((opening alnum line).map fun found => (i + 1, found)) (i + 1) rest
  | some (start, tabs, delim), i, line :: rest =>
    if chop tabs line = delim then ⟨start, i, tabs⟩ :: spansFrom none (i + 1) rest
    else spansFrom (some (start, tabs, delim)) (i + 1) rest

def spans (text : Str) : List Span := spansFrom alnum none 0 (splitLines text)

def Span.lines (span : Span) (text : Str) : List Str := ((splitLines text).take span.stop).drop span.start

def Span.raw (span : Span) (text : Str) : Str := joinLines (span.lines text)

def Span.body (span : Span) (text : Str) : Str := joinLines ((span.lines text).map (chop span.tabs))

/-- The pairs of a raw body and a body. -/
def heredocs (text : Str) : List (Str × Str) := (spans alnum text).map fun span => (span.raw text, span.body text)

/-- `text.replace(raw, "", 1)` -/
def removeFirst (raw : Str) : Str → Str
  | [] => []
  | c :: rest => if raw.isPrefixOf (c :: rest) then (c :: rest).drop raw.length else c :: removeFirst raw rest

/-! ### Documents -/

/-- What YAML documents hold. -/
inductive Value where
  | null
  | str (s : Str)
  | list (items : List Value)
  | dict (fields : List (Value × Value))
  | scalar (text : Str)

/-- `doc.get(key)` -/
def get (key : Str) : List (Value × Value) → Option Value
  | [] => none
  | (.str k, v) :: rest => if k = key then some v else get key rest
  | _ :: rest => get key rest

/-- `doc.get("kind") == "List"` -/
def isList (fields : List (Value × Value)) : Bool :=
  match get (lit "kind") fields with
  | some (.str s) => s == lit "List"
  | _ => false

/-- The loop over the documents of a chunk. -/
def collect (rel : Str) : List Value → Except Str (List Value)
  | [] => .ok []
  | .null :: rest => collect rel rest
  | .dict fields :: rest =>
    if isList fields then
      match get (lit "items") fields with
      | some (.list items) => do return items ++ (← collect rel rest)
      | _ => .error (rel ++ lit ": List without an items array")
    else do return .dict fields :: (← collect rel rest)
  | _ :: _ => .error (rel ++ lit ": non-mapping document")

/-- What a scan has found and printed, and the files that it has warned about. -/
structure Scan where
  docs : List Value
  WARNED : List Str
  printed : List Str

def warning (rel : Str) : Str :=
  lit "WARN: skipped templated NetworkPolicy file " ++ rel ++ lit " (cannot be evaluated statically)"

def isTemplated (suffix chunk : Str) : Bool :=
  suffix == lit ".tpl" || isInfix [123, 123] (strip chunk)

/-- What the YAML library makes of a text, or the JSON decoder with its hook; an error has a text. -/
abbrev Loader := Bool → Str → Except Str (List Value)

variable (load : Loader)

def scanChunk (rel suffix : Str) (s : Scan) (chunk : Str) : Except Str Scan :=
  if isTemplated suffix chunk then
    if search (PA_RE alnum) (strip chunk) then
      .error (rel ++ lit ": templated/.tpl PeerAuthentication cannot be evaluated statically")
    else if search (NP_RE alnum) (strip chunk) ∧ rel ∉ s.WARNED then
      .ok { s with WARNED := rel :: s.WARNED, printed := s.printed ++ [warning rel] }
    else .ok s
  else
    match load (suffix == lit ".json") chunk with
    | .error exc => .error (rel ++ lit ": unparsable source: " ++ exc)
    | .ok loaded => do
      let docs ← collect rel loaded
      return { s with docs := s.docs ++ docs }

/-- The text without the bodies, each taken out where it occurs first. -/
def outside (text : Str) : Str := (heredocs alnum text).foldl (fun text found => removeFirst found.1 text) text

def documents (rel suffix : Str) (WARNED : List Str) (text : Str) : Except Str Scan :=
  let start : Scan := ⟨[], WARNED, []⟩
  if ¬ search (KIND_RE alnum) (strip text) then .ok start
  else if suffix = lit ".sh" then
    if search (KIND_RE alnum) (strip (outside alnum text)) then
      .error (rel ++ lit ": declares a policy outside a heredoc (cannot be scanned)")
    else
      let chunks := ((heredocs alnum text).map Prod.snd).filter fun body => search (KIND_RE alnum) (strip body)
      chunks.foldlM (scanChunk alnum load rel suffix) start
  else [text].foldlM (scanChunk alnum load rel suffix) start

end

end narwhal.permissive_ingress_isolation
