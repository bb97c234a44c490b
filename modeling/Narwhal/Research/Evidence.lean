import Narwhal.Lib.JsonSchema
import Narwhal.Lib.JsonSpaced
import Narwhal.Lib.TextLines

open pylib jsonschema

namespace narwhal.check_research_evidence

/-! ### The schema -/

/-- `[A-Za-z0-9_.-]` -/
def labelRanges : List (Nat × Nat) := CodeClass.upper ++ CodeClass.lower ++ CodeClass.digits ++ CodeClass.chars "_.-"

def hexRanges : List (Nat × Nat) := CodeClass.digits ++ [(97, 102)]

/-- `[0-9a-f]{7,40}` -/
def revisionPattern : Regex CodeClass := Regex.between 7 40 (anyOf hexRanges)

def repositoryPattern : Regex CodeClass :=
  Regex.chain [Regex.plus (anyOf labelRanges), literal "/", Regex.plus (anyOf labelRanges)]

def EVENT_TYPES : List String :=
  ["build", "test", "install", "deploy", "runtime", "recovery", "agent_task", "release", "benchmark"]

def RESULTS : List String := ["pass", "fail", "partial", "cancelled", "skipped"]

def daysInMonth (year month : Nat) : Nat :=
  if month = 2 then if year % 4 = 0 ∧ (year % 100 ≠ 0 ∨ year % 400 = 0) then 29 else 28
  else if month ∈ [4, 6, 9, 11] then 30
  else 31

/-- The rest of a text after a beginning of this form, in which a `d` stands for a digit. -/
def afterForm (decimal : Nat → Bool) : Str → Str → Option Str
  | [], s => some s
  | t :: form, c :: s => if (if t = 100 then decimal c else c = t) then afterForm decimal form s else none
  | _ :: _, [] => none

/-- `(?:\.\d+)?Z`, up to the end -/
def endsMoment (decimal : Nat → Bool) (s : Str) : Bool :=
  s = [90] ∨ s.head? = some 46 ∧ s.getLast? = some 90 ∧ 3 ≤ s.length ∧ ∀ c ∈ s.tail.dropLast, decimal c = true

/-- `\d{4}-\d{2}-\d{2}T\d{2}:\d{2}:\d{2}(?:\.\d+)?Z` as a whole; `decimal` is what `\d` matches. -/
def isTimestamp (decimal : Nat → Bool) (s : Str) : Bool :=
  (afterForm decimal (lit "dddd-dd-ddTdd:dd:dd") s).any (endsMoment decimal)

/-- Whether `datetime.fromisoformat` reads a text of that form: its digits are those of ASCII, and name
    a moment. -/
def isMoment (s : Str) : Bool :=
  let field (start length : Nat) := natOfDigits ((s.drop start).take length)
  isTimestamp isDigit s && 1 ≤ field 0 4 && 1 ≤ field 5 2 && field 5 2 ≤ 12 && 1 ≤ field 8 2 &&
    field 8 2 ≤ daysInMonth (field 0 4) (field 5 2) && field 11 2 ≤ 23 && field 14 2 ≤ 59 && field 17 2 ≤ 59

def utc_datetime (decimal : Nat → Bool) : Json → Bool
  | .str s => isTimestamp decimal s && isMoment s
  | _ => false

def SCHEMA (decimal : Nat → Bool) : Schema :=
  schema [
    type [.object],
    required ["schema_version", "timestamp", "repository", "revision", "event_type", "task_or_test", "result",
      "duration_ms", "environment", "attempt", "human_interventions", "review_corrections", "ci_retries", "metadata"],
    properties [
      ("schema_version", schema [const "1.0"]),
      ("timestamp", schema [type [.string], format (utc_datetime decimal)]),
      ("repository", schema [type [.string], pattern repositoryPattern, maxLength 200]),
      ("revision", schema [type [.string], pattern revisionPattern]),
      ("event_type", schema [enum EVENT_TYPES]),
      ("task_or_test", schema [type [.string], minLength 1, maxLength 160,
        pattern (Regex.plus (anyOf (labelRanges ++ CodeClass.chars ":/() ")))]),
      ("result", schema [enum RESULTS]),
      ("duration_ms", schema [type [.integer, .null], minimum 0]),
      ("environment", schema [type [.string], minLength 1, maxLength 80, pattern (Regex.plus (anyOf labelRanges))]),
      ("attempt", schema [type [.integer], minimum 0]),
      ("human_interventions", schema [type [.integer], minimum 0]),
      ("review_corrections", schema [type [.integer], minimum 0]),
      ("ci_retries", schema [type [.integer], minimum 0]),
      ("metadata", schema [type [.object],
        properties [] (schema [type [.string, .number, .integer, .boolean, .null]]),
        propertyNames (schema [pattern (Regex.between 1 80 (anyOf labelRanges))]), maxProperties 40])]
      never]

/-- `[\"']?` -/
def quoteMark : Regex CodeClass := Regex.opt (anyOf (CodeClass.chars "\"'"))

/-- `\s*[:=]\s*["']?[^\s,"']{8,}` -/
def assignedSecret : Regex CodeClass :=
  Regex.chain [.star (anyOf CodeClass.spaces), anyOf (CodeClass.chars ":="), .star (anyOf CodeClass.spaces), quoteMark,
    Regex.atLeast 8 (noneOf (CodeClass.spaces ++ CodeClass.chars ",\"'"))]

/-- `bearer\s+` and a token of at least 12 letters. -/
def bearerToken : Regex CodeClass :=
  Regex.chain [literal "bearer", Regex.plus (anyOf CodeClass.spaces),
    Regex.atLeast 12 (anyOf (CodeClass.lower ++ CodeClass.digits ++ CodeClass.chars "._~+-/"))]

/-- `gh[pousr]_[a-z0-9]{20,}` -/
def githubToken : Regex CodeClass :=
  Regex.chain [literal "gh", anyOf (CodeClass.chars "pousr"), literal "_",
    Regex.atLeast 20 (anyOf (CodeClass.lower ++ CodeClass.digits))]

/-- `api[_-]?key` -/
def apiKey : Regex CodeClass := Regex.chain [literal "api", Regex.opt (anyOf (CodeClass.chars "_-")), literal "key"]

/-- `-----BEGIN (?:RSA |EC |OPENSSH )?PRIVATE KEY-----`, in small letters. -/
def privateKey : Regex CodeClass :=
  Regex.chain [literal "-----begin ", Regex.opt (Regex.oneOf [literal "rsa ", literal "ec ", literal "openssh "]),
    literal "private key-----"]

def SECRET_PATTERN : Regex CodeClass :=
  Regex.oneOf [bearerToken, githubToken,
    Regex.chain [Regex.oneOf [literal "password", literal "token", literal "secret", apiKey, literal "authorization", literal "cookie"],
      quoteMark, assignedSecret],
    privateKey]

/-! ### Git -/

/-- What a `git` command has done: it printed a text, it failed or could not be started, or it printed
    what is not UTF-8. -/
inductive Answer where
  | text (stdout : Str)
  | failed
  | undecodable
deriving DecidableEq

/-- `git_output`; `none` is an exception. -/
def git_output : Answer → Option Str
  | .text stdout => some (strip stdout)
  | _ => none

def isLabelChar (c : Nat) : Bool := (CodeClass.mk false labelRanges).has c

/-- `([A-Za-z0-9_.-]+?)(?:\.git)?/?$`: the shortest name that leaves one of these endings. -/
def nameOf (rest : Str) : Option Str :=
  [".git/", ".git", "/", ""].findSome? fun ending =>
    let name := rest.take (rest.length - (lit ending).length)
    if (lit ending).isSuffixOf rest ∧ name ≠ [] ∧ name.all isLabelChar then some name else none

/-- The group of the pattern of `repository_slug`, from after the host on. -/
def slugAt (s : Str) : Option Str :=
  let owner := s.takeWhile isLabelChar
  match s.dropWhile isLabelChar with
  | 47 :: rest => if owner = [] then none else (nameOf rest).map fun name => owner ++ 47 :: name
  | _ => none

/-- `repository_slug` of what `git remote get-url origin` answers; `none` is an exception. -/
def repository_slug (origin : Answer) : Option Str :=
  (git_output origin).bind fun remote =>
    remote.tails.findSome? fun s =>
      if (lit "github.com:").isPrefixOf s ∨ (lit "github.com/").isPrefixOf s then slugAt (s.drop 11) else none

/-! ### The errors of a record -/

/-- An error of the validator: where it is, and what it says. -/
structure SchemaError where
  path : List Str
  message : Str

def SchemaError.text (error : SchemaError) : Str :=
  let path := [46].intercalate error.path
  lit "schema " ++ (if path = [] then lit "<root>" else path) ++ lit ": " ++ error.message

/-- `record_errors`; `commits` says whether `git cat-file -e` finds a commit. -/
def record_errors (iter_errors : Json → List SchemaError) (commits : Str → Bool) (record : Json) (slug : Str) :
    List Str :=
  ((iter_errors record).mergeSort fun a b => a.path ≤ b.path).map SchemaError.text ++
    (if searchFolded SECRET_PATTERN (spaced quote record) then [lit "secret-pattern match"] else []) ++
    match record with
    | .obj fields =>
      (if lookupField (lit "repository") fields = some (.str slug) then [] else [lit "repository does not match origin"]) ++
        match lookupField (lit "revision") fields with
        | some (.str revision) =>
          if fullmatch revisionPattern revision ∧ commits revision = false then
            [lit "revision does not exist as a local commit"]
          else []
        | _ => []
    | _ => []

/-- A record has no errors exactly if it passes the schema, holds no secret, is of this repository, and names a known
    commit where it names one. -/
theorem record_errors_eq_nil_iff {iter_errors : Json → List SchemaError} {commits : Str → Bool} {fields : List (Str × Json)}
    {slug : Str} : record_errors iter_errors commits (.obj fields) slug = [] ↔
      iter_errors (.obj fields) = [] ∧ searchFolded SECRET_PATTERN (spaced quote (.obj fields)) = false ∧
        lookupField (lit "repository") fields = some (.str slug) ∧
        ∀ revision, lookupField (lit "revision") fields = some (.str revision) →
          fullmatch revisionPattern revision = true → commits revision = true := by
  have hsorted : ∀ errors : List SchemaError, (errors.mergeSort fun a b => a.path ≤ b.path) = [] ↔ errors = [] := by
    intro errors
    rw [← List.length_eq_zero_iff, List.length_mergeSort, List.length_eq_zero_iff]
  rw [record_errors, List.append_eq_nil_iff, List.append_eq_nil_iff, List.map_eq_nil_iff, hsorted, List.append_eq_nil_iff,
    and_assoc]
  refine and_congr_right fun _ => and_congr (by simp) (and_congr (by simp) ?_)
  constructor
  · intro h revision hrevision hfull
    simpa [hrevision, hfull] using h
  · intro h
    split
    · next revision hrevision =>
      rw [if_neg]
      rintro ⟨hfull, hmissing⟩
      exact Bool.false_ne_true (hmissing.symm.trans (h revision hrevision hfull))
    · rfl

end narwhal.check_research_evidence
