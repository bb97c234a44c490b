import Narwhal.Lib.DepthFirst
import Narwhal.Lib.PyValue
import Narwhal.Lib.TextLines

open pylib

namespace narwhal.check_upgrade_waves

/-! ### The Applications -/

/-- The checkout: the wave model as `json.loads` reads it, where a dictionary has its items in the
    order of the text, the template files of the two kinds with their texts, in sorted order, and
    which paths are files. -/
structure Root where
  model : Except Str Json
  hasTemplates : Bool
  yaml : List (Str × Str)
  yml : List (Str × Str)
  is_file : Str → Bool

/-- What a `ValueError` is about. -/
inductive Invalid where
  | unreadable (exc : Str)
  | notObjects
  | missingDirectory
  | unnamed (path : Str)
  | duplicate (name : Str)
deriving DecidableEq

/-- The text of an error; `join` prints a path below the root. -/
def Invalid.message (join : Str → Str) : Invalid → Str
  | .unreadable exc =>
    lit "cannot read valid wave model " ++ join (lit "docs/common/upgrade-waves.json") ++ lit ": " ++ exc
  | .notObjects => lit "components and NOT_YET_MODELLED must be objects"
  | .missingDirectory =>
    lit "missing Application template directory: " ++ join (lit "gitops/charts/narwhal-apps/templates")
  | .unnamed path => path ++ lit ": Application has no metadata.name"
  | .duplicate name => lit "duplicate Application name: " ++ name

/-- What ends a check: a `ValueError`, a `TypeError` or an `AttributeError`, or a recursion that is
    too deep. -/
inductive Raised where
  | value (why : Invalid)
  | type
  | recursion
deriving DecidableEq

/-- `APP_RE` at the start of a line; what `\s*$` matches is whitespace up to the end of a line. -/
def matchesApp (s : Str) : Bool :=
  let kind := (s.drop 5).dropWhile isSpace
  let rest := kind.drop 11
  (lit "kind:").isPrefixOf s && (lit "Application").isPrefixOf kind &&
    (rest.dropWhile isSpace == [] || (rest.takeWhile isSpace).contains 10)

/-- The group of `NAME_RE` at the start of a line. -/
def nameAt (s : Str) : Option Str :=
  let name := ((s.drop 7).dropWhile isSpace).takeWhile fun c => !isSpace c && c != 35
  if (lit "  name:").isPrefixOf s ∧ name ≠ [] then some name else none

def addApplication (names : List Str) (file : Str × Str) : Except Raised (List Str) :=
  if (lineStarts file.2).any matchesApp then
    match (lineStarts file.2).findSome? nameAt with
    | none => .error (.value (.unnamed file.1))
    | some name => if name ∈ names then .error (.value (.duplicate name)) else .ok (names ++ [name])
  else .ok names

def applications (root : Root) : Except Raised (List Str) :=
  if root.hasTemplates then (root.yaml ++ root.yml).foldlM addApplication []
  else .error (.value .missingDirectory)

/-! ### The components -/

/-- The items of a dictionary. -/
abbrev Fields := List (Str × Json)

inductive Problem where
  | overlap (names : List Str)
  | notAnObject (name : Str)
  | invalidWave (name : Str)
  | notAList (name : Str)
  | unknownDependency (name : Str) (dependency : Json)
  | waveOrder (name : Str) (wave : Json) (dependency : Str) (other : Json)
  | noStrategy (name : Str)
  | required (name field : Str)
  | missingPath (name field ref : Str)
  | cycle (name : Str)
  | unmodelled (names : List Str)
  | stale (names : List Str)
  | noReason (name : Str)
deriving DecidableEq

/-- The text of a problem; `str` and `repr` are Python's on what the model can hold. -/
def Problem.message (str repr : Json → Str) : Problem → Str
  | .overlap names => lit "components also listed as NOT_YET_MODELLED: " ++ repr (.arr (names.map .str))
  | .notAnObject name => name ++ lit ": component entry must be an object"
  | .invalidWave name => name ++ lit ": wave must be a nonnegative integer"
  | .notAList name => name ++ lit ": depends_on must be a list"
  | .unknownDependency name dependency => name ++ lit ": unknown dependency " ++ repr dependency
  | .waveOrder name wave dependency other =>
    name ++ lit ": wave " ++ str wave ++ lit " must exceed dependency " ++ dependency ++ lit " wave " ++ str other
  | .noStrategy name => name ++ lit ": strategy is required"
  | .required name field => name ++ lit ": " ++ field ++ lit " is required"
  | .missingPath name field ref => name ++ lit ": " ++ field ++ lit " points to missing repo path " ++ repr (.str ref)
  | .cycle name => lit "dependency cycle includes " ++ name
  | .unmodelled names => lit "unmodelled Applications: " ++ repr (.arr (names.map .str))
  | .stale names => lit "NOT_YET_MODELLED entries without an Application: " ++ repr (.arr (names.map .str))
  | .noReason name => name ++ lit ": NOT_YET_MODELLED needs a reason"

/-- `item.get(key)` -/
def get (key : String) (item : Fields) : Json := (lookupField (lit key) item).getD .null

/-- The value of an instance of `int`; booleans are integers. -/
def intOf : Json → Option Int
  | .int n => some n
  | .bool b => some (if b then 1 else 0)
  | _ => none

/-- `not isinstance(value, str) or not value.strip()` -/
def isBlank : Json → Bool
  | .str s => strip s = []
  | _ => true

/-- The component of a name that an item gives; only strings are names. -/
def lookupComponent (components : Fields) : Json → Option (Str × Json)
  | .str name => (lookupField name components).map fun item => (name, item)
  | _ => none

/-- The wave of a dependency that is not an object, or not a number, raises in the comparison. -/
def checkWaves (name : Str) (wave : Json) (n : Int) (dependency : Str) : Json → Except Raised (List Problem)
  | .obj other =>
    match ((lookupField (lit "wave") other).getD (.int (-1))).number with
    | some x => .ok (if x.ge (.finite n) then [.waveOrder name wave dependency (get "wave" other)] else [])
    | none => .error .type
  | _ => .error .type

def checkDependency (components : Fields) (name : Str) (wave dependency : Json) : Except Raised (List Problem) :=
  if dependency.hashable then
    match lookupComponent components dependency, intOf wave with
    | none, _ => .ok [.unknownDependency name dependency]
    | some _, none => .ok []
    | some (key, other), some n => checkWaves name wave n key other
  else .error .type

def checkRef (root : Root) (name : Str) (item : Fields) (field : String) : List Problem :=
  match get field item with
  | .str ref =>
    if strip ref = [] then [.required name (lit field)]
    else if root.is_file ref then [] else [.missingPath name (lit field) ref]
  | _ => [.required name (lit field)]

/-- The items of a list; anything else is taken for an empty one. -/
def listOf : Json → List Json
  | .arr items => items
  | _ => []

def isList : Json → Bool
  | .arr _ => true
  | _ => false

def checkItem (root : Root) (components : Fields) (name : Str) (item : Fields) : Except Raised (List Problem) := do
  let wave := get "wave" item
  let deps := get "depends_on" item
  let found ← (listOf deps).mapM (checkDependency components name wave)
  return (if (intOf wave).any fun n => 0 ≤ n then [] else [.invalidWave name]) ++
    (if isList deps then [] else [.notAList name]) ++ found.flatten ++
    (if isBlank (get "strategy" item) then [.noStrategy name] else []) ++
    ["health_gate", "rollback_ref"].flatMap (checkRef root name item)

def checkComponent (root : Root) (components : Fields) (entry : Str × Json) : Except Raised (List Problem) :=
  match entry.2 with
  | .obj item => checkItem root components entry.1 item
  | _ => .ok [.notAnObject entry.1]

/-! ### Dependency cycles -/

/-- The states of the visited components, 1 while a component is visited and 2 after, and the
    problems found so far. -/
structure Visits where
  states : Str → Option Nat
  problems : List Problem

def Visits.set (s : Visits) (name : Str) (state : Nat) : Visits :=
  { s with states := fun n => if n = name then some state else s.states n }

/-- What `visit` iterates over. -/
def dependencies (components : Fields) (name : Str) : Except Raised (List Json) :=
  match lookupField name components with
  | some (.obj item) =>
    match iterate ((lookupField (lit "depends_on") item).getD (.arr [])) with
    | some deps => .ok deps
    | none => .error .type
  | _ => .ok []

/-- One step of the loop over the dependencies. -/
def visitDependency (components : Fields) (visit : Visits → Str → Except Raised Visits) (s : Visits)
    (dependency : Json) : Except Raised Visits :=
  if dependency.hashable then
    match lookupComponent components dependency with
    | some (key, _) => visit s key
    | none => .ok s
  else .error .type

/-- `depth` bounds the recursion. -/
def visit (components : Fields) : Nat → Visits → Str → Except Raised Visits
  | 0, _, _ => .error .recursion
  | depth + 1, s, name =>
    if s.states name = some 1 then .ok { s with problems := s.problems ++ [.cycle name] }
    else if s.states name = some 2 then .ok s
    else do
      let deps ← dependencies components name
      let s ← deps.foldlM (visitDependency components (visit components depth)) (s.set name 1)
      return s.set name 2

/-! ### The check -/

def sorted (names : List Str) : List Str := names.insertionSort (· ≤ ·)

/-- A problem about names, where there are any. -/
def aboutNames (problem : List Str → Problem) (names : List Str) : List Problem :=
  if names = [] then [] else [problem (sorted names)]

def overlapProblems (components excluded : Fields) : List Problem :=
  aboutNames .overlap ((components.map Prod.fst).filter (· ∈ excluded.map Prod.fst))

/-- The problems that are looked for last. -/
def nameProblems (components excluded : Fields) (apps : List Str) : List Problem :=
  let names := components.map Prod.fst
  let excludedNames := excluded.map Prod.fst
  aboutNames .unmodelled (apps.filter fun name => name ∉ names ∧ name ∉ excludedNames) ++
    aboutNames .stale (excludedNames.filter (· ∉ apps)) ++
    (excluded.filter fun entry => isBlank entry.2).map fun entry => .noReason entry.1

def validateComponents (depth : Nat) (root : Root) (components excluded : Fields) :
    Except Raised (List Problem × Nat × Nat) := do
  let apps ← applications root
  let found ← components.mapM (checkComponent root components)
  let problems := overlapProblems components excluded ++ found.flatten
  let s ← (components.map Prod.fst).foldlM (visit components depth) ⟨fun _ => none, problems⟩
  return (s.problems ++ nameProblems components excluded apps, components.length, apps.length)

def validate (depth : Nat) (root : Root) : Except Raised (List Problem × Nat × Nat) :=
  match root.model with
  | .error exc => .error (.value (.unreadable exc))
  | .ok (.obj data) =>
    match get "components" data, get "NOT_YET_MODELLED" data with
    | .obj components, .obj excluded => validateComponents depth root components excluded
    | _, _ => .error (.value .notObjects)
  | .ok _ => .error .type

end narwhal.check_upgrade_waves
