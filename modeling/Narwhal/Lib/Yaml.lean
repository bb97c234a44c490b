import Mathlib.Data.List.DropRight
import Narwhal.Lib.JsText

open jslib

namespace yamllib

/-! YAML documents of block mappings and sequences, whose scalars are plain or double quoted and stand on one line. A text
    that uses anything else (directives, tags, anchors, flow collections, escapes, scalars of several lines) is not read. -/

/-- What ends a line, what a line may hold, and which plain scalars are strings. -/
structure Dialect where
  isBreak : Char → Bool
  isPrintable : Char → Bool
  isString : Text → Bool

inductive Scalar where
  | str (s : Text)
  /-- A plain scalar that is read as a number, a truth value or the like. -/
  | typed (s : Text)
deriving DecidableEq, Repr

/-- Keys are kept as they are written. -/
inductive Node where
  | null
  | scalar (s : Scalar)
  | map (entries : List (Text × Node))
  | seq (items : List Node)

/-! ### Scalars -/

def isWhite (c : Char) : Bool := c == ' ' || c == '\t'

/-- White space, or a comment after it. -/
def isBlank (s : Text) : Bool := (s.dropWhile isWhite).head?.all (· == '#')

def INDICATORS : Text := "-?:,[]{}#&*!|>'\"%@\x60".toList

/-- The characters after the first: no comment begins, no mapping, and no white space ends the scalar. -/
def isPlainRest : Char → Text → Bool
  | c, [] => !isWhite c && c != ':'
  | c, d :: s => !(isWhite c && d == '#') && !(c == ':' && isWhite d) && isPlainRest d s

/-- A plain scalar on one line. -/
def isPlain : Text → Bool
  | [] => false
  | c :: s =>
    (if c = '-' ∨ c = '?' ∨ c = ':' then s.head?.any (!isWhite ·) else !isWhite c && c ∉ INDICATORS) && isPlainRest c s

/-- What stands before a comment; the flag says that white space went before. -/
def stripComment : Bool → Text → Text
  | _, [] => []
  | white, c :: s => if white && c == '#' then [] else c :: stripComment (isWhite c) s

/-- The scalar after a key and its colon, if there is one. -/
def readScalar (D : Dialect) (s : Text) : Option (Option Scalar) :=
  match s.dropWhile isWhite with
  | '"' :: s =>
    match s.dropWhile (· ≠ '"') with
    | [] => none
    | _ :: rest =>
      let inner := s.takeWhile (· ≠ '"')
      if '\\' ∉ inner ∧ rest.head?.all isWhite ∧ isBlank rest then some (some (.str inner)) else none
  | s =>
    let body := (stripComment true s).rdropWhile isWhite
    if body = [] then some none
    else if isPlain body then some (some (if D.isString body then .str body else .typed body))
    else none

/-! ### Lines -/

/-- A line with its indentation: perhaps the dash of an item, a key, and perhaps a scalar. -/
structure Token where
  indent : Nat
  item : Bool
  key : Text
  value : Option Scalar
deriving DecidableEq, Repr

/-- The key before the first colon that white space or nothing follows, and what comes after the colon. -/
def splitKey : Text → Option (Text × Text)
  | [] => none
  | c :: s =>
    if c = ':' ∧ s.head?.all isWhite then some ([], s) else (splitKey s).map fun parts => (c :: parts.1, parts.2)

def readLine (D : Dialect) (line : Text) : Option Token :=
  let indent := (line.takeWhile (· == ' ')).length
  let s := line.dropWhile (· == ' ')
  let item := ['-', ' '].isPrefixOf s
  match splitKey (if item then s.drop 2 else s) with
  | none => none
  | some (key, rest) => if isPlain key then (readScalar D rest).map fun value => ⟨indent, item, key, value⟩ else none

/-- A line that begins with this mark. -/
def isMarked (mark line : Text) : Bool := mark.isPrefixOf line && (line.drop mark.length).head?.all isWhite

def isMarker (line : Text) : Bool := isMarked "---".toList line

/-- The lines of content of each document; the current one has begun if it is not `none`. -/
def documents : Option (List Text) → List Text → Option (List (List Text))
  | current, [] => some current.toList
  | current, line :: lines =>
    if isBlank line then documents current lines
    else if isMarker line then
      if isBlank (line.drop 3) then (documents (some []) lines).map (current.toList ++ ·) else none
    else if isMarked "...".toList line then none
    else documents (some (current.getD [] ++ [line])) lines

/-! ### Collections -/

mutual

/-- The entries of a mapping whose keys stand at this indentation, and the lines after them. -/
def parseEntries : Nat → Nat → List Token → Option (List (Text × Node) × List Token)
  | 0, _, _ => none
  | _ + 1, _, [] => some ([], [])
  | fuel + 1, indent, token :: tokens =>
    if token.indent < indent ∨ (token.indent = indent ∧ token.item) then some ([], token :: tokens)
    else if token.indent ≠ indent then none
    else
      match (match token.value with
        | some s => some (.scalar s, tokens)
        | none => parseValue fuel (indent + 1) tokens) with
      | none => none
      | some (value, rest) =>
        match parseEntries fuel indent rest with
        | none => none
        | some (entries, rest) =>
          if token.key ∈ entries.map Prod.fst then none else some ((token.key, value) :: entries, rest)

/-- A collection that is indented at least so far, or none; the dashes of a sequence may stand one column before. -/
def parseValue : Nat → Nat → List Token → Option (Node × List Token)
  | 0, _, _ => none
  | _ + 1, _, [] => some (.null, [])
  | fuel + 1, least, token :: tokens =>
    if token.item ∧ least ≤ token.indent + 1 then
      (parseItems fuel token.indent (token :: tokens)).map fun parts => (.seq parts.1, parts.2)
    else if least ≤ token.indent then
      (parseEntries fuel token.indent (token :: tokens)).map fun parts => (.map parts.1, parts.2)
    else some (.null, token :: tokens)

/-- The items of a sequence whose dashes stand at this indentation: each is a mapping. -/
def parseItems : Nat → Nat → List Token → Option (List Node × List Token)
  | 0, _, _ => none
  | _ + 1, _, [] => some ([], [])
  | fuel + 1, indent, token :: tokens =>
    if token.item ∧ token.indent = indent then
      match parseEntries fuel (indent + 2) ({ token with indent := indent + 2, item := false } :: tokens) with
      | none => none
      | some (entries, rest) => (parseItems fuel indent rest).map fun parts => (.map entries :: parts.1, parts.2)
    else if token.indent ≤ indent then some ([], token :: tokens)
    else none

end

def parseTokens (tokens : List Token) : Option Node :=
  match parseValue (3 * tokens.length + 3) 0 tokens with
  | some (node, []) => some node
  | _ => none

def parseDocument (D : Dialect) (lines : List Text) : Option Node := (lines.mapM (readLine D)).bind parseTokens

/-- The documents of a text. -/
def parse (D : Dialect) (s : Text) : Option (List Node) :=
  let lines := s.splitOnP D.isBreak
  if lines.all (·.all D.isPrintable) then
    match documents none lines with
    | none => none
    | some docs => docs.mapM (parseDocument D)
  else none

/-! ### The core schema -/

def dropSign : Text → Text
  | c :: s => if c = '-' ∨ c = '+' then s else c :: s
  | [] => []

def isDigits (s : Text) : Bool := s ≠ [] && s.all isDigit

def isExponent : Text → Bool
  | [] => true
  | c :: s => (c == 'e' || c == 'E') && isDigits (dropSign s)

/-- `[-+]? ( \. [0-9]+ | [0-9]+ ( \. [0-9]* )? ) ( [eE] [-+]? [0-9]+ )?` -/
def isNumber (s : Text) : Bool :=
  let s := dropSign s
  let whole := s.takeWhile isDigit
  match s.dropWhile isDigit with
  | '.' :: rest => (whole ≠ [] || rest.head?.any isDigit) && isExponent (rest.dropWhile isDigit)
  | rest => whole ≠ [] && isExponent rest

def isHexDigit (c : Char) : Bool := isDigit c || ('a' ≤ c && c ≤ 'f') || ('A' ≤ c && c ≤ 'F')

/-- `0o [0-7]+` and `0x [0-9a-fA-F]+` -/
def isBasedNumber : Text → Bool
  | '0' :: 'o' :: s => s ≠ [] && s.all fun c => '0' ≤ c && c ≤ '7'
  | '0' :: 'x' :: s => s ≠ [] && s.all isHexDigit
  | _ => false

def CORE_WORDS : List Text :=
  ["null", "Null", "NULL", "~", "true", "True", "TRUE", "false", "False", "FALSE", ".nan", ".NaN", ".NAN"].map String.toList

def INFINITIES : List Text := [".inf", ".Inf", ".INF"].map String.toList

/-- The dialect of the core schema. -/
def coreDialect : Dialect where
  isBreak c := c == '\n' || c == '\r'
  isPrintable c :=
    let n := c.toNat
    n == 9 || (0x20 ≤ n && n ≤ 0x7E) || n == 0x85 || (0xA0 ≤ n && n ≤ 0xD7FF) ||
      (0xE000 ≤ n && n ≤ 0xFFFD && n != 0xFEFF) || 0x10000 ≤ n
  isString s := !(isNumber s || isBasedNumber s || s ∈ CORE_WORDS || dropSign s ∈ INFINITIES)

/-! ### Laws -/

/-- Scalars as a tree holds them: `none` for a collection or nothing. -/
def Node.scalar? : Node → Option Scalar
  | .scalar s => some s
  | _ => none

mutual

/-- The keys of a tree in the order of the text, each with its scalar. -/
def Node.pairs : Node → List (Text × Option Scalar)
  | .map entries => entriesPairs entries
  | .seq items => itemsPairs items
  | .null => []
  | .scalar _ => []

def entriesPairs : List (Text × Node) → List (Text × Option Scalar)
  | [] => []
  | (key, value) :: entries => (key, value.scalar?) :: (value.pairs ++ entriesPairs entries)

def itemsPairs : List Node → List (Text × Option Scalar)
  | [] => []
  | item :: items => item.pairs ++ itemsPairs items

end

def Token.pair (token : Token) : Text × Option Scalar := (token.key, token.value)

section

variable {D : Dialect}

/-- Every line gives one key of the tree. -/
theorem pairs_eq (fuel : Nat) :
    (∀ indent tokens entries rest, parseEntries fuel indent tokens = some (entries, rest) →
      tokens.map Token.pair = entriesPairs entries ++ rest.map Token.pair) ∧
    (∀ least tokens node rest, parseValue fuel least tokens = some (node, rest) →
      node.scalar? = none ∧ tokens.map Token.pair = node.pairs ++ rest.map Token.pair) ∧
    ∀ indent tokens items rest, parseItems fuel indent tokens = some (items, rest) →
      tokens.map Token.pair = itemsPairs items ++ rest.map Token.pair := by
  induction fuel with
  | zero =>
    refine ⟨?_, ?_, ?_⟩
    · intro indent tokens entries rest h
      simp [parseEntries] at h
    · intro least tokens node rest h
      simp [parseValue] at h
    · intro indent tokens items rest h
      simp [parseItems] at h
  | succ fuel ih =>
    obtain ⟨hentries, hvalue, hitems⟩ := ih
    refine ⟨?_, ?_, ?_⟩
    · intro indent tokens entries rest h
      cases tokens with
      | nil =>
        obtain ⟨rfl, rfl⟩ := Prod.mk.inj (Option.some.inj h)
        rfl
      | cons token tokens =>
        simp only [parseEntries] at h
        split at h
        · obtain ⟨rfl, rfl⟩ := Prod.mk.inj (Option.some.inj h)
          rfl
        split at h
        · cases h
        split at h
        · cases h
        next value rest' hread =>
        have hpair : token.value = value.scalar? ∧
            tokens.map Token.pair = value.pairs ++ rest'.map Token.pair := by
          split at hread
          · next s hs =>
            obtain ⟨rfl, rfl⟩ := Prod.mk.inj (Option.some.inj hread)
            exact ⟨hs, rfl⟩
          · next hnone =>
            obtain ⟨hscalar, hpairs⟩ := hvalue _ _ _ _ hread
            exact ⟨hnone.trans hscalar.symm, hpairs⟩
        split at h
        · cases h
        next entries' rest'' hrest =>
        split at h
        · cases h
        obtain ⟨rfl, rfl⟩ := Prod.mk.inj (Option.some.inj h)
        rw [List.map_cons, hpair.2, hentries _ _ _ _ hrest, entriesPairs, Token.pair, hpair.1]
        simp
    · intro least tokens node rest h
      cases tokens with
      | nil =>
        obtain ⟨rfl, rfl⟩ := Prod.mk.inj (Option.some.inj h)
        exact ⟨rfl, rfl⟩
      | cons token tokens =>
        simp only [parseValue] at h
        split at h
        · obtain ⟨parts, hparts, heq⟩ := Option.map_eq_some_iff.mp h
          obtain ⟨rfl, rfl⟩ := Prod.mk.inj heq
          exact ⟨rfl, hitems _ _ _ _ hparts⟩
        split at h
        · obtain ⟨parts, hparts, heq⟩ := Option.map_eq_some_iff.mp h
          obtain ⟨rfl, rfl⟩ := Prod.mk.inj heq
          exact ⟨rfl, hentries _ _ _ _ hparts⟩
        · obtain ⟨rfl, rfl⟩ := Prod.mk.inj (Option.some.inj h)
          exact ⟨rfl, rfl⟩
    · intro indent tokens items rest h
      cases tokens with
      | nil =>
        obtain ⟨rfl, rfl⟩ := Prod.mk.inj (Option.some.inj h)
        rfl
      | cons token tokens =>
        simp only [parseItems] at h
        split at h
        · split at h
          · cases h
          next entries rest' hrest =>
          obtain ⟨parts, hparts, heq⟩ := Option.map_eq_some_iff.mp h
          obtain ⟨rfl, rfl⟩ := Prod.mk.inj heq
          have hfirst := hentries _ _ _ _ hrest
          rw [hitems _ _ _ _ hparts] at hfirst
          rw [itemsPairs, Node.pairs, List.append_assoc, ← hfirst]
          rfl
        split at h
        · obtain ⟨rfl, rfl⟩ := Prod.mk.inj (Option.some.inj h)
          rfl
        · cases h

/-- The keys of a document and their scalars are those of its lines. -/
theorem exists_tokens_of_parseDocument {lines : List Text} {node : Node} (h : parseDocument D lines = some node) :
    ∃ tokens, lines.mapM (readLine D) = some tokens ∧ tokens.map Token.pair = node.pairs := by
  obtain ⟨tokens, htokens, h⟩ := Option.bind_eq_some_iff.mp h
  simp only [parseTokens] at h
  split at h
  · next node' hnode =>
    obtain rfl := Option.some.inj h
    obtain ⟨-, hpairs⟩ := (pairs_eq _).2.1 _ _ _ _ hnode
    exact ⟨tokens, htokens, by simpa using hpairs⟩
  · cases h

end

end yamllib
