import Narwhal.Lib.Json

namespace pylib

/-- JSON whitespace: blank, tab, line feed, carriage return. -/
def isWs (c : Nat) : Bool := c == 32 || c == 9 || c == 10 || c == 13

def skipWs (s : Str) : Str := s.dropWhile isWs

def isDigit (c : Nat) : Bool := 48 ≤ c && c < 58

def hex4 (a b c d : Nat) : Option Nat :=
  match hexVal a, hexVal b, hexVal c, hexVal d with
  | some a, some b, some c, some d => some (((a * 16 + b) * 16 + c) * 16 + d)
  | _, _, _, _ => none

/-- The character named by a one-letter escape. -/
def unescape (c : Nat) : Option Nat :=
  if c = 34 then some 34
  else if c = 92 then some 92
  else if c = 47 then some 47
  else if c = 98 then some 8
  else if c = 102 then some 12
  else if c = 110 then some 10
  else if c = 114 then some 13
  else if c = 116 then some 9
  else none

/-- What a `\u` escape adds to the string when the escape just before it was the
    high surrogate `pending`: the finished characters, and the high surrogate
    that still waits for a low one. -/
def joinEscape (pending : Option Nat) (unit : Nat) : Str × Option Nat :=
  match pending with
  | some high =>
    if 0xDC00 ≤ unit ∧ unit ≤ 0xDFFF then ([0x10000 + (high - 0xD800) * 1024 + (unit - 0xDC00)], none)
    else if 0xD800 ≤ unit ∧ unit ≤ 0xDBFF then ([high], some unit)
    else ([high, unit], none)
  | none => if 0xD800 ≤ unit ∧ unit ≤ 0xDBFF then ([], some unit) else ([unit], none)

/-- `scanstring` in strict mode, from just after the opening quote: the string
    and what follows the closing quote. -/
def scanStringFrom : Option Nat → Str → Option (Str × Str)
  | _, [] => none
  | pending, c :: rest =>
    if c = 34 then some (pending.toList, rest)
    else if c = 92 then
      match rest with
      | [] => none
      | e :: rest =>
        if e = 117 then
          match rest with
          | h1 :: h2 :: h3 :: h4 :: rest =>
            match hex4 h1 h2 h3 h4 with
            | none => none
            | some unit =>
              (scanStringFrom (joinEscape pending unit).2 rest).map fun (s, r) =>
                ((joinEscape pending unit).1 ++ s, r)
          | _ => none
        else
          match unescape e with
          | none => none
          | some c => (scanStringFrom none rest).map fun (s, r) => (pending.toList ++ c :: s, r)
    else if c < 32 then none
    else (scanStringFrom none rest).map fun (s, r) => (pending.toList ++ c :: s, r)

def scanString (s : Str) : Option (Str × Str) := scanStringFrom none s

/-- The fraction `(\.[0-9]+)?` of a number. -/
def scanFrac : Str → Str × Str
  | 46 :: d :: rest =>
    if isDigit d then (46 :: d :: rest.takeWhile isDigit, rest.dropWhile isDigit) else ([], 46 :: d :: rest)
  | s => ([], s)

/-- The exponent `([eE][-+]?[0-9]+)?` of a number. -/
def scanExp : Str → Str × Str
  | e :: rest =>
    if e = 101 ∨ e = 69 then
      match rest with
      | d :: rest' =>
        if isDigit d then (e :: d :: rest'.takeWhile isDigit, rest'.dropWhile isDigit)
        else if d = 43 ∨ d = 45 then
          match rest' with
          | d' :: rest'' =>
            if isDigit d' then (e :: d :: d' :: rest''.takeWhile isDigit, rest''.dropWhile isDigit)
            else ([], e :: rest)
          | [] => ([], e :: rest)
        else ([], e :: rest)
      | [] => ([], e :: rest)
    else ([], e :: rest)
  | [] => ([], [])

/-- The integer part `0|[1-9][0-9]*` of a number. -/
def scanDigits : Str → Option (Str × Str)
  | [] => none
  | c :: rest =>
    if c = 48 then some ([48], rest)
    else if isDigit c then some (c :: rest.takeWhile isDigit, rest.dropWhile isDigit)
    else none

def natOfDigits (ds : Str) : Nat := Nat.ofDigits 10 (ds.reverse.map (· - 48))

/-- A number at the start of the text: an `int` unless it has a fraction or an exponent. -/
def scanUnsigned (sign : Str) (negate : Nat → Int) (s : Str) : Option (Json × Str) :=
  match scanDigits s with
  | none => none
  | some (digits, rest) =>
    let (frac, rest) := scanFrac rest
    let (exp, rest) := scanExp rest
    if frac = [] ∧ exp = [] then some (.int (negate (natOfDigits digits)), rest)
    else some (.float (sign ++ digits ++ frac ++ exp), rest)

def scanNumber : Str → Option (Json × Str)
  | 45 :: rest => scanUnsigned [45] (fun n => -(n : Int)) rest
  | s => scanUnsigned [] (fun n => (n : Int)) s

/-- The constants of the grammar, with the three Python adds to it. -/
def scanConstant (s : Str) : Option (Json × Str) :=
  if (lit "null").isPrefixOf s then some (.null, s.drop 4)
  else if (lit "true").isPrefixOf s then some (.bool true, s.drop 4)
  else if (lit "false").isPrefixOf s then some (.bool false, s.drop 5)
  else if (lit "NaN").isPrefixOf s then some (.float (lit "NaN"), s.drop 3)
  else if (lit "Infinity").isPrefixOf s then some (.float (lit "Infinity"), s.drop 8)
  else if (lit "-Infinity").isPrefixOf s then some (.float (lit "-Infinity"), s.drop 9)
  else none

section Scanner

variable (hook : List (Str × Json) → Option (List (Str × Json)))

mutual

/-- `scan_once`: one value at the start of the text and the text after it. The
    pairs of an object go through `object_pairs_hook`. -/
def scanValue : Nat → Str → Option (Json × Str)
  | 0, _ => none
  | _ + 1, [] => none
  | fuel + 1, c :: rest =>
    if c = 34 then (scanString rest).map fun (s, r) => (.str s, r)
    else if c = 123 then
      match skipWs rest with
      | 125 :: rest => (hook []).map fun d => (.obj d, rest)
      | s =>
        match scanFields fuel s with
        | none => none
        | some (pairs, rest) => (hook pairs).map fun d => (.obj d, rest)
    else if c = 91 then
      match skipWs rest with
      | 93 :: rest => some (.arr [], rest)
      | s => (scanItems fuel s).map fun (items, rest) => (.arr items, rest)
    else
      match scanNumber (c :: rest) with
      | some r => some r
      | none => scanConstant (c :: rest)

def scanItems : Nat → Str → Option (List Json × Str)
  | 0, _ => none
  | fuel + 1, s =>
    match scanValue fuel s with
    | none => none
    | some (v, rest) =>
      match skipWs rest with
      | 93 :: rest => some ([v], rest)
      | 44 :: rest => (scanItems fuel (skipWs rest)).map fun (vs, rest) => (v :: vs, rest)
      | _ => none

def scanFields : Nat → Str → Option (List (Str × Json) × Str)
  | 0, _ => none
  | fuel + 1, 34 :: rest =>
    match scanString rest with
    | none => none
    | some (key, rest) =>
      match skipWs rest with
      | 58 :: rest =>
        match scanValue fuel (skipWs rest) with
        | none => none
        | some (v, rest) =>
          match skipWs rest with
          | 125 :: rest => some ([(key, v)], rest)
          | 44 :: rest => (scanFields fuel (skipWs rest)).map fun (kvs, rest) => ((key, v) :: kvs, rest)
          | _ => none
      | _ => none
  | _ + 1, _ => none

end

/-- `json.loads(text, object_pairs_hook=hook)`; `none` is an exception. -/
def loads (text : Str) : Option Json :=
  match scanValue hook (text.length + 1) (skipWs text) with
  | none => none
  | some (v, rest) => if skipWs rest = [] then some v else none

end Scanner

end pylib
