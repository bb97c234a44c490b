import Narwhal.Lib.JsText

open jslib

namespace shlib

/-! The POSIX shell's token recognition, as a machine that reads one character at a time.
Here-documents and `case` patterns inside a substitution are outside of it. -/

/-- What the shell makes of a text. -/
inductive Event where
  /-- a word begins -/
  | word
  /-- a character that stands for itself; `quoted` characters take no part in any expansion -/
  | lit (quoted : Bool) (c : Char)
  | openDouble
  | closeDouble
  | openCommand
  | closeCommand
  /-- a parameter or arithmetic expansion, or a backquoted command -/
  | expansion
  /-- the word just read is the number of a file descriptor -/
  | ioNumber
  /-- a control or redirection operator -/
  | operator (s : Text)
  | newline
deriving DecidableEq, Repr

inductive Mode where
  | blank
  /-- in a word; `digits` while it has only unquoted digits -/
  | word (digits : Bool)
  | single
  | double
  | comment
  /-- after a backslash, with what was being read; `none` is between words -/
  | escape (inWord : Option Bool)
  | doubleEscape
  /-- after the first character of an operator -/
  | operator (c : Char)
  | dollar (inDouble : Bool)
  | parameter (inDouble : Bool)
  | brace (inDouble : Bool)
  | backquote (inDouble : Bool)
deriving DecidableEq, Repr

/-- A command substitution that is open: whether it stands in double quotes, and the
    parentheses open in it. -/
structure Frame where
  inDouble : Bool
  parens : Nat
deriving DecidableEq, Repr

structure State where
  mode : Mode
  frames : List Frame
deriving DecidableEq, Repr

/-- A machine state and what was recognised on the way to it. -/
abbrev Step := List Event × State

def isOperatorStart (c : Char) : Bool := c == '|' || c == '&' || c == ';' || c == '<' || c == '>'

/-- The operators of two characters. -/
def isOperatorPair (a b : Char) : Bool :=
  [('|', '|'), ('&', '&'), (';', ';'), ('<', '<'), ('>', '>'), ('<', '&'), ('>', '&'), ('<', '>'), ('>', '|')].contains
    (a, b)

def isName (c : Char) : Bool := isLower c || isUpper c || isDigit c || c == '_'

/-- A single character that names a parameter. -/
def isSpecialParameter (c : Char) : Bool := ['@', '*', '#', '?', '-', '$', '!'].contains c || isDigit c

def resume (inDouble : Bool) : Mode := if inDouble then .double else .word false

/-- The event that begins a word, unless one is being read. -/
def beginWord (inWord : Option Bool) : List Event := if inWord.isSome then [] else [.word]

/-- A character outside of quotes; `inWord` is `none` between words. -/
def plainStep (inWord : Option Bool) (frames : List Frame) (c : Char) : Step :=
  if c = ' ' ∨ c = '\t' then ([], ⟨.blank, frames⟩)
  else if c = '\n' then ([.newline], ⟨.blank, frames⟩)
  else if c = '\'' then (beginWord inWord, ⟨.single, frames⟩)
  else if c = '"' then (beginWord inWord ++ [.openDouble], ⟨.double, frames⟩)
  else if c = '\\' then ([], ⟨.escape inWord, frames⟩)
  else if c = '$' then (beginWord inWord, ⟨.dollar false, frames⟩)
  else if c = '\x60' then (beginWord inWord ++ [.expansion], ⟨.backquote false, frames⟩)
  else if c = '#' ∧ inWord = none then ([], ⟨.comment, frames⟩)
  else if isOperatorStart c then
    (if inWord = some true ∧ (c = '<' ∨ c = '>') then [.ioNumber] else [], ⟨.operator c, frames⟩)
  else if c = '(' then
    match frames with
    | [] => ([.operator [c]], ⟨.blank, []⟩)
    | f :: fs => ([.operator [c]], ⟨.blank, { f with parens := f.parens + 1 } :: fs⟩)
  else if c = ')' then
    match frames with
    | [] => ([.operator [c]], ⟨.blank, []⟩)
    | ⟨inDouble, 0⟩ :: fs => ([.closeCommand], ⟨resume inDouble, fs⟩)
    | ⟨inDouble, n + 1⟩ :: fs => ([.operator [c]], ⟨.blank, ⟨inDouble, n⟩ :: fs⟩)
  else (beginWord inWord ++ [.lit false c], ⟨.word (inWord.getD true && isDigit c), frames⟩)

/-- A character in double quotes. -/
def doubleStep (frames : List Frame) (c : Char) : Step :=
  if c = '"' then ([.closeDouble], ⟨.word false, frames⟩)
  else if c = '\\' then ([], ⟨.doubleEscape, frames⟩)
  else if c = '$' then ([], ⟨.dollar true, frames⟩)
  else if c = '\x60' then ([.expansion], ⟨.backquote true, frames⟩)
  else ([.lit true c], ⟨.double, frames⟩)

/-- A character read as the continuation of what stood around an expansion. -/
def resumeStep (inDouble : Bool) (frames : List Frame) (c : Char) : Step :=
  if inDouble then doubleStep frames c else plainStep (some false) frames c

/-- What was recognised before the character, put in front. -/
def after (events : List Event) (step : Step) : Step := (events ++ step.1, step.2)

def step (s : State) (c : Char) : Step :=
  match s.mode with
  | .blank => plainStep none s.frames c
  | .word digits => plainStep (some digits) s.frames c
  | .single => if c = '\'' then ([], ⟨.word false, s.frames⟩) else ([.lit true c], s)
  | .double => doubleStep s.frames c
  | .comment => if c = '\n' then ([.newline], ⟨.blank, s.frames⟩) else ([], s)
  | .escape inWord =>
    -- a backslash before a line feed joins the lines
    if c = '\n' then ([], ⟨inWord.elim .blank .word, s.frames⟩)
    else (beginWord inWord ++ [.lit true c], ⟨.word false, s.frames⟩)
  | .doubleEscape =>
    if c = '$' ∨ c = '\x60' ∨ c = '"' ∨ c = '\\' then ([.lit true c], ⟨.double, s.frames⟩)
    else if c = '\n' then ([], ⟨.double, s.frames⟩)
    else after [.lit true '\\'] (doubleStep s.frames c)
  | .operator first =>
    if isOperatorPair first c then ([.operator [first, c]], ⟨.blank, s.frames⟩)
    else after [.operator [first]] (plainStep none s.frames c)
  | .dollar inDouble =>
    if c = '(' then ([.openCommand], ⟨.blank, ⟨inDouble, 0⟩ :: s.frames⟩)
    else if c = '\x7b' then ([.expansion], ⟨.brace inDouble, s.frames⟩)
    else if isSpecialParameter c then ([.expansion], ⟨resume inDouble, s.frames⟩)
    else if isName c then ([.expansion], ⟨.parameter inDouble, s.frames⟩)
    else after [.lit inDouble '$'] (resumeStep inDouble s.frames c)
  | .parameter inDouble => if isName c then ([], s) else resumeStep inDouble s.frames c
  | .brace inDouble => if c = '\x7d' then ([], ⟨resume inDouble, s.frames⟩) else ([], s)
  | .backquote inDouble => if c = '\x60' then ([], ⟨resume inDouble, s.frames⟩) else ([], s)

def run (s : State) : Text → Step
  | [] => ([], s)
  | c :: cs => after (step s c).1 (run (step s c).2 cs)

/-- The end of the text: quotes and substitutions must be closed. -/
def finish (s : State) : Option (List Event) :=
  match s.mode, s.frames with
  | .blank, [] | .word _, [] | .comment, [] | .parameter false, [] => some []
  | .operator c, [] => some [.operator [c]]
  | .dollar false, [] => some [.lit false '$']
  | _, _ => none

/-- What the shell recognises in a text; `none` where a quote or a substitution stays open. -/
def lex (text : Text) : Option (List Event) :=
  let (events, s) := run ⟨.blank, []⟩ text
  (finish s).map (events ++ ·)

@[simp] theorem run_nil (s : State) : run s [] = ([], s) := rfl

theorem run_append (s : State) (a b : Text) : run s (a ++ b) = after (run s a).1 (run (run s a).2 b) := by
  induction a generalizing s with
  | nil => rfl
  | cons c a ih => simp [run, after, ih]

/-- Reading one text after the other. -/
theorem run_append_of_eq {s t : State} {a b : Text} {events : List Event} (h : run s a = (events, t)) :
    run s (a ++ b) = after events (run t b) := by
  rw [run_append, h]

/-! ### Quoted text -/

/-- A single quote is written by leaving the quotes and escaping it. -/
def escapeQuotes (s : Text) : Text := s.flatMap fun c => if c = '\'' then ['\'', '\\', '\'', '\''] else [c]

/-- In single quotes every character stands for itself. -/
theorem run_escapeQuotes (s : Text) (frames : List Frame) :
    run ⟨.single, frames⟩ (escapeQuotes s) = (s.map (.lit true), ⟨.single, frames⟩) := by
  induction s with
  | nil => rfl
  | cons c s ih =>
    by_cases hc : c = '\''
    · subst hc
      have hquote : run ⟨.single, frames⟩ ['\'', '\\', '\'', '\''] = ([.lit true '\''], ⟨.single, frames⟩) := rfl
      rw [escapeQuotes, List.flatMap_cons, if_pos rfl, run_append_of_eq hquote]
      rw [escapeQuotes] at ih
      rw [ih]
      rfl
    · have hplain : run ⟨.single, frames⟩ [c] = ([.lit true c], ⟨.single, frames⟩) := by simp [run, step, hc, after]
      rw [escapeQuotes, List.flatMap_cons, if_neg hc, run_append_of_eq hplain]
      rw [escapeQuotes] at ih
      rw [ih]
      rfl

/-! ### Plain text -/

/-- A character that is not special to the shell anywhere in a word. -/
def isPlain (c : Char) : Bool :=
  isLower c || isUpper c || isDigit c || ['_', '.', '-', ',', ':', '/', '+', '%', '@'].contains c

theorem plainStep_of_isPlain {c : Char} (h : isPlain c = true) (inWord : Option Bool) (frames : List Frame) :
    plainStep inWord frames c =
      (beginWord inWord ++ [.lit false c], ⟨.word (inWord.getD true && isDigit c), frames⟩) := by
  have hne : ∀ d, isPlain d = false → c ≠ d := by
    rintro d hd rfl
    rw [hd] at h
    cases h
  have hop : isOperatorStart c = false := by
    simp [isOperatorStart, hne '|' rfl, hne '&' rfl, hne ';' rfl, hne '<' rfl, hne '>' rfl]
  simp [plainStep, hne ' ' rfl, hne '\t' rfl, hne '\n' rfl, hne '\'' rfl, hne '"' rfl, hne '\\' rfl, hne '$' rfl,
    hne '\x60' rfl, hne '#' rfl, hne '(' rfl, hne ')' rfl, hop]

/-- Plain text in a word adds its characters to the word. -/
theorem run_plain_word {s : Text} (h : ∀ c ∈ s, isPlain c = true) (digits : Bool) (frames : List Frame) :
    ∃ digits', run ⟨.word digits, frames⟩ s = (s.map (.lit false), ⟨.word digits', frames⟩) := by
  induction s generalizing digits with
  | nil => exact ⟨digits, rfl⟩
  | cons c s ih =>
    obtain ⟨hc, hs⟩ := List.forall_mem_cons.mp h
    obtain ⟨digits', hrun⟩ := ih hs (digits && isDigit c)
    exact ⟨digits', by simp [run, step, plainStep_of_isPlain hc, beginWord, hrun, after]⟩

/-- Plain text between words is a word. -/
theorem run_plain_blank {s : Text} (hne : s ≠ []) (h : ∀ c ∈ s, isPlain c = true) (frames : List Frame) :
    ∃ digits, run ⟨.blank, frames⟩ s = (.word :: s.map (.lit false), ⟨.word digits, frames⟩) := by
  cases s with
  | nil => exact absurd rfl hne
  | cons c s =>
    obtain ⟨hc, hs⟩ := List.forall_mem_cons.mp h
    obtain ⟨digits, hrun⟩ := run_plain_word hs (true && isDigit c) frames
    exact ⟨digits, by simp_all [run, step, plainStep_of_isPlain hc, beginWord, after]⟩

/-! ### Literal characters -/

@[simp] def Event.literal : Event → Option Char
  | .lit _ c => some c
  | _ => none

/-- The literal characters among the events. -/
def literals (events : List Event) : Text := events.filterMap Event.literal

@[simp] theorem literals_nil : literals [] = [] := rfl

@[simp] theorem literals_append (a b : List Event) : literals (a ++ b) = literals a ++ literals b :=
  List.filterMap_append

@[simp] theorem literals_cons (e : Event) (events : List Event) :
    literals (e :: events) = e.literal.toList ++ literals events := by
  cases e <;> rfl

@[simp] theorem literals_beginWord (inWord : Option Bool) : literals (beginWord inWord) = [] := by
  cases inWord <;> rfl

theorem literals_plainStep (inWord : Option Bool) (frames : List Frame) (c : Char) :
    literals (plainStep inWord frames c).1 ⊆ [c] := by
  unfold plainStep
  repeat' refine iteInduction (motive := fun next : Step => literals next.1 ⊆ [c]) (fun _ => ?_) (fun _ => ?_)
  all_goals try split
  all_goals simp

theorem literals_doubleStep (frames : List Frame) (c : Char) : literals (doubleStep frames c).1 ⊆ [c] := by
  unfold doubleStep
  repeat' split
  all_goals simp

theorem literals_resumeStep (inDouble : Bool) (frames : List Frame) (c : Char) :
    literals (resumeStep inDouble frames c).1 ⊆ [c] := by
  unfold resumeStep
  split
  · exact literals_doubleStep frames c
  · exact literals_plainStep (some false) frames c

/-- A step adds no literal character but the one read, and a backslash or a dollar kept back. -/
theorem literals_step (s : State) (c : Char) : literals (step s c).1 ⊆ ['\\', '$', c] := by
  have hread : ∀ {l : Text}, l ⊆ [c] → l ⊆ ['\\', '$', c] := fun h => List.Subset.trans h (by simp)
  have hkept : ∀ {events : List Event} {next : Step}, literals events ⊆ ['\\', '$'] → literals next.1 ⊆ [c] →
      literals (after events next).1 ⊆ ['\\', '$', c] := by
    intro events next hevents hnext
    rw [after, literals_append]
    exact List.append_subset.mpr ⟨List.Subset.trans hevents (by simp), hread hnext⟩
  unfold step
  split
  · exact hread (literals_plainStep _ _ _)
  · exact hread (literals_plainStep _ _ _)
  · split <;> simp
  · exact hread (literals_doubleStep _ _)
  · split <;> simp
  · split <;> simp
  · split
    · simp
    split
    · simp
    · exact hkept (by simp) (literals_doubleStep _ _)
  · split
    · simp
    · exact hkept (by simp) (literals_plainStep _ _ _)
  · repeat' split
    · simp
    · simp
    · simp
    · simp
    · exact hkept (by simp) (literals_resumeStep _ _ _)
  · split
    · simp
    · exact hread (literals_resumeStep _ _ _)
  · split <;> simp
  · split <;> simp

/-- The shell makes up no character but a backslash or a dollar. -/
theorem mem_of_mem_literals_run {s : State} {text : Text} {c : Char} (h : c ∈ literals (run s text).1) :
    c = '\\' ∨ c = '$' ∨ c ∈ text := by
  induction text generalizing s with
  | nil => cases h
  | cons d text ih =>
    rw [run, after, literals_append] at h
    obtain hstep | hrest := List.mem_append.mp h
    · have hc := literals_step s d hstep
      simp only [List.mem_cons, List.not_mem_nil, or_false] at hc ⊢
      tauto
    · have hc := ih hrest
      simp only [List.mem_cons]
      tauto

/-- A command substitution that is open leaves the text unfinished. -/
theorem finish_cons (mode : Mode) (frame : Frame) (frames : List Frame) : finish ⟨mode, frame :: frames⟩ = none := by
  cases mode with
  | dollar inDouble | parameter inDouble => cases inDouble <;> rfl
  | _ => rfl

theorem literals_finish {s : State} {last : List Event} (h : finish s = some last) : literals last ⊆ ['$'] := by
  obtain ⟨mode, frames⟩ := s
  cases frames with
  | cons frame frames =>
    rw [finish_cons] at h
    cases h
  | nil =>
    cases mode with
    | blank | word | comment | operator =>
      cases h
      exact List.nil_subset _
    | dollar inDouble =>
      cases inDouble with
      | false =>
        cases h
        exact List.Subset.refl _
      | true => cases h
    | parameter inDouble =>
      cases inDouble with
      | false =>
        cases h
        exact List.nil_subset _
      | true => cases h
    | _ => cases h

theorem mem_of_mem_literals_lex {text : Text} {events : List Event} {c : Char} (hlex : lex text = some events)
    (h : c ∈ literals events) : c = '\\' ∨ c = '$' ∨ c ∈ text := by
  obtain ⟨last, hfinish, rfl⟩ := Option.map_eq_some_iff.mp hlex
  rw [literals_append] at h
  obtain hrun | hlast := List.mem_append.mp h
  · exact mem_of_mem_literals_run hrun
  · exact .inr (.inl (List.mem_singleton.mp (literals_finish hfinish hlast)))

/-! ### Simple commands -/

/-- A character that starts a tilde or pathname expansion. -/
def isPattern (c : Char) : Bool := c == '*' || c == '?' || c == '[' || c == '~'

/-- The rest of the word being read, and the words after it; `none` where the shell expands
    something or the text is not one simple command of words only. -/
def words : List Event → Option (Text × List Text)
  | [] => some ([], [])
  | .word :: events => (words events).map fun (rest, more) => ([], rest :: more)
  | .lit quoted c :: events =>
    if quoted = false ∧ isPattern c then none else (words events).map fun (rest, more) => (c :: rest, more)
  | .openDouble :: events | .closeDouble :: events => words events
  | _ :: _ => none

/-- The words of a text that is one simple command, on which the shell performs no expansion. -/
def simpleCommand (text : Text) : Option (List Text) := ((lex text).bind words).map Prod.snd

theorem words_lit (quoted : Bool) (c : Char) (events : List Event) :
    words (.lit quoted c :: events) =
      if quoted = false ∧ isPattern c then none else (words events).map fun (rest, more) => (c :: rest, more) :=
  rfl

theorem mem_literals_of_words {events : List Event} {rest : Text} {more : List Text}
    (h : words events = some (rest, more)) :
    (∀ c ∈ rest, c ∈ literals events) ∧ ∀ word ∈ more, ∀ c ∈ word, c ∈ literals events := by
  induction events generalizing rest more with
  | nil =>
    cases h
    simp
  | cons e events ih =>
    cases e with
    | word =>
      obtain ⟨⟨rest, more⟩, hwords, heq⟩ := Option.map_eq_some_iff.mp h
      obtain ⟨rfl, rfl⟩ := Prod.mk.inj heq
      obtain ⟨hrest, hmore⟩ := ih hwords
      exact ⟨by simp, List.forall_mem_cons.mpr ⟨hrest, hmore⟩⟩
    | lit quoted c =>
      rw [words_lit] at h
      split at h
      · cases h
      obtain ⟨⟨rest, more⟩, hwords, heq⟩ := Option.map_eq_some_iff.mp h
      obtain ⟨rfl, rfl⟩ := Prod.mk.inj heq
      obtain ⟨hrest, hmore⟩ := ih hwords
      refine ⟨List.forall_mem_cons.mpr ⟨List.mem_append_left _ (List.mem_singleton_self c), fun d hd => ?_⟩,
        fun word hword d hd => ?_⟩
      · exact List.mem_append_right [c] (hrest d hd)
      · exact List.mem_append_right [c] (hmore word hword d hd)
    | openDouble => exact ih h
    | closeDouble => exact ih h
    | _ => cases h

/-- The words of a simple command have the characters of its text. -/
theorem mem_of_mem_simpleCommand {text : Text} {command : List Text} (h : simpleCommand text = some command)
    {word : Text} (hword : word ∈ command) {c : Char} (hc : c ∈ word) : c = '\\' ∨ c = '$' ∨ c ∈ text := by
  obtain ⟨⟨rest, more⟩, hwords, rfl⟩ := Option.map_eq_some_iff.mp h
  obtain ⟨events, hlex, hwords⟩ := Option.bind_eq_some_iff.mp hwords
  exact mem_of_mem_literals_lex hlex ((mem_literals_of_words hwords).2 word hword c hc)

end shlib
