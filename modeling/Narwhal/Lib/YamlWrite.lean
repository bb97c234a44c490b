import Narwhal.Lib.Fold
import Narwhal.Lib.Words
import Narwhal.Lib.YamlText

open jslib
open pylib (mapM_eq_some_iff)

namespace yamllib

/-! Documents that are written line by line, and what is read of them. -/

def unlines (lines : List Text) : Text := lines.flatMap (· ++ ['\n'])

/-- The lines of documents with a mark between any two. -/
def writeDocuments : List (List Line) → List Text
  | [] => []
  | [doc] => doc.map Line.text
  | doc :: docs => doc.map Line.text ++ "---".toList :: writeDocuments docs

/-- What a line begins with. -/
def Line.start (line : Line) : Text :=
  List.replicate line.indent ' ' ++ ((if line.item then ['-', ' '] else []) ++ (line.key ++ [':']))

theorem Line.text_eq (line : Line) : line.text = line.start ++ line.rest := by
  simp [Line.text, Line.start]

/-- The line as far as its first break. -/
def Line.cut (D : Dialect) (line : Line) : Line := { line with rest := line.rest.takeWhile fun c => !D.isBreak c }

/-- A line with a key, in which a break may stand only in what follows the white space after the colon. -/
structure Line.Writable (D : Dialect) (line : Line) : Prop where
  keyed : line.Keyed
  start : ∀ c ∈ line.start, D.isBreak c = false
  rest : line.rest.head?.all (!D.isBreak ·) = true

/-- What stands after a key. -/
inductive Value where
  | none
  | plain (s : Text)
  | quoted (s : Text)
deriving DecidableEq, Repr

def Value.text : Value → Text
  | .none => []
  | .plain s => ' ' :: s
  | .quoted s => ' ' :: '"' :: (s ++ ['"'])

def Value.scalar : Value → Option Scalar
  | .none => Option.none
  | .plain s | .quoted s => some (.str s)

/-- The value is read as it is meant. -/
def Value.Legible (D : Dialect) : Value → Prop
  | .none => True
  | .plain s => isPlain s = true ∧ D.isString s = true
  | .quoted s => '"' ∉ s ∧ '\\' ∉ s

theorem readScalar_value_iff {D : Dialect} (value : Value) :
    readScalar D value.text = some value.scalar ↔ value.Legible D := by
  cases value with
  | none => exact iff_of_true rfl trivial
  | plain s => exact readScalar_eq_iff
  | quoted s => exact readScalar_quoted_iff

/-- A key with its value and where it stands. -/
structure Entry where
  indent : Nat
  item : Bool
  key : Text
  value : Value
deriving DecidableEq, Repr

def Entry.line (e : Entry) : Line := ⟨e.indent, e.item, e.key, e.value.text⟩

def Entry.token (e : Entry) : Token := ⟨e.indent, e.item, e.key, e.value.scalar⟩

/-- The lines of documents with these entries. -/
def writeEntries (docs : List (List Entry)) : List Text := writeDocuments (docs.map (·.map Entry.line))

theorem splitOnP_append_left {p : Char → Bool} {s t : Text} (h : ∀ c ∈ s, p c = false) :
    (s ++ t).splitOnP p = (t.splitOnP p).modifyHead (s ++ ·) := by
  induction s with
  | nil =>
    rw [List.nil_append]
    cases t.splitOnP p with
    | nil => rfl
    | cons piece pieces => rfl
  | cons c s ih =>
    rw [List.forall_mem_cons] at h
    rw [List.cons_append, List.splitOnP_cons_eq_if_modifyHead, h.1, if_neg Bool.false_ne_true, ih h.2,
      List.modifyHead_modifyHead]
    rfl

theorem splitOnP_unlines {p : Char → Bool} (h : p '\n' = true) (lines : List Text) :
    (unlines lines).splitOnP p = lines.flatMap (·.splitOnP p) ++ [[]] := by
  induction lines with
  | nil => rfl
  | cons line lines ih =>
    rw [unlines, List.flatMap_cons, List.append_assoc, List.singleton_append, List.splitOnP_append_cons line _ h]
    rw [unlines] at ih
    rw [ih, List.flatMap_cons, List.append_assoc]

section

variable {D : Dialect} {line : Line}

namespace Line.Writable

theorem keyed_cut (h : line.Writable D) : (line.cut D).Keyed := by
  refine ⟨h.keyed.plain, h.keyed.white, ?_⟩
  have hwhite := h.keyed.rest
  have hbreak := h.rest
  change ((line.rest.takeWhile fun c => !D.isBreak c).head?.all isWhite) = true
  cases hrest : line.rest with
  | nil => rfl
  | cons c rest =>
    rw [hrest, List.head?_cons, Option.all_some] at hwhite hbreak
    rw [List.takeWhile_cons_of_pos (p := fun c => !D.isBreak c) hbreak, List.head?_cons, Option.all_some, hwhite]

/-- Only the first piece of a line is read with its key. -/
theorem splitOnP_text (h : line.Writable D) :
    line.text.splitOnP D.isBreak = (line.cut D).text :: (line.rest.splitOnP D.isBreak).tail := by
  obtain ⟨pieces, hpieces⟩ := splitOnP_eq_takeWhile D.isBreak line.rest
  rw [Line.text_eq, splitOnP_append_left h.start, hpieces, Line.text_eq]
  rfl

end Line.Writable

/-! ### What is read of a text -/

theorem contentLines_flatMap {lines : List Line} (h : ∀ line ∈ lines, line.Writable D) :
    lines.length ≤ (contentLines (lines.flatMap (·.text.splitOnP D.isBreak))).length ∧
      ((contentLines (lines.flatMap (·.text.splitOnP D.isBreak))).length ≤ lines.length →
        contentLines (lines.flatMap (·.text.splitOnP D.isBreak)) = lines.map fun line => (line.cut D).text) := by
  induction lines with
  | nil => exact ⟨Nat.zero_le _, fun _ => rfl⟩
  | cons line lines ih =>
    rw [List.forall_mem_cons] at h
    obtain ⟨hle, heq⟩ := ih h.2
    have hcut := h.1.keyed_cut
    have hfirst : contentLines ((line :: lines).flatMap (·.text.splitOnP D.isBreak)) =
        (line.cut D).text :: (contentLines (line.rest.splitOnP D.isBreak).tail ++
          contentLines (lines.flatMap (·.text.splitOnP D.isBreak))) := by
      rw [List.flatMap_cons, contentLines_append, h.1.splitOnP_text, contentLines,
        List.filter_cons_of_pos (by simp [hcut.isBlank_text, hcut.isMarker_text])]
      rfl
    rw [hfirst, List.length_cons, List.length_cons, List.length_append]
    refine ⟨by omega, fun hlength => ?_⟩
    have hnone : contentLines (line.rest.splitOnP D.isBreak).tail = [] := List.length_eq_zero_iff.mp (by omega)
    rw [hnone, List.nil_append, heq (by omega), List.map_cons]

theorem exists_tokens_of_mapM {docs : List (List Text)} {nodes : List Node} (h : docs.mapM (parseDocument D) = some nodes) :
    ∃ tokens, docs.flatten.mapM (readLine D) = some tokens ∧ tokens.map Token.pair = nodes.flatMap Node.pairs := by
  induction docs generalizing nodes with
  | nil =>
    obtain rfl := Option.some.inj h
    exact ⟨[], rfl, rfl⟩
  | cons doc docs ih =>
    obtain ⟨node, hnode, nodes, hnodes, rfl⟩ : ∃ node, parseDocument D doc = some node ∧
        ∃ nodes', docs.mapM (parseDocument D) = some nodes' ∧ node :: nodes' = nodes := by
      simpa [List.mapM_cons, Option.bind_eq_some_iff] using h
    obtain ⟨first, hfirst, hpairs⟩ := exists_tokens_of_parseDocument hnode
    obtain ⟨rest, hrest, hpairs'⟩ := ih hnodes
    refine ⟨first ++ rest, ?_, ?_⟩
    · rw [mapM_eq_some_iff] at hfirst hrest ⊢
      rw [List.flatten_cons, List.map_append, List.map_append, hfirst, hrest]
    · rw [List.map_append, hpairs, hpairs', List.flatMap_cons]

theorem writeDocuments_cons (doc next : List Line) (docs : List (List Line)) :
    writeDocuments (doc :: next :: docs) = doc.map Line.text ++ "---".toList :: writeDocuments (next :: docs) := rfl

theorem mem_writeDocuments {docs : List (List Line)} {l : Text} (h : l ∈ writeDocuments docs) :
    l = "---".toList ∨ ∃ doc ∈ docs, ∃ line ∈ doc, line.text = l := by
  induction docs with
  | nil => cases h
  | cons doc docs ih =>
    have hdoc : l ∈ doc.map Line.text → ∃ d ∈ doc :: docs, ∃ line ∈ d, line.text = l := by
      intro hl
      obtain ⟨line, hline, rfl⟩ := List.mem_map.mp hl
      exact ⟨doc, List.mem_cons_self, line, hline, rfl⟩
    cases docs with
    | nil => exact .inr (hdoc h)
    | cons next docs =>
      rw [writeDocuments_cons, List.mem_append, List.mem_cons] at h
      rcases h with hl | rfl | hl
      · exact .inr (hdoc hl)
      · exact .inl rfl
      · rcases ih hl with rfl | ⟨d, hd, hline⟩
        · exact .inl rfl
        · exact .inr ⟨d, List.mem_cons_of_mem doc hd, hline⟩

theorem text_mem_writeDocuments {docs : List (List Line)} {doc : List Line} {line : Line} (hdoc : doc ∈ docs)
    (hline : line ∈ doc) : line.text ∈ writeDocuments docs := by
  induction docs with
  | nil => cases hdoc
  | cons first docs ih =>
    cases docs with
    | nil =>
      obtain rfl := List.mem_singleton.mp hdoc
      exact List.mem_map_of_mem hline
    | cons next docs =>
      rw [writeDocuments_cons, List.mem_append, List.mem_cons]
      rcases List.mem_cons.mp hdoc with rfl | hdoc
      · exact .inl (List.mem_map_of_mem hline)
      · exact .inr (.inr (ih hdoc))

theorem documents_writeDocuments (cur : List Text) {doc : List Line} {docs : List (List Line)}
    (h : ∀ d ∈ doc :: docs, ∀ line ∈ d, line.Keyed) :
    documents (some cur) (writeDocuments (doc :: docs) ++ [[]]) =
      some ((cur ++ doc.map Line.text) :: docs.map (·.map Line.text)) := by
  have hlines : ∀ (cur : List Text) (doc : List Line) (lines : List Text), (∀ line ∈ doc, line.Keyed) →
      documents (some cur) (doc.map Line.text ++ lines) = documents (some (cur ++ doc.map Line.text)) lines := by
    intro cur doc lines hdoc
    induction doc generalizing cur with
    | nil => rw [List.map_nil, List.nil_append, List.append_nil]
    | cons line doc ih =>
      rw [List.forall_mem_cons] at hdoc
      rw [List.map_cons, List.cons_append, documents_content hdoc.1.isBlank_text hdoc.1.isMarker_text
        (hdoc.1.isMarked_text (by decide) (by decide)), Option.getD_some, ih _ hdoc.2, List.append_assoc]
      rfl
  induction docs generalizing cur doc with
  | nil =>
    rw [writeDocuments, hlines cur doc _ (h doc List.mem_cons_self)]
    rfl
  | cons next docs ih =>
    rw [List.forall_mem_cons] at h
    have hmark : documents (some (cur ++ doc.map Line.text)) ("---".toList :: (writeDocuments (next :: docs) ++ [[]])) =
        (documents (some []) (writeDocuments (next :: docs) ++ [[]])).map ([cur ++ doc.map Line.text] ++ ·) := rfl
    rw [writeDocuments_cons, List.append_assoc, hlines cur doc _ h.1, List.cons_append, hmark, ih [] h.2]
    rfl

/-- The documents of a text that is written so, after lines without content. -/
theorem documents_written {extra : List Text} {line : Line} {doc : List Line} {docs : List (List Line)}
    (hextra : contentLines extra = []) (h : ∀ d ∈ (line :: doc) :: docs, ∀ line ∈ d, line.Keyed) :
    documents none (extra ++ (writeDocuments ((line :: doc) :: docs) ++ [[]])) =
      if ∀ mark ∈ extra, isMarker mark = true → isBlank (mark.drop 3) = true then
        some (List.replicate (extra.countP isMarker - 1) [] ++ ((line :: doc) :: docs).map (·.map Line.text))
      else none := by
  have hline := (h (line :: doc) List.mem_cons_self) line List.mem_cons_self
  have hrest : ∀ d ∈ doc :: docs, ∀ line ∈ d, line.Keyed := by
    intro d hd
    rcases List.mem_cons.mp hd with rfl | hd
    · exact fun l hl => h _ List.mem_cons_self l (List.mem_cons_of_mem line hl)
    · exact h d (List.mem_cons_of_mem _ hd)
  have hcons : writeDocuments ((line :: doc) :: docs) = line.text :: writeDocuments (doc :: docs) := by
    cases docs <;> rfl
  rw [hcons, List.cons_append, documents_skip hextra rfl hline.isBlank_text hline.isMarker_text
    (hline.isMarked_text (by decide) (by decide)), documents_writeDocuments [line.text] hrest]
  rfl

/-- The content of a text that is written so. -/
theorem contentLines_written (hdash : D.isBreak '-' = false) (docs : List (List Line)) :
    contentLines ((writeDocuments docs).flatMap (·.splitOnP D.isBreak)) =
      contentLines (docs.flatten.flatMap (·.text.splitOnP D.isBreak)) := by
  have hmark : contentLines ("---".toList.splitOnP D.isBreak) = [] := by
    rw [List.splitOnP_eq_singleton]
    · decide
    · intro c hc
      rw [show c = '-' by simpa using hc]
      exact hdash
  induction docs with
  | nil => rfl
  | cons doc docs ih =>
    cases docs with
    | nil => simp [writeDocuments, List.flatMap_map]
    | cons next docs =>
      have hflatten : (doc :: next :: docs).flatten = doc ++ (next :: docs).flatten := rfl
      rw [writeDocuments_cons, List.flatMap_append, List.flatMap_cons, contentLines_append, contentLines_append, hmark, ih,
        hflatten, List.flatMap_append, contentLines_append, List.flatMap_map]
      rfl

/-- Documents whose lines hold no break are not cut further. -/
theorem flatMap_splitOnP_writeDocuments (hdash : D.isBreak '-' = false) {docs : List (List Line)}
    (h : ∀ doc ∈ docs, ∀ line ∈ doc, ∀ c ∈ line.text, D.isBreak c = false) :
    (writeDocuments docs).flatMap (·.splitOnP D.isBreak) = writeDocuments docs := by
  have hsingle : ∀ l ∈ writeDocuments docs, l.splitOnP D.isBreak = [l] := by
    intro l hl
    refine List.splitOnP_eq_singleton fun c hc => ?_
    rcases mem_writeDocuments hl with rfl | ⟨doc, hdoc, line, hline, rfl⟩
    · rw [show c = '-' by simpa using hc]
      exact hdash
    · exact h doc hdoc line hline c hc
  rw [List.flatMap_congr hsingle, List.flatMap_singleton']

theorem all_splitOnP_iff {p q : Char → Bool} {s : Text} :
    (s.splitOnP p).all (·.all q) = true ↔ ∀ c ∈ s, p c = true ∨ q c = true := by
  induction s with
  | nil => exact iff_of_true rfl (by simp)
  | cons c s ih =>
    rw [List.forall_mem_cons, ← ih, List.splitOnP_cons_eq_if_modifyHead]
    obtain ⟨first, rest, hpieces⟩ := List.exists_cons_of_ne_nil (List.splitOnP_ne_nil p s)
    rw [hpieces]
    cases hc : p c with
    | true => simp
    | false => simp [and_assoc]

section

variable {comments : List Text} {docs : List (List Line)} {nodes : List Node}

/-- If no more keys are read than were written, nothing is read of the comments, and each line up to its first break is read
    as the key that was written with a scalar. -/
theorem reads_of_parse (hbreak : D.isBreak '\n' = true) (hdash : D.isBreak '-' = false)
    (hlines : ∀ line ∈ docs.flatten, line.Writable D)
    (hparse : parse D (unlines (comments ++ writeDocuments docs)) = some nodes)
    (hcount : (nodes.flatMap Node.pairs).length ≤ docs.flatten.length) :
    contentLines (comments.flatMap (·.splitOnP D.isBreak)) = [] ∧
      docs.flatten.map (fun line => (readScalar D (line.cut D).rest).map (line.key, ·)) =
        (nodes.flatMap Node.pairs).map some := by
  simp only [parse] at hparse
  split at hparse
  · split at hparse
    · cases hparse
    next docs' hdocs =>
    obtain ⟨tokens, htokens, hpairs⟩ := exists_tokens_of_mapM hparse
    have hcontent : docs'.flatten = contentLines (comments.flatMap (·.splitOnP D.isBreak)) ++
        contentLines (docs.flatten.flatMap (·.text.splitOnP D.isBreak)) := by
      have hflatten := flatten_documents hdocs
      rw [Option.getD_none, List.nil_append, splitOnP_unlines hbreak, List.flatMap_append, contentLines_append,
        contentLines_append, contentLines_written hdash] at hflatten
      have hlast : contentLines [[]] = [] := rfl
      rw [hflatten, hlast, List.append_nil]
    rw [mapM_eq_some_iff] at htokens
    obtain ⟨hle, heq⟩ := contentLines_flatMap hlines
    have hlength : docs'.flatten.length = (nodes.flatMap Node.pairs).length := by
      have hmap := congrArg List.length htokens
      rw [List.length_map, List.length_map] at hmap
      rw [hmap, ← hpairs, List.length_map]
    rw [hcontent, List.length_append] at hlength
    have hnone : contentLines (comments.flatMap (·.splitOnP D.isBreak)) = [] := List.length_eq_zero_iff.mp (by omega)
    refine ⟨hnone, ?_⟩
    rw [hcontent, hnone, List.nil_append, heq (by omega), List.map_map] at htokens
    have hread : docs.flatten.map (fun line => (readScalar D (line.cut D).rest).map (line.key, ·)) =
        (docs.flatten.map (readLine D ∘ fun line => (line.cut D).text)).map (Option.map Token.pair) := by
      rw [List.map_map]
      refine List.map_congr_left fun line hline => ?_
      simp only [Function.comp_apply, (hlines line hline).keyed_cut.readLine_text, Option.map_map]
      rfl
    rw [hread, htokens, ← hpairs, List.map_map, List.map_map]
    rfl
  · cases hparse

theorem printable_of_parse {s : Text} (h : parse D s = some nodes) : ∀ c ∈ s, D.isBreak c = true ∨ D.isPrintable c = true := by
  simp only [parse] at h
  split at h
  · next hprintable => exact all_splitOnP_iff.mp hprintable
  · cases h

/-- If there are no more documents than were written, at most one bare mark goes before them. -/
theorem marks_of_parse {line : Line} {doc : List Line} (hbreak : D.isBreak '\n' = true) (hdash : D.isBreak '-' = false)
    (hextra : contentLines (comments.flatMap (·.splitOnP D.isBreak)) = [])
    (hkeyed : ∀ d ∈ (line :: doc) :: docs, ∀ line ∈ d, line.Keyed)
    (hunbroken : ∀ d ∈ (line :: doc) :: docs, ∀ line ∈ d, ∀ c ∈ line.text, D.isBreak c = false)
    (hparse : parse D (unlines (comments ++ writeDocuments ((line :: doc) :: docs))) = some nodes)
    (hcount : nodes.length ≤ ((line :: doc) :: docs).length) :
    (∀ mark ∈ comments.flatMap (·.splitOnP D.isBreak), isMarker mark = true → isBlank (mark.drop 3) = true) ∧
      (comments.flatMap (·.splitOnP D.isBreak)).countP isMarker ≤ 1 := by
  simp only [parse] at hparse
  split at hparse
  · rw [splitOnP_unlines hbreak, List.flatMap_append, flatMap_splitOnP_writeDocuments hdash hunbroken, List.append_assoc,
      documents_written hextra hkeyed] at hparse
    split at hparse
    · cases hparse
    next docs' hdocs =>
    split at hdocs
    · next hbare =>
      refine ⟨hbare, ?_⟩
      obtain rfl := Option.some.inj hdocs
      have hlength := congrArg List.length (mapM_eq_some_iff.mp hparse)
      simp only [List.length_map, List.length_append, List.length_replicate] at hlength
      omega
    · cases hdocs
  · cases hparse

/-- A text without other breaks is read as its entries say, if what goes before them holds nothing. -/
theorem parse_written {e : Entry} {doc : List Entry} {docs : List (List Entry)} (hbreak : D.isBreak '\n' = true)
    (hdash : D.isBreak '-' = false)
    (hprintable : ∀ c ∈ unlines (comments ++ writeEntries ((e :: doc) :: docs)), D.isBreak c = true ∨ D.isPrintable c = true)
    (hextra : contentLines (comments.flatMap (·.splitOnP D.isBreak)) = [])
    (hbare : ∀ mark ∈ comments.flatMap (·.splitOnP D.isBreak), isMarker mark = true → isBlank (mark.drop 3) = true)
    (hmarks : (comments.flatMap (·.splitOnP D.isBreak)).countP isMarker ≤ 1)
    (hkeyed : ∀ d ∈ (e :: doc) :: docs, ∀ e ∈ d, e.line.Keyed)
    (hunbroken : ∀ d ∈ (e :: doc) :: docs, ∀ e ∈ d, ∀ c ∈ e.line.text, D.isBreak c = false)
    (hlegible : ∀ d ∈ (e :: doc) :: docs, ∀ e ∈ d, e.value.Legible D) :
    parse D (unlines (comments ++ writeEntries ((e :: doc) :: docs))) =
      ((e :: doc) :: docs).mapM fun d => parseTokens (d.map Entry.token) := by
  have hlines : ∀ d ∈ ((e :: doc) :: docs).map (·.map Entry.line), ∀ line ∈ d, line.Keyed := by
    intro d hd line hline
    obtain ⟨d', hd', rfl⟩ := List.mem_map.mp hd
    obtain ⟨e', he', rfl⟩ := List.mem_map.mp hline
    exact hkeyed d' hd' e' he'
  have hpieces : (writeEntries ((e :: doc) :: docs)).flatMap (·.splitOnP D.isBreak) = writeEntries ((e :: doc) :: docs) := by
    refine flatMap_splitOnP_writeDocuments hdash fun d hd line hline => ?_
    obtain ⟨d', hd', rfl⟩ := List.mem_map.mp hd
    obtain ⟨e', he', rfl⟩ := List.mem_map.mp hline
    exact hunbroken d' hd' e' he'
  have hdocs : documents none (comments.flatMap (·.splitOnP D.isBreak) ++ (writeEntries ((e :: doc) :: docs) ++ [[]])) =
      some (((e :: doc) :: docs).map (·.map (·.line.text))) := by
    rw [writeEntries, List.map_cons, List.map_cons, documents_written hextra hlines, if_pos hbare,
      Nat.sub_eq_zero_of_le hmarks, ← List.map_cons, ← List.map_cons, List.map_map]
    simp [Function.comp_def]
  have hread : ∀ d ∈ (e :: doc) :: docs, parseDocument D (d.map (·.line.text)) = parseTokens (d.map Entry.token) := by
    intro d hd
    have htokens : (d.map (·.line.text)).mapM (readLine D) = some (d.map Entry.token) := by
      rw [mapM_eq_some_iff, List.map_map, List.map_map]
      refine List.map_congr_left fun e' he' => ?_
      have hscalar : readScalar D e'.line.rest = some e'.value.scalar :=
        (readScalar_value_iff e'.value).mpr (hlegible d hd e' he')
      rw [Function.comp_apply, Function.comp_apply, (hkeyed d hd e' he').readLine_text, hscalar]
      rfl
    rw [parseDocument, htokens]
    rfl
  simp only [parse]
  rw [if_pos (all_splitOnP_iff.mpr hprintable), splitOnP_unlines hbreak, List.flatMap_append, hpieces, List.append_assoc, hdocs]
  have hmap := congrArg (List.mapM id) (List.map_congr_left hread)
  rw [List.mapM_map, List.mapM_map] at hmap
  change (((e :: doc) :: docs).map (·.map (·.line.text))).mapM (parseDocument D) = _
  rw [List.mapM_map]
  exact hmap

end

end

end yamllib
