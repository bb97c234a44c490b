import Narwhal.Lib.JsonBytes
import Narwhal.Lib.Lines
import Narwhal.Lib.Sha256
import Narwhal.Research.Recorder

open pylib narwhal.record_evidence

namespace narwhal.check_research_evidence

/-! ### The check of a directory -/

/-- The number of a line in a file. -/
abbrev Place := Str × Nat

/-- The lines that may stay as they are, with their digests. -/
abbrev Allowed := AList fun _ : Place => Str

def Place.text (place : Place) : Str := place.1 ++ 58 :: natRepr place.2

/-- Whether one place comes before another, or is it. -/
def Place.le (a b : Place) : Bool := a.1 < b.1 ∨ a.1 = b.1 ∧ a.2 ≤ b.2

section

variable (decimal : Nat → Bool)

/-- An entry of `known-invalid.json`; `none` is one that is not valid. -/
def readEntry : Json → Option (Place × Str)
  | .obj fields =>
    match lookupField (lit "file") fields, lookupField (lit "line") fields, lookupField (lit "sha256") fields,
      lookupField (lit "reason") fields with
    | some (.str file), some (.int line), some (.str sha256), some (.str reason) =>
      if (fields.map Prod.fst).all (fun key => (["file", "line", "sha256", "reason"].map lit).contains key) ∧
          afterForm decimal (lit "dddd-dd.jsonl") file = some [] ∧ 1 ≤ line ∧
          fullmatch (Regex.times 64 (anyOf hexRanges)) sha256 ∧ strip reason ≠ [] then
        some ((file, line.toNat), sha256)
      else none
    | _, _, _, _ => none
  | _ => none

/-- One entry after the others: what is wrong so far, and what is allowed. -/
def addEntry (state : List Str × Allowed) (entry : Json) : List Str × Allowed :=
  match readEntry decimal entry with
  | none => (state.1 ++ [lit "invalid known-invalid.json entry"], state.2)
  | some (place, sha256) =>
    (state.1 ++ (if place ∈ state.2 then
        [lit "duplicate allowlist entry: ('" ++ place.1 ++ lit "', " ++ natRepr place.2 ++ lit ")"] else []),
      state.2.insert place sha256)

/-- `json.loads` of the text of `known-invalid.json`, where it exists; `none` is an exception. -/
def readAllowlist (directory : Str) (files : Files) : Option Json :=
  match files.contents.lookup (directory, lit "known-invalid.json") with
  | none => some (.arr [])
  | some content => (utf8Decode content).bind fun text => loads lastValues (universalNewlines text)

/-- The names and contents of the files that `glob("*.jsonl")` finds, in the order of their names. -/
def evidenceFiles (directory : Str) (files : Files) : List (Str × Bytes) :=
  (files.contents.entries.filterMap fun entry =>
    if entry.1.1 = directory ∧ (lit ".jsonl").isSuffixOf entry.1.2 then some (entry.1.2, entry.2) else none).mergeSort
      fun a b => a.1 ≤ b.1

/-- The lines of a file with their places. -/
def placedLines (file : Str × Bytes) : List (Place × Bytes) :=
  ((splitlines file.2).zipIdx 1).map fun line => ((file.1, line.2), line.1)

end

section

variable (iter_errors : Json → List SchemaError) (decodeError : Bytes → Str) (commits : Str → Bool) (slug : Str)

/-- What is wrong with a line; `decodeError` is the text of the error of `json.loads`. -/
def lineErrors (raw : Bytes) : List Str :=
  match loadsBytes raw with
  | none => [lit "invalid JSON: " ++ decodeError raw]
  | some record => record_errors iter_errors commits record slug

/-- One line after the others: what is wrong so far, and the allowed lines that were seen. -/
def checkLine (allowed : Allowed) (state : List Str × List Place) (line : Place × Bytes) : List Str × List Place :=
  match allowed.lookup line.1 with
  | some sha256 =>
    (state.1 ++ (if sha256_hexdigest line.2 ≠ sha256 then [line.1.text ++ lit ": allowlisted line hash mismatch"] else []),
      line.1 :: state.2)
  | none =>
    (state.1 ++ (lineErrors iter_errors decodeError commits slug line.2).map fun reason => line.1.text ++ lit ": " ++ reason,
      state.2)

end

/-- `check`; `none` is an exception. -/
def check (iter_errors : Json → List SchemaError) (decimal : Nat → Bool) (decodeError : Bytes → Str) (commits : Str → Bool)
    (origin : Answer) (directory : Str) (files : Files) : Option (List Str) :=
  match repository_slug origin with
  | none => none
  | some slug =>
    if directory ∉ files.directories then some [lit "research/evidence directory is missing"]
    else
      match readAllowlist directory files with
      | none => none
      | some (.arr allowlist) =>
        let (problems, allowed) := allowlist.foldl (addEntry decimal) ([], ∅)
        let (problems, seen) := ((evidenceFiles directory files).flatMap placedLines).foldl
          (checkLine iter_errors decodeError commits slug allowed) (problems, [])
        some (problems ++ ((allowed.keys.filter fun place => place ∉ seen).mergeSort Place.le).map fun place =>
          place.text ++ lit ": allowlisted line is missing")
      | some _ => some [lit "known-invalid.json must be an array"]

/-! ### What it accepts -/

section

variable {iter_errors : Json → List SchemaError} {decimal : Nat → Bool} {decodeError : Bytes → Str} {commits : Str → Bool}
  {slug directory : Str} {files : Files}

/-- A line is what was allowed, or has no errors. -/
def LinePasses (iter_errors : Json → List SchemaError) (decodeError : Bytes → Str) (commits : Str → Bool) (slug : Str)
    (allowed : Allowed) (line : Place × Bytes) : Prop :=
  match allowed.lookup line.1 with
  | some sha256 => sha256_hexdigest line.2 = sha256
  | none => lineErrors iter_errors decodeError commits slug line.2 = []

/-- What the files under a directory have to be like, with what is allowed of them. -/
structure Accepts (iter_errors : Json → List SchemaError) (decimal : Nat → Bool) (decodeError : Bytes → Str)
    (commits : Str → Bool) (slug directory : Str) (allowed : Allowed) (files : Files) : Prop where
  exists_directory : directory ∈ files.directories
  allowlist : ∃ entries, readAllowlist directory files = some (.arr entries) ∧
    entries.foldl (addEntry decimal) ([], ∅) = ([], allowed)
  lines : ∀ line ∈ (evidenceFiles directory files).flatMap placedLines,
    LinePasses iter_errors decodeError commits slug allowed line
  present : ∀ place ∈ allowed, place ∈ ((evidenceFiles directory files).flatMap placedLines).map Prod.fst

/-- One line adds no problem exactly if it passes, and is seen if it was allowed. -/
theorem checkLine_step (allowed : Allowed) (state : List Str × List Place) (line : Place × Bytes) :
    let state' := checkLine iter_errors decodeError commits slug allowed state line
    (state'.1 = [] ↔ state.1 = [] ∧ LinePasses iter_errors decodeError commits slug allowed line) ∧
      ∀ place ∈ allowed, place ∈ state'.2 ↔ place ∈ state.2 ∨ place = line.1 := by
  rw [checkLine, LinePasses]
  cases hlookup : allowed.lookup line.1 with
  | some sha256 =>
    refine ⟨?_, fun place _ => List.mem_cons.trans or_comm⟩
    by_cases hsha : sha256_hexdigest line.2 = sha256 <;> simp [hsha]
  | none =>
    refine ⟨by simp, fun place hplace => (or_iff_left ?_).symm⟩
    rintro rfl
    exact AList.lookup_eq_none.mp hlookup hplace

/-- The lines of a directory add no problem exactly if all of them pass; the allowed ones among them are those seen.
    -/
theorem checkLine_run (allowed : Allowed) (lines : List (Place × Bytes)) (state : List Str × List Place) :
    let state' := lines.foldl (checkLine iter_errors decodeError commits slug allowed) state
    (state'.1 = [] ↔ state.1 = [] ∧ ∀ line ∈ lines, LinePasses iter_errors decodeError commits slug allowed line) ∧
      ∀ place ∈ allowed, place ∈ state'.2 ↔ place ∈ state.2 ∨ place ∈ lines.map Prod.fst := by
  induction lines generalizing state with
  | nil => simp
  | cons line lines ih =>
    obtain ⟨hproblems, hseen⟩ := checkLine_step allowed state line
    obtain ⟨hproblems', hseen'⟩ := ih (checkLine iter_errors decodeError commits slug allowed state line)
    refine ⟨?_, fun place hplace => ?_⟩
    · rw [List.foldl_cons, hproblems', hproblems, List.forall_mem_cons, and_assoc]
    · rw [List.foldl_cons, hseen' place hplace, hseen place hplace, List.map_cons, List.mem_cons, or_assoc]

/-- The check finds no problem exactly in the files that it accepts. -/
theorem check_eq_nil_iff {origin : Answer} :
    check iter_errors decimal decodeError commits origin directory files = some [] ↔
      ∃ slug allowed, repository_slug origin = some slug ∧
        Accepts iter_errors decimal decodeError commits slug directory allowed files := by
  rw [check]
  cases hslug : repository_slug origin with
  | none => simp
  | some slug =>
    dsimp only
    by_cases hdirectory : directory ∈ files.directories
    · rw [if_neg (not_not_intro hdirectory)]
      split
      · next hread =>
        refine iff_of_false (by simp) ?_
        rintro ⟨_, _, -, haccepts⟩
        obtain ⟨entries, hentries, -⟩ := haccepts.allowlist
        cases hread.symm.trans hentries
      · next entries hread =>
        generalize hstate : entries.foldl (addEntry decimal) ([], ∅) = state
        obtain ⟨problems, allowed⟩ := state
        obtain ⟨hproblems, hseen⟩ := @checkLine_run iter_errors decodeError commits slug allowed
          ((evidenceFiles directory files).flatMap placedLines) (problems, [])
        have hmissing : ∀ places : List Place, (places.mergeSort Place.le) = [] ↔ places = [] := by
          intro places
          rw [← List.length_eq_zero_iff, List.length_mergeSort, List.length_eq_zero_iff]
        dsimp only
        rw [Option.some.injEq, List.append_eq_nil_iff, hproblems, List.map_eq_nil_iff, hmissing, List.filter_eq_nil_iff]
        constructor
        · rintro ⟨⟨rfl, hlines⟩, hpresent⟩
          refine ⟨slug, allowed, rfl, hdirectory, ⟨entries, hread, hstate⟩, hlines, fun place hplace => ?_⟩
          have hmem := hpresent place (AList.mem_keys.mp hplace)
          rw [decide_eq_true_eq, not_not] at hmem
          exact ((hseen place hplace).mp hmem).resolve_left List.not_mem_nil
        · rintro ⟨_, allowed', hslug', haccepts⟩
          obtain rfl := Option.some.inj hslug'
          obtain ⟨entries', hread', hstate'⟩ := haccepts.allowlist
          obtain rfl : entries = entries' := Json.arr.inj (Option.some.inj (hread.symm.trans hread'))
          obtain ⟨rfl, rfl⟩ := Prod.mk.inj (hstate.symm.trans hstate')
          refine ⟨⟨rfl, haccepts.lines⟩, fun place hplace => ?_⟩
          have hallowed : place ∈ allowed := AList.mem_keys.mpr hplace
          rw [decide_eq_true_eq, not_not]
          exact (hseen place hallowed).mpr (.inr (haccepts.present place hallowed))
      · next hnot hread =>
        refine iff_of_false (by simp) ?_
        rintro ⟨_, _, -, haccepts⟩
        obtain ⟨entries, hentries, -⟩ := haccepts.allowlist
        exact hnot entries (Option.some.inj (hread.symm.trans hentries))
    · rw [if_pos hdirectory]
      refine iff_of_false (by simp) ?_
      rintro ⟨_, _, -, haccepts⟩
      exact hdirectory haccepts.exists_directory

/-! ### A line more -/

/-- The files that are checked are those whose names end in `.jsonl`. -/
theorem mem_evidenceFiles_iff {name : Str} {content : Bytes} :
    (name, content) ∈ evidenceFiles directory files ↔
      (lit ".jsonl").isSuffixOf name = true ∧ files.contents.lookup (directory, name) = some content := by
  rw [evidenceFiles, List.mem_mergeSort, List.mem_filterMap]
  constructor
  · rintro ⟨entry, hentry, hsome⟩
    split_ifs at hsome with hfile
    obtain ⟨rfl, rfl⟩ := Prod.mk.inj (Option.some.inj hsome)
    obtain ⟨rfl, hsuffix⟩ := hfile
    exact ⟨hsuffix, AList.mem_lookup_iff.mpr hentry⟩
  · rintro ⟨hsuffix, hlookup⟩
    exact ⟨⟨(directory, name), content⟩, AList.mem_lookup_iff.mp hlookup, if_pos ⟨rfl, hsuffix⟩⟩

/-- The lines of a file with some more at its end. -/
theorem placedLines_append {name : Str} {a b : Bytes} (h : EndsLine a) :
    placedLines (name, a ++ b) = placedLines (name, a) ++
      ((splitlines b).zipIdx (1 + (splitlines a).length)).map fun line => ((name, line.2), line.1) := by
  rw [placedLines, placedLines, splitlines_append h, List.zipIdx_append, List.map_append]

/-- The place of a line is in its file, and its number is at most the number of lines. -/
theorem place_of_mem_placedLines {name : Str} {content : Bytes} {line : Place × Bytes} (h : line ∈ placedLines (name, content)) :
    line.1.1 = name ∧ line.1.2 ≤ (splitlines content).length := by
  obtain ⟨numbered, hnumbered, rfl⟩ := List.mem_map.mp h
  have hlt : numbered.2 < (splitlines content).length + 1 :=
    (List.snd_lt_add_of_mem_zipIdx hnumbered).trans_eq (Nat.add_comm _ _)
  exact ⟨rfl, Nat.le_of_lt_succ hlt⟩

/-- What a file has so far is among the lines of the directory. -/
theorem mem_lines_of_read {name : Str} (hsuffix : (lit ".jsonl").isSuffixOf name = true) {line : Place × Bytes}
    (h : line ∈ placedLines (name, files.read (directory, name))) :
    line ∈ (evidenceFiles directory files).flatMap placedLines := by
  rw [Files.read] at h
  cases hlookup : files.contents.lookup (directory, name) with
  | none =>
    rw [hlookup] at h
    exact absurd h List.not_mem_nil
  | some content =>
    rw [hlookup] at h
    exact List.mem_flatMap.mpr ⟨(name, content), mem_evidenceFiles_iff.mpr ⟨hsuffix, hlookup⟩, h⟩

/-- Lines that have no errors may be appended to any file. -/
theorem Accepts.grown {allowed : Allowed} (h : Accepts iter_errors decimal decodeError commits slug directory allowed files)
    {path : Str × Str} (hpath : path.2 ≠ lit "known-invalid.json") (hended : EndsLine (files.read path)) {taken : Bytes}
    (hlines : ∀ line ∈ splitlines taken, lineErrors iter_errors decodeError commits slug line = []) {files' : Files}
    (hgrown : files.Grown path taken files') :
    Accepts iter_errors decimal decodeError commits slug directory allowed files' where
  exists_directory := hgrown.directories h.exists_directory
  allowlist := by
    have hne : (directory, lit "known-invalid.json") ≠ path := fun heq => hpath (heq ▸ rfl)
    have hlookup : files'.contents.lookup (directory, lit "known-invalid.json") =
        files.contents.lookup (directory, lit "known-invalid.json") := by
      obtain ⟨hsame, -⟩ | hinsert := hgrown.contents
      · rw [hsame]
      · rw [hinsert, AList.lookup_insert_ne hne]
    rw [readAllowlist, hlookup]
    exact h.allowlist
  lines := by
    intro line hmem
    obtain ⟨⟨name, content⟩, hfile, hplaced⟩ := List.mem_flatMap.mp hmem
    obtain ⟨hsuffix, hlookup⟩ := mem_evidenceFiles_iff.mp hfile
    obtain ⟨hsame, -⟩ | hinsert := hgrown.contents
    · rw [hsame] at hlookup
      exact h.lines line (List.mem_flatMap.mpr ⟨(name, content), mem_evidenceFiles_iff.mpr ⟨hsuffix, hlookup⟩, hplaced⟩)
    rw [hinsert] at hlookup
    by_cases hname : (directory, name) = path
    · subst hname
      obtain rfl := Option.some.inj ((AList.lookup_insert _).symm.trans hlookup)
      rw [placedLines_append hended] at hplaced
      obtain hold | hnew := List.mem_append.mp hplaced
      · exact h.lines line (mem_lines_of_read hsuffix hold)
      · obtain ⟨⟨body, number⟩, hbody, rfl⟩ := List.mem_map.mp hnew
        have hlate := List.le_snd_of_mem_zipIdx hbody
        -- A pinned place is that of a line the file had, and so comes before.
        have hfresh : allowed.lookup (name, number) = none := by
          rw [AList.lookup_eq_none]
          intro hallowed
          obtain ⟨old, hold, hplace⟩ := List.mem_map.mp (h.present _ hallowed)
          obtain ⟨⟨name', content'⟩, hfile', hold⟩ := List.mem_flatMap.mp hold
          obtain ⟨rfl, hle⟩ := place_of_mem_placedLines hold
          rw [hplace] at hle hfile'
          rw [Files.read, (mem_evidenceFiles_iff.mp hfile').2] at hlate
          simp only [Option.getD_some] at hlate
          omega
        rw [LinePasses]
        dsimp only
        rw [hfresh]
        exact hlines body (List.fst_mem_of_mem_zipIdx hbody)
    · rw [AList.lookup_insert_ne hname] at hlookup
      exact h.lines line (List.mem_flatMap.mpr ⟨(name, content), mem_evidenceFiles_iff.mpr ⟨hsuffix, hlookup⟩, hplaced⟩)
  present := by
    intro place hallowed
    obtain ⟨line, hline, rfl⟩ := List.mem_map.mp (h.present place hallowed)
    obtain ⟨⟨name, content⟩, hfile, hplaced⟩ := List.mem_flatMap.mp hline
    obtain ⟨hsuffix, hlookup⟩ := mem_evidenceFiles_iff.mp hfile
    refine List.mem_map_of_mem (List.mem_flatMap.mpr ?_)
    obtain ⟨hsame, -⟩ | hinsert := hgrown.contents
    · exact ⟨(name, content), mem_evidenceFiles_iff.mpr ⟨hsuffix, hsame ▸ hlookup⟩, hplaced⟩
    by_cases hname : (directory, name) = path
    · subst hname
      refine ⟨(name, _), mem_evidenceFiles_iff.mpr ⟨hsuffix, hinsert ▸ AList.lookup_insert _⟩, ?_⟩
      rw [placedLines_append hended, Files.read, hlookup]
      exact List.mem_append_left _ hplaced
    · refine ⟨(name, content), mem_evidenceFiles_iff.mpr ⟨hsuffix, ?_⟩, hplaced⟩
      rw [hinsert, AList.lookup_insert_ne hname]
      exact hlookup

end

end narwhal.check_research_evidence
