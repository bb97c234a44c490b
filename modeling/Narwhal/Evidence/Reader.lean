import Narwhal.Evidence.ChainVerify

open pylib

namespace narwhal.evidence

/-- The loop of both readers: every line of the file is parsed strictly, and the
    first that is refused ends the reading. -/
def read_records (unparseable : Nat → CanonicalError → ChainIntegrityError) (line_no : Nat) :
    List Bytes → Except EvidenceError (List Json)
  | [] => .ok []
  | raw_line :: rest =>
    match parse_strict_json_line raw_line line_no with
    | .error e => .error (.integrity (unparseable line_no e))
    | .ok rec =>
      match read_records unparseable (line_no + 1) rest with
      | .error e => .error e
      | .ok records => .ok (rec :: records)

/-- Read the entries of an open chain file. -/
def read_chain (data : Bytes) : Except EvidenceError (List Json) :=
  read_records .unparseable_line 1 (fileLines data)

/-- Read the checkpoints of an open export store. -/
def read_checkpoints (data : Bytes) : Except EvidenceError (List Json) :=
  read_records .unparseable_checkpoint_line 1 (fileLines data)

/-! ### What the readers accept -/

/-- The line is the encoding of the record. -/
def Parses (line : Bytes) (rec : Json) : Prop := parse_strict_json_line line 0 = .ok rec

/-- The number of a line appears only in its error. -/
theorem Parses.at_line {line : Bytes} {rec : Json} (h : Parses line rec) (line_no : Nat) :
    parse_strict_json_line line line_no = .ok rec :=
  parse_strict_json_line_ok_irrel h line_no

/-- What is read from a line is what it parses to. -/
theorem parses_of_ok {line : Bytes} {rec : Json} {line_no : Nat}
    (h : parse_strict_json_line line line_no = .ok rec) : Parses line rec :=
  parse_strict_json_line_ok_irrel h 0

/-- A line that parses ends with its only line feed. -/
theorem Parses.isLine {line : Bytes} {rec : Json} (h : Parses line rec) : IsLine line :=
  (isLine_of_parse_strict_json_line h).1

/-- A line parses to one record. -/
theorem Parses.unique {line : Bytes} {rec rec' : Json} (h : Parses line rec) (h' : Parses line rec') :
    rec = rec' := by
  have := h.symm.trans h'
  exact Except.ok.inj this

/-- The lines are the encodings of the records, one for each. -/
abbrev Encodes (lines : List Bytes) (records : List Json) : Prop := List.Forall₂ Parses lines records

theorem Encodes.isLine {lines : List Bytes} {records : List Json} (h : Encodes lines records) :
    ∀ line ∈ lines, IsLine line := by
  induction h with
  | nil => simp
  | cons hline _ ih => exact List.forall_mem_cons.mpr ⟨hline.isLine, ih⟩

theorem Encodes.no_carriage_return {lines : List Bytes} {records : List Json} (h : Encodes lines records) :
    13 ∉ lines.flatten := by
  induction h with
  | nil => simp
  | cons hline _ ih => simp [(isLine_of_parse_strict_json_line hline).2, ih]

/-- Lines are of one list of records. -/
theorem Encodes.unique {lines : List Bytes} {records records' : List Json} (h : Encodes lines records)
    (h' : Encodes lines records') : records = records' := by
  induction h generalizing records' with
  | nil =>
    cases h'
    rfl
  | cons hline _ ih =>
    cases h' with
    | cons hline' hrest' => rw [hline.unique hline', ih hrest']

/-- The loop of both readers returns the records exactly if each line parses. -/
theorem read_records_eq_ok_iff {unparseable : Nat → CanonicalError → ChainIntegrityError} {line_no : Nat}
    {lines : List Bytes} {records : List Json} :
    read_records unparseable line_no lines = .ok records ↔ Encodes lines records := by
  induction lines generalizing line_no records with
  | nil => simp [read_records, eq_comm]
  | cons line lines ih =>
    unfold read_records
    cases hparse : parse_strict_json_line line line_no with
    | error e =>
      simp only [reduceCtorEq, false_iff]
      rintro (_ | ⟨hline, _⟩)
      rw [hline.at_line line_no] at hparse
      cases hparse
    | ok rec =>
      have hline := parses_of_ok hparse
      cases hrest : read_records unparseable (line_no + 1) lines with
      | error e =>
        simp only [reduceCtorEq, false_iff]
        rintro (_ | ⟨_, hlines⟩)
        rw [ih.mpr hlines] at hrest
        cases hrest
      | ok rest =>
        simp only [Except.ok.injEq]
        constructor
        · rintro rfl
          exact .cons hline (ih.mp hrest)
        · rintro (_ | ⟨hline', hlines⟩)
          rw [hline.unique hline', (ih.mp hrest).unique hlines]

/-- The chain is read exactly if the lines of its file are those of the entries, -/
theorem read_chain_eq_ok_iff {data : Bytes} {entries : List Json} :
    read_chain data = .ok entries ↔ Encodes (fileLines data) entries :=
  read_records_eq_ok_iff

/-- and the checkpoints likewise. -/
theorem read_checkpoints_eq_ok_iff {data : Bytes} {cps : List Json} :
    read_checkpoints data = .ok cps ↔ Encodes (fileLines data) cps :=
  read_records_eq_ok_iff

/-- A file made of encodings is read as the records they encode. -/
theorem Encodes.fileLines {lines : List Bytes} {records : List Json} (h : Encodes lines records) :
    Encodes (fileLines lines.flatten) records := by
  rwa [fileLines_flatten h.isLine]

theorem Encodes.append {lines lines' : List Bytes} {records records' : List Json} (h : Encodes lines records)
    (h' : Encodes lines' records') : Encodes (lines ++ lines') (records ++ records') :=
  List.rel_append h h'

/-- Lines that are read together are read apart. -/
theorem Encodes.of_append {lines lines' : List Bytes} {records : List Json} (h : Encodes (lines ++ lines') records) :
    ∃ front back, records = front ++ back ∧ Encodes lines front ∧ Encodes lines' back := by
  induction lines generalizing records with
  | nil => exact ⟨[], records, rfl, .nil, h⟩
  | cons line lines ih =>
    cases h with
    | cons hline hrest =>
      obtain ⟨front, back, rfl, hfront, hback⟩ := ih hrest
      exact ⟨_ :: front, back, rfl, .cons hline hfront, hback⟩

/-- A line at the end of a file is one record more. -/
theorem Encodes.concat_line {file line : Bytes} {records : List Json} {rec : Json}
    (h : Encodes (pylib.fileLines file) records) (hline : Parses line rec) :
    Encodes (pylib.fileLines (file ++ line)) (records ++ [rec]) := by
  have := (h.append (.cons hline .nil)).fileLines
  simpa using this

end narwhal.evidence
