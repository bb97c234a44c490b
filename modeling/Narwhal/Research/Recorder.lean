import Mathlib.Data.List.AList
import Narwhal.Research.Evidence

open pylib narwhal.check_research_evidence

namespace narwhal.record_evidence

/-- `safe_label`; `none` is a `ValueError`. -/
def safe_label (task : Bool) (value : Str) : Option Str :=
  let kept := (value.filter fun c => c != 35).map fun c => if c = 58 ∨ c = 47 then 45 else c
  let allowed : CodeClass := ⟨false, labelRanges ++ if task then CodeClass.chars ":/() " else []⟩
  let label := kept.map fun c => if allowed.has c then c else 45
  if label = [] ∨ (if task then 160 else 80) < label.length then none else some label

/-- The layout of `json.dumps(record, sort_keys=True, separators=(",", ":"))`. -/
def compactAscii : Layout := ⟨quoteAscii, fun _ => [], []⟩

/-- Texts in this layout are read back. -/
theorem compactAscii_sound : compactAscii.Sound fun s => ∀ c ∈ s, Escapable c where
  newline _ _ hc := by cases hc
  newline_head _ _ hc := by cases hc
  gap _ hc := by cases hc
  quoted s hs := ⟨s.flatMap escapeAscii ++ [34], rfl, scanString_quoteAscii hs⟩

/-- Texts in this layout are printable ASCII. -/
theorem compactAscii_within : compactAscii.Within (fun s => ∀ c ∈ s, Escapable c) Printable where
  newline _ _ hc := by cases hc
  gap _ hc := by cases hc
  quoted _ hs _ hc := printable_quoteAscii hs hc
  printable _ hc := hc

/-- The line of a record. -/
def recordLine (record : Json) : Str := printed compactAscii 0 (sortKeys record) ++ [10]

/-- How the system answers the calls of an append; an error is the text of an `OSError`. -/
structure Disk where
  /-- The directories above the one of the file that `mkdir` makes. -/
  parents : List Str
  mkdir : Except Str Unit
  open_ : Except Str Unit
  /-- How many bytes `os.write` takes of a text of some length. -/
  takes : Nat → Except Str Nat
  takes_pos : ∀ n k, takes n = .ok k → 0 < n → 0 < k
  close : Except Str Unit

/-- The loop that writes a line: how it ends, and what of the line the file has got by then. -/
def writeAll (disk : Disk) (remaining : Bytes) : Except Str Unit × Bytes :=
  if _h : remaining = [] then (.ok (), [])
  else
    match _hn : disk.takes remaining.length with
    | .error why => (.error why, [])
    | .ok n =>
      let rest := writeAll disk (remaining.drop n)
      (rest.1, remaining.take n ++ rest.2)
termination_by remaining.length
decreasing_by
  have hlength : 0 < remaining.length := List.length_pos_iff.mpr _h
  have htakes := disk.takes_pos remaining.length n _hn hlength
  rw [List.length_drop]
  omega

/-- However the writes end, the file has got a beginning of the line. -/
theorem writeAll_isPrefix (disk : Disk) (line : Bytes) : (writeAll disk line).2 <+: line := by
  fun_induction writeAll disk line with
  | case1 => exact List.nil_prefix
  | case2 => exact List.nil_prefix
  | case3 remaining _ n _ _ ih =>
    have hparts := (List.prefix_append_right_inj (remaining.take n)).mpr ih
    rwa [List.take_append_drop] at hparts

/-- Where no write fails, it has got all of it. -/
theorem writeAll_whole {disk : Disk} {line : Bytes} (h : (writeAll disk line).1 = .ok ()) : (writeAll disk line).2 = line := by
  fun_induction writeAll disk line with
  | case1 => rfl
  | case2 => cases h
  | case3 remaining _ n _ _ ih => rw [ih h, List.take_append_drop]

/-- A disk on which a write that fails has written nothing of its line. -/
def Disk.Whole (disk : Disk) : Prop := ∀ line, (writeAll disk line).2 = line ∨ (writeAll disk line).2 = []

/-- A disk on which no write fails is one of them. -/
theorem Disk.whole_of_takes {disk : Disk} (h : ∀ n, ∃ k, disk.takes n = .ok k) : disk.Whole := by
  intro line
  refine .inl (writeAll_whole ?_)
  fun_induction writeAll disk line with
  | case1 => rfl
  | case2 remaining _ why hwhy =>
    obtain ⟨k, hk⟩ := h remaining.length
    cases hwhy.symm.trans hk
  | case3 _ _ _ _ _ ih => exact ih

/-- The directories, and the files by directory and name. -/
structure Files where
  directories : List Str
  contents : AList fun _ : Str × Str => Bytes

namespace Files

/-- A file that does not exist is empty. -/
def read (files : Files) (path : Str × Str) : Bytes := (files.contents.lookup path).getD []

/-- A file with new contents. -/
def write (files : Files) (path : Str × Str) (content : Bytes) : Files :=
  { files with contents := files.contents.insert path content }

/-- `mkdir(parents=True, exist_ok=True)`, which passes over a directory that is there. -/
def mkdir (disk : Disk) (directory : Str) (files : Files) : Except Str Unit × Files :=
  if directory ∈ files.directories then (.ok (), files)
  else
    match disk.mkdir with
    | .error why => (.error why, { files with directories := disk.parents ++ files.directories })
    | .ok () => (.ok (), { files with directories := directory :: disk.parents ++ files.directories })

theorem mkdir_contents (disk : Disk) (directory : Str) (files : Files) : (mkdir disk directory files).2.contents = files.contents := by
  rw [mkdir]
  split_ifs
  · rfl
  · split <;> rfl

/-- No directory is lost. -/
theorem mkdir_directories (disk : Disk) (directory : Str) (files : Files) :
    files.directories ⊆ (mkdir disk directory files).2.directories := by
  rw [mkdir]
  split_ifs
  · exact List.Subset.refl _
  · split
    · exact List.subset_append_right _ _
    · exact List.subset_append_right _ _

/-- What an append leaves, of whose line a file has got `taken`: there may be more directories, and the
    file may not have been opened. -/
structure Grown (path : Str × Str) (taken : Bytes) (files files' : Files) : Prop where
  directories : files.directories ⊆ files'.directories
  contents : files'.contents = files.contents ∧ taken = [] ∨
    files'.contents = files.contents.insert path (files.read path ++ taken)

/-- The file has what it had, and what was taken of the line. -/
theorem Grown.read_self {path : Str × Str} {taken : Bytes} {files files' : Files} (h : Grown path taken files files') :
    files'.read path = files.read path ++ taken := by
  obtain ⟨hsame, rfl⟩ | hinsert := h.contents
  · rw [read, read, hsame, List.append_nil]
  · rw [read, hinsert, AList.lookup_insert, Option.getD_some]

/-- The other files are as they were. -/
theorem Grown.read_of_ne {path other : Str × Str} {taken : Bytes} {files files' : Files} (h : Grown path taken files files')
    (hne : other ≠ path) : files'.read other = files.read other := by
  obtain ⟨hsame, -⟩ | hinsert := h.contents
  · rw [read, read, hsame]
  · rw [read, hinsert, AList.lookup_insert_ne hne, read]

/-- No file loses what it had. -/
theorem Grown.isPrefix {path : Str × Str} {taken : Bytes} {files files' : Files} (h : Grown path taken files files')
    (other : Str × Str) : files.read other <+: files'.read other := by
  by_cases hother : other = path
  · rw [hother, h.read_self]
    exact List.prefix_append _ _
  · rw [h.read_of_ne hother]

end Files

/-- Why no record was appended, or not all of its line. -/
inductive Refused where
  | origin
  | rejected (errors : List Str)
  | encoding
  | os (error : Str)
deriving DecidableEq

/-- The text of the exception. -/
def Refused.message : Refused → Str
  | .origin => lit "origin must be a GitHub owner/repository URL"
  | .rejected errors => (lit "; ").intercalate errors
  | .encoding => lit "surrogates not allowed"
  | .os error => error

/-- The calls on the file: the error of `close` takes the place of that of a write. -/
def appendLine (disk : Disk) (path : Str × Str) (line : Bytes) (files : Files) : Except Str Unit × Files :=
  match disk.open_ with
  | .error why => (.error why, files)
  | .ok () =>
    let (written, taken) := writeAll disk line
    (disk.close.bind fun _ => written, files.write path (files.read path ++ taken))

section

variable (iter_errors : Json → List SchemaError) (disk : Disk) (origin : Answer) (commits : Str → Bool)

def append_record (record : Json) (path : Str × Str) (files : Files) : Except Refused Unit × Files :=
  match repository_slug origin with
  | none => (.error .origin, files)
  | some slug =>
    let errors := record_errors iter_errors commits record slug
    if errors ≠ [] then (.error (.rejected errors), files)
    else
      match files.mkdir disk path.1 with
      | (.error why, files) => (.error (.os why), files)
      | (.ok (), files) =>
        match utf8Encode (recordLine record) with
        | none => (.error .encoding, files)
        | some line =>
          let (ended, files) := appendLine disk path line files
          (ended.mapError Refused.os, files)

end

/-! ### What an append comes to -/

/-- The system makes the directory where it is missing, opens the file, takes the whole line and closes the file. -/
structure Disk.Completes (disk : Disk) (directory : Str) (files : Files) (line : Bytes) : Prop where
  mkdir : directory ∈ files.directories ∨ disk.mkdir = .ok ()
  opens : disk.open_ = .ok ()
  writes : (writeAll disk line).1 = .ok ()
  closes : disk.close = .ok ()

/-- How an append of a line ends, of which the file has got `taken`. -/
structure Appends (disk : Disk) (path : Str × Str) (line : Bytes) (files : Files) (ended : Except Refused Unit) (files' : Files)
    (taken : Bytes) : Prop where
  grown : files.Grown path taken files'
  part : taken <+: line
  ended : (disk.Completes path.1 files line ∧ ended = .ok () ∧ taken = line) ∨
    (¬ disk.Completes path.1 files line ∧ ∃ why, ended = .error (.os why))
  whole : disk.Whole → taken = line ∨ taken = []

section

variable {iter_errors : Json → List SchemaError} {disk : Disk} {origin : Answer} {commits : Str → Bool}

/-- `mkdir` fails only where the directory is missing and the system does not make it. -/
theorem mkdir_ok_iff {directory : Str} {files : Files} :
    (files.mkdir disk directory).1 = .ok () ↔ directory ∈ files.directories ∨ disk.mkdir = .ok () := by
  rw [Files.mkdir]
  split_ifs with hdirectory
  · exact iff_of_true rfl (.inl hdirectory)
  · rw [or_iff_right hdirectory]
    cases disk.mkdir with
    | error why => exact iff_of_false (fun h => by cases h) fun h => by cases h
    | ok _ => exact iff_of_true rfl rfl

/-- A record without errors is appended as far as the system allows. -/
theorem append_record_appends {record : Json} {path : Str × Str} {files : Files} {slug : Str} {line : Bytes}
    (hslug : repository_slug origin = some slug) (herrors : record_errors iter_errors commits record slug = [])
    (hline : utf8Encode (recordLine record) = some line) : ∃ ended files' taken,
      append_record iter_errors disk origin commits record path files = (ended, files') ∧
        Appends disk path line files ended files' taken := by
  have hmade := @mkdir_ok_iff disk path.1 files
  have hdirectories := Files.mkdir_directories disk path.1 files
  have hcontents := Files.mkdir_contents disk path.1 files
  have hread : (files.mkdir disk path.1).2.read path = files.read path := by rw [Files.read, hcontents, Files.read]
  rw [append_record, hslug]
  dsimp only
  rw [if_neg (not_not_intro herrors)]
  generalize files.mkdir disk path.1 = made at hmade hdirectories hcontents hread
  obtain ⟨made, files₁⟩ := made
  cases made with
  | error why =>
    refine ⟨_, _, [], rfl, ⟨hdirectories, .inl ⟨hcontents, rfl⟩⟩, List.nil_prefix, .inr ⟨fun h => ?_, why, rfl⟩, fun _ => .inr rfl⟩
    cases hmade.mpr h.mkdir
  | ok _ =>
    dsimp only
    rw [hline]
    dsimp only
    rw [appendLine]
    cases hopen : disk.open_ with
    | error why =>
      refine ⟨_, _, [], rfl, ⟨hdirectories, .inl ⟨hcontents, rfl⟩⟩, List.nil_prefix, .inr ⟨fun h => ?_, why, rfl⟩, fun _ => .inr rfl⟩
      cases hopen.symm.trans h.opens
    | ok _ =>
      refine ⟨_, _, (writeAll disk line).2, rfl, ⟨hdirectories, .inr ?_⟩, writeAll_isPrefix disk line, ?_, fun h => h line⟩
      · dsimp only
        rw [Files.write, hread, hcontents]
      · cases hclose : disk.close with
        | error why =>
          refine .inr ⟨fun h => ?_, why, rfl⟩
          cases hclose.symm.trans h.closes
        | ok _ =>
          cases hwritten : (writeAll disk line).1 with
          | error why =>
            refine .inr ⟨fun h => ?_, why, ?_⟩
            · cases hwritten.symm.trans h.writes
            · dsimp only
              rw [hwritten]
              rfl
          | ok _ =>
            refine .inl ⟨⟨hmade.mp rfl, hopen, hwritten, hclose⟩, ?_, writeAll_whole hwritten⟩
            dsimp only
            rw [hwritten]
            rfl

/-- A record that the check has errors for leaves every file as it was. -/
theorem append_record_refused {record : Json} {path : Str × Str} {files : Files}
    (h : ∀ slug, repository_slug origin = some slug → record_errors iter_errors commits record slug ≠ []) :
    ∃ why, append_record iter_errors disk origin commits record path files = (.error why, files) := by
  rw [append_record]
  cases hslug : repository_slug origin with
  | none => exact ⟨.origin, rfl⟩
  | some slug =>
    dsimp only
    rw [if_pos (h slug hslug)]
    exact ⟨_, rfl⟩

end

end narwhal.record_evidence
