import Narwhal.Evidence.Reader

open pylib

namespace narwhal.evidence

/-! ### Values that can be encoded -/

/-- `s.encode("utf-8")` succeeds. -/
def Encodable (s : Str) : Prop := ∀ n ∈ s, (utf8EncodePoint n).isSome = true

/-- A text without surrogates has an encoding. -/
theorem exists_utf8Encode {s : Str} (h : Encodable s) : ∃ bytes, utf8Encode s = some bytes := by
  induction s with
  | nil => exact ⟨[], rfl⟩
  | cons n rest ih =>
    obtain ⟨here, hhere⟩ := Option.isSome_iff_exists.mp (h n List.mem_cons_self)
    obtain ⟨there, hthere⟩ := ih fun m hm => h m (List.mem_cons_of_mem n hm)
    exact ⟨here ++ there, by simp [utf8Encode, hhere, hthere]⟩

mutual

/-- The value is built from strings that can be encoded, integers, booleans, null, lists and
    string-keyed dictionaries. -/
def Plain : Json → Prop
  | .float _ => False
  | .str s => Encodable s
  | .arr items => PlainItems items
  | .obj fields => (fields.map Prod.fst).Pairwise (· < ·) ∧ PlainFields fields
  | _ => True

def PlainItems : List Json → Prop
  | [] => True
  | x :: xs => Plain x ∧ PlainItems xs

def PlainFields : List (Str × Json) → Prop
  | [] => True
  | (k, v) :: rest => Encodable k ∧ Plain v ∧ PlainFields rest

end

mutual

/-- Plain values have their keys in order, -/
theorem Plain.wf : ∀ {j : Json}, Plain j → j.WF
  | .null, _ | .bool _, _ | .int _, _ | .str _, _ => trivial
  | .float _, h => h.elim
  | .arr _, h => PlainItems.wf h
  | .obj _, h => ⟨h.1, PlainFields.wf h.2⟩

theorem PlainItems.wf : ∀ {items : List Json}, PlainItems items → Json.WFItems items
  | [], _ => trivial
  | _ :: _, h => ⟨Plain.wf h.1, PlainItems.wf h.2⟩

theorem PlainFields.wf : ∀ {fields : List (Str × Json)}, PlainFields fields → Json.WFFields fields
  | [], _ => trivial
  | (_, _) :: _, h => ⟨Plain.wf h.2.1, PlainFields.wf h.2.2⟩

end

mutual

/-- and no floats. -/
theorem Plain.noFloat : ∀ {j : Json}, Plain j → j.noFloat = true
  | .null, _ | .bool _, _ | .int _, _ | .str _, _ => rfl
  | .float _, h => h.elim
  | .arr _, h => PlainItems.noFloat h
  | .obj _, h => PlainFields.noFloat h.2

theorem PlainItems.noFloat : ∀ {items : List Json}, PlainItems items → Json.noFloatItems items = true
  | [], _ => rfl
  | _ :: _, h => by
    rw [Json.noFloatItems, Plain.noFloat h.1, PlainItems.noFloat h.2]
    rfl

theorem PlainFields.noFloat : ∀ {fields : List (Str × Json)}, PlainFields fields → Json.noFloatFields fields = true
  | [], _ => rfl
  | (_, _) :: _, h => by
    rw [Json.noFloatFields, Plain.noFloat h.2.1, PlainFields.noFloat h.2.2]
    rfl

end

/-! ### Their text can be encoded -/

theorem Encodable.append {s t : Str} (hs : Encodable s) (ht : Encodable t) : Encodable (s ++ t) := by
  intro n hn
  obtain h | h := List.mem_append.mp hn
  · exact hs n h
  · exact ht n h

theorem encodable_of_ascii {s : Str} (h : ∀ n ∈ s, n < 128) : Encodable s := by
  intro n hn
  simp [utf8EncodePoint, h n hn]

theorem Encodable.cons {c : Nat} {s : Str} (hc : c < 128) (hs : Encodable s) : Encodable (c :: s) :=
  (encodable_of_ascii (s := [c]) (by simpa using hc)).append hs

theorem encodable_escapeChar {c : Nat} (hc : (utf8EncodePoint c).isSome = true) : Encodable (escapeChar c) := by
  have hhex : ∀ n, n < 16 → hexDigit n < 128 := by
    intro n hn
    unfold hexDigit
    split <;> omega
  unfold escapeChar
  split_ifs with h₁ h₂ h₃ h₄ h₅ h₆ h₇ h₈
  all_goals first
    | exact encodable_of_ascii (by decide)
    | skip
  · have hhigh := hhex (c / 16) (by omega)
    have hlow := hhex (c % 16) (by omega)
    apply encodable_of_ascii
    simp [hhigh, hlow]
  · intro n hn
    obtain rfl := List.mem_singleton.mp hn
    exact hc

/-- Quoting adds nothing that cannot be encoded. -/
theorem Encodable.quote {s : Str} (h : Encodable s) : Encodable (pylib.quote s) := by
  refine .cons (by decide) (.append ?_ (encodable_of_ascii (by decide)))
  intro n hn
  obtain ⟨c, hc, hn⟩ := List.mem_flatMap.mp hn
  exact encodable_escapeChar (h c hc) n hn

theorem encodable_intRepr (n : Int) : Encodable (intRepr n) := by
  have hdigits : ∀ m, Encodable (natRepr m) := by
    intro m
    apply encodable_of_ascii
    intro c hc
    unfold natRepr at hc
    split at hc
    · obtain rfl := List.mem_singleton.mp hc
      decide
    · obtain ⟨d, hd, rfl⟩ := List.mem_map.mp hc
      have hlt := Nat.digits_lt_base (by decide : 1 < 10) (List.mem_reverse.mp hd)
      omega
  cases n with
  | ofNat m => exact hdigits m
  | negSucc m => exact .cons (by decide) (hdigits (m + 1))

mutual

/-- The text of a plain value can be encoded. -/
theorem Plain.encodable_dumps : ∀ {j : Json}, Plain j → Encodable (dumps j)
  | .null, _ => encodable_of_ascii (by decide)
  | .bool true, _ => encodable_of_ascii (by decide)
  | .bool false, _ => encodable_of_ascii (by decide)
  | .int n, _ => encodable_intRepr n
  | .float _, h => h.elim
  | .str _, h => Encodable.quote h
  | .arr [], _ => encodable_of_ascii (by decide)
  | .arr (_ :: _), h => .cons (by decide) (.append (Plain.encodable_dumps h.1) (PlainItems.encodable_dumps h.2))
  | .obj [], _ => encodable_of_ascii (by decide)
  | .obj ((_, _) :: _), ⟨_, hk, hv, hrest⟩ =>
    .cons (by decide) (.append hk.quote (.cons (by decide)
      (.append (Plain.encodable_dumps hv) (PlainFields.encodable_dumps hrest))))

theorem PlainItems.encodable_dumps : ∀ {items : List Json}, PlainItems items → Encodable (dumpsItems items)
  | [], _ => encodable_of_ascii (by decide)
  | _ :: _, h => .cons (by decide) (.append (Plain.encodable_dumps h.1) (PlainItems.encodable_dumps h.2))

theorem PlainFields.encodable_dumps : ∀ {fields : List (Str × Json)}, PlainFields fields → Encodable (dumpsFields fields)
  | [], _ => encodable_of_ascii (by decide)
  | (_, _) :: _, ⟨hk, hv, hrest⟩ =>
    .cons (by decide) (.append hk.quote (.cons (by decide)
      (.append (Plain.encodable_dumps hv) (PlainFields.encodable_dumps hrest))))

end

/-- So every plain value has a canonical form. -/
theorem Plain.exists_canonical {j : Json} (h : Plain j) : ∃ bytes, canonical j = .ok bytes := by
  obtain ⟨bytes, hbytes⟩ := exists_utf8Encode h.encodable_dumps
  exact ⟨bytes, canonical_eq_ok_iff.mpr ⟨h.noFloat, hbytes⟩⟩

/-! ### Lines and files -/

/-- A dictionary of plain values. -/
def PlainDict (d : Json) : Prop := Plain d ∧ ∃ fields, d = .obj fields

/-- The line of a record: its canonical encoding and a line feed. -/
def LineOf (line : Bytes) (rec : Json) : Prop := ∃ bytes, canonical rec = .ok bytes ∧ line = bytes ++ [10]

/-- The line of a plain object parses to it, -/
theorem PlainDict.parses {d : Json} (h : PlainDict d) {line : Bytes} (hline : LineOf line d) : Parses line d := by
  obtain ⟨hplain, fields, rfl⟩ := h
  obtain ⟨bytes, hbytes, rfl⟩ := hline
  exact parse_strict_json_line_canonical hplain.wf hbytes 0

/-- and a line that parses is the line of its record. -/
theorem Parses.lineOf {line : Bytes} {rec : Json} (h : Parses line rec) : LineOf line rec := by
  obtain ⟨fields, bytes, -, hbytes, rfl⟩ := parse_strict_json_line_eq_ok h
  exact ⟨bytes, hbytes, rfl⟩

/-- The file holds the lines of the records one after the other. -/
def FileOf (file : Bytes) (records : List Json) : Prop :=
  ∃ lines : List Bytes, List.Forall₂ LineOf lines records ∧ file = lines.flatten

/-- A file that is read is the file of its records, -/
theorem fileOf_of_read_chain {file : Bytes} {records : List Json} (h : read_chain file = .ok records) :
    FileOf file records := by
  have hencodes := read_chain_eq_ok_iff.mp h
  exact ⟨fileLines file, hencodes.imp fun _ _ hline => hline.lineOf, (flatten_fileLines file).symm⟩

/-- and the file of plain records is read. -/
theorem FileOf.read_chain {file : Bytes} {records : List Json} (h : FileOf file records)
    (hrecords : ∀ d ∈ records, PlainDict d) : narwhal.evidence.read_chain file = .ok records := by
  obtain ⟨lines, hlines, rfl⟩ := h
  have hencodes : Encodes lines records := by
    induction hlines with
    | nil => exact .nil
    | cons hline _ ih =>
      obtain ⟨hd, hrest⟩ := List.forall_mem_cons.mp hrecords
      exact .cons (hd.parses hline) (ih hrest)
  exact read_chain_eq_ok_iff.mpr hencodes.fileLines

/-- The canonical line format: the line of a dictionary has no inner line break and is read back as
    it, an accepted line is the line of what it is read as, and a file has one reading, however it
    is split. -/
theorem canonical_line_format :
    (∀ d, PlainDict d → ∃ bytes, canonical d = .ok bytes ∧ 10 ∉ bytes ∧ 13 ∉ bytes ∧
      ∀ line_no, parse_strict_json_line (bytes ++ [10]) line_no = .ok d) ∧
    (∀ b line_no r, parse_strict_json_line b line_no = .ok r → LineOf b r) ∧
    (∀ d d' bytes, canonical d = .ok bytes → canonical d' = .ok bytes → d = d') ∧
    (∀ file records, (∀ d ∈ records, PlainDict d) → (read_chain file = .ok records ↔ FileOf file records)) ∧
    ∀ file records, read_chain file = .ok records → FileOf file records ∧ splitlines file = fileLines file := by
  refine ⟨?_, ?_, ?_, ?_, ?_⟩
  · rintro d ⟨hplain, fields, rfl⟩
    obtain ⟨bytes, hbytes⟩ := hplain.exists_canonical
    obtain ⟨hlf, hcr⟩ := canonical_no_line_break hbytes
    exact ⟨bytes, hbytes, hlf, hcr, parse_strict_json_line_canonical hplain.wf hbytes⟩
  · intro b line_no r h
    exact (parses_of_ok h).lineOf
  · intro d d' bytes h h'
    exact canonical_injective h h'
  · intro file records hrecords
    exact ⟨fileOf_of_read_chain, fun h => h.read_chain hrecords⟩
  · intro file records h
    refine ⟨fileOf_of_read_chain h, splitlines_eq_fileLines ?_⟩
    have hcr := (read_chain_eq_ok_iff.mp h).no_carriage_return
    rwa [flatten_fileLines] at hcr

end narwhal.evidence
