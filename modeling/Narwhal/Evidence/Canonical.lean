import Narwhal.Lib.JsonRoundTrip
import Narwhal.Lib.Lines

open pylib

namespace narwhal.evidence

/-- The violations `CanonicalError` reports. `line_no` is the line number of
    the message where the source gives one. -/
inductive CanonicalError where
  /-- floats/NaN are not permitted in canonical JSON -/
  | float_value (lexeme : Str)
  /-- the text holds a lone surrogate, so `.encode("utf-8")` fails -/
  | not_encodable
  /-- line {line_no} does not end with newline -/
  | no_newline (line_no : Nat)
  /-- line {line_no} is not valid UTF-8 -/
  | not_utf8 (line_no : Nat)
  /-- line {line_no} is empty/blank; not canonical -/
  | blank (line_no : Nat)
  /-- line {line_no} unparseable JSON -/
  | unparseable (line_no : Nat)
  /-- line {line_no} record is not a dict -/
  | not_dict (line_no : Nat)
  /-- line {line_no} raw bytes do not match canonical representation exactly -/
  | not_canonical (line_no : Nat)
deriving DecidableEq, Repr

mutual

/-- Floats are the only values of the JSON type that are refused. -/
def validate_canonical_types : Json → Except CanonicalError Unit
  | .float lexeme => .error (.float_value lexeme)
  | .obj fields => validate_canonical_fields fields
  | .arr items => validate_canonical_items items
  | _ => .ok ()

def validate_canonical_items : List Json → Except CanonicalError Unit
  | [] => .ok ()
  | item :: rest =>
    match validate_canonical_types item with
    | .error e => .error e
    | .ok _ => validate_canonical_items rest

def validate_canonical_fields : List (Str × Json) → Except CanonicalError Unit
  | [] => .ok ()
  | (_, v) :: rest =>
    match validate_canonical_types v with
    | .error e => .error e
    | .ok _ => validate_canonical_fields rest

end

/-- Canonical JSON encoding: sorted keys, compact separators, UTF-8. -/
def canonical (obj : Json) : Except CanonicalError Bytes :=
  match validate_canonical_types obj with
  | .error e => .error e
  | .ok _ =>
    match utf8Encode (dumps obj) with
    | none => .error .not_encodable
    | some bytes => .ok bytes

/-- `object_pairs_hook` that stores the pairs and rejects duplicate keys. -/
def reject_duplicate_keys (pairs : List (Str × Json)) : Option (List (Str × Json)) :=
  pairs.foldl (fun d kv => d.bind fun d =>
    if (lookupField kv.1 d).isSome then none else some (setField kv.1 kv.2 d)) (some [])

/-- The characters `str.strip()` removes. -/
def isStrSpace (c : Nat) : Bool :=
  (9 ≤ c && c < 14) || (28 ≤ c && c < 33) || c == 0x85 || c == 0xA0 || c == 0x1680 ||
    (0x2000 ≤ c && c ≤ 0x200A) || c == 0x2028 || c == 0x2029 || c == 0x202F || c == 0x205F || c == 0x3000

/-- Strictly parse one JSON line: it must be the canonical encoding of a
    dictionary followed by a line feed, byte for byte. -/
def parse_strict_json_line (raw_line : Bytes) (line_no : Nat) : Except CanonicalError Json :=
  if ¬ [10] <:+ raw_line then .error (.no_newline line_no)
  else
    match utf8Decode raw_line with
    | none => .error (.not_utf8 line_no)
    | some text =>
      if text.all isStrSpace then .error (.blank line_no)
      else
        match loads reject_duplicate_keys text with
        | none => .error (.unparseable line_no)
        | some (.obj fields) =>
          match validate_canonical_types (.obj fields) with
          | .error e => .error e
          | .ok _ =>
            match canonical (.obj fields) with
            | .error e => .error e
            | .ok bytes => if raw_line ≠ bytes ++ [10] then .error (.not_canonical line_no) else .ok (.obj fields)
        | some _ => .error (.not_dict line_no)

/-! ### What the encoder accepts -/

mutual

theorem validate_canonical_types_eq_ok_iff : ∀ j : Json,
    validate_canonical_types j = .ok () ↔ j.noFloat = true
  | .null | .bool _ | .int _ | .str _ => by simp [validate_canonical_types, Json.noFloat]
  | .float _ => by simp [validate_canonical_types, Json.noFloat]
  | .arr items => by
    simp [validate_canonical_types, Json.noFloat, validate_canonical_items_eq_ok_iff items]
  | .obj fields => by
    simp [validate_canonical_types, Json.noFloat, validate_canonical_fields_eq_ok_iff fields]

theorem validate_canonical_items_eq_ok_iff : ∀ items : List Json,
    validate_canonical_items items = .ok () ↔ Json.noFloatItems items = true
  | [] => by simp [validate_canonical_items, Json.noFloatItems]
  | x :: xs => by
    have hx := validate_canonical_types_eq_ok_iff x
    have hxs := validate_canonical_items_eq_ok_iff xs
    unfold validate_canonical_items
    cases h : validate_canonical_types x with
    | error e => simp [Json.noFloatItems, ← hx, h]
    | ok u => simp [Json.noFloatItems, ← hx, ← hxs, h]

theorem validate_canonical_fields_eq_ok_iff : ∀ fields : List (Str × Json),
    validate_canonical_fields fields = .ok () ↔ Json.noFloatFields fields = true
  | [] => by simp [validate_canonical_fields, Json.noFloatFields]
  | (k, v) :: rest => by
    have hv := validate_canonical_types_eq_ok_iff v
    have hrest := validate_canonical_fields_eq_ok_iff rest
    unfold validate_canonical_fields
    cases h : validate_canonical_types v with
    | error e => simp [Json.noFloatFields, ← hv, h]
    | ok u => simp [Json.noFloatFields, ← hv, ← hrest, h]

end

theorem canonical_eq_ok_iff {obj : Json} {bytes : Bytes} :
    canonical obj = .ok bytes ↔ obj.noFloat = true ∧ utf8Encode (dumps obj) = some bytes := by
  have hvalid := validate_canonical_types_eq_ok_iff obj
  unfold canonical
  cases h : validate_canonical_types obj with
  | error e => simp [← hvalid, h]
  | ok u => cases utf8Encode (dumps obj) <;> simp [← hvalid, h]

/-- The canonical encoding determines the value. -/
theorem canonical_injective {a b : Json} {bytes : Bytes} (ha : canonical a = .ok bytes)
    (hb : canonical b = .ok bytes) : a = b := by
  obtain ⟨hfa, hea⟩ := canonical_eq_ok_iff.mp ha
  obtain ⟨hfb, heb⟩ := canonical_eq_ok_iff.mp hb
  have htext : dumps a = dumps b := by
    have hdec := utf8Decode_encode hea
    rw [utf8Decode_encode heb] at hdec
    exact (Option.some.inj hdec).symm
  exact dumps_injective hfa hfb htext

/-- A canonical encoding holds neither a line feed nor a carriage return. -/
theorem canonical_no_line_break {obj : Json} {bytes : Bytes} (h : canonical obj = .ok bytes) :
    10 ∉ bytes ∧ 13 ∉ bytes := by
  obtain ⟨hfloat, henc⟩ := canonical_eq_ok_iff.mp h
  constructor
  · intro hmem
    have := le_of_mem_dumps hfloat (mem_of_mem_utf8Encode henc hmem (by decide))
    exact absurd this (by decide)
  · intro hmem
    have := le_of_mem_dumps hfloat (mem_of_mem_utf8Encode henc hmem (by decide))
    exact absurd this (by decide)

/-! ### What the line parser accepts -/

private theorem lookupField_eq_none_of_lt {key : Str} {d : List (Str × Json)}
    (h : ∀ kv ∈ d, kv.1 < key) : lookupField key d = none := by
  induction d with
  | nil => rfl
  | cons kv rest ih =>
    obtain ⟨k, v⟩ := kv
    have hk : k ≠ key := (h (k, v) List.mem_cons_self).ne
    rw [lookupField, if_neg hk, ih fun kv hkv => h kv (List.mem_cons_of_mem _ hkv)]

private theorem setField_append_of_lt {key : Str} {value : Json} {d : List (Str × Json)}
    (h : ∀ kv ∈ d, kv.1 < key) : setField key value d = d ++ [(key, value)] := by
  induction d with
  | nil => rfl
  | cons kv rest ih =>
    obtain ⟨k, v⟩ := kv
    have hk : k < key := h (k, v) List.mem_cons_self
    rw [setField, if_neg hk.ne', if_neg hk.not_gt, ih fun kv hkv => h kv (List.mem_cons_of_mem _ hkv)]
    rfl

/-- Pairs that come in increasing key order are stored as they come. -/
theorem reject_duplicate_keys_of_sorted {pairs : List (Str × Json)}
    (h : (pairs.map Prod.fst).Pairwise (· < ·)) : reject_duplicate_keys pairs = some pairs := by
  have hfold : ∀ (pairs done : List (Str × Json)), ((done ++ pairs).map Prod.fst).Pairwise (· < ·) →
      pairs.foldl (fun d kv => d.bind fun d =>
        if (lookupField kv.1 d).isSome then none else some (setField kv.1 kv.2 d)) (some done) =
        some (done ++ pairs) := by
    intro pairs
    induction pairs with
    | nil => intro done _; simp
    | cons kv rest ih =>
      intro done hsorted
      have hlt : ∀ kv' ∈ done, kv'.1 < kv.1 := by
        rw [List.map_append, List.pairwise_append] at hsorted
        intro kv' hkv'
        exact hsorted.2.2 kv'.1 (List.mem_map_of_mem hkv') kv.1 (by simp)
      rw [List.foldl_cons, Option.bind_some, lookupField_eq_none_of_lt hlt, setField_append_of_lt hlt]
      have := ih (done ++ [kv]) (by simpa using hsorted)
      simpa using this
  simpa [reject_duplicate_keys] using hfold pairs [] (by simpa using h)

private theorem utf8Encode_newline {text : Str} {bytes : Bytes} (h : utf8Encode text = some bytes) :
    utf8Encode (text ++ [10]) = some (bytes ++ [10]) := by
  induction text generalizing bytes with
  | nil =>
    obtain rfl := Option.some.inj h
    rfl
  | cons n rest ih =>
    obtain ⟨here, there, hhere, hthere, rfl⟩ := utf8Encode_cons_eq_some h
    simp [utf8Encode, hhere, ih hthere]

/-- The line the writer puts down for a dictionary is read back as that dictionary. -/
theorem parse_strict_json_line_canonical {fields : List (Str × Json)} {bytes : Bytes}
    (hwf : (Json.obj fields).WF) (h : canonical (.obj fields) = .ok bytes) (line_no : Nat) :
    parse_strict_json_line (bytes ++ [10]) line_no = .ok (.obj fields) := by
  obtain ⟨hfloat, henc⟩ := canonical_eq_ok_iff.mp h
  have hvalid := (validate_canonical_types_eq_ok_iff _).mpr hfloat
  have hdec := utf8Decode_encode (utf8Encode_newline henc)
  have hload := loads_dumps (hwf.fixed fun _ => reject_duplicate_keys_of_sorted) hfloat
  have hspace : (dumps (.obj fields) ++ [10]).all isStrSpace = false := by
    cases fields with
    | nil => rfl
    | cons kv rest => obtain ⟨k, v⟩ := kv; rfl
  rw [parse_strict_json_line, if_neg (not_not_intro (List.suffix_append bytes [10]))]
  simp [hdec, hspace, hload, hvalid, h]

/-- An accepted line is the canonical encoding of the dictionary it yields. -/
theorem parse_strict_json_line_eq_ok {raw_line : Bytes} {line_no : Nat} {rec : Json}
    (h : parse_strict_json_line raw_line line_no = .ok rec) :
    ∃ fields bytes, rec = .obj fields ∧ canonical rec = .ok bytes ∧ raw_line = bytes ++ [10] := by
  unfold parse_strict_json_line at h
  split at h
  · cases h
  split at h
  · cases h
  split at h
  · cases h
  split at h
  · cases h
  · next fields _ =>
    split at h
    · cases h
    split at h
    · cases h
    · next bytes hbytes =>
      split at h
      · cases h
      · next hraw =>
        cases h
        exact ⟨fields, bytes, rfl, hbytes, not_not.mp hraw⟩
  · cases h

/-- The line number only occurs in messages. -/
theorem parse_strict_json_line_ok_irrel {raw_line : Bytes} {line_no : Nat} {rec : Json}
    (h : parse_strict_json_line raw_line line_no = .ok rec) (other : Nat) :
    parse_strict_json_line raw_line other = .ok rec := by
  unfold parse_strict_json_line at h ⊢
  split at h
  · cases h
  split at h
  · cases h
  split at h
  · cases h
  split at h
  · cases h
  · split at h
    · cases h
    split at h
    · cases h
    · split at h
      · cases h
      · simp_all
  · cases h

/-- An accepted line is complete and holds no carriage return. -/
theorem isLine_of_parse_strict_json_line {raw_line : Bytes} {line_no : Nat} {rec : Json}
    (h : parse_strict_json_line raw_line line_no = .ok rec) : IsLine raw_line ∧ 13 ∉ raw_line := by
  obtain ⟨fields, bytes, rfl, hbytes, rfl⟩ := parse_strict_json_line_eq_ok h
  obtain ⟨hlf, hcr⟩ := canonical_no_line_break hbytes
  exact ⟨⟨bytes, rfl, hlf⟩, by simp [hcr]⟩

end narwhal.evidence
