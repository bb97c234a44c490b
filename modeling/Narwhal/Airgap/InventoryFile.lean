import Narwhal.Airgap.Inventory
import Narwhal.Airgap.LayoutContents

open pylib

namespace narwhal.oci_layout

/-! ### Sorted images -/

theorem mem_sortedSet {images : List Str} {img : Str} : img ∈ sortedSet images ↔ img ∈ images := by
  rw [sortedSet, List.mem_insertionSort, List.mem_dedup]

theorem sortedSet_sortedLT (images : List Str) : (sortedSet images).SortedLT := by
  have hnodup : (sortedSet images).Nodup := (List.perm_insertionSort _ _).nodup_iff.mpr (List.nodup_dedup images)
  exact (List.pairwise_insertionSort (· ≤ ·) images.dedup).sortedLE.sortedLT_of_nodup hnodup

/-- The set of images, and not how they are listed, decides what is verified. -/
theorem sortedSet_congr {images others : List Str} (h : ∀ img, img ∈ images ↔ img ∈ others) :
    sortedSet images = sortedSet others := by
  apply (sortedSet_sortedLT images).pairwise.eq_of_mem_iff (sortedSet_sortedLT others).pairwise
  intro img
  rw [mem_sortedSet, mem_sortedSet, h img]

/-! ### The images of a list -/

/-- An image as a line of a list gives it. -/
structure ListedImage (img : Str) : Prop where
  nonempty : img ≠ []
  stripped : strip img = img
  line : 10 ∉ img
  decoded : ∀ c ∈ img, Escapable c

theorem listedImage_of_mem_read_list {node : Node} {images : List Str} (h : read_list node = some images) {img : Str}
    (himg : img ∈ images) : ListedImage img := by
  obtain ⟨text, htext, rfl⟩ := Option.map_eq_some_iff.mp h
  obtain ⟨hline, hkept⟩ := List.mem_filter.mp himg
  obtain ⟨line, hmem, rfl⟩ := List.mem_map.mp hline
  have hchars : ∀ c ∈ strip line, c ∈ text ∧ isBreak c = false :=
    fun c hc => mem_of_mem_splitLines hmem (mem_of_mem_strip hc)
  refine ⟨?_, strip_strip line, ?_, ?_⟩
  · simp only [decide_eq_true_eq] at hkept
    exact hkept.1
  · intro hlf
    cases (hchars 10 hlf).2
  · intro c hc
    unfold read_text at htext
    split at htext
    · next content _ =>
      obtain ⟨decoded, hdecoded, rfl⟩ := Option.map_eq_some_iff.mp htext
      cases mem_universalNewlines (hchars c hc).1 with
      | inl hmem =>
        have hscalar := scalar_of_mem_utf8Decode hdecoded hmem
        unfold Escapable
        omega
      | inr hlf => exact escapable_of_ascii (by omega)
    · cases htext

theorem Args.listedImage {args : Args} {images : List Str} (h : args.listed = some images) {img : Str}
    (himg : img ∈ images) : ListedImage img := by
  unfold Args.listed at h
  split at h
  · cases h
  · next hlist _ =>
    cases h
    exact listedImage_of_mem_read_list hlist himg
  · next hlist _ =>
    obtain ⟨more, hmore, rfl⟩ := Option.map_eq_some_iff.mp h
    cases List.mem_append.mp himg with
    | inl hmem => exact listedImage_of_mem_read_list hlist hmem
    | inr hmem => exact listedImage_of_mem_read_list hmore hmem

/-! ### The rows of verified images -/

/-- What holds of the row of an image. -/
structure Row.Of (bundle : Bundle) (r : Row) (desc : Json) : Prop where
  top : (read_json (bundle (layoutPath r.image ++ [lit "index.json"])) false).bind top = some desc
  walked : Walked bundle (layoutPath r.image) (MAX_DEPTH + 1) desc
  digest : strField "digest" desc = some r.layout_digest
  wellFormed : isDigest r.layout_digest = true
  pinned : ∀ digest, pin r.image = some digest → digest = r.layout_digest
  layout : r.layout = lit "oci/" ++ layout_name r.image
  platforms : r.platforms = oci_layout.platforms desc r.image

/-- An image that is verified has a row that describes it. -/
theorem verify_image_eq_some {bundle : Bundle} {img : Str} {r : Row} (h : verify_image bundle img = some r) :
    r.image = img ∧ ∃ desc, r.Of bundle desc := by
  unfold verify_image at h
  split at h
  case h_2 => cases h
  next desc _ htop =>
  split at h
  case h_2 => cases h
  next stats digest hwalk hdigest =>
  split at h
  · cases h
  next hpin =>
  cases h
  have hwalked : Walked bundle (layoutPath img) (MAX_DEPTH + 1) desc := ⟨_, _, hwalk⟩
  refine ⟨rfl, desc, htop, hwalked, hdigest, ?_, ?_, rfl, rfl⟩
  · obtain ⟨d, content, doc, hchecked, -⟩ := hwalked.cases
    rw [strField_digest hchecked.descriptor] at hdigest
    obtain rfl := Option.some.inj hdigest
    exact isDigest_of_descriptor hchecked.descriptor
  · intro pinned hpinned
    simpa [hpinned] using hpin

theorem map_image_filterMap {bundle : Bundle} {images : List Str}
    (h : ∀ img ∈ images, (verify_image bundle img).isSome = true) :
    (images.filterMap (verify_image bundle)).map Row.image = images := by
  induction images with
  | nil => rfl
  | cons img images ih =>
    obtain ⟨r, hr⟩ := Option.isSome_iff_exists.mp (h img List.mem_cons_self)
    rw [List.filterMap_cons_some hr, List.map_cons, (verify_image_eq_some hr).1,
      ih fun other hother => h other (List.mem_cons_of_mem img hother)]

/-- Every row is of an image that was asked for. -/
theorem exists_of_mem_rows {bundle : Bundle} {images : List Str} {r : Row}
    (h : r ∈ images.filterMap (verify_image bundle)) : r.image ∈ images ∧ ∃ desc, r.Of bundle desc := by
  obtain ⟨img, himg, hverify⟩ := List.mem_filterMap.mp h
  obtain ⟨rfl, hof⟩ := verify_image_eq_some hverify
  exact ⟨himg, hof⟩

/-! ### Reading an inventory back -/

theorem eq_of_isDigest {s : Str} (h : isDigest s = true) : s = lit "sha256:" ++ s.drop 7 := by
  simp only [isDigest, Bool.and_eq_true] at h
  obtain ⟨rest, rfl⟩ := List.isPrefixOf_iff_prefix.mp h.1.1
  rfl

theorem ascii_of_isDigest {s : Str} (h : isDigest s = true) : ∀ c ∈ s, c < 128 := by
  intro c hc
  rw [eq_of_isDigest h] at hc
  cases List.mem_append.mp hc with
  | inl hmem => exact (show ∀ c ∈ lit "sha256:", c < 128 by decide) c hmem
  | inr hmem =>
    simp only [isDigest, Bool.and_eq_true] at h
    have hhex := List.all_eq_true.mp h.2 c hmem
    simp only [isLowerHex, Bool.or_eq_true, Bool.and_eq_true, decide_eq_true_eq] at hhex
    omega

theorem ascii_of_isPlatform {s : Str} (h : isPlatform s = true) : ∀ c ∈ s, c < 128 := by
  have halnum : ∀ {part : Str}, part.all isLowerAlnum = true → ∀ c ∈ part, c < 128 := by
    intro part hpart c hc
    have := List.all_eq_true.mp hpart c hc
    simp only [isLowerAlnum, isDigit, Bool.or_eq_true, Bool.and_eq_true, decide_eq_true_eq] at this
    omega
  unfold isPlatform at h
  split at h
  · next os architecture hsplit =>
    simp only [Bool.and_eq_true] at h
    intro c hc
    rw [← intercalate_split 47 s, hsplit] at hc
    simp only [List.intercalate, List.intersperse_cons_cons, List.intersperse_singleton, List.flatten_cons, List.flatten_nil,
      List.mem_append, List.append_nil, List.mem_singleton] at hc
    rcases hc with hos | rfl | harch
    · exact halnum h.1.1.2 c hos
    · decide
    · exact halnum h.2 c harch
  · cases h

theorem mem_layout_name {img : Str} {c : Nat} (h : c ∈ layout_name img) : c ∈ img ∨ c = 95 := by
  simp only [layout_name, List.map_map, List.mem_map, Function.comp_apply] at h
  obtain ⟨d, hd, rfl⟩ := h
  split
  · exact .inr rfl
  · split
    · exact .inr rfl
    · exact .inl hd

/-- What the loader asks of an entry. -/
structure Entry.Sound (e : Entry) : Prop where
  image : ListedImage e.image
  layout : e.layout = lit "oci/" ++ layout_name e.image
  digest : isDigest e.digest = true
  platforms : e.platforms ∈ PLATFORM_MODES
  collapsed : ∀ platform, e.collapsed_to = some platform → e.platforms = lit "single-platform" ∧ isPlatform platform = true
  kept : e.collapsed_to = none → e.platforms ≠ lit "single-platform"

/-- The entry of a row is sound. -/
theorem Row.Of.sound {bundle : Bundle} {r : Row} {desc : Json} (h : r.Of bundle desc) (himage : ListedImage r.image)
    {platform : Str} (hplatform : isPlatform platform = true) : (r.entry platform).Sound where
  image := himage
  layout := h.layout
  digest := h.wellFormed
  platforms := by
    show platform_mode r ∈ PLATFORM_MODES
    unfold platform_mode
    cases r.platforms <;> decide
  collapsed := by
    intro found hfound
    simp only [Row.entry] at hfound ⊢
    split at hfound
    · next hmode =>
      cases hfound
      exact ⟨hmode, hplatform⟩
    · cases hfound
  kept := by
    intro hnone
    simp only [Row.entry] at hnone ⊢
    split at hnone
    · cases hnone
    · next hmode => exact hmode

private theorem entry_json (e : Entry) : e.json = .obj [(lit "collapsed_to", e.collapsed_to.elim .null .str),
    (lit "digest", .str e.digest), (lit "image", .str e.image), (lit "layout", .str e.layout),
    (lit "platforms", .str e.platforms)] := rfl

/-- A sound entry is loaded again, -/
theorem Entry.Sound.load_entry_json {e : Entry} (h : e.Sound) : load_entry e.json = some e := by
  have himg : strField "image" e.json = some e.image := rfl
  have hlayout : strField "layout" e.json = some e.layout := rfl
  have hdigest : strField "digest" e.json = some e.digest := rfl
  have hplatforms : strField "platforms" e.json = some e.platforms := rfl
  have hcollapsed : field "collapsed_to" e.json = some (e.collapsed_to.elim .null .str) := rfl
  have hline : 10 ∉ e.layout := by
    rw [h.layout]
    intro hmem
    cases List.mem_append.mp hmem with
    | inl hlit => exact (show 10 ∉ lit "oci/" by decide) hlit
    | inr hname => exact (mem_layout_name hname).elim h.image.line (by omega)
  have hkeys : ∀ c d i l p : Json, List.map Prod.fst
      [(lit "collapsed_to", c), (lit "digest", d), (lit "image", i), (lit "layout", l), (lit "platforms", p)] =
        INVENTORY_KEYS := fun _ _ _ _ _ => rfl
  rw [entry_json] at *
  unfold load_entry
  simp only [himg, hlayout, hdigest, hplatforms, hcollapsed]
  rw [if_neg (not_not.mpr (hkeys _ _ _ _ _)), if_neg (by simp [h.image.nonempty, h.image.stripped]),
    if_neg (by simp [h.layout.symm, hline]), if_neg (by simp [h.digest]), if_neg (by simp [h.platforms])]
  cases hto : e.collapsed_to with
  | none =>
    show (if _ then _ else _) = _
    rw [if_neg (h.kept hto), ← hto]
  | some platform =>
    show (if _ then _ else _) = _
    rw [if_pos (h.collapsed platform hto), ← hto]

/-- and so are sound entries in the order of their images. -/
theorem load_entries_json {entries : List Entry} (h : ∀ e ∈ entries, e.Sound) (prev : Option Str)
    (hprev : ∀ img ∈ prev, ∀ e ∈ entries, img < e.image) (hsorted : entries.Pairwise fun a b => a.image < b.image) :
    load_entries prev (entries.map Entry.json) = some entries := by
  induction entries generalizing prev with
  | nil => rfl
  | cons e entries ih =>
    obtain ⟨hfirst, hsorted⟩ := List.pairwise_cons.mp hsorted
    have hrest := ih (fun e he => h e (List.mem_cons_of_mem _ he)) (some e.image)
      (fun img himg e' he' => (Option.mem_some_iff.mp himg) ▸ hfirst e' he') hsorted
    have hgt : ¬ (prev.any fun img => decide (e.image ≤ img)) = true := by
      simp only [Option.any_eq_true, decide_eq_true_eq, not_exists, not_and]
      intro img himg
      exact not_le.mpr (hprev img himg e List.mem_cons_self)
    rw [List.map_cons, load_entries, (h e List.mem_cons_self).load_entry_json]
    simp only
    rw [if_neg hgt, hrest]
    rfl

/-- The document with the items of its dictionary in order. -/
private theorem inventoryDoc_eq (tool : Str) (entries : List Entry) :
    inventoryDoc tool entries = .obj [(lit "images", .arr (entries.map Entry.json)),
      (lit "schema", .str INVENTORY_SCHEMA), (lit "tool", .str tool)] := rfl

/-- The loader takes what is recorded, if it takes the tool and no two images share a directory. -/
theorem inventoryEntries_inventoryDoc {entries : List Entry} (h : ∀ e ∈ entries, e.Sound)
    (hsorted : entries.Pairwise fun a b => a.image < b.image) (tool : Str) :
    inventoryEntries (inventoryDoc tool entries) =
      if (strip tool ≠ [] ∧ tool.length ≤ 200) ∧ (entries.map Entry.layout).Nodup then some entries else none := by
  have hkeys : ∀ i s t : Json, List.map Prod.fst [(lit "images", i), (lit "schema", s), (lit "tool", t)] =
      [lit "images", lit "schema", lit "tool"] := fun _ _ _ => rfl
  have hschema : strField "schema" (inventoryDoc tool entries) = some INVENTORY_SCHEMA := rfl
  have htool : strField "tool" (inventoryDoc tool entries) = some tool := rfl
  have himages : listField "images" (inventoryDoc tool entries) = some (entries.map Entry.json) := rfl
  have hload := load_entries_json h none (fun img himg => nomatch himg) hsorted
  rw [inventoryDoc_eq] at *
  unfold inventoryEntries
  simp only [hschema, htool, himages, hload]
  rw [if_neg (not_not.mpr (hkeys _ _ _)), if_neg (not_not.mpr rfl)]
  by_cases hok : strip tool ≠ [] ∧ tool.length ≤ 200
  · rw [if_neg (by push Not; exact hok)]
    simp only [hok, true_and, not_false_eq_true, ne_eq]
  · rw [if_pos (by by_contra hnot; push Not at hnot; exact hok hnot), if_neg (fun hboth => hok hboth.1)]

theorem Entry.Sound.readable {e : Entry} (h : e.Sound) :
    e.json.Readable no_duplicate_keys fun s => ∀ c ∈ s, Escapable c := by
  have hascii : ∀ s : Str, (∀ c ∈ s, c < 128) → ∀ c ∈ s, Escapable c := fun s hs c hc => escapable_of_ascii (hs c hc)
  have hdigest := hascii _ (ascii_of_isDigest h.digest)
  have hlayout : ∀ c ∈ e.layout, Escapable c := by
    rw [h.layout]
    intro c hc
    cases List.mem_append.mp hc with
    | inl hlit => exact (show ∀ c ∈ lit "oci/", Escapable c by decide) c hlit
    | inr hname =>
      cases mem_layout_name hname with
      | inl himg => exact h.image.decoded c himg
      | inr hunderscore => exact escapable_of_ascii (by omega)
  have hplatforms : ∀ c ∈ e.platforms, Escapable c :=
    (show ∀ mode ∈ PLATFORM_MODES, ∀ c ∈ mode, Escapable c by decide) _ h.platforms
  have hcollapsed : (e.collapsed_to.elim Json.null Json.str).Readable no_duplicate_keys fun s => ∀ c ∈ s, Escapable c := by
    cases hto : e.collapsed_to with
    | none => trivial
    | some platform => exact hascii _ (ascii_of_isPlatform (h.collapsed platform hto).2)
  rw [entry_json]
  refine ⟨rfl, by decide, hcollapsed, by decide, hdigest, by decide, h.image.decoded, by decide, hlayout, by decide,
    hplatforms, trivial⟩

theorem readable_inventoryDoc {entries : List Entry} (h : ∀ e ∈ entries, e.Sound) (tool : Argument) :
    (inventoryDoc tool.text entries).Readable no_duplicate_keys fun s => ∀ c ∈ s, Escapable c := by
  have hitems : Json.ReadableItems no_duplicate_keys (fun s => ∀ c ∈ s, Escapable c) (entries.map Entry.json) := by
    induction entries with
    | nil => trivial
    | cons e entries ih =>
      exact ⟨(h e List.mem_cons_self).readable, ih fun e he => h e (List.mem_cons_of_mem _ he)⟩
  rw [inventoryDoc_eq]
  have hschema : ∀ c ∈ INVENTORY_SCHEMA, Escapable c := by decide
  exact ⟨rfl, by decide, hitems, by decide, hschema, by decide, tool.decoded, trivial⟩

/-- A written document is read back, if it is not too large. -/
theorem read_json_written {doc : Json} (hread : doc.Readable no_duplicate_keys fun s => ∀ c ∈ s, Escapable c) :
    ∃ written, utf8Encode (printed (indent2 quoteAscii) 0 doc ++ [10]) = some written ∧
      read_json ⟨false, .file written⟩ true = if written.length ≤ MAX_JSON_BYTES then some doc else none := by
  have hchars : ∀ c ∈ printed (indent2 quoteAscii) 0 doc ++ [10], c = 10 ∨ Printable c := by
    intro c hc
    cases List.mem_append.mp hc with
    | inl hmem => exact indentAscii_within.printed hread hmem
    | inr hlf => exact .inl (List.mem_singleton.mp hlf)
  have hencode := utf8Encode_of_ascii fun c hc => (hchars c hc).elim (by omega) (fun h => by unfold Printable at h; omega)
  have hcr : 13 ∉ printed (indent2 quoteAscii) 0 doc ++ [10] := fun hmem => absurd (hchars 13 hmem) (by decide)
  refine ⟨_, hencode, ?_⟩
  simp only [read_json, regular, parse_json, Bool.false_eq_true, if_false, utf8Decode_encode hencode, if_true]
  by_cases hsmall : ((printed (indent2 quoteAscii) 0 doc ++ [10]).map UInt8.ofNat).length ≤ MAX_JSON_BYTES
  · rw [if_neg (not_lt.mpr hsmall), if_pos hsmall, universalNewlines_eq_self hcr]
    exact loads_printed indentAscii_sound hread
  · rw [if_pos (not_le.mp hsmall), if_neg hsmall]

end narwhal.oci_layout
