import Narwhal.Airgap.InventoryFile

open pylib

namespace narwhal.oci_layout

/-! ### Runs that end well -/

/-- The rows of a run. -/
def rowsOf (bundle : Bundle) (images : List Str) : List Row := (sortedSet images).filterMap (verify_image bundle)

/-- What a run that writes an inventory has done. -/
structure SaveRun (bundle : Bundle) (args : Args) (images : List Str) (platform : Str) (written : Bytes) : Prop where
  listed : args.listed = some images
  named : args.platform = some platform
  wellFormed : isPlatform platform = true
  verified : ∀ img ∈ sortedSet images, (verify_image bundle img).isSome = true
  written : write_inventory (rowsOf bundle images) platform args.tool.text = some written

/-- What a run that passes an inventory has done. -/
structure VerifyRun (bundle : Bundle) (args : Args) (node : Node) (images : List Str) (entries : List Entry) : Prop where
  listed : args.listed = some images
  loaded : load_inventory node = some entries
  verified : ∀ img ∈ sortedSet (images ++ entries.map Entry.image), (verify_image bundle img).isSome = true
  checked : check_inventory bundle entries (rowsOf bundle (images ++ entries.map Entry.image)) = []

section

variable {bundle : Bundle} {args : Args} {images : List Str}

private theorem countP_isNone_eq_zero_iff :
    (images.countP fun img => (verify_image bundle img).isNone) = 0 ↔
      ∀ img ∈ images, (verify_image bundle img).isSome = true := by
  rw [List.countP_eq_zero]
  simp only [Option.isNone_iff_eq_none, Option.isSome_iff_ne_none]

theorem main_save {written : Bytes} (h : main bundle args = ⟨0, some written⟩) :
    ∃ images platform, SaveRun bundle args images platform written := by
  have hverify : ∀ entries images, verify_images bundle args entries (sortedSet images) = ⟨0, some written⟩ →
      args.inventory_out = true ∧ (∀ img ∈ sortedSet images, (verify_image bundle img).isSome = true) ∧
        write_inventory (rowsOf bundle images) (args.platform.getD []) args.tool.text = some written := by
    intro entries images h
    unfold verify_images at h
    dsimp only at h
    split at h
    · cases h
    next hfailed =>
    split at h
    · next hout =>
      split at h
      · cases h
      · next found hfound =>
        cases h
        exact ⟨hout, countP_isNone_eq_zero_iff.mp (by omega), hfound⟩
    · cases h
  unfold main at h
  split at h
  · cases h
  next hexclusive =>
  split at h
  · cases h
  next hplatform =>
  split at h
  · cases h
  next images hlisted =>
  split at h
  · obtain ⟨hout, hverified, hwritten⟩ := hverify none images h
    have hnamed : args.platform.any isPlatform = true := by
      by_contra hnot
      exact hplatform ⟨hout, hnot⟩
    obtain ⟨platform, hsome, hok⟩ := (Option.any_eq_true _ _).mp hnamed
    rw [hsome] at hwritten
    exact ⟨images, platform, hlisted, hsome, hok, hverified, hwritten⟩
  · next node hnode =>
    split at h
    · cases h
    · -- an inventory is not read and written in one run
      obtain ⟨hout, -, -⟩ := hverify _ _ h
      exact (hexclusive ⟨by simp [hnode], hout⟩).elim

/-- What such a run does is enough for it. -/
theorem SaveRun.main_eq {platform : Str} {written : Bytes} (h : SaveRun bundle args images platform written)
    (hinventory : args.inventory = none) (hout : args.inventory_out = true) : main bundle args = ⟨0, some written⟩ := by
  have hfailed := countP_isNone_eq_zero_iff.mpr h.verified
  have hwritten := h.written
  unfold rowsOf at hwritten
  unfold main
  rw [if_neg (by simp [hinventory]), if_neg (by simp [h.named, h.wellFormed])]
  simp only [h.listed, hinventory, verify_images, Option.elim_none, hfailed, h.named, Option.getD_some, hwritten, hout]
  rfl

theorem main_verify_iff {node : Node} (hnode : args.inventory = some node) :
    (main bundle args).exit = 0 ↔
      args.inventory_out = false ∧ ∃ images entries, VerifyRun bundle args node images entries := by
  have hsome : args.inventory.isSome = true := by simp [hnode]
  constructor
  · intro h
    unfold main at h
    split at h
    · cases h
    next hexclusive =>
    have hout : args.inventory_out = false := by
      by_contra hnot
      exact hexclusive ⟨hsome, by simpa using hnot⟩
    rw [if_neg (by simp [hout])] at h
    split at h
    · cases h
    next images hlisted =>
    rw [hnode] at h
    dsimp only at h
    split at h
    · cases h
    next entries hloaded =>
    unfold verify_images at h
    dsimp only at h
    split at h
    · cases h
    next hfailed =>
    refine ⟨hout, images, entries, hlisted, hloaded, countP_isNone_eq_zero_iff.mp (by omega), ?_⟩
    apply List.eq_nil_of_length_eq_zero
    have hproblems : (check_inventory bundle entries (rowsOf bundle (images ++ entries.map Entry.image))).length = 0 := by
      simp only [Option.elim_some] at hfailed
      unfold rowsOf
      omega
    exact hproblems
  · rintro ⟨hout, images, entries, hrun⟩
    have hfailed := countP_isNone_eq_zero_iff.mpr hrun.verified
    have hproblems := hrun.checked
    unfold rowsOf at hproblems
    unfold main
    rw [if_neg (by simp [hout]), if_neg (by simp [hout])]
    simp only [hrun.listed, hnode, hrun.loaded, verify_images, Option.elim_some, hfailed, hproblems, hout]
    rfl

end

/-- The run that passes an inventory, with the same lists. -/
def Args.verifying (args : Args) (written : Bytes) : Args :=
  { args with inventory := some ⟨false, .file written⟩, inventory_out := false }

/-! ### What a save run records -/

section

variable {bundle : Bundle} {args : Args} {images : List Str} {platform : Str} {written : Bytes}

theorem SaveRun.map_image (h : SaveRun bundle args images platform written) :
    (rowsOf bundle images).map Row.image = sortedSet images := map_image_filterMap h.verified

theorem SaveRun.sorted (h : SaveRun bundle args images platform written) :
    (rowsOf bundle images).Pairwise fun r s => r.image < s.image := by
  have := (sortedSet_sortedLT images).pairwise
  rw [← h.map_image] at this
  exact List.pairwise_map.mp this

/-- The rows are recorded in their order. -/
theorem SaveRun.recorded_eq (h : SaveRun bundle args images platform written) :
    recorded platform (rowsOf bundle images) = (rowsOf bundle images).map (Row.entry platform) := by
  have hsorted : (rowsOf bundle images).Pairwise fun r s => r.image ≤ s.image := h.sorted.imp fun hlt => hlt.le
  rw [recorded, hsorted.insertionSort_eq]

theorem SaveRun.sound (h : SaveRun bundle args images platform written) :
    ∀ e ∈ (rowsOf bundle images).map (Row.entry platform), e.Sound := by
  intro e he
  obtain ⟨r, hr, rfl⟩ := List.mem_map.mp he
  obtain ⟨himage, desc, hof⟩ := exists_of_mem_rows hr
  exact hof.sound (Args.listedImage h.listed (mem_sortedSet.mp himage)) h.wellFormed

theorem SaveRun.sorted_entries (h : SaveRun bundle args images platform written) :
    ((rowsOf bundle images).map (Row.entry platform)).Pairwise fun a b => a.image < b.image :=
  List.pairwise_map.mpr h.sorted

/-- What is recorded is loaded again unless the file is too large, the tool is refused or two images share
    a directory. -/
theorem SaveRun.loaded (h : SaveRun bundle args images platform written) :
    load_inventory ⟨false, .file written⟩ =
      if written.length ≤ MAX_JSON_BYTES ∧ (strip args.tool.text ≠ [] ∧ args.tool.text.length ≤ 200) ∧
          (((rowsOf bundle images).map (Row.entry platform)).map Entry.layout).Nodup then
        some ((rowsOf bundle images).map (Row.entry platform))
      else none := by
  obtain ⟨found, hfound, hread⟩ := read_json_written (readable_inventoryDoc h.sound args.tool)
  have hwritten := h.written
  rw [write_inventory, h.recorded_eq, hfound] at hwritten
  obtain rfl := Option.some.inj hwritten
  rw [load_inventory, hread]
  by_cases hsize : found.length ≤ MAX_JSON_BYTES
  · rw [if_pos hsize, Option.bind_some, inventoryEntries_inventoryDoc h.sound h.sorted_entries]
    simp only [hsize, true_and]
  · rw [if_neg hsize, if_neg fun hall => hsize hall.1]
    rfl

end

/-- The loader takes back what a run has recorded. -/
def Reloads (written : Bytes) (tool : Str) (rows : List Row) : Prop :=
  written.length ≤ MAX_JSON_BYTES ∧ (strip tool ≠ [] ∧ tool.length ≤ 200) ∧ (rows.map Row.layout).Nodup

instance (written : Bytes) (tool : Str) (rows : List Row) : Decidable (Reloads written tool rows) :=
  inferInstanceAs (Decidable (_ ∧ _))

section

variable {bundle : Bundle} {args : Args} {images : List Str} {platform : Str} {written : Bytes}

theorem SaveRun.load_eq (h : SaveRun bundle args images platform written) :
    load_inventory ⟨false, .file written⟩ =
      if Reloads written args.tool.text (rowsOf bundle images) then some ((rowsOf bundle images).map (Row.entry platform))
      else none := by
  rw [h.loaded, List.map_map]
  rfl

theorem SaveRun.map_entry_image (h : SaveRun bundle args images platform written) :
    ((rowsOf bundle images).map (Row.entry platform)).map Entry.image = sortedSet images := by
  rw [← h.map_image, List.map_map]
  rfl

/-- The images of the list and of the inventory are the ones that were saved. -/
theorem SaveRun.sortedSet_append (h : SaveRun bundle args images platform written) :
    sortedSet (images ++ ((rowsOf bundle images).map (Row.entry platform)).map Entry.image) = sortedSet images := by
  apply sortedSet_congr
  intro img
  rw [h.map_entry_image, List.mem_append, mem_sortedSet, or_self]

theorem SaveRun.rowsOf_append (h : SaveRun bundle args images platform written) :
    rowsOf bundle (images ++ ((rowsOf bundle images).map (Row.entry platform)).map Entry.image) = rowsOf bundle images :=
  congrArg (List.filterMap (verify_image bundle)) h.sortedSet_append

/-- The gate passes the bundle when the loader takes the inventory back and the comparison finds nothing. -/
theorem SaveRun.verify_exit_iff (h : SaveRun bundle args images platform written) :
    (main bundle (args.verifying written)).exit = 0 ↔
      Reloads written args.tool.text (rowsOf bundle images) ∧
        check_inventory bundle ((rowsOf bundle images).map (Row.entry platform)) (rowsOf bundle images) = [] := by
  rw [main_verify_iff (show (args.verifying written).inventory = some ⟨false, .file written⟩ from rfl)]
  constructor
  · rintro ⟨-, images', entries, hrun⟩
    obtain rfl : images' = images := Option.some.inj (hrun.listed.symm.trans h.listed)
    have hloaded := hrun.loaded
    rw [h.load_eq] at hloaded
    split at hloaded
    · next hreloads =>
      obtain rfl := Option.some.inj hloaded
      have hchecked := hrun.checked
      rw [h.rowsOf_append] at hchecked
      exact ⟨hreloads, hchecked⟩
    · cases hloaded
  · rintro ⟨hreloads, hchecked⟩
    refine ⟨rfl, images, (rowsOf bundle images).map (Row.entry platform), h.listed, ?_, ?_, ?_⟩
    · rw [h.load_eq, if_pos hreloads]
    · rw [h.sortedSet_append]
      exact h.verified
    · rw [h.rowsOf_append]
      exact hchecked

end

theorem find?_image {entries : List Entry} (hsorted : entries.Pairwise fun a b => a.image < b.image) {e : Entry}
    (he : e ∈ entries) : entries.find? (fun found => found.image = e.image) = some e := by
  induction entries with
  | nil => cases he
  | cons first rest ih =>
    obtain ⟨hfirst, hrest⟩ := List.pairwise_cons.mp hsorted
    cases List.mem_cons.mp he with
    | inl heq => simp [heq]
    | inr hmem =>
      have hne : ¬ first.image = e.image := (hfirst e hmem).ne
      rw [List.find?_cons_of_neg (by simpa using hne), ih hrest hmem]

theorem platform_mode_inj {r s : Row} (h : platform_mode r = platform_mode s) : r.platforms = s.platforms := by
  unfold platform_mode at h
  cases hr : r.platforms <;> cases hs : s.platforms <;> rw [hr, hs] at h <;> first | rfl | exact absurd h (by decide)

/-! ### A bundle of one image -/

def bundleOf (files : List (Path × Node)) : Bundle := fun path => (files.lookup path).getD ⟨false, .missing⟩

def sampleConfig : Bytes := blit "\x7b\"os\":\"linux\",\"architecture\":\"amd64\"\x7d"

def sampleConfigHex : Str := lit "9cd31762e7050165195c9469ccea41a23c079f2d0f51b5e9bf0c9d7842618b72"

def sampleManifest : Bytes :=
  blit "\x7b\"config\":\x7b\"digest\":\"sha256:9cd31762e7050165195c9469ccea41a23c079f2d0f51b5e9bf0c9d7842618b72\"," ++
    blit "\"size\":37\x7d,\"layers\":[]\x7d"

def sampleManifestHex : Str := lit "ce8085d2b10368dbf3d7723e9aa7a5c0f129081e2a3bc4ad737ab8f25de8d404"

def sampleIndex : Bytes :=
  blit "\x7b\"manifests\":[\x7b\"mediaType\":\"application/vnd.oci.image.manifest.v1+json\"," ++
    blit "\"digest\":\"sha256:ce8085d2b10368dbf3d7723e9aa7a5c0f129081e2a3bc4ad737ab8f25de8d404\",\"size\":117\x7d]\x7d"

/-- The layout of the image `a`. -/
def sampleBundle : Bundle :=
  bundleOf [([lit "oci"], ⟨false, .dir [lit "a"]⟩), ([lit "oci", lit "a"], ⟨false, .dir []⟩),
    ([lit "oci", lit "a", lit "oci-layout"], ⟨false, .file (blit "0")⟩),
    ([lit "oci", lit "a", lit "index.json"], ⟨false, .file sampleIndex⟩),
    ([lit "oci", lit "a", lit "blobs", lit "sha256", sampleManifestHex], ⟨false, .file sampleManifest⟩),
    ([lit "oci", lit "a", lit "blobs", lit "sha256", sampleConfigHex], ⟨false, .file sampleConfig⟩)]

def sampleRow : Row where
  image := lit "a"
  layout_digest := lit "sha256:" ++ sampleManifestHex
  layout := lit "oci/a"
  pinned := false
  platforms := .single_platform
  referrers_in_layout := 0
  config_blob := some [lit "oci", lit "a", lit "blobs", lit "sha256", sampleConfigHex]

def sampleArgs (platform : Str) : Args where
  images := ⟨false, .file (blit "a\n")⟩
  manifest := none
  inventory := none
  inventory_out := true
  platform := some platform
  tool := ⟨lit "unknown", by decide⟩

theorem verify_sample : verify_image sampleBundle (lit "a") = some sampleRow := by decide +kernel

theorem sorted_sample : sortedSet [lit "a"] = [lit "a"] := by decide

theorem rowsOf_sample : rowsOf sampleBundle [lit "a"] = [sampleRow] := by
  rw [rowsOf, sorted_sample, List.filterMap_cons_some verify_sample]
  rfl

/-- The bundle is saved whatever platform is recorded. -/
theorem saveRun_sample (platform : Str) (hplatform : isPlatform platform = true) :
    ∃ written, SaveRun sampleBundle (sampleArgs platform) [lit "a"] platform written := by
  have hlisted : (sampleArgs platform).listed = some [lit "a"] := by
    have : read_list ⟨false, .file (blit "a\n")⟩ = some [lit "a"] := by decide
    simp [Args.listed, sampleArgs, this]
  have hverified : ∀ img ∈ sortedSet [lit "a"], (verify_image sampleBundle img).isSome = true := by
    rw [sorted_sample]
    intro img himg
    rw [List.mem_singleton.mp himg, verify_sample]
    rfl
  have hsound : (sampleRow.entry platform).Sound := by
    obtain ⟨-, desc, hof⟩ := verify_image_eq_some verify_sample
    exact hof.sound (Args.listedImage hlisted List.mem_cons_self) hplatform
  obtain ⟨written, hwritten, -⟩ := read_json_written
    (readable_inventoryDoc (List.forall_mem_singleton.mpr hsound) (sampleArgs platform).tool)
  refine ⟨written, hlisted, rfl, hplatform, hverified, ?_⟩
  rw [rowsOf_sample]
  exact hwritten

end narwhal.oci_layout
