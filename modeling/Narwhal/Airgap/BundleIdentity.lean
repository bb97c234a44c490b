import Narwhal.Airgap.InventoryRuns

open pylib

namespace narwhal.oci_layout

/-- The descriptor that the layout of an image has on top. -/
def latest (bundle : Bundle) (img : Str) : Option Json :=
  (read_json (bundle (layoutPath img ++ [lit "index.json"])) false).bind top

/-- Two bundles hold the same image, the one an entry records: the digest on top, the manifests, indexes
    and configs it leads to, byte for byte, and the layers they list. The layers are in the second bundle,
    with their sizes. -/
structure SameImage (bundle bundle' : Bundle) (e : Entry) (desc desc' : Json) (c : Contents) : Prop where
  top : latest bundle e.image = some desc
  top' : latest bundle' e.image = some desc'
  digest : strField "digest" desc = some e.digest
  digest' : strField "digest" desc' = some e.digest
  contents : contents bundle (layoutPath e.image) (MAX_DEPTH + 1) desc = some c
  contents' : oci_layout.contents bundle' (layoutPath e.image) (MAX_DEPTH + 1) desc' = some c
  layers : ∀ layer ∈ c.layers, HasLayer bundle' (layoutPath e.image) layer
  pinned : ∀ digest, pin e.image = some digest → digest = e.digest

/-- The mode of a row says whether the top of its layout is an index. -/
theorem Row.Of.isIndex_iff {bundle : Bundle} {r : Row} {desc : Json} (h : r.Of bundle desc) :
    isIndex desc = true ↔ r.platforms = .full_index := by
  rw [h.platforms, oci_layout.platforms]
  split
  · next hindex => simp [hindex]
  · next hindex => split <;> simp [hindex]

/-- A row without a problem has what its entry records. -/
theorem row_problem_eq_none {bundle : Bundle} {entries : List Entry} {r : Row} (h : row_problem bundle entries r = none) :
    ∃ e ∈ entries, e.image = r.image ∧ e.digest = r.layout_digest ∧ e.platforms = platform_mode r := by
  unfold row_problem at h
  split at h
  · cases h
  next e hfind =>
  split at h
  · cases h
  next hdigest =>
  split at h
  · cases h
  next hplatforms =>
  refine ⟨e, List.mem_of_find?_eq_some hfind, ?_, not_not.mp hdigest, not_not.mp hplatforms⟩
  simpa using List.find?_some hfind

section

variable {bundle bundle' : Bundle} {args args' : Args} {written : Bytes}

theorem VerifyRun.row_problem_eq_none {node : Node} {images : List Str} {entries : List Entry}
    (h : VerifyRun bundle args node images entries) {r : Row}
    (hr : r ∈ rowsOf bundle (images ++ entries.map Entry.image)) : row_problem bundle entries r = none := by
  have hchecked := (List.append_eq_nil_iff.mp h.checked).1
  exact List.filterMap_eq_nil_iff.mp hchecked r hr

/-- Each image of the list or of the inventory has a row. -/
theorem VerifyRun.exists_row {node : Node} {images : List Str} {entries : List Entry}
    (h : VerifyRun bundle args node images entries) {img : Str} (himg : img ∈ images ++ entries.map Entry.image) :
    ∃ r ∈ rowsOf bundle (images ++ entries.map Entry.image), r.image = img := by
  have hmem := mem_sortedSet.mpr himg
  rw [← map_image_filterMap h.verified] at hmem
  exact List.mem_map.mp hmem

/-- A bundle that passes the inventory saved from another holds the same images. -/
theorem bundle_identity (hsave : main bundle args = ⟨0, some written⟩)
    (hinventory : args'.inventory = some ⟨false, .file written⟩) (hverify : (main bundle' args').exit = 0)
    (hinj : Set.InjOn sha256_hexdigest (blobsOf bundle ∪ blobsOf bundle')) :
    ∃ entries images, load_inventory ⟨false, .file written⟩ = some entries ∧ args'.listed = some images ∧
      (∀ e ∈ entries, ∃ desc desc' c, SameImage bundle bundle' e desc desc' c) ∧
      ∀ img ∈ images, img ∈ entries.map Entry.image := by
  obtain ⟨saved, platform, hsaved⟩ := main_save hsave
  obtain ⟨-, images, entries, hrun⟩ := (main_verify_iff hinventory).mp hverify
  have hentries : entries = (rowsOf bundle saved).map (Row.entry platform) := by
    have hloaded := hrun.loaded
    rw [hsaved.loaded] at hloaded
    split at hloaded
    · exact (Option.some.inj hloaded).symm
    · cases hloaded
  refine ⟨entries, images, hrun.loaded, hrun.listed, ?_, ?_⟩
  · intro e he
    obtain ⟨r', hr', himage⟩ := hrun.exists_row (List.mem_append_right images (List.mem_map_of_mem he))
    obtain ⟨found, hfound, hname, hdigest', hmode'⟩ := row_problem_eq_none (hrun.row_problem_eq_none hr')
    obtain ⟨-, desc', hof'⟩ := exists_of_mem_rows hr'
    -- no other entry has the image
    have hsorted : entries.Pairwise fun a b => a.image < b.image := hentries ▸ hsaved.sorted_entries
    obtain rfl : found = e := by
      have hfind := find?_image hsorted he
      rw [← himage, ← hname, find?_image hsorted hfound] at hfind
      exact Option.some.inj hfind
    rw [hentries] at he
    obtain ⟨r, hr, rfl⟩ := List.mem_map.mp he
    obtain ⟨-, desc, hof⟩ := exists_of_mem_rows hr
    obtain ⟨image', _⟩ := r'
    obtain rfl : image' = r.image := himage
    have hindex : isIndex desc = isIndex desc' := by
      rw [Bool.eq_iff_iff, hof.isIndex_iff, hof'.isIndex_iff, platform_mode_inj hmode']
    obtain ⟨c, hc, hc', hlayers⟩ := contents_eq_of_walked hinj hof.walked hof'.walked
      (by rw [hof.digest, hof'.digest]; exact congrArg some hdigest') hindex
    exact ⟨desc, desc', c, hof.top, hof'.top, hof.digest, hof'.digest.trans (congrArg some hdigest'.symm), hc, hc', hlayers,
      hof.pinned⟩
  · intro img himg
    obtain ⟨r, hr, rfl⟩ := hrun.exists_row (List.mem_append_left (entries.map Entry.image) himg)
    obtain ⟨e, he, hname, -⟩ := row_problem_eq_none (hrun.row_problem_eq_none hr)
    exact List.mem_map.mpr ⟨e, he, hname⟩

end

theorem regular_eq_some {node : Node} {content : Bytes} (h : regular node = some content) : node = ⟨false, .file content⟩ := by
  obtain ⟨link, target⟩ := node
  cases link <;> cases target <;> simp_all [regular]

theorem mem_of_bundleOf {files : List (Path × Node)} {path : Path} {content : Bytes}
    (h : regular (bundleOf files path) = some content) : (path, ⟨false, .file content⟩) ∈ files := by
  have hnode := regular_eq_some h
  unfold bundleOf at hnode
  cases hfound : files.lookup path with
  | none =>
    rw [hfound] at hnode
    cases hnode
  | some node =>
    rw [hfound, Option.getD_some] at hnode
    obtain ⟨before, after, hfiles, -⟩ := List.lookup_eq_some_iff.mp (hnode ▸ hfound)
    rw [hfiles]
    exact List.mem_append_right before List.mem_cons_self

theorem mem_blobsOf_sample {content : Bytes} (h : content ∈ blobsOf sampleBundle) :
    content = sampleManifest ∨ content = sampleConfig := by
  obtain ⟨layout, hex, h⟩ := h
  have hmem := mem_of_bundleOf h
  simp only [List.mem_cons, List.not_mem_nil, or_false, Prod.mk.injEq, Node.mk.injEq, Target.file.injEq, true_and] at hmem
  rcases hmem with ⟨-, hfile⟩ | ⟨-, hfile⟩ | ⟨hpath, -⟩ | ⟨hpath, -⟩ | ⟨-, hfile⟩ | ⟨-, hfile⟩
  · cases hfile
  · cases hfile
  · -- neither of the other files is in a directory `sha256`
    have := congrArg List.reverse hpath
    simp at this
  · have := congrArg List.reverse hpath
    simp at this
  · exact .inl hfile
  · exact .inr hfile

/-- The index of the sample, as another tool writes it. -/
def resavedIndex : Bytes :=
  blit "\x7b \"schemaVersion\": 2, \"manifests\": [ \x7b \"size\": 117, \"digest\": " ++
    blit "\"sha256:ce8085d2b10368dbf3d7723e9aa7a5c0f129081e2a3bc4ad737ab8f25de8d404\"," ++
    blit "\"mediaType\": \"application/vnd.oci.image.manifest.v1+json\", \"annotations\": " ++
    blit "\x7b \"org.opencontainers.image.ref.name\": \"latest\" \x7d \x7d ] \x7d\n"

/-- The image `a` in another bundle, whose layout has a blob more. -/
def resavedBundle : Bundle :=
  bundleOf [([lit "oci"], ⟨false, .dir [lit "a"]⟩), ([lit "oci", lit "a"], ⟨false, .dir []⟩),
    ([lit "oci", lit "a", lit "oci-layout"], ⟨false, .file (blit "1")⟩),
    ([lit "oci", lit "a", lit "index.json"], ⟨false, .file resavedIndex⟩),
    ([lit "oci", lit "a", lit "blobs", lit "sha256", lit "0"], ⟨false, .file (blit "old")⟩),
    ([lit "oci", lit "a", lit "blobs", lit "sha256", sampleManifestHex], ⟨false, .file sampleManifest⟩),
    ([lit "oci", lit "a", lit "blobs", lit "sha256", sampleConfigHex], ⟨false, .file sampleConfig⟩)]

theorem verify_resaved : verify_image resavedBundle (lit "a") = some sampleRow := by decide +kernel

theorem mem_blobsOf_resaved {content : Bytes} (h : content ∈ blobsOf resavedBundle) :
    content = blit "old" ∨ content = sampleManifest ∨ content = sampleConfig := by
  obtain ⟨layout, hex, h⟩ := h
  have hmem := mem_of_bundleOf h
  simp only [List.mem_cons, List.not_mem_nil, or_false, Prod.mk.injEq, Node.mk.injEq, Target.file.injEq, true_and] at hmem
  rcases hmem with ⟨-, hfile⟩ | ⟨-, hfile⟩ | ⟨hpath, -⟩ | ⟨hpath, -⟩ | ⟨-, hfile⟩ | ⟨-, hfile⟩ | ⟨-, hfile⟩
  · cases hfile
  · cases hfile
  · -- neither of the other files is in a directory `sha256`
    have := congrArg List.reverse hpath
    simp at this
  · have := congrArg List.reverse hpath
    simp at this
  · exact .inl hfile
  · exact .inr (.inl hfile)
  · exact .inr (.inr hfile)

/-- The three blobs of the two bundles have different digests. -/
theorem injOn_resaved : Set.InjOn sha256_hexdigest (blobsOf sampleBundle ∪ blobsOf resavedBundle) := by
  have hnodup : ([blit "old", sampleManifest, sampleConfig].map sha256_hexdigest).Nodup := by decide +kernel
  have hmem : ∀ x ∈ blobsOf sampleBundle ∪ blobsOf resavedBundle, x ∈ [blit "old", sampleManifest, sampleConfig] := by
    rintro x (hx | hx)
    · simpa using Or.inr (mem_blobsOf_sample hx)
    · simpa using mem_blobsOf_resaved hx
  exact fun x hx y hy hxy => List.inj_on_of_nodup_map hnodup (hmem x hx) (hmem y hy) hxy

/-- The inventory of the sample passes on the other bundle. -/
theorem verifyRun_resaved {written : Bytes}
    (hrun : SaveRun sampleBundle (sampleArgs (lit "linux/amd64")) [lit "a"] (lit "linux/amd64") written) :
    (main resavedBundle ((sampleArgs (lit "linux/amd64")).verifying written)).exit = 0 := by
  have hsize : (write_inventory [sampleRow] (lit "linux/amd64") (lit "unknown")).all fun bytes =>
      bytes.length ≤ MAX_JSON_BYTES := by decide +kernel
  have hwritten : write_inventory [sampleRow] (lit "linux/amd64") (lit "unknown") = some written := by
    have hwritten := hrun.written
    rwa [rowsOf_sample] at hwritten
  rw [hwritten] at hsize
  have hloaded : load_inventory ⟨false, .file written⟩ = some [sampleRow.entry (lit "linux/amd64")] := by
    rw [hrun.loaded, rowsOf_sample]
    exact if_pos ⟨of_decide_eq_true hsize, by decide, by decide⟩
  have hsorted : sortedSet ([lit "a"] ++ [sampleRow.entry (lit "linux/amd64")].map Entry.image) = [lit "a"] := by decide
  have hrows : rowsOf resavedBundle ([lit "a"] ++ [sampleRow.entry (lit "linux/amd64")].map Entry.image) = [sampleRow] := by
    rw [rowsOf, hsorted, List.filterMap_cons_some verify_resaved]
    rfl
  refine (main_verify_iff rfl).mpr ⟨rfl, [lit "a"], _, hrun.listed, hloaded, ?_, ?_⟩
  · rw [hsorted, List.forall_mem_singleton, verify_resaved]
    rfl
  · rw [hrows]
    decide +kernel

/-- The sample and the other bundle with its image. -/
theorem bundle_identity_resaved : ∃ written entries images,
    main sampleBundle (sampleArgs (lit "linux/amd64")) = ⟨0, some written⟩ ∧
      load_inventory ⟨false, .file written⟩ = some entries ∧
      ((sampleArgs (lit "linux/amd64")).verifying written).listed = some images ∧
      (∀ e ∈ entries, ∃ desc desc' c, SameImage sampleBundle resavedBundle e desc desc' c) ∧
      ∀ img ∈ images, img ∈ entries.map Entry.image := by
  obtain ⟨written, hrun⟩ := saveRun_sample (lit "linux/amd64") (by decide)
  obtain ⟨entries, images, hsame⟩ := bundle_identity (hrun.main_eq rfl rfl) rfl (verifyRun_resaved hrun) injOn_resaved
  exact ⟨written, entries, images, hrun.main_eq rfl rfl, hsame⟩

end narwhal.oci_layout
