import Narwhal.Airgap.InventoryRuns

open pylib

namespace narwhal.oci_layout

/-- Every entry of `oci/` is a real directory named by the layout of one of the images. -/
def OnlyLayouts (bundle : Bundle) (images : List Str) : Prop :=
  ∀ name ∈ children bundle, (bundle [lit "oci", name]).link = false ∧ (bundle [lit "oci", name]).isDir = true ∧
    ∃ img ∈ images, name = layout_name img

/-- The config of the row is a JSON object with the `os` and the `architecture` of the platform. -/
def Row.NamesPlatform (bundle : Bundle) (r : Row) (platform : Str) : Prop :=
  ∃ path fields os architecture, r.config_blob = some path ∧ read_json (bundle path) false = some (.obj fields) ∧
    strField "os" (.obj fields) = some os ∧ strField "architecture" (.obj fields) = some architecture ∧
    split [47] platform = [os, architecture]

/-- What the gate asks of a saved bundle beside its directories: the loader takes the inventory back, and
    the images that were collapsed are of the platform that was recorded. -/
structure Acceptable (bundle : Bundle) (images : List Str) (platform tool : Str) (written : Bytes) : Prop where
  size : written.length ≤ MAX_JSON_BYTES
  tool : strip tool ≠ [] ∧ tool.length ≤ 200
  layouts : ∀ img ∈ images, ∀ other ∈ images, layout_name img = layout_name other → img = other
  platform : ∀ img ∈ images, ∀ r, verify_image bundle img = some r → r.platforms = .single_platform →
    r.NamesPlatform bundle platform

theorem strField_eq_some_iff {key : String} {doc : Json} {s : Str} : strField key doc = some s ↔ field key doc = some (.str s) := by
  unfold strField
  constructor
  · intro h
    split at h
    · next hfield =>
      cases h
      exact hfield
    · cases h
  · intro h
    rw [h]

theorem config_platform_problem_eq_none_iff {bundle : Bundle} {r : Row} {platform : Str} (hplatform : isPlatform platform = true) :
    config_platform_problem bundle r.config_blob platform = none ↔ r.NamesPlatform bundle platform := by
  have hparts : ∃ os architecture, split [47] platform = [os, architecture] := by
    unfold isPlatform at hplatform
    split at hplatform
    · next os architecture hsplit => exact ⟨os, architecture, hsplit⟩
    · cases hplatform
  obtain ⟨os, architecture, hsplit⟩ := hparts
  unfold config_platform_problem Row.NamesPlatform
  constructor
  · intro h
    split at h
    · cases h
    next path hpath =>
    split at h
    · cases h
    · next fields hread =>
      dsimp only at h
      split at h
      · next hgot =>
        rw [hsplit] at hgot
        simp only [List.map_cons, List.map_nil, List.cons.injEq, and_true] at hgot
        exact ⟨path, fields, os, architecture, hpath, hread, strField_eq_some_iff.mpr hgot.1,
          strField_eq_some_iff.mpr hgot.2, hsplit⟩
      · cases h
    · cases h
  · rintro ⟨path, fields, os', architecture', hpath, hread, hos, harchitecture, hsplit'⟩
    rw [hpath]
    simp only [hread]
    rw [if_pos]
    rw [hsplit', strField_eq_some_iff.mp hos, strField_eq_some_iff.mp harchitecture]
    rfl

section

variable {bundle : Bundle} {args : Args} {images : List Str} {platform : Str} {written : Bytes}

/-- A saved row has no problem beside that of its config. -/
theorem SaveRun.row_problem_eq_none_iff (h : SaveRun bundle args images platform written) {r : Row}
    (hr : r ∈ rowsOf bundle images) :
    row_problem bundle ((rowsOf bundle images).map (Row.entry platform)) r = none ↔
      (r.platforms = .single_platform → r.NamesPlatform bundle platform) := by
  have hfind : ((rowsOf bundle images).map (Row.entry platform)).find? (fun e => e.image = r.image) =
      some (r.entry platform) := find?_image h.sorted_entries (List.mem_map_of_mem hr)
  have hmode : platform_mode r = lit "single-platform" ↔ r.platforms = .single_platform := by
    unfold platform_mode
    cases r.platforms <;> decide
  unfold row_problem
  rw [hfind]
  simp only [Row.entry, ne_eq, not_true_eq_false, if_false]
  by_cases hsingle : r.platforms = .single_platform
  · rw [if_pos (hmode.mpr hsingle)]
    simp only [Option.map_eq_none_iff, hsingle, true_implies]
    exact config_platform_problem_eq_none_iff h.wellFormed
  · rw [if_neg (mt hmode.mp hsingle)]
    simp [hsingle]

theorem SaveRun.directory_eq (h : SaveRun bundle args images platform written) {name : Str} :
    name ∈ ((rowsOf bundle images).map (Row.entry platform)).map Entry.directory ↔
      ∃ img ∈ images, name = layout_name img := by
  have hdirectory : ∀ r ∈ rowsOf bundle images, (r.entry platform).directory = layout_name r.image := by
    intro r hr
    obtain ⟨-, desc, hof⟩ := exists_of_mem_rows hr
    show ((r.layout.dropWhile (· ≠ 47)).drop 1) = _
    rw [hof.layout]
    rfl
  constructor
  · intro hname
    obtain ⟨e, he, rfl⟩ := List.mem_map.mp hname
    obtain ⟨r, hr, rfl⟩ := List.mem_map.mp he
    exact ⟨r.image, mem_sortedSet.mp (exists_of_mem_rows hr).1, hdirectory r hr⟩
  · rintro ⟨img, himg, rfl⟩
    have hmem := mem_sortedSet.mpr himg
    rw [← h.map_image] at hmem
    obtain ⟨r, hr, rfl⟩ := List.mem_map.mp hmem
    exact List.mem_map.mpr ⟨_, List.mem_map_of_mem hr, hdirectory r hr⟩

theorem SaveRun.child_problem_eq_none_iff (h : SaveRun bundle args images platform written) {name : Str} :
    child_problem bundle ((rowsOf bundle images).map (Row.entry platform)) name = none ↔
      (bundle [lit "oci", name]).link = false ∧ (bundle [lit "oci", name]).isDir = true ∧
        ∃ img ∈ images, name = layout_name img := by
  unfold child_problem
  simp only [h.directory_eq]
  by_cases hlink : (bundle [lit "oci", name]).link = true
  · simp [hlink]
  by_cases hdir : (bundle [lit "oci", name]).isDir = false
  · simp [hdir]
  · by_cases hnamed : ∃ img ∈ images, name = layout_name img
    · simp [hlink, hdir, hnamed]
    · simp [hlink, hdir, hnamed]

/-- No two images share a directory when their layouts are written once each. -/
theorem SaveRun.nodup_layout_iff (h : SaveRun bundle args images platform written) :
    ((rowsOf bundle images).map Row.layout).Nodup ↔
      ∀ img ∈ images, ∀ other ∈ images, layout_name img = layout_name other → img = other := by
  have hlayout : (rowsOf bundle images).map Row.layout = (sortedSet images).map fun img => lit "oci/" ++ layout_name img := by
    rw [← h.map_image, List.map_map]
    apply List.map_congr_left
    intro r hr
    obtain ⟨-, desc, hof⟩ := exists_of_mem_rows hr
    exact hof.layout
  rw [hlayout, List.nodup_map_iff_inj_on (sortedSet_sortedLT images).nodup]
  simp only [mem_sortedSet, List.append_cancel_left_eq]

/-- The gate on its own output, where `oci/` is no link: it passes the bundle exactly when `oci/` holds the
    layouts of the recorded images and nothing else, and the record is acceptable. -/
theorem saved_gate_iff (hsave : main bundle args = ⟨0, some written⟩) (hoci : (bundle [lit "oci"]).link = false) :
    ∃ images platform, args.listed = some images ∧ args.platform = some platform ∧
      (rowsOf bundle images).map Row.image = sortedSet images ∧
      write_inventory (rowsOf bundle images) platform args.tool.text = some written ∧
      ((main bundle (args.verifying written)).exit = 0 ↔
        OnlyLayouts bundle images ∧ Acceptable bundle images platform args.tool.text written) := by
  obtain ⟨images, platform, h⟩ := main_save hsave
  refine ⟨images, platform, h.listed, h.named, h.map_image, h.written, ?_⟩
  have hrows : (∀ r ∈ rowsOf bundle images, row_problem bundle ((rowsOf bundle images).map (Row.entry platform)) r = none) ↔
      ∀ img ∈ images, ∀ r, verify_image bundle img = some r → r.platforms = .single_platform →
        r.NamesPlatform bundle platform := by
    constructor
    · intro hall img himg r hr
      have hmem : r ∈ rowsOf bundle images := List.mem_filterMap.mpr ⟨img, mem_sortedSet.mpr himg, hr⟩
      exact (h.row_problem_eq_none_iff hmem).mp (hall r hmem)
    · intro hall r hr
      obtain ⟨img, himg, hverify⟩ := List.mem_filterMap.mp hr
      exact (h.row_problem_eq_none_iff hr).mpr (hall img (mem_sortedSet.mp himg) r hverify)
  have hchildren : ((children bundle).insertionSort (· ≤ ·)).filterMap
      (child_problem bundle ((rowsOf bundle images).map (Row.entry platform))) = [] ↔ OnlyLayouts bundle images := by
    rw [List.filterMap_eq_nil_iff]
    simp only [List.mem_insertionSort, h.child_problem_eq_none_iff]
    rfl
  rw [h.verify_exit_iff, Reloads, h.nodup_layout_iff, check_inventory, if_neg (by simp [hoci]), List.append_eq_nil_iff,
    List.filterMap_eq_nil_iff, hrows, hchildren]
  constructor
  · rintro ⟨⟨hsize, htool, hlayouts⟩, hplatform, honly⟩
    exact ⟨honly, hsize, htool, hlayouts, hplatform⟩
  · rintro ⟨honly, haccept⟩
    exact ⟨⟨haccept.size, haccept.tool, haccept.layouts⟩, haccept.platform, honly⟩

end

theorem saved_gate_sample : ∃ written images platform,
    main sampleBundle (sampleArgs (lit "linux/amd64")) = ⟨0, some written⟩ ∧
      (sampleArgs (lit "linux/amd64")).listed = some images ∧ (sampleArgs (lit "linux/amd64")).platform = some platform ∧
      (rowsOf sampleBundle images).map Row.image = sortedSet images ∧
      write_inventory (rowsOf sampleBundle images) platform (lit "unknown") = some written ∧
      ((main sampleBundle ((sampleArgs (lit "linux/amd64")).verifying written)).exit = 0 ↔
        OnlyLayouts sampleBundle images ∧ Acceptable sampleBundle images platform (lit "unknown") written) := by
  obtain ⟨written, hrun⟩ := saveRun_sample (lit "linux/amd64") (by decide)
  have hsave := hrun.main_eq rfl rfl
  obtain ⟨images, platform, hgate⟩ := saved_gate_iff hsave (by decide)
  exact ⟨written, images, platform, hsave, hgate⟩

/-- A bundle is saved under the platform of the command line, and refused when its config names another. -/
theorem other_platform_refused : ∃ written,
    main sampleBundle (sampleArgs (lit "linux/arm64")) = ⟨0, some written⟩ ∧
      (sampleArgs (lit "linux/arm64")).listed = some [lit "a"] ∧ OnlyLayouts sampleBundle [lit "a"] ∧
      (main sampleBundle ((sampleArgs (lit "linux/arm64")).verifying written)).exit ≠ 0 := by
  obtain ⟨written, hrun⟩ := saveRun_sample (lit "linux/arm64") (by decide)
  have honly : OnlyLayouts sampleBundle [lit "a"] := by
    intro name hname
    have hchildren : children sampleBundle = [lit "a"] := by decide
    rw [hchildren] at hname
    rw [List.mem_singleton.mp hname]
    exact ⟨by decide, by decide, lit "a", List.mem_cons_self, by decide⟩
  refine ⟨written, hrun.main_eq rfl rfl, hrun.listed, honly, ?_⟩
  rw [Ne, hrun.verify_exit_iff, rowsOf_sample]
  rintro ⟨-, hchecked⟩
  have hproblem : row_problem sampleBundle [sampleRow.entry (lit "linux/arm64")] sampleRow ≠ none := by decide +kernel
  exact hproblem (List.filterMap_eq_nil_iff.mp (List.append_eq_nil_iff.mp hchecked).1 sampleRow List.mem_cons_self)

end narwhal.oci_layout
