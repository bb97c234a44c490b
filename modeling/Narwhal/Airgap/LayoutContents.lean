import Mathlib.Data.Set.Function
import Narwhal.Airgap.OciLayout

open pylib

namespace narwhal.oci_layout

/-! ### What a descriptor leads to -/

structure Blob where
  digest : Str
  content : Bytes
deriving DecidableEq, Repr

/-- The manifests, indexes and configs a descriptor leads to, in the order of the references, and the
    layers of its manifests. -/
structure Contents where
  blobs : List Blob
  layers : List Descriptor
deriving DecidableEq, Repr

section

variable (bundle : Bundle) (layout : Path)

/-- The file a descriptor names, with whatever bytes it has. -/
def blobOf (desc : Json) : Option Blob :=
  (descriptor desc).bind fun d => (regular (bundle (d.path layout))).map (Blob.mk d.digest)

/-- The contents of an image, as far as indexes may be nested. -/
def contents : Nat → Json → Option Contents
  | 0, _ => none
  | remaining + 1, desc =>
    match blobOf bundle layout desc with
    | none => none
    | some blob =>
      match parse_json false blob.content with
      | none => none
      | some doc =>
        if isIndex desc then
          match listField "manifests" doc with
          | none => none
          | some children =>
            (children.mapM (contents remaining)).map fun parts =>
              ⟨blob :: parts.flatMap Contents.blobs, parts.flatMap Contents.layers⟩
        else
          match (field "config" doc).bind (blobOf bundle layout), listField "layers" doc with
          | some config, some layers => (layers.mapM descriptor).map (Contents.mk [blob, config])
          | _, _ => none

/-- The layer is there, with its size. -/
def HasLayer (layer : Descriptor) : Prop :=
  ∃ content, regular (bundle (layer.path layout)) = some content ∧ content.length = layer.size

/-- The content of the blobs of the layouts of a bundle. -/
def blobsOf : Set Bytes :=
  {content | ∃ layout hex, regular (bundle (layout ++ [lit "blobs", lit "sha256", hex])) = some content}

/-- A descriptor that passes its checks, with what it names. -/
structure Checked (desc : Json) (d : Descriptor) (content : Bytes) : Prop where
  descriptor : descriptor desc = some d
  regular : regular (bundle (d.path layout)) = some content
  size : content.length = d.size
  digest : sha256_hexdigest content = d.digest.drop 7

end

section Checks

variable {bundle : Bundle} {layout : Path}

theorem Checked.blobOf_eq {desc : Json} {d : Descriptor} {content : Bytes} (h : Checked bundle layout desc d content) :
    blobOf bundle layout desc = some ⟨d.digest, content⟩ := by
  simp [blobOf, h.descriptor, h.regular]

theorem Checked.mem_blobsOf {desc : Json} {d : Descriptor} {content : Bytes} (h : Checked bundle layout desc d content) :
    content ∈ blobsOf bundle := ⟨layout, d.digest.drop 7, h.regular⟩

theorem check_descriptor_hashed {desc : Json} {path : Path} {content : Bytes}
    (h : check_descriptor bundle layout (some desc) true = some (path, content)) :
    ∃ d, Checked bundle layout desc d content ∧ path = d.path layout := by
  unfold check_descriptor at h
  split at h
  · cases h
  next d hd =>
  split at h
  · cases h
  next found hfound =>
  split at h
  · cases h
  next hsize =>
  split at h
  · cases h
  next hdigest =>
  cases h
  refine ⟨d, ⟨hd, hfound, ?_, ?_⟩, rfl⟩
  · exact not_not.mp hsize
  · simpa using hdigest

theorem check_descriptor_layer {desc : Json} (h : (check_descriptor bundle layout (some desc) false).isSome = true) :
    ∃ d, descriptor desc = some d ∧ HasLayer bundle layout d := by
  unfold check_descriptor at h
  split at h
  · cases h
  next d hd =>
  split at h
  · cases h
  next found hfound =>
  split at h
  · cases h
  next hsize => exact ⟨d, hd, found, hfound, not_not.mp hsize⟩

theorem strField_digest {desc : Json} {d : Descriptor} (h : descriptor desc = some d) :
    strField "digest" desc = some d.digest := by
  unfold descriptor at h
  split at h
  · next digest size hdigest _ =>
    split at h
    · cases h
      exact hdigest
    · cases h
  · cases h

theorem isDigest_of_descriptor {desc : Json} {d : Descriptor} (h : descriptor desc = some d) : isDigest d.digest = true := by
  unfold descriptor at h
  split at h
  · split at h
    · next hdigest =>
      cases h
      exact hdigest
    · cases h
  · cases h

/-! ### What `walk` has checked -/

theorem exists_of_mem_foldlM {σ α : Type} {f : σ → α → Option σ} {xs : List α} {s t : σ}
    (h : xs.foldlM f s = some t) : ∀ x ∈ xs, ∃ s t, f s x = some t := by
  induction xs generalizing s with
  | nil => exact fun x hx => nomatch hx
  | cons y xs ih =>
    rw [List.foldlM_cons] at h
    obtain ⟨next, hnext, hrest⟩ := Option.bind_eq_some_iff.mp h
    intro x hx
    cases List.mem_cons.mp hx with
    | inl hxy => exact ⟨s, next, hxy ▸ hnext⟩
    | inr hmem => exact ih hrest x hmem

/-- A descriptor is walked through with the depth that remains. -/
def Walked (bundle : Bundle) (layout : Path) (remaining : Nat) (desc : Json) : Prop :=
  ∃ stats out, walk bundle layout remaining desc stats = some out

theorem not_walked_zero {desc : Json} : ¬ Walked bundle layout 0 desc := by
  rintro ⟨stats, out, h⟩
  cases h

/-- What a descriptor has to be to be walked through. -/
theorem Walked.cases {remaining : Nat} {desc : Json} (h : Walked bundle layout (remaining + 1) desc) :
    ∃ d content doc, Checked bundle layout desc d content ∧ parse_json false content = some doc ∧
      ((isIndex desc = true ∧ ∃ children, listField "manifests" doc = some children ∧
        ∀ child ∈ children, Walked bundle layout remaining child) ∨
      (isIndex desc = false ∧ ∃ config dc bytes layers, field "config" doc = some config ∧
        Checked bundle layout config dc bytes ∧ listField "layers" doc = some layers ∧
        ∀ layer ∈ layers, ∃ d, descriptor layer = some d ∧ HasLayer bundle layout d)) := by
  obtain ⟨stats, out, h⟩ := h
  unfold walk at h
  split at h
  · cases h
  next media hmedia =>
  split at h
  · cases h
  split at h
  · cases h
  next path content hcheck =>
  obtain ⟨d, hchecked, rfl⟩ := check_descriptor_hashed hcheck
  split at h
  case h_2 => cases h
  next fields hdoc =>
  refine ⟨d, content, .obj fields, hchecked, hdoc, ?_⟩
  dsimp only at h
  split at h
  · next hindex =>
    left
    refine ⟨by simp [isIndex, hmedia, hindex], ?_⟩
    split at h
    · cases h
    · cases h
    · next children _ hchildren =>
      refine ⟨children, hchildren, ?_⟩
      intro child hchild
      obtain ⟨s, t, hstep⟩ := exists_of_mem_foldlM h child hchild
      exact ⟨_, t, hstep⟩
  · next hindex =>
    right
    refine ⟨by simp [isIndex, hmedia, hindex], ?_⟩
    split at h
    · next cfg_blob bytes layers hconfig hlayers =>
      split at h
      · next hpresent =>
        cases hfield : field "config" (.obj fields) with
        | none =>
          rw [hfield] at hconfig
          cases hconfig
        | some config =>
          rw [hfield] at hconfig
          obtain ⟨dc, hcfg, -⟩ := check_descriptor_hashed hconfig
          refine ⟨config, dc, bytes, layers, rfl, hcfg, hlayers, ?_⟩
          intro layer hlayer
          exact check_descriptor_layer (List.all_eq_true.mp hpresent layer hlayer)
      · cases h
    · cases h

end Checks

/-! ### Two bundles with the same top -/

theorem mapM_eq_some {α β : Type} {f g : α → Option β} {p : β → Prop} {xs : List α}
    (h : ∀ x ∈ xs, ∃ y, f x = some y ∧ g x = some y ∧ p y) :
    ∃ ys, xs.mapM f = some ys ∧ xs.mapM g = some ys ∧ ∀ y ∈ ys, p y := by
  induction xs with
  | nil => exact ⟨[], rfl, rfl, fun y hy => nomatch hy⟩
  | cons x xs ih =>
    obtain ⟨y, hf, hg, hy⟩ := h x List.mem_cons_self
    obtain ⟨ys, hfs, hgs, hys⟩ := ih fun z hz => h z (List.mem_cons_of_mem x hz)
    refine ⟨y :: ys, ?_, ?_, ?_⟩
    · simp [List.mapM_cons, hf, hfs]
    · simp [List.mapM_cons, hg, hgs]
    · exact List.forall_mem_cons.mpr ⟨hy, hys⟩

section Two

variable {bundle bundle' : Bundle} {layout layout' : Path}

/-- Descriptors of one digest name the same bytes. -/
theorem Checked.content_eq (hinj : Set.InjOn sha256_hexdigest (blobsOf bundle ∪ blobsOf bundle')) {desc desc' : Json}
    {d d' : Descriptor} {content content' : Bytes} (h : Checked bundle layout desc d content)
    (h' : Checked bundle' layout' desc' d' content') (hdigest : d.digest = d'.digest) : content = content' := by
  apply hinj (Or.inl h.mem_blobsOf) (Or.inr h'.mem_blobsOf)
  rw [h.digest, h'.digest, hdigest]

/-- Descriptors of one digest and kind that are walked through lead to the same contents. -/
theorem contents_eq_of_walked (hinj : Set.InjOn sha256_hexdigest (blobsOf bundle ∪ blobsOf bundle'))
    {remaining : Nat} {desc desc' : Json} (h : Walked bundle layout remaining desc)
    (h' : Walked bundle' layout' remaining desc') (hdigest : strField "digest" desc = strField "digest" desc')
    (hindex : isIndex desc = isIndex desc') :
    ∃ c, contents bundle layout remaining desc = some c ∧ contents bundle' layout' remaining desc' = some c ∧
      ∀ layer ∈ c.layers, HasLayer bundle' layout' layer := by
  induction remaining generalizing desc desc' with
  | zero => exact (not_walked_zero h).elim
  | succ remaining ih =>
    obtain ⟨d, content, doc, hchecked, hdoc, hrest⟩ := h.cases
    obtain ⟨d', content', doc', hchecked', hdoc', hrest'⟩ := h'.cases
    have hsame : d.digest = d'.digest := by
      rw [strField_digest hchecked.descriptor, strField_digest hchecked'.descriptor] at hdigest
      exact Option.some.inj hdigest
    obtain rfl := hchecked.content_eq hinj hchecked' hsame
    obtain rfl : doc = doc' := Option.some.inj (hdoc.symm.trans hdoc')
    unfold contents
    simp only [hchecked.blobOf_eq, hchecked'.blobOf_eq, hdoc, ← hsame]
    rcases hrest with ⟨hkind, children, hchildren, hwalked⟩ | ⟨hkind, config, dc, bytes, layers, hconfig, hcfg, hlayers, -⟩
    · rcases hrest' with ⟨-, children', hchildren', hwalked'⟩ | ⟨hkind', -⟩
      · obtain rfl : children = children' := Option.some.inj (hchildren.symm.trans hchildren')
        obtain ⟨parts, hparts, hparts', hlayers⟩ := mapM_eq_some fun child hchild =>
          ih (hwalked child hchild) (hwalked' child hchild) rfl rfl
        refine ⟨⟨⟨d.digest, content⟩ :: parts.flatMap Contents.blobs, parts.flatMap Contents.layers⟩, ?_, ?_, ?_⟩
        · simp [hkind, hchildren, hparts]
        · simp [← hindex, hkind, hchildren, hparts']
        · intro layer hlayer
          obtain ⟨part, hpart, hmem⟩ := List.mem_flatMap.mp hlayer
          exact hlayers part hpart layer hmem
      · rw [← hindex, hkind] at hkind'
        cases hkind'
    · rcases hrest' with ⟨hkind', -⟩ | ⟨-, config', dc', bytes', layers', hconfig', hcfg', hlayers', hpresent'⟩
      · rw [← hindex, hkind] at hkind'
        cases hkind'
      · -- the config and the layers are named by the same document
        obtain rfl : config = config' := Option.some.inj (hconfig.symm.trans hconfig')
        obtain rfl : layers = layers' := Option.some.inj (hlayers.symm.trans hlayers')
        obtain rfl : dc = dc' := Option.some.inj (hcfg.descriptor.symm.trans hcfg'.descriptor)
        obtain rfl := hcfg.content_eq hinj hcfg' rfl
        obtain ⟨ds, hds, -, hhas⟩ := mapM_eq_some (f := descriptor) (g := descriptor) fun layer hlayer =>
          (hpresent' layer hlayer).imp fun d hd => ⟨hd.1, hd.1, hd.2⟩
        refine ⟨⟨[⟨d.digest, content⟩, ⟨dc.digest, bytes⟩], ds⟩, ?_, ?_, hhas⟩
        · simp [hkind, hconfig, hcfg.blobOf_eq, hlayers, hds]
        · simp [← hindex, hkind, hconfig, hcfg'.blobOf_eq, hlayers, hds]

end Two

end narwhal.oci_layout
