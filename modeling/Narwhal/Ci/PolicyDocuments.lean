import Narwhal.Ci.PolicyBodies
import Narwhal.Lib.Fold

open pylib

namespace narwhal.permissive_ingress_isolation

variable {alnum : Nat → Bool} {load : Loader} {rel suffix : Str}

/-! ### Chunks -/

/-- A document is among those returned; of a list its items are, and an empty document is not one. -/
def Returned (docs : List Value) : Value → Prop
  | .null => True
  | .dict fields =>
    if isList fields then ∃ items, get (lit "items") fields = some (.list items) ∧ ∀ item ∈ items, item ∈ docs
    else .dict fields ∈ docs
  | _ => False

/-- The body is parsed and all its documents are returned, or it is skipped as templated, which has
    been warned about, and declares no PeerAuthentication. -/
def Handled (alnum : Nat → Bool) (load : Loader) (rel suffix : Str) (WARNED : List Str) (s : Scan) (chunk : Str) : Prop :=
  (isTemplated suffix chunk = false ∧ ∃ loaded, load (suffix == lit ".json") chunk = .ok loaded ∧
    ∀ doc ∈ loaded, Returned s.docs doc) ∨
  (isTemplated suffix chunk = true ∧ search (PA_RE alnum) (strip chunk) = false ∧
    (warning rel ∈ s.printed ∨ rel ∈ WARNED))

/-- The body cannot be scanned. -/
def Refused (alnum : Nat → Bool) (load : Loader) (rel suffix chunk : Str) : Prop :=
  (isTemplated suffix chunk = true ∧ search (PA_RE alnum) (strip chunk) = true) ∨
  (isTemplated suffix chunk = false ∧ ∀ loaded docs, load (suffix == lit ".json") chunk = .ok loaded →
    collect rel loaded ≠ .ok docs)

/-- Documents and warnings are only added, and what is warned about now was printed. -/
structure Scan.Extends (s t : Scan) (rel : Str) : Prop where
  docs : s.docs ⊆ t.docs
  printed : s.printed ⊆ t.printed
  warned : rel ∈ t.WARNED → warning rel ∈ t.printed ∨ rel ∈ s.WARNED

/-- A scan that goes on twice goes on. -/
theorem Scan.Extends.trans {s t u : Scan} (hst : s.Extends t rel) (htu : t.Extends u rel) : s.Extends u rel where
  docs := List.Subset.trans hst.docs htu.docs
  printed := List.Subset.trans hst.printed htu.printed
  warned h := by
    obtain h | h := htu.warned h
    · exact .inl h
    · exact (hst.warned h).imp_left fun h => htu.printed h

/-- What was returned stays returned, -/
theorem Returned.mono {docs docs' : List Value} (hsub : docs ⊆ docs') {doc : Value} (h : Returned docs doc) :
    Returned docs' doc := by
  cases doc with
  | dict fields =>
    simp only [Returned] at h ⊢
    split_ifs at h ⊢
    · obtain ⟨items, hitems, hmem⟩ := h
      exact ⟨items, hitems, fun item hitem => hsub (hmem item hitem)⟩
    · exact hsub h
  | _ => exact h

/-- and what was handled stays handled. -/
theorem Handled.mono {WARNED : List Str} {s t : Scan} (hext : s.Extends t rel) {chunk : Str}
    (h : Handled alnum load rel suffix WARNED s chunk) : Handled alnum load rel suffix WARNED t chunk :=
  h.imp (fun ⟨hplain, loaded, hload, hdocs⟩ => ⟨hplain, loaded, hload, fun doc hdoc => (hdocs doc hdoc).mono hext.docs⟩)
    fun ⟨htemplated, hpa, hwarned⟩ => ⟨htemplated, hpa, hwarned.imp_left fun h => hext.printed h⟩

/-- `collect` returns every document that it was given. -/
theorem returned_of_collect {loaded docs : List Value} (h : collect rel loaded = .ok docs) :
    ∀ doc ∈ loaded, Returned docs doc := by
  induction loaded generalizing docs with
  | nil => exact fun doc hdoc => nomatch hdoc
  | cons doc loaded ih =>
    rw [List.forall_mem_cons]
    cases doc with
    | null => exact ⟨trivial, ih h⟩
    | dict fields =>
      unfold collect at h
      split_ifs at h with hlist
      · split at h
        next items hitems =>
          obtain ⟨more, hmore, h⟩ := bind_ok_iff.mp h
          obtain rfl := Except.ok.inj h
          refine ⟨?_, fun doc hdoc => (ih hmore doc hdoc).mono (List.subset_append_right _ _)⟩
          rw [Returned, if_pos hlist]
          exact ⟨items, hitems, fun item hitem => List.mem_append_left _ hitem⟩
        next => cases h
      · obtain ⟨more, hmore, h⟩ := bind_ok_iff.mp h
        obtain rfl := Except.ok.inj h
        refine ⟨?_, fun doc hdoc => (ih hmore doc hdoc).mono (List.subset_cons_self _ _)⟩
        rw [Returned, if_neg hlist]
        exact List.mem_cons_self
    | _ => cases h

/-- A declaration is one of a PeerAuthentication or of a network policy. -/
theorem search_kind (s : Str) : search (KIND_RE alnum) s = (search (PA_RE alnum) s || search (NP_RE alnum) s) := by
  have hmatch : ∀ t, (KIND_RE alnum t).isSome = ((PA_RE alnum t).isSome || (NP_RE alnum t).isSome) := by
    intro t
    rw [Bool.eq_iff_iff, Bool.or_eq_true]
    unfold KIND_RE PA_RE NP_RE
    rw [isSome_matchKind_iff, isSome_matchKind_iff, isSome_matchKind_iff, ← exists_or]
    refine exists_congr fun rest => ?_
    rw [Bool.or_eq_true, and_or_left]
  simp only [search, hmatch]
  induction s.tails with
  | nil => rfl
  | cons t ts ih => simp only [List.any_cons, ih]; ac_rfl

/-- A chunk that is scanned is handled, and nothing found before is lost. -/
theorem handled_of_scanChunk {s t : Scan} {chunk : Str} (hkind : search (KIND_RE alnum) (strip chunk) = true)
    (h : scanChunk alnum load rel suffix s chunk = .ok t) :
    s.Extends t rel ∧ Handled alnum load rel suffix s.WARNED t chunk := by
  unfold scanChunk at h
  split_ifs at h with htemplated hpa hwarn
  · obtain rfl := Except.ok.inj h
    have hprinted : warning rel ∈ s.printed ++ [warning rel] := List.mem_append_right _ List.mem_cons_self
    exact ⟨⟨List.Subset.refl _, List.subset_append_left _ _, fun _ => .inl hprinted⟩,
      .inr ⟨htemplated, Bool.eq_false_iff.mpr hpa, .inl hprinted⟩⟩
  · obtain rfl := Except.ok.inj h
    refine ⟨⟨List.Subset.refl _, List.Subset.refl _, .inr⟩, .inr ⟨htemplated, Bool.eq_false_iff.mpr hpa, .inr ?_⟩⟩
    rw [search_kind, Bool.eq_false_iff.mpr hpa, Bool.false_or] at hkind
    by_contra hrel
    exact hwarn ⟨hkind, hrel⟩
  · split at h
    · cases h
    next loaded hload =>
      obtain ⟨docs, hdocs, h⟩ := bind_ok_iff.mp h
      obtain rfl := Except.ok.inj h
      refine ⟨⟨List.subset_append_left _ _, List.Subset.refl _, .inr⟩,
        .inl ⟨Bool.eq_false_iff.mpr htemplated, loaded, hload, fun doc hdoc => ?_⟩⟩
      exact (returned_of_collect hdocs doc hdoc).mono (List.subset_append_right _ _)

/-- Only a refused chunk stops the scan, -/
theorem exists_scanChunk_of_not_refused {chunk : Str} (h : ¬ Refused alnum load rel suffix chunk) (s : Scan) :
    ∃ t, scanChunk alnum load rel suffix s chunk = .ok t := by
  unfold scanChunk
  split_ifs with htemplated hpa
  · exact absurd (.inl ⟨htemplated, hpa⟩) h
  · exact ⟨_, rfl⟩
  · exact ⟨_, rfl⟩
  · have hplain : isTemplated suffix chunk = false := Bool.eq_false_iff.mpr htemplated
    by_contra hnone
    refine h (.inr ⟨hplain, fun loaded docs hload hdocs => hnone ?_⟩)
    rw [hload]
    exact ⟨_, bind_ok_iff.mpr ⟨docs, hdocs, rfl⟩⟩

/-- and each of them does. -/
theorem not_refused_of_scanChunk {s t : Scan} {chunk : Str} (h : scanChunk alnum load rel suffix s chunk = .ok t) :
    ¬ Refused alnum load rel suffix chunk := by
  unfold scanChunk at h
  rintro (⟨htemplated, hpa⟩ | ⟨hplain, hcollect⟩)
  · rw [if_pos htemplated, if_pos hpa] at h
    cases h
  · rw [if_neg (by simp [hplain])] at h
    split at h
    · cases h
    next loaded hload =>
      obtain ⟨docs, hdocs, -⟩ := bind_ok_iff.mp h
      exact hcollect loaded docs hload hdocs

section

variable {chunks : List Str} {s t : Scan}

/-- A scan that ends has handled every chunk. -/
theorem handled_of_foldlM (hkind : ∀ chunk ∈ chunks, search (KIND_RE alnum) (strip chunk) = true)
    (h : chunks.foldlM (scanChunk alnum load rel suffix) s = .ok t) :
    s.Extends t rel ∧ ∀ chunk ∈ chunks, Handled alnum load rel suffix s.WARNED t chunk := by
  induction chunks generalizing s with
  | nil =>
    obtain rfl := Except.ok.inj h
    exact ⟨⟨List.Subset.refl _, List.Subset.refl _, .inr⟩, by simp⟩
  | cons chunk chunks ih =>
    obtain ⟨u, hu, hrest⟩ := foldlM_cons_ok_iff.mp h
    obtain ⟨hchunk, hchunks⟩ := List.forall_mem_cons.mp hkind
    obtain ⟨hext, hhandled⟩ := handled_of_scanChunk hchunk hu
    obtain ⟨hext', hothers⟩ := ih hchunks hrest
    refine ⟨hext.trans hext', List.forall_mem_cons.mpr ⟨hhandled.mono hext', fun other hother => ?_⟩⟩
    refine (hothers other hother).imp_right fun ⟨htemplated, hpa, hwarned⟩ => ⟨htemplated, hpa, ?_⟩
    exact hwarned.elim .inl fun hrel => (hext.warned hrel).imp_left fun hprinted => hext'.printed hprinted

/-- It ends exactly if no chunk is refused. -/
theorem exists_foldlM_iff : (∃ t, chunks.foldlM (scanChunk alnum load rel suffix) s = .ok t) ↔
    ∀ chunk ∈ chunks, ¬ Refused alnum load rel suffix chunk := by
  induction chunks generalizing s with
  | nil => simp [pure, Except.pure]
  | cons chunk chunks ih =>
    rw [List.forall_mem_cons]
    constructor
    · rintro ⟨t, h⟩
      obtain ⟨u, hu, hrest⟩ := foldlM_cons_ok_iff.mp h
      exact ⟨not_refused_of_scanChunk hu, ih.mp ⟨t, hrest⟩⟩
    · rintro ⟨hchunk, hchunks⟩
      obtain ⟨u, hu⟩ := exists_scanChunk_of_not_refused hchunk s
      obtain ⟨t, ht⟩ := ih.mpr hchunks
      exact ⟨t, foldlM_cons_ok_iff.mpr ⟨u, hu, ht⟩⟩

end

/-! ### Scripts -/

section

variable {WARNED : List Str} {text : Str}

/-- The bodies that declare a policy. -/
def chunks (alnum : Nat → Bool) (text : Str) : List Str :=
  ((heredocs alnum text).map Prod.snd).filter fun body => search (KIND_RE alnum) (strip body)

/-- The chunks are the bodies of heredocs in which a kind is found. -/
theorem mem_chunks_iff {chunk : Str} : chunk ∈ chunks alnum text ↔
    ∃ span ∈ spans alnum text, span.body text = chunk ∧ search (KIND_RE alnum) (strip chunk) = true := by
  rw [chunks, heredocs, List.map_map, List.mem_filter, List.mem_map]
  simp only [Function.comp, exists_and_right, ← and_assoc]

/-- `documents` for a shell script. -/
theorem documents_sh : documents alnum load rel (lit ".sh") WARNED text =
    if ¬ search (KIND_RE alnum) (strip text) then .ok ⟨[], WARNED, []⟩
    else if search (KIND_RE alnum) (strip (outside alnum text)) then
      .error (rel ++ lit ": declares a policy outside a heredoc (cannot be scanned)")
    else (chunks alnum text).foldlM (scanChunk alnum load rel (lit ".sh")) ⟨[], WARNED, []⟩ := by
  rw [documents, if_pos (c := lit ".sh" = lit ".sh") rfl]
  rfl

/-- A script with a declaration is not passed over. -/
theorem search_strip_of_declaration {found : List (Nat × Nat)} (h : Declaration alnum text found) :
    search (KIND_RE alnum) (strip text) = true := by
  obtain ⟨before, after, hmarked, hmatch⟩ := h
  rw [← chars_keptLines, hmarked, chars_append]
  exact search_append_left _ (search_of_isSome (by rw [hmatch]; rfl))

/-- What a scan of a script must do: no declaration is outside the bodies, and each body with a
    declaration is handled. -/
def Complete (alnum : Nat → Bool) (load : Loader) (rel : Str) (WARNED : List Str) (text : Str) (s : Scan) : Prop :=
  Covered alnum text ∧ ∀ span ∈ spans alnum text, (∃ found, Declaration alnum text found ∧ Inside span found) →
    Handled alnum load rel (lit ".sh") WARNED s (span.body text)

/-- A declaration inside a heredoc is handled with its body. -/
theorem handled_of_documents {s : Scan} (h : documents alnum load rel (lit ".sh") WARNED text = .ok s) {span : Span}
    (hspan : span ∈ spans alnum text) {found : List (Nat × Nat)} (hfound : Declaration alnum text found)
    (hinside : Inside span found) : Handled alnum load rel (lit ".sh") WARNED s (span.body text) := by
  rw [documents_sh, if_neg (by simp [search_strip_of_declaration hfound])] at h
  split_ifs at h
  have hkind : ∀ chunk ∈ chunks alnum text, search (KIND_RE alnum) (strip chunk) = true :=
    fun chunk hchunk => (List.mem_filter.mp hchunk).2
  exact (handled_of_foldlM hkind h).2 _ (mem_chunks_iff.mpr ⟨span, hspan, rfl, search_body_of_inside hfound hinside⟩)

/-- Nothing is missed exactly if all declarations are covered, or the scan stops with an error. -/
theorem documents_complete_iff : (∀ s, documents alnum load rel (lit ".sh") WARNED text = .ok s →
      Complete alnum load rel WARNED text s) ↔
    Covered alnum text ∨ search (KIND_RE alnum) (strip (outside alnum text)) = true ∨
      ∃ span ∈ spans alnum text, search (KIND_RE alnum) (strip (span.body text)) = true ∧
        Refused alnum load rel (lit ".sh") (span.body text) := by
  constructor
  · intro hcomplete
    by_contra hnot
    obtain ⟨hcovered, houtside, hrefused⟩ : ¬ Covered alnum text ∧
        ¬ search (KIND_RE alnum) (strip (outside alnum text)) = true ∧ ∀ span ∈ spans alnum text,
          search (KIND_RE alnum) (strip (span.body text)) = true → ¬ Refused alnum load rel (lit ".sh") (span.body text) := by
      simpa only [not_or, not_exists, not_and] using hnot
    have hchunks : ∀ chunk ∈ chunks alnum text, ¬ Refused alnum load rel (lit ".sh") chunk := by
      intro chunk hchunk
      obtain ⟨span, hspan, rfl, hkind⟩ := mem_chunks_iff.mp hchunk
      exact hrefused span hspan hkind
    obtain ⟨s, hs⟩ : ∃ s, documents alnum load rel (lit ".sh") WARNED text = .ok s := by
      rw [documents_sh]
      split_ifs
      · exact exists_foldlM_iff.mpr hchunks
      · exact ⟨_, rfl⟩
    exact hcovered (hcomplete s hs).1
  · intro h s hs
    refine ⟨fun found hfound => ?_,
      fun span hspan ⟨found, hfound, hinside⟩ => handled_of_documents hs hspan hfound hinside⟩
    obtain hcovered | houtside | ⟨span, hspan, hkind, hrefused⟩ := h
    · exact hcovered found hfound
    · rw [documents_sh, if_neg (by simp [search_strip_of_declaration hfound]), if_pos houtside] at hs
      cases hs
    · rw [documents_sh, if_neg (by simp [search_strip_of_declaration hfound])] at hs
      split_ifs at hs
      exact absurd hrefused (exists_foldlM_iff.mp ⟨s, hs⟩ _ (mem_chunks_iff.mpr ⟨span, hspan, rfl, hkind⟩))

end

end narwhal.permissive_ingress_isolation
