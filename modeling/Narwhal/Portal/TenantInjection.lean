import Narwhal.Portal.TenantManifest

open jslib yamllib urllib

namespace narwhal.portal.gitea

/-! ### What a request writes -/

/-- The segments of a path of the repository under the contents API, as Gitea reads them. -/
def WrittenPath (unescape : Unescape) (contents : List Text) (path : Text) (names : List Text) : Prop :=
  ∃ after, segments contents path = contents ++ after ∧ after.mapM unescape.decode = some names

/-- The file of a request is the one in the directory of its team, and its manifest is that of the template. -/
structure AsTemplate (D : TenantDialect) (unescape : Unescape) (contents : List Text) (req : TenantRequest) : Prop where
  path : WrittenPath unescape contents (tenantPath req.team req.ns)
    ["resources".toList, "tenants".toList, req.team, req.ns ++ ".yaml".toList]
  manifest : parse D.toDialect (tenantManifest req.ns req.team req.requestedBy) = some (tenantDocuments req.ns req.team)

/-- The lines that follow the comment because of line breaks in the name of the requester. -/
def commentRest (D : TenantDialect) (requestedBy : Text) : List Text := ((requestedBy ++ ['.']).splitOnP D.isBreak).tail

/-- The team is a segment of a path, a string as a plain scalar on one line, and holds neither a quote nor a backslash; the
    requester is printable and stays within the comment, or is continued by blank lines and comments, with one bare mark at
    most. -/
structure Harmless (D : TenantDialect) (team requestedBy : Text) : Prop where
  segment : isSegment team = true
  plain : isPlain team = true
  string : D.isString team = true
  unquoted : '"' ∉ team ∧ '\\' ∉ team
  line : ∀ c ∈ team, D.isPrintable c = true ∧ D.isBreak c = false
  printable : ∀ c ∈ requestedBy, D.isBreak c = true ∨ D.isPrintable c = true
  comment : ∀ line ∈ commentRest D requestedBy, isBlank line = true ∨ isMarker line = true ∧ isBlank (line.drop 3) = true
  marks : (commentRest D requestedBy).countP isMarker ≤ 1

section

variable {D : TenantDialect} {ns team requestedBy : Text} {e : Entry}

theorem writtenPath_iff (unescape : Unescape) (contents : List Text) (hns : SelfServiceName ns) :
    WrittenPath unescape contents (tenantPath team ns)
      ["resources".toList, "tenants".toList, team, ns ++ ".yaml".toList] ↔ isSegment team = true := by
  have hpath : tenantPath team ns = joined ["resources".toList, "tenants".toList] team (ns ++ ".yaml".toList) := by
    have hassoc : ∀ a b c d e : Text, a ++ b ++ c ++ d ++ e = a ++ (b ++ (c ++ (d ++ e))) := by simp
    exact hassoc _ _ _ _ _
  rw [hpath]
  have hdirectory : ∀ x ∈ ["resources".toList, "tenants".toList], isSegment x = true := by decide
  exact segments_joined_iff unescape (List.forall_mem_cons.mpr ⟨hns.isSegment_yaml, hdirectory⟩) contents team

/-! ### The comment -/

theorem isBlank_requestedThrough (s : Text) : isBlank (requestedThrough ++ s) = true := rfl

/-- The lines before the documents. -/
theorem comments_splitOnP (D : TenantDialect) (requestedBy : Text) : ∃ first,
    [requestedLine requestedBy, generated].flatMap (·.splitOnP D.isBreak) =
      (requestedThrough ++ first) :: (commentRest D requestedBy ++ [generated]) := by
  have hunbroken : ∀ s : Text, s.all isTemplateChar = true → ∀ c ∈ s, D.isBreak c = false := fun s hs c hc =>
    (D.template c (List.all_eq_true.mp hs c hc)).2
  have hthrough : requestedThrough.all isTemplateChar = true := by decide
  have hgenerated : generated.all isTemplateChar = true := by decide
  obtain ⟨rest, hrest⟩ := splitOnP_eq_takeWhile D.isBreak (requestedBy ++ ['.'])
  refine ⟨(requestedBy ++ ['.']).takeWhile fun c => !D.isBreak c, ?_⟩
  rw [List.flatMap_cons, List.flatMap_cons, List.flatMap_nil, requestedLine, List.append_assoc,
    splitOnP_append_left (hunbroken _ hthrough), List.splitOnP_eq_singleton (hunbroken _ hgenerated), commentRest, hrest]
  rfl

theorem contentLines_comments_iff : contentLines ([requestedLine requestedBy, generated].flatMap (·.splitOnP D.isBreak)) = [] ↔
    ∀ line ∈ commentRest D requestedBy, isBlank line = true ∨ isMarker line = true := by
  obtain ⟨first, hfirst⟩ := comments_splitOnP D requestedBy
  have hgenerated : isBlank generated = true := rfl
  rw [hfirst, contentLines, List.filter_cons_of_neg (by rw [isBlank_requestedThrough]; simp), List.filter_append,
    List.append_eq_nil_iff, List.filter_eq_nil_iff, List.filter_cons_of_neg (by rw [hgenerated]; simp)]
  simp [or_iff_not_imp_left]

/-! ### The lines of the template -/

theorem templateChar_of_mem (hns : SelfServiceName ns) (he : e ∈ (tenantEntries ns team).flatten) :
    ∀ c ∈ e.line.text, isTemplateChar c = true ∨ c ∈ team := by
  intro c hc
  rw [Line.text_eq, List.mem_append] at hc
  rcases hc with hc | hc
  · exact .inl (templateChar_start he c hc)
  obtain ⟨line, hline, rfl⟩ := mem_tenantEntries.mp he
  have hfine := (template_fine line hline).2
  have hspace : isTemplateChar ' ' = true := by decide
  have hquote : isTemplateChar '"' = true := by decide
  have hc : c ∈ (line.slot.value ns team).text := hc
  cases hslot : line.slot with
  | none =>
    rw [hslot] at hc
    cases hc
  | plain s =>
    rw [hslot] at hc hfine
    rcases List.mem_cons.mp hc with rfl | hc
    · exact .inl hspace
    · exact .inl (List.all_eq_true.mp hfine.2.1 c hc)
  | quoted s =>
    rw [hslot] at hc hfine
    simp only [Slot.value, Value.text, List.mem_cons, List.mem_append, List.not_mem_nil, or_false] at hc
    rcases hc with rfl | rfl | hc | rfl
    · exact .inl hspace
    · exact .inl hquote
    · exact .inl (List.all_eq_true.mp hfine.1 c hc)
    · exact .inl hquote
  | name =>
    rw [hslot] at hc
    rcases List.mem_cons.mp hc with rfl | hc
    · exact .inl hspace
    · exact .inl (hns.char hc).1
  | quota =>
    have hquota : "-quota".toList.all isTemplateChar = true := by decide
    rw [hslot] at hc
    rcases List.mem_cons.mp hc with rfl | hc
    · exact .inl hspace
    · rcases List.mem_append.mp hc with hc | hc
      · exact .inl (hns.char hc).1
      · exact .inl (List.all_eq_true.mp hquota c hc)
  | team =>
    rw [hslot] at hc
    rcases List.mem_cons.mp hc with rfl | hc
    · exact .inl hspace
    · exact .inr hc
  | group =>
    have hoidc : "oidc:".toList.all isTemplateChar = true := by decide
    rw [hslot] at hc
    simp only [Slot.value, Value.text, List.mem_cons, List.mem_append, List.not_mem_nil, or_false] at hc
    rcases hc with rfl | rfl | (hc | hc) | rfl
    · exact .inl hspace
    · exact .inl hquote
    · exact .inl (List.all_eq_true.mp hoidc c hc)
    · exact .inr hc
    · exact .inl hquote

theorem legible_of_mem (hns : SelfServiceName ns) (hplain : isPlain team = true) (hstring : D.isString team = true)
    (hquoted : '"' ∉ team ∧ '\\' ∉ team) (he : e ∈ (tenantEntries ns team).flatten) : e.value.Legible D.toDialect := by
  obtain ⟨line, hline, rfl⟩ := mem_tenantEntries.mp he
  have hfine := (template_fine line hline).2
  change (line.slot.value ns team).Legible D.toDialect
  cases hslot : line.slot with
  | none => trivial
  | plain s =>
    rw [hslot] at hfine
    exact ⟨hfine.1, D.words s hfine.2.2⟩
  | quoted s =>
    rw [hslot] at hfine
    exact hfine.2
  | name =>
    have hname : isPlain (ns ++ []) = true := hns.isPlain_append rfl
    rw [List.append_nil] at hname
    exact ⟨hname, D.names ns hns.dev⟩
  | quota =>
    refine ⟨hns.isPlain_append (by decide), D.names _ ?_⟩
    exact hns.dev.trans (List.prefix_append ns _)
  | team => exact ⟨hplain, hstring⟩
  | group =>
    have hoidc : '"' ∉ "oidc:".toList ∧ '\\' ∉ "oidc:".toList := by decide
    simp only [Slot.value, Value.Legible, List.mem_append, not_or]
    exact ⟨⟨hoidc.1, hquoted.1⟩, hoidc.2, hquoted.2⟩

/-! ### Reading the manifest back -/

theorem exists_tenantEntries_eq (ns team : Text) : ∃ e doc docs, tenantEntries ns team = (e :: doc) :: docs :=
  ⟨_, _, _, rfl⟩

theorem mem_flatten_of_mem {docs : List (List Entry)} {doc : List Entry} (hdoc : doc ∈ docs) (he : e ∈ doc) :
    e ∈ docs.flatten := List.mem_flatten.mpr ⟨doc, hdoc, he⟩

theorem mem_manifest_cases {c : Char} (hns : SelfServiceName ns) (hc : c ∈ tenantManifest ns team requestedBy) :
    D.isBreak c = true ∨ D.isPrintable c = true ∨ c ∈ team ∨ c ∈ requestedBy := by
  have htemplate : ∀ s : Text, s.all isTemplateChar = true → c ∈ s → D.isPrintable c = true := fun s hs hc =>
    (D.template c (List.all_eq_true.mp hs c hc)).1
  have hthrough : requestedThrough.all isTemplateChar = true := by decide
  have hgenerated : generated.all isTemplateChar = true := by decide
  have hmark : "---".toList.all isTemplateChar = true := by decide
  rw [tenantManifest_eq, unlines, List.mem_flatMap] at hc
  obtain ⟨line, hline, hc⟩ := hc
  rcases List.mem_append.mp hc with hc | hc
  · rcases List.mem_append.mp hline with hline | hline
    · rcases List.mem_pair.mp hline with rfl | rfl
      · simp only [requestedLine, List.mem_append] at hc
        rcases hc with (hc | hc) | hc
        · exact .inr (.inl (htemplate _ hthrough hc))
        · exact .inr (.inr (.inr hc))
        · exact .inr (.inl (htemplate ['.'] (by decide) hc))
      · exact .inr (.inl (htemplate _ hgenerated hc))
    · rcases mem_writeDocuments hline with rfl | ⟨doc, hdoc, line, hline, rfl⟩
      · exact .inr (.inl (htemplate _ hmark hc))
      · obtain ⟨entries, hentries, rfl⟩ := List.mem_map.mp hdoc
        obtain ⟨e, he, rfl⟩ := List.mem_map.mp hline
        rcases templateChar_of_mem hns (mem_flatten_of_mem hentries he) c hc with hc | hc
        · exact .inr (.inl (D.template c hc).1)
        · exact .inr (.inr (.inl hc))
  · rw [List.mem_singleton.mp hc]
    exact .inl D.isBreak_lineFeed

theorem not_isBreak_of_mem (hns : SelfServiceName ns) (hteam : ∀ c ∈ team, D.isBreak c = false)
    (he : e ∈ (tenantEntries ns team).flatten) : ∀ c ∈ e.line.text, D.isBreak c = false := by
  intro c hc
  rcases templateChar_of_mem hns he c hc with hc | hc
  · exact (D.template c hc).2
  · exact hteam c hc

/-- A harmless request writes the documents of the template. -/
theorem parse_tenantManifest (hns : SelfServiceName ns) (h : Harmless D team requestedBy) :
    parse D.toDialect (tenantManifest ns team requestedBy) = some (tenantDocuments ns team) := by
  obtain ⟨first, hfirst⟩ := comments_splitOnP D requestedBy
  obtain ⟨e, doc, docs, hentries⟩ := exists_tenantEntries_eq ns team
  have hmem : ∀ d ∈ (e :: doc) :: docs, ∀ e ∈ d, e ∈ (tenantEntries ns team).flatten := by
    rw [← hentries]
    exact fun d hd e he => mem_flatten_of_mem hd he
  have hprintable : ∀ c ∈ tenantManifest ns team requestedBy, D.isBreak c = true ∨ D.isPrintable c = true := by
    intro c hc
    rcases mem_manifest_cases (D := D) hns hc with hc | hc | hc | hc
    · exact .inl hc
    · exact .inr hc
    · exact .inr (h.line c hc).1
    · exact h.printable c hc
  have hextra : contentLines ([requestedLine requestedBy, generated].flatMap (·.splitOnP D.isBreak)) = [] :=
    contentLines_comments_iff.mpr fun line hline => (h.comment line hline).imp_right And.left
  have hmarker : ∀ s : Text, isBlank s = true → isMarker s = false := fun _ hs => isMarker_of_isBlank hs
  rw [tenantManifest_eq, hentries] at hprintable ⊢
  rw [parse_written D.isBreak_lineFeed (D.template '-' (by decide)).2 hprintable hextra]
  · rw [← hentries]
    exact parseTokens_tenantEntries ns team
  · rw [hfirst]
    intro mark hmark hmarked
    rcases List.mem_cons.mp hmark with rfl | hmark
    · rw [hmarker _ (isBlank_requestedThrough first)] at hmarked
      cases hmarked
    rcases List.mem_append.mp hmark with hmark | hmark
    · rcases h.comment mark hmark with hblank | hbare
      · rw [hmarker _ hblank] at hmarked
        cases hmarked
      · exact hbare.2
    · rw [List.mem_singleton.mp hmark, hmarker _ rfl] at hmarked
      cases hmarked
  · rw [hfirst, List.countP_cons_of_neg (by rw [hmarker _ (isBlank_requestedThrough first)]; simp), List.countP_append,
      List.countP_singleton, hmarker generated rfl]
    exact h.marks
  · exact fun d hd e he => keyed_of_mem (hmem d hd e he)
  · exact fun d hd e he => not_isBreak_of_mem hns (fun c hc => (h.line c hc).2) (hmem d hd e he)
  · exact fun d hd e he => legible_of_mem hns h.plain h.string h.unquoted (hmem d hd e he)

/-- Each line of the template is read as it was meant, up to its first break, and nothing is read of the comment. -/
theorem reads_of_tenantManifest
    (h : parse D.toDialect (tenantManifest ns team requestedBy) = some (tenantDocuments ns team)) :
    contentLines ([requestedLine requestedBy, generated].flatMap (·.splitOnP D.isBreak)) = [] ∧
      ∀ e ∈ (tenantEntries ns team).flatten,
        readScalar D.toDialect (e.line.cut D.toDialect).rest = some e.value.scalar := by
  rw [tenantManifest_eq, writeEntries] at h
  have hflatten : ((tenantEntries ns team).map (·.map Entry.line)).flatten = (tenantEntries ns team).flatten.map Entry.line :=
    List.map_flatten.symm
  obtain ⟨hnone, hreads⟩ := reads_of_parse D.isBreak_lineFeed (D.template '-' (by decide)).2
    (fun line hline => by
      rw [hflatten] at hline
      obtain ⟨e, he, rfl⟩ := List.mem_map.mp hline
      exact writable_of_mem he) h (by rw [pairs_tenantDocuments, hflatten, List.length_map, List.length_map])
  refine ⟨hnone, ?_⟩
  rw [hflatten, pairs_tenantDocuments, List.map_map, List.map_map, List.map_inj_left] at hreads
  intro e he
  obtain ⟨scalar, hscalar, hpair⟩ := Option.map_eq_some_iff.mp (hreads e he)
  rw [hscalar, (Prod.mk.inj hpair).2]

theorem cut_rest_of_not_isBreak {line : Line} {s t : Text} (hrest : line.rest = s ++ t) (hs : ∀ c ∈ s, D.isBreak c = false) :
    (line.cut D.toDialect).rest = s ++ t.takeWhile fun c => !D.isBreak c := by
  change line.rest.takeWhile _ = _
  rw [hrest, List.takeWhile_append_of_pos fun c hc => by simp [hs c hc]]

theorem marks_of_tenantManifest (hns : SelfServiceName ns) (hteam : ∀ c ∈ team, D.isBreak c = false)
    (hnone : contentLines ([requestedLine requestedBy, generated].flatMap (·.splitOnP D.isBreak)) = [])
    (h : parse D.toDialect (tenantManifest ns team requestedBy) = some (tenantDocuments ns team)) :
    (∀ mark ∈ [requestedLine requestedBy, generated].flatMap (·.splitOnP D.isBreak), isMarker mark = true →
        isBlank (mark.drop 3) = true) ∧
      ([requestedLine requestedBy, generated].flatMap (·.splitOnP D.isBreak)).countP isMarker ≤ 1 := by
  obtain ⟨e, doc, docs, hentries⟩ := exists_tenantEntries_eq ns team
  have hmem : ∀ d ∈ ((e :: doc) :: docs).map (·.map Entry.line), ∀ line ∈ d,
      ∃ e ∈ (tenantEntries ns team).flatten, e.line = line := by
    rw [← hentries]
    intro d hd line hline
    obtain ⟨entries, hentries, rfl⟩ := List.mem_map.mp hd
    obtain ⟨e, he, rfl⟩ := List.mem_map.mp hline
    exact ⟨e, mem_flatten_of_mem hentries he, rfl⟩
  have hlength : (tenantDocuments ns team).length ≤ (((e :: doc) :: docs).map (·.map Entry.line)).length := by
    rw [← hentries, List.length_map]
    exact Nat.le_refl 3
  rw [tenantManifest_eq, hentries, writeEntries] at h
  refine marks_of_parse D.isBreak_lineFeed (D.template '-' (by decide)).2 hnone ?_ ?_ h hlength
  · intro d hd line hline
    obtain ⟨e, he, rfl⟩ := hmem d hd line hline
    exact keyed_of_mem he
  · intro d hd line hline
    obtain ⟨e, he, rfl⟩ := hmem d hd line hline
    exact not_isBreak_of_mem hns hteam he

/-- What the manifest of a request must be like to be read as the template. -/
theorem harmless_of_parse (hns : SelfServiceName ns) (hsegment : isSegment team = true)
    (h : parse D.toDialect (tenantManifest ns team requestedBy) = some (tenantDocuments ns team)) :
    Harmless D team requestedBy := by
  obtain ⟨hnone, hreads⟩ := reads_of_tenantManifest h
  have hspace := (D.template ' ' (by decide)).2
  have hquote := (D.template '"' (by decide)).2
  have hslot : ∀ line ∈ template.flatten,
      readScalar D.toDialect ((line.entry ns team).line.cut D.toDialect).rest = some (line.slot.value ns team).scalar :=
    fun line hline => hreads _ (mem_tenantEntries.mpr ⟨line, hline, rfl⟩)
  -- The team as a plain scalar: no longer text could be read there, so it holds no break.
  have hteam := hslot (slotLine 4 "narwhal.io/team" .team) (by decide)
  rw [cut_rest_of_not_isBreak (s := [' ']) (t := team) rfl (by simpa using hspace)] at hteam
  have hlength := (length_le_of_readScalar hteam).1
  rw [List.singleton_append, List.dropWhile_cons_of_pos (by decide)] at hlength
  have hwhole : team.takeWhile (fun c => !D.isBreak c) = team :=
    (List.takeWhile_prefix _).eq_of_length_le (hlength.trans (List.dropWhile_suffix _).length_le)
  have hunbroken : ∀ c ∈ team, D.isBreak c = false := by
    intro c hc
    have hall := List.all_eq_true.mp (List.all_takeWhile (p := fun c => !D.isBreak c) (l := team)) c (hwhole.symm ▸ hc)
    simpa using hall
  rw [hwhole, List.singleton_append] at hteam
  obtain ⟨hplain, hstring⟩ := readScalar_eq_iff.mp hteam
  -- The group between its quotes.
  have hgroup := hslot (slotLine 4 "name" .group) (by decide)
  have hoidc : "oidc:".toList.all isTemplateChar = true := by decide
  have hline : ∀ c ∈ (Slot.group.value ns team).text, D.isBreak c = false := by
    intro c hc
    simp only [Slot.value, Value.text, List.mem_cons, List.mem_append, List.not_mem_nil, or_false] at hc
    rcases hc with rfl | rfl | (hc | hc) | rfl
    · exact hspace
    · exact hquote
    · exact (D.template c (List.all_eq_true.mp hoidc c hc)).2
    · exact hunbroken c hc
    · exact hquote
  rw [cut_rest_of_not_isBreak (t := []) (List.append_nil _).symm hline, List.takeWhile_nil, List.append_nil] at hgroup
  obtain ⟨hnoQuote, hnoSlash⟩ := readScalar_quoted_iff.mp hgroup
  -- The lines of the comment.
  have hmarks := marks_of_tenantManifest hns hunbroken hnone h
  obtain ⟨first, hfirst⟩ := comments_splitOnP D requestedBy
  rw [hfirst] at hmarks
  have hprintable := printable_of_parse h
  rw [tenantManifest_eq, unlines] at hprintable
  refine ⟨hsegment, hplain, hstring, ?_, ?_, ?_, ?_, ?_⟩
  · exact ⟨fun hc => hnoQuote (List.mem_append_right _ hc), fun hc => hnoSlash (List.mem_append_right _ hc)⟩
  · intro c hc
    have hmem : (slotLine 4 "narwhal.io/team" .team).entry ns team ∈ (tenantEntries ns team).flatten :=
      mem_tenantEntries.mpr ⟨slotLine 4 "narwhal.io/team" .team, by decide, rfl⟩
    obtain ⟨doc, hdoc, he⟩ := List.mem_flatten.mp hmem
    have hwritten := text_mem_writeDocuments (List.mem_map_of_mem (f := (·.map Entry.line)) hdoc)
      (List.mem_map_of_mem (f := Entry.line) he)
    have hin : c ∈ ((slotLine 4 "narwhal.io/team" .team).entry ns team).line.text := by
      rw [Line.text_eq]
      exact List.mem_append_right _ (List.mem_cons_of_mem ' ' hc)
    refine ⟨(hprintable c (List.mem_flatMap.mpr ⟨_, List.mem_append_right _ hwritten, List.mem_append_left _ hin⟩)).resolve_left ?_,
      hunbroken c hc⟩
    simp [hunbroken c hc]
  · intro c hc
    refine hprintable c (List.mem_flatMap.mpr ⟨requestedLine requestedBy, List.mem_cons_self, ?_⟩)
    simp [requestedLine, hc]
  · intro line hline
    refine (contentLines_comments_iff.mp hnone line hline).imp_right fun hmarker => ⟨hmarker, ?_⟩
    exact hmarks.1 line (List.mem_cons_of_mem _ (List.mem_append_left _ hline)) hmarker
  · have hcount := hmarks.2
    rw [List.countP_cons, List.countP_append] at hcount
    omega

end

/-- A request that reaches Gitea writes the documents of the template to the file of its team exactly if its team and its
    requester are harmless. -/
theorem writes_template_iff (D : TenantDialect) (unescape : Unescape) (contents : List Text) {request : PostRequest}
    {req : TenantRequest} (h : precheck request = .ok req) :
    AsTemplate D unescape contents req ↔ Harmless D req.team req.requestedBy := by
  have hns := selfServiceName_of_precheck h
  constructor
  · exact fun hwrites => harmless_of_parse hns ((writtenPath_iff unescape contents hns).mp hwrites.path) hwrites.manifest
  · exact fun hharmless =>
      ⟨(writtenPath_iff unescape contents hns).mpr hharmless.segment, parse_tenantManifest hns hharmless⟩

/-! ### The core schema -/

theorem coreDialect_template {c : Char} (h : isTemplateChar c = true) :
    coreDialect.isPrintable c = true ∧ coreDialect.isBreak c = false := by
  rw [isTemplateChar, Bool.or_eq_true, Bool.and_eq_true, decide_eq_true_eq, decide_eq_true_eq, beq_iff_eq] at h
  rcases h with ⟨hlow, hhigh⟩ | rfl
  · have hlow : 0x20 ≤ c.toNat := hlow
    have hhigh : c.toNat ≤ 0x7E := hhigh
    refine ⟨by simp [coreDialect, hlow, hhigh], ?_⟩
    simp only [coreDialect, Bool.or_eq_false_iff, beq_eq_false_iff_ne]
    refine ⟨?_, ?_⟩
    · rintro rfl
      exact absurd hlow (by decide)
    · rintro rfl
      exact absurd hlow (by decide)
  · decide

def coreTenantDialect : TenantDialect where
  toDialect := coreDialect
  isBreak_lineFeed := rfl
  template _ := coreDialect_template
  words := by decide
  names := by
    rintro s ⟨rest, rfl⟩
    rfl

/-- A server that refuses what is escaped. -/
def strictUnescape : Unescape where
  decode s := if '%' ∈ s then none else some s
  plain _ h := if_neg h
  shrinks s t hmem h := by simp [hmem] at h

theorem writes_template_dev :
    AsTemplate coreTenantDialect strictUnescape [] ⟨"dev-a".toList, "team-a".toList, "dev@example.com".toList⟩ := by
  have hcheck : precheck ⟨some ⟨"developer".toList, ["team-a".toList], some "dev@example.com".toList, none⟩,
      .text "dev-a".toList, none, true⟩ = .ok ⟨"dev-a".toList, "team-a".toList, "dev@example.com".toList⟩ := rfl
  refine (writes_template_iff coreTenantDialect strictUnescape [] hcheck).mpr ?_
  have hline : "team-a".toList.all (fun c => coreTenantDialect.isPrintable c && !coreTenantDialect.isBreak c) = true := by decide
  have hprintable : "dev@example.com".toList.all coreTenantDialect.isPrintable = true := by decide
  refine ⟨by decide, by decide, by decide, by decide, ?_, ?_, by decide, by decide⟩
  · intro c hc
    simpa using List.all_eq_true.mp hline c hc
  · exact fun c hc => .inr (List.all_eq_true.mp hprintable c hc)

/-- The name of a requester with a line break puts an entry of its own before the Namespace. -/
def eveName : Text := "Eve\nextra: x".toList

theorem requester_writes_entry :
    precheck ⟨some ⟨"developer".toList, ["team-a".toList], none, some eveName⟩, .text "dev-a".toList, none, true⟩ =
        .ok ⟨"dev-a".toList, "team-a".toList, eveName⟩ ∧
      ¬ AsTemplate coreTenantDialect strictUnescape [] ⟨"dev-a".toList, "team-a".toList, eveName⟩ := by
  have hcheck : precheck ⟨some ⟨"developer".toList, ["team-a".toList], none, some eveName⟩, .text "dev-a".toList, none, true⟩ =
      .ok ⟨"dev-a".toList, "team-a".toList, eveName⟩ := rfl
  refine ⟨hcheck, fun h => ?_⟩
  have hharmless := harmless_of_parse (selfServiceName_of_precheck hcheck) (by decide) h.manifest
  have hrest : commentRest coreTenantDialect eveName = ["extra: x.".toList] := rfl
  have hentry := hharmless.comment "extra: x.".toList (hrest ▸ List.mem_cons_self)
  rcases hentry with hblank | hmarker
  · exact absurd hblank (by decide)
  · exact absurd hmarker.1 (by decide)

end narwhal.portal.gitea
