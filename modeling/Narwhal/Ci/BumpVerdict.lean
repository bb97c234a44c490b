import Narwhal.Ci.DiffReading

open pylib narwhal.git

namespace narwhal.action_bump

/-! ### What a verdict without reasons says -/

theorem expect_eq_nil {ok : Bool} {reason : Reason} : expect ok reason = [] ↔ ok = true := by
  unfold expect
  cases ok <;> simp

/-- The two lines differ by the bump, and by nothing else. -/
def Bumps (removed added : Str) (b : Bump) : Prop :=
  ∃ r a, usesRe removed = some r ∧ usesRe added = some a ∧
    (r.before = a.before ∧ r.between = a.between ∧ r.trail = a.trail) ∧
    (∃ old new, parse_version_tag r.tag = some old ∧ parse_version_tag a.tag = some new ∧ old < new) ∧
    (∃ rest, split [47] a.ref = b.owner :: b.repo :: rest) ∧ b.newSha = a.sha ∧ b.tag = a.tag

theorem tagReasons_eq_nil {removed added : Str} (h : tagReasons removed added = []) :
    ∃ old new, parse_version_tag removed = some old ∧ parse_version_tag added = some new ∧ old < new := by
  unfold tagReasons at h
  split at h
  · next old new hold hnew =>
    exact ⟨old, new, hold, hnew, by simpa using expect_eq_nil.mp h⟩
  · cases h

theorem checkPair_eq_nil {pair : Str × Str} (h : (checkPair pair).1 = []) :
    ∃ b ∈ (checkPair pair).2, Bumps pair.1 pair.2 b := by
  unfold checkPair at h ⊢
  split at h
  · next r a hr ha =>
    simp only [matchReasons, List.append_eq_nil_iff, expect_eq_nil, decide_eq_true_eq] at h
    obtain ⟨⟨⟨-, hnorm⟩, -⟩, htag⟩ := h.1
    have hsame := eq_of_norm_eq (usesRe_eq_some hr).1 (usesRe_eq_some ha).1 hnorm
    have hlength := h.2
    cases hsplit : split [47] a.ref with
    | nil => simp [hsplit] at hlength
    | cons owner rest =>
      cases rest with
      | nil => simp [hsplit] at hlength
      | cons repo rest =>
        exact ⟨_, List.mem_singleton_self _, r, a, hr, ha, hsame, tagReasons_eq_nil htag, ⟨rest, hsplit⟩, rfl, rfl⟩
  · next hnone =>
    simp only [List.append_eq_nil_iff, expect_eq_nil] at h
    obtain ⟨r, hr⟩ := Option.isSome_iff_exists.mp h.1
    obtain ⟨a, ha⟩ := Option.isSome_iff_exists.mp h.2
    exact (hnone r a hr ha).elim

/-- A hunk without reasons has lines that are removed and as many that are added, in pairs. -/
theorem checkHunk_eq_nil {hunk : HunkText} (h : (checkHunk hunk).1 = []) :
    (∀ line ∈ hunk.lines, [45].isPrefixOf line = true ∨ [43].isPrefixOf line = true) ∧
      (removedOf hunk.lines).length = (addedOf hunk.lines).length ∧
      ∀ pair ∈ (removedOf hunk.lines).zip (addedOf hunk.lines), ∃ b ∈ (checkHunk hunk).2, Bumps pair.1 pair.2 b := by
  unfold checkHunk at h ⊢
  dsimp only at h ⊢
  split at h
  · simp at h
  split at h
  · simp at h
  split at h
  · simp at h
  split at h
  · simp at h
  next hempty hremoved hadded hlength =>
  rw [if_neg hempty, if_neg hremoved, if_neg hadded, if_neg hlength]
  obtain ⟨hunexpected, hpairs⟩ := List.append_eq_nil_iff.mp h
  refine ⟨fun line hline => ?_, by simpa using hlength, fun pair hpair => ?_⟩
  · have hnone := List.filter_eq_nil_iff.mp (List.map_eq_nil_iff.mp hunexpected) line hline
    rwa [Bool.not_eq_true, Bool.not_eq_false', Bool.or_eq_true] at hnone
  · obtain ⟨b, hb, hbumps⟩ := checkPair_eq_nil (List.flatMap_eq_nil_iff.mp hpairs pair hpair)
    exact ⟨b, List.mem_flatMap.mpr ⟨pair, hpair, hb⟩, hbumps⟩

theorem checkFile_eq_nil {fd : FileDiff} (h : (checkFile fd).1 = []) :
    (∀ line ∈ fd.metadata, ∀ what ∈ forbidden, what.isPrefixOf line = false) ∧
      ∀ hunk ∈ fd.hunks, (checkHunk hunk).1 = [] ∧ ∀ b ∈ (checkHunk hunk).2, b ∈ (checkFile fd).2 := by
  unfold checkFile at h ⊢
  simp only [List.append_eq_nil_iff, List.flatMap_eq_nil_iff, List.map_eq_nil_iff, List.filter_eq_nil_iff] at h
  refine ⟨fun line hline what hwhat => eq_false_of_ne_true (h.1.1 line hline what hwhat), fun hunk hhunk => ?_⟩
  exact ⟨h.2 hunk hhunk, fun b hb => List.mem_flatMap.mpr ⟨hunk, hhunk, hb⟩⟩

/-- What an exemption says of what git printed. -/
theorem exempt_spec {git : Git} (h : (check_bump git).isExempt = true) :
    ∃ names diff, git.names = some names ∧ git.diff = some diff ∧
      (∀ p ∈ changedPaths names, isWorkflow p = true) ∧
      (∀ fd ∈ readDiff (splitLines (universalNewlines diff)), (checkFile fd).1 = []) ∧
      resolve_upstream git ((readDiff (splitLines (universalNewlines diff))).flatMap fun fd => (checkFile fd).2) =
        [] := by
  unfold check_bump at h
  split at h
  · cases h
  next names hnames =>
  dsimp only at h
  split at h
  · cases h
  split at h
  · cases h
  next diff hdiff =>
  split at h
  · cases h
  split at h
  · cases h
  next hreasons =>
  split at h
  · cases h
  next hupstream =>
  rw [not_not] at hreasons hupstream
  obtain ⟨houtside, hfiles⟩ := List.append_eq_nil_iff.mp hreasons
  refine ⟨names, diff, hnames, hdiff, fun p hp => ?_, List.flatMap_eq_nil_iff.mp hfiles, hupstream⟩
  have hnone := List.filter_eq_nil_iff.mp (List.map_eq_nil_iff.mp houtside) p hp
  simpa using hnone

/-! ### The upstream tags -/

/-- The refs of an upstream repository, by owner, repository and name. -/
abbrev Remote := Str → Str → Str → Option Str

/-- The commit a tag resolves to: what an annotated tag points at, or the tag itself. -/
def Remote.resolve (remote : Remote) (owner repo tag : Str) : Option Str :=
  (remote owner repo (peeledRef tag)).or (remote owner repo (tagRef tag))

/-- A right answer of `git ls-remote` for a tag. -/
structure Answers (refs : Str → Option Str) (tag : Str) (listed : List Ref) : Prop where
  sound : ∀ r ∈ listed, refs r.name = some r.sha
  complete : ∀ name, name = tagRef tag ∨ name = peeledRef tag → ∀ sha ∈ refs name, ⟨sha, name⟩ ∈ listed
  shas : ∀ r ∈ listed, r.sha ≠ [] ∧ r.sha.all isLowerHex = true
  names : ∀ r ∈ listed, r.name ≠ []

/-- A line of such an answer, of a ref without blanks in its name. -/
structure Ref.Clean (r : Ref) : Prop where
  sha : r.sha ≠ [] ∧ r.sha.all isLowerHex = true
  name : r.name ≠ []
  blank : ∀ c ∈ r.name, isSpace c = false

def Ref.line (r : Ref) : Str := r.sha ++ 9 :: r.name

section

variable {r : Ref}

theorem Ref.Clean.isSpace_sha (h : r.Clean) : ∀ c ∈ r.sha, isSpace c = false :=
  fun c hc => isSpace_of_isLowerHex (List.all_eq_true.mp h.sha.2 c hc)

theorem Ref.Clean.splitOnce (h : r.Clean) : splitOnce r.line = some (r.sha, r.name) := by
  have hfirst : ∀ c ∈ r.line.head?, isSpace c = false := head?_append h.sha.1 h.isSpace_sha
  have hlast : ∀ c ∈ r.line.getLast?, isSpace c = false := by
    intro c hc
    rw [Ref.line, List.getLast?_append_of_ne_nil _ (List.cons_ne_nil _ _), List.getLast?_cons_of_ne_nil h.name] at hc
    exact h.blank c (List.mem_of_mem_getLast? hc)
  have hstrip : strip r.line = r.sha ++ 9 :: r.name := strip_eq_self hfirst hlast
  have hother : ∀ c ∈ r.sha, (!isSpace c) = true := fun c hc => by rw [h.isSpace_sha c hc]; rfl
  have htab : ∀ c ∈ (9 :: r.name).head?, (!isSpace c) = false := by
    rintro c ⟨⟩
    rfl
  have hnameFirst : ∀ c ∈ r.name.head?, isSpace c = false := fun c hc => h.blank c (List.mem_of_mem_head? hc)
  have hblanks : ∀ c ∈ ([9] : Str), isSpace c = true := by decide
  have hname : (9 :: r.name).dropWhile isSpace = r.name := (takeWhile_append hblanks hnameFirst).2
  obtain ⟨htake, hdrop⟩ := takeWhile_append hother htab
  rw [action_bump.splitOnce, hstrip, htake, hdrop]
  simp only [hname]

theorem Ref.Clean.unbroken (h : r.Clean) : Unbroken r.line ∧ chomp r.line = r.line := by
  have hmem : ∀ c ∈ r.line, isBreak c = false := by
    intro c hc
    obtain hc | hc := List.mem_append.mp hc
    · exact isSpace_of_isBreak (h.isSpace_sha c hc)
    · obtain rfl | hc := List.mem_cons.mp hc
      · rfl
      · exact isSpace_of_isBreak (h.blank c hc)
  refine ⟨fun c hc => hmem c (mem_chomp hc), chomp_eq_self fun hcr => ?_⟩
  have := hmem 13 (List.mem_of_getLast? hcr)
  cases this

end

theorem lower_sha {sha : Str} (h : sha.all isLowerHex = true) : lower sha = sha := by
  have hid : ∀ c ∈ sha, (if 65 ≤ c ∧ c < 91 then c + 32 else c) = id c := by
    intro c hc
    have hhex := List.all_eq_true.mp h c hc
    simp only [isLowerHex, Bool.or_eq_true, Bool.and_eq_true, decide_eq_true_eq] at hhex
    exact if_neg (by omega)
  calc lower sha = sha.map id := List.map_congr_left hid
    _ = sha := List.map_id sha

theorem peeledRef_ne_tagRef (tag : Str) : peeledRef tag ≠ tagRef tag := by
  intro h
  have hlength := congrArg List.length h
  simp [peeledRef, lit] at hlength

theorem strip_clean {s : Str} (h : ∀ c ∈ s, isSpace c = false) : strip s = s :=
  strip_eq_self (fun c hc => h c (List.mem_of_mem_head? hc)) fun c hc => h c (List.mem_of_mem_getLast? hc)

theorem readRef_line {tag : Str} {found : Option Str × Option Str} {r : Ref} (h : r.Clean) :
    readRef tag found r.line =
      if r.name = peeledRef tag then (some r.sha, found.2)
      else if r.name = tagRef tag then (found.1, some r.sha)
      else found := by
  rw [readRef, h.splitOnce]
  simp only [strip_clean h.blank, strip_clean h.isSpace_sha, lower_sha h.sha.2]

/-- After a right answer the script has the refs of the tag. -/
theorem foldl_readRef {refs : Str → Option Str} {tag : Str} {listed : List Ref}
    (hsound : ∀ r ∈ listed, refs r.name = some r.sha) (hclean : ∀ r ∈ listed, r.Clean)
    (found : Option Str × Option Str) :
    (listed.map Ref.line).foldl (readRef tag) found =
      (if ∃ r ∈ listed, r.name = peeledRef tag then refs (peeledRef tag) else found.1,
        if ∃ r ∈ listed, r.name = tagRef tag then refs (tagRef tag) else found.2) := by
  induction listed generalizing found with
  | nil => simp
  | cons r listed ih =>
    have hrefs := hsound r List.mem_cons_self
    rw [List.map_cons, List.foldl_cons, readRef_line (hclean r List.mem_cons_self),
      ih (fun s hs => hsound s (List.mem_cons_of_mem r hs)) fun s hs => hclean s (List.mem_cons_of_mem r hs)]
    by_cases hpeeled : r.name = peeledRef tag
    · have htag : r.name ≠ tagRef tag := hpeeled ▸ peeledRef_ne_tagRef tag
      rw [hpeeled] at hrefs
      simp [hpeeled, hrefs, peeledRef_ne_tagRef]
    · by_cases htag : r.name = tagRef tag
      · rw [htag] at hrefs
        simp [htag, hrefs, (peeledRef_ne_tagRef tag).symm]
      · simp [hpeeled, htag]

/-- A right answer is read as what the tag resolves to. -/
theorem resolved_stdout {remote : Remote} {owner repo tag : Str} {listed : List Ref}
    (h : Answers (remote owner repo) tag listed) (hblank : ∀ r ∈ listed, ∀ c ∈ r.name, isSpace c = false) :
    resolved tag (stdout listed) = remote.resolve owner repo tag := by
  have hclean : ∀ r ∈ listed, r.Clean := fun r hr => ⟨h.shas r hr, h.names r hr, hblank r hr⟩
  have hlines : splitLines (universalNewlines (stdout listed)) = listed.map Ref.line := by
    have hunbroken : ∀ line ∈ listed.map Ref.line, Unbroken line := by
      intro line hline
      obtain ⟨r, hr, rfl⟩ := List.mem_map.mp hline
      exact (hclean r hr).unbroken.1
    calc splitLines (universalNewlines (stdout listed)) = (listed.map Ref.line).map chomp :=
          splitLines_universalNewlines hunbroken
      _ = listed.map Ref.line := by
        rw [List.map_map]
        exact List.map_congr_left fun r hr => (hclean r hr).unbroken.2
  have hfound : ∀ name, name = tagRef tag ∨ name = peeledRef tag →
      (if ∃ r ∈ listed, r.name = name then remote owner repo name else none) = remote owner repo name := by
    intro name hname
    split
    · rfl
    · next hnone =>
      cases hrefs : remote owner repo name with
      | none => rfl
      | some sha => exact (hnone ⟨_, h.complete name hname sha hrefs, rfl⟩).elim
  rw [resolved, hlines]
  simp only [foldl_readRef h.sound hclean, hfound _ (.inl rfl), hfound _ (.inr rfl), Remote.resolve]

/-- Owner and repository of a bump cannot run into each other in a key. -/
structure Bump.Clean (b : Bump) : Prop where
  owner : 47 ∉ b.owner
  repo : 64 ∉ b.repo

theorem Bump.Clean.key_inj {b b' : Bump} (hb : b.Clean) (hb' : b'.Clean) (h : b.key = b'.key) :
    b.owner = b'.owner ∧ b.repo = b'.repo ∧ b.tag = b'.tag := by
  simp only [Bump.key, List.append_assoc, List.cons_append] at h
  obtain ⟨howner, h⟩ := eq_of_append_cons_eq hb.owner hb'.owner h
  exact ⟨howner, eq_of_append_cons_eq hb.repo hb'.repo h⟩

theorem shaReasons_eq_nil {b : Bump} {sha : Option Str} (h : shaReasons b sha = []) : sha = some (lower b.newSha) := by
  unfold shaReasons at h
  split at h
  · cases h
  · cases h
  · have hsha := expect_eq_nil.mp h
    rw [decide_eq_true_eq] at hsha
    rw [hsha]

theorem ref_of_split {ref owner repo : Str} {rest : List Str} (h : split [47] ref = owner :: repo :: rest) :
    47 ∉ owner ∧ ∀ c ∈ repo, c ∈ ref := by
  refine ⟨not_mem_of_mem_split (h ▸ List.mem_cons_self), fun c hc => ?_⟩
  have htext := intercalate_split 47 ref
  rw [h, List.intercalate_cons_cons] at htext
  rw [← htext]
  apply List.mem_append_right
  cases rest with
  | nil => simpa using hc
  | cons next rest =>
    rw [List.intercalate_cons_cons]
    simp [hc]

theorem clean_of_mem_checkPair {pair : Str × Str} {b : Bump} (h : b ∈ (checkPair pair).2) : b.Clean := by
  unfold checkPair at h
  split at h
  · next r a hr ha =>
    dsimp only at h
    split at h
    · next owner repo rest hsplit =>
      obtain rfl := List.mem_singleton.mp h
      obtain ⟨howner, hrepo⟩ := ref_of_split hsplit
      refine ⟨howner, fun hat => ?_⟩
      cases (usesRe_eq_some ha).1.ref 64 (hrepo 64 hat)
    · cases h
  · cases h

theorem clean_of_mem_checkFile {fd : FileDiff} {b : Bump} (h : b ∈ (checkFile fd).2) : b.Clean := by
  obtain ⟨hunk, -, h⟩ := List.mem_flatMap.mp h
  unfold checkHunk at h
  dsimp only at h
  split at h
  · cases h
  split at h
  · cases h
  split at h
  · cases h
  split at h
  · cases h
  obtain ⟨pair, -, h⟩ := List.mem_flatMap.mp h
  exact clean_of_mem_checkPair h

/-- The tag of the bump was listed, with the commit of the bump. -/
def Resolves (git : Git) (b : Bump) : Prop :=
  ∃ refs, git.ls_remote b.owner b.repo b.tag = .listed refs ∧ resolved b.tag (stdout refs) = some (lower b.newSha)

/-- Every answer in the cache is the answer for the bumps of its key. -/
def CacheOk (git : Git) (cache : List (Str × Option Str)) : Prop :=
  ∀ b : Bump, b.Clean → ∀ sha, cache.lookup b.key = some sha →
    ∃ refs, git.ls_remote b.owner b.repo b.tag = .listed refs ∧ sha = resolved b.tag (stdout refs)

section

variable {git : Git} {state : List Reason × List (Str × Option Str)}

theorem CacheOk.cons {cache : List (Str × Option Str)} (h : CacheOk git cache) {b : Bump} (hb : b.Clean)
    {refs : List Ref} (hrefs : git.ls_remote b.owner b.repo b.tag = .listed refs) :
    CacheOk git ((b.key, resolved b.tag (stdout refs)) :: cache) := by
  intro b' hb' sha hsha
  rw [List.lookup_cons] at hsha
  split at hsha
  · next hkey =>
    obtain ⟨howner, hrepo, htag⟩ := hb'.key_inj hb (eq_of_beq hkey)
    obtain rfl := Option.some.inj hsha
    rw [howner, hrepo, htag]
    exact ⟨refs, hrefs, rfl⟩
  · exact h b' hb' sha hsha

/-- One bump adds no reason only if its tag resolves to its commit. -/
theorem resolveBump_spec (hcache : CacheOk git state.2) {b : Bump} (hb : b.Clean) :
    CacheOk git (resolveBump git state b).2 ∧
      ((resolveBump git state b).1 = [] → state.1 = [] ∧ Resolves git b) := by
  unfold resolveBump
  split
  · next sha hsha =>
    obtain ⟨refs, hrefs, rfl⟩ := hcache b hb sha hsha
    refine ⟨hcache, fun h => ?_⟩
    obtain ⟨hstate, hreasons⟩ := List.append_eq_nil_iff.mp h
    exact ⟨hstate, refs, hrefs, shaReasons_eq_nil hreasons⟩
  · split
    · exact ⟨hcache, fun h => by simp at h⟩
    · exact ⟨hcache, fun h => by simp at h⟩
    · exact ⟨hcache, fun h => by simp at h⟩
    · next refs hrefs =>
      refine ⟨hcache.cons hb hrefs, fun h => ?_⟩
      obtain ⟨hstate, hreasons⟩ := List.append_eq_nil_iff.mp h
      exact ⟨hstate, refs, hrefs, shaReasons_eq_nil hreasons⟩

theorem foldl_resolveBump {bumps : List Bump} (hcache : CacheOk git state.2) (hbumps : ∀ b ∈ bumps, b.Clean)
    (h : (bumps.foldl (resolveBump git) state).1 = []) : state.1 = [] ∧ ∀ b ∈ bumps, Resolves git b := by
  induction bumps generalizing state with
  | nil => exact ⟨h, by simp⟩
  | cons b bumps ih =>
    obtain ⟨hcache', hstep⟩ := resolveBump_spec hcache (hbumps b List.mem_cons_self)
    obtain ⟨hstate, hrest⟩ := ih hcache' (fun b' hb' => hbumps b' (List.mem_cons_of_mem b hb')) h
    obtain ⟨hstate, hfirst⟩ := hstep hstate
    exact ⟨hstate, List.forall_mem_cons.mpr ⟨hfirst, hrest⟩⟩

end

theorem resolve_upstream_eq_nil {git : Git} {bumps : List Bump} (hbumps : ∀ b ∈ bumps, b.Clean)
    (h : resolve_upstream git bumps = []) : ∀ b ∈ bumps, Resolves git b := by
  have hempty : CacheOk git (([], []) : List Reason × List (Str × Option Str)).2 := by
    intro b _ sha hsha
    cases hsha
  exact (foldl_resolveBump hempty hbumps h).2

end narwhal.action_bump
