import Narwhal.Ci.BumpVerdict
import Mathlib.Data.List.Forall2

open pylib narwhal.git

namespace narwhal.action_bump

/-! ### What an exemption should mean -/

/-- The two lines match `USES_RE` and differ only in the SHA and the tag; the tag's version grows,
    and the new SHA is what it resolves to upstream. -/
def Bumped (remote : Remote) (removed added : Str) : Prop :=
  ∃ r a, usesRe removed = some r ∧ usesRe added = some a ∧
    (r.before = a.before ∧ r.between = a.between ∧ r.trail = a.trail) ∧
    (∃ old new, parse_version_tag r.tag = some old ∧ parse_version_tag a.tag = some new ∧ old < new) ∧
    ∃ owner repo rest, split [47] a.ref = owner :: repo :: rest ∧ remote.resolve owner repo a.tag = some a.sha

/-- `.github/workflows/<name>.yml`, or `.yaml` -/
def IsWorkflowPath (path : Str) : Prop :=
  ∃ name, path = lit ".github/workflows/" ++ name ∧ 47 ∉ name ∧ (lit ".yml" <:+ name ∨ lit ".yaml" <:+ name)

/-- The trees differ only in workflow files, and these only in lines that are bumps. -/
def Sound (base head : Tree) (remote : Remote) : Prop :=
  ∀ path, base path ≠ head path → ∃ old new, base path = some old ∧ head path = some new ∧ IsWorkflowPath path ∧
    old.mode = new.mode ∧ old.rest = new.rest ∧
    List.Forall₂ (fun removed added => removed ≠ added → Bumped remote removed added) old.lines new.lines

/-- What git answers about the two trees and the upstream repositories. -/
structure Reads (git : Git) (base head : Tree) (changes : List Change) (remote : Remote) : Prop where
  correct : Correct base head changes
  names : ∀ out ∈ git.names, out = nameOnly changes
  diff : ∀ out ∈ git.diff, out = diffU0 changes
  ls_remote : ∀ owner repo tag listed, git.ls_remote owner repo tag = .listed listed →
    Answers (remote owner repo) tag listed

/-- Nothing but its end breaks a line of the diff, for Python as for git. -/
structure Clean (git : Git) (changes : List Change) : Prop where
  /-- no changed path starts or ends with a blank -/
  paths : ∀ c ∈ changes, c.path.head? ≠ some 32 ∧ c.path.getLast? ≠ some 32
  headings : ∀ c ∈ changes, ∀ h ∈ c.hunks, Unbroken h.heading
  texts : ∀ c ∈ changes, ∀ h ∈ c.hunks, ∀ r ∈ h.removed ++ h.added, Unbroken r.text
  /-- a pair of lines ends the same way -/
  endings : ∀ c ∈ changes, ∀ h ∈ c.hunks, ∀ pair ∈ h.removed.zip h.added,
    pair.1.text.getLast? = some 13 ↔ pair.2.text.getLast? = some 13
  refs : ∀ owner repo tag listed, git.ls_remote owner repo tag = .listed listed →
    ∀ r ∈ listed, ∀ c ∈ r.name, isSpace c = false

/-! ### Paths -/

theorem isWorkflow_spec {path : Str} (h : isWorkflow path = true) : IsWorkflowPath path := by
  unfold isWorkflow at h
  split at h
  · next github workflows name hsplit =>
    simp only [Bool.and_eq_true, Bool.or_eq_true, decide_eq_true_eq, List.isSuffixOf_iff_suffix] at h
    obtain ⟨⟨rfl, rfl⟩, hname⟩ := h
    have hpath := intercalate_split 47 path
    rw [hsplit, List.intercalate_cons_cons, List.intercalate_cons_cons, List.intercalate_singleton] at hpath
    have hmem : name ∈ split [47] path := by simp [hsplit]
    exact ⟨name, hpath.symm, not_mem_of_mem_split hmem, hname⟩
  · cases h

theorem isWorkflow_quoted (s : Str) : isWorkflow (34 :: s) = false := by
  cases h : isWorkflow (34 :: s) with
  | false => rfl
  | true =>
    obtain ⟨name, hpath, -⟩ := isWorkflow_spec h
    cases hpath

/-- A name that is printed is one of the paths the script checks. -/
theorem mem_changedPaths {changes : List Change} {c : Change} (hc : c ∈ changes)
    (hne : strip (quoteName [] c.path) ≠ []) : strip (quoteName [] c.path) ∈ changedPaths (nameOnly changes) := by
  have hplain : ∀ path, Plain (quoteName [] path) := plain_quoteName (by decide)
  have hchomp : ∀ path, chomp (quoteName [] path) = quoteName [] path := by
    intro path
    apply chomp_eq_self
    intro hcr
    have := hplain path 13 (List.mem_of_getLast? hcr)
    omega
  have hlines :
      splitLines (universalNewlines (nameOnly changes)) = (changes.map fun c => quoteName [] c.path).map chomp := by
    apply splitLines_universalNewlines
    intro line hline
    obtain ⟨d, -, rfl⟩ := List.mem_map.mp hline
    exact unbroken_of_forall (printed_of_plain (hplain d.path))
  rw [changedPaths, hlines, List.mem_filter]
  refine ⟨List.mem_map.mpr ⟨quoteName [] c.path, ?_, rfl⟩, by simpa using hne⟩
  exact List.mem_map.mpr ⟨quoteName [] c.path, List.mem_map.mpr ⟨c, hc, rfl⟩, hchomp c.path⟩

/-- The path of a change is checked as it is: a quoted name is never a workflow. -/
theorem path_isWorkflow {changes : List Change} {c : Change} (hc : c ∈ changes) (hne : c.path ≠ [])
    (hends : c.path.head? ≠ some 32 ∧ c.path.getLast? ≠ some 32)
    (h : ∀ p ∈ changedPaths (nameOnly changes), isWorkflow p = true) : IsWorkflowPath c.path := by
  by_cases hplain : ∀ d ∈ c.path, 32 ≤ d ∧ d < 127 ∧ d ≠ 34 ∧ d ≠ 92
  · have hquote : quoteName [] c.path = c.path := if_pos hplain
    have hspace : ∀ d ∈ c.path, d ≠ 32 → isSpace d = false := by
      intro d hd hblank
      have := hplain d hd
      simp only [isSpace, Bool.or_eq_false_iff, Bool.and_eq_false_iff, decide_eq_false_iff_not, beq_eq_false_iff_ne]
      omega
    have hstrip : strip (quoteName [] c.path) = c.path := by
      rw [hquote]
      apply strip_eq_self
      · exact fun d hd => hspace d (List.mem_of_mem_head? hd) fun heq => hends.1 (heq ▸ hd)
      · exact fun d hd => hspace d (List.mem_of_mem_getLast? hd) fun heq => hends.2 (heq ▸ hd)
    have hmem := mem_changedPaths hc (by rw [hstrip]; exact hne)
    rw [hstrip] at hmem
    exact isWorkflow_spec (h _ hmem)
  · have hquote : quoteName [] c.path = 34 :: (c.path.flatMap escape ++ [34]) := if_neg hplain
    have hstrip : strip (quoteName [] c.path) = 34 :: (c.path.flatMap escape ++ [34]) := by
      rw [hquote]
      apply strip_eq_self
      · rintro d ⟨⟩
        rfl
      · intro d hd
        rw [← List.cons_append, List.getLast?_concat] at hd
        obtain rfl := Option.some.inj hd
        rfl
    have hmem := mem_changedPaths hc (by rw [hstrip]; exact List.cons_ne_nil _ _)
    rw [hstrip] at hmem
    have hfalse := isWorkflow_quoted (c.path.flatMap escape ++ [34])
    rw [h _ hmem] at hfalse
    cases hfalse

/-! ### Hunks -/

section

variable {h : Hunk}

/-- A hunk without other lines removes and adds lines that all end with a line feed. -/
theorem ended_of_lines
    (hlines : ∀ line ∈ (hunkText h).lines, [45].isPrefixOf line = true ∨ [43].isPrefixOf line = true) :
    ∀ r ∈ h.removed ++ h.added, r.ended = true := by
  have hsign : ∀ (sign : Nat) (r : Record), (∀ line ∈ r.lines sign, chomp line ∈ (hunkText h).lines) →
      r.ended = true := by
    intro sign r hmem
    cases hended : r.ended with
    | true => rfl
    | false =>
      have hmarker : lit "\\ No newline at end of file" ∈ r.lines sign := by simp [Record.lines, hended]
      obtain h45 | h43 := hlines _ (hmem _ hmarker)
      · revert h45
        decide
      · revert h43
        decide
  intro r hr
  obtain hr | hr := List.mem_append.mp hr
  · apply hsign 45
    intro line hline
    exact List.mem_map_of_mem (List.mem_append_left _ (List.mem_flatMap.mpr ⟨r, hr, hline⟩))
  · apply hsign 43
    intro line hline
    exact List.mem_map_of_mem (List.mem_append_right _ (List.mem_flatMap.mpr ⟨r, hr, hline⟩))

def texts (records : List Record) : List Str := records.map fun r => chomp r.text

/-- The lines of such a hunk, as the script reads them. -/
theorem hunkText_lines (hended : ∀ r ∈ h.removed ++ h.added, r.ended = true) :
    (hunkText h).lines = (texts h.removed).map (45 :: ·) ++ (texts h.added).map (43 :: ·) := by
  have hsign : ∀ sign : Nat, sign ≠ 13 → ∀ records : List Record, (∀ r ∈ records, r.ended = true) →
      (records.flatMap (Record.lines sign)).map chomp = (texts records).map (sign :: ·) := by
    intro sign hcr records hrecords
    induction records with
    | nil => rfl
    | cons r records ih =>
      have hr : r.lines sign = [sign :: r.text] := by simp [Record.lines, hrecords r List.mem_cons_self]
      rw [List.flatMap_cons, List.map_append, ih fun s hs => hrecords s (List.mem_cons_of_mem r hs), hr]
      simp [texts, chomp_cons hcr]
  rw [hunkText]
  dsimp only
  rw [List.map_append, hsign 45 (by decide) _ fun r hr => hended r (List.mem_append_left _ hr),
    hsign 43 (by decide) _ fun r hr => hended r (List.mem_append_right _ hr)]

theorem filterMap_word {sign other : Nat} (hne : sign ≠ other) (removed added : List Str) :
    (removed.map (sign :: ·) ++ added.map (other :: ·)).filterMap (word [sign]) = removed ∧
      (removed.map (sign :: ·) ++ added.map (other :: ·)).filterMap (word [other]) = added := by
  have hsame : ∀ (c : Nat) (s : Str), word [c] (c :: s) = some s := fun c s => word_eq_some_iff.mpr rfl
  have hother : ∀ {c d : Nat}, c ≠ d → ∀ s : Str, word [c] (d :: s) = none := by
    intro c d hcd s
    cases hw : word [c] (d :: s) with
    | none => rfl
    | some rest => exact (hcd (List.cons.inj (word_eq_some_iff.mp hw)).1.symm).elim
  rw [List.filterMap_append, List.filterMap_append]
  simp only [List.filterMap_map]
  simp [hsame, hother hne, hother hne.symm]

end

/-! ### From the lines that are read to the lines of the trees -/

/-- Two records are the same, or their lines are a bump. -/
def Pair (remote : Remote) (r a : Record) : Prop :=
  r = a ∨ (r.ended = true ∧ a.ended = true ∧ Bumped remote r.text a.text)

section

variable {git : Git} {base head : Tree} {changes : List Change} {remote : Remote}

theorem bumped_of_bumps (hreads : Reads git base head changes remote) (hclean : Clean git changes) {removed added : Str}
    {b : Bump} (h : Bumps removed added b) (hresolves : Resolves git b) : Bumped remote removed added := by
  obtain ⟨r, a, hr, ha, hsame, hversions, ⟨rest, hsplit⟩, hsha, htag⟩ := h
  obtain ⟨listed, hlisted, hresolved⟩ := hresolves
  rw [resolved_stdout (hreads.ls_remote _ _ _ _ hlisted) (hclean.refs _ _ _ _ hlisted), hsha, htag,
    lower_sha (usesRe_eq_some ha).1.sha.2] at hresolved
  exact ⟨r, a, hr, ha, hsame, hversions, b.owner, b.repo, rest, hsplit, hresolved⟩

/-- A pair of lines that ends the same way is a bump with its line ends too. -/
theorem Bumped.of_chomp {removed added : Str} (h : Bumped remote (chomp removed) (chomp added))
    (hends : removed.getLast? = some 13 ↔ added.getLast? = some 13) : Bumped remote removed added := by
  by_cases hcr : removed.getLast? = some 13
  · obtain ⟨first, rfl⟩ := List.getLast?_eq_some_iff.mp hcr
    obtain ⟨second, rfl⟩ := List.getLast?_eq_some_iff.mp (hends.mp hcr)
    rw [chomp_append_cr, chomp_append_cr] at h
    obtain ⟨r, a, hr, ha, ⟨hbefore, hbetween, htrail⟩, hversions, hupstream⟩ := h
    have hblanks : ∀ c ∈ ([13] : Str), isSpace c = true := by decide
    refine ⟨_, _, usesRe_append hr hblanks, usesRe_append ha hblanks, ⟨hbefore, hbetween, ?_⟩, hversions, hupstream⟩
    dsimp only
    rw [htrail]
  · rwa [chomp_eq_self hcr, chomp_eq_self fun hadded => hcr (hends.mpr hadded)] at h

/-- A hunk without reasons removes and adds lines that are bumps in pairs. -/
theorem pairs_of_checkHunk (hreads : Reads git base head changes remote) (hclean : Clean git changes) {c : Change}
    (hc : c ∈ changes) {h : Hunk} (hh : h ∈ c.hunks) (hcheck : (checkHunk (hunkText h)).1 = [])
    (hresolves : ∀ b ∈ (checkHunk (hunkText h)).2, Resolves git b) :
    List.Forall₂ (Pair remote) h.removed h.added := by
  obtain ⟨hlines, hlength, hpairs⟩ := checkHunk_eq_nil hcheck
  have hended := ended_of_lines hlines
  have hne : (45 : Nat) ≠ 43 := by decide
  obtain ⟨hremoved, hadded⟩ := filterMap_word hne (texts h.removed) (texts h.added)
  rw [removedOf, addedOf, hunkText_lines hended, hremoved, hadded] at hlength hpairs
  rw [List.forall₂_iff_zip]
  refine ⟨by simpa [texts] using hlength, fun {r a} hra => ?_⟩
  have hmem : (chomp r.text, chomp a.text) ∈ (texts h.removed).zip (texts h.added) := by
    rw [texts, texts, List.zip_map]
    exact List.mem_map.mpr ⟨(r, a), hra, rfl⟩
  obtain ⟨b, hb, hbumps⟩ := hpairs _ hmem
  have hbumped := bumped_of_bumps hreads hclean hbumps (hresolves b hb)
  refine .inr ⟨?_, ?_, hbumped.of_chomp (hclean.endings c hc h hh (r, a) hra)⟩
  · exact hended r (List.mem_append_left _ (List.of_mem_zip hra).1)
  · exact hended a (List.mem_append_right _ (List.of_mem_zip hra).2)

/-- Lines outside of the hunks are the same. -/
theorem forall₂_of_edits {old new : List Record} {hunks : List Hunk} (h : Edits old hunks new)
    (hhunks : ∀ hunk ∈ hunks, List.Forall₂ (Pair remote) hunk.removed hunk.added) :
    List.Forall₂ (Pair remote) old new := by
  induction h with
  | same kept => exact List.forall₂_same.mpr fun _ _ => .inl rfl
  | hunk kept h rest ih =>
    have hkept : List.Forall₂ (Pair remote) kept kept := List.forall₂_same.mpr fun _ _ => .inl rfl
    have hrest := ih fun other hother => hhunks other (List.mem_cons_of_mem h hother)
    exact List.rel_append (List.rel_append hkept (hhunks h List.mem_cons_self)) hrest

/-- The part of a file after its last line feed, as records. -/
def restRecords (rest : Str) : List Record := if rest = [] then [] else [⟨rest, false⟩]

theorem not_pair_of_ended {text rest : Str} :
    ¬ Pair remote ⟨text, true⟩ ⟨rest, false⟩ ∧ ¬ Pair remote ⟨rest, false⟩ ⟨text, true⟩ := by
  constructor
  · rintro (heq | ⟨-, hended, -⟩)
    · cases heq
    · cases hended
  · rintro (heq | ⟨hended, -⟩)
    · cases heq
    · cases hended

theorem lines_of_records {lines lines' : List Str} {rest rest' : Str}
    (h : List.Forall₂ (Pair remote) (lines.map (Record.mk · true) ++ restRecords rest)
      (lines'.map (Record.mk · true) ++ restRecords rest')) :
    rest = rest' ∧ List.Forall₂ (fun removed added => removed ≠ added → Bumped remote removed added) lines lines' := by
  induction lines generalizing lines' with
  | nil =>
    cases lines' with
    | nil =>
      refine ⟨?_, .nil⟩
      simp only [List.map_nil, List.nil_append, restRecords] at h
      split at h <;> split at h
      · next h₁ h₂ => rw [h₁, h₂]
      · cases h
      · cases h
      · cases h with
        | cons hpair _ =>
          obtain heq | ⟨hended, -⟩ := hpair
          · exact (Record.mk.inj heq).1
          · cases hended
    | cons line lines' =>
      simp only [List.map_nil, List.nil_append, List.map_cons, List.cons_append, restRecords] at h
      split at h
      · cases h
      · cases h with
        | cons hpair _ => exact (not_pair_of_ended.2 hpair).elim
  | cons line lines ih =>
    cases lines' with
    | nil =>
      simp only [List.map_nil, List.nil_append, List.map_cons, List.cons_append] at h
      generalize hrest : restRecords rest' = records at h
      cases h with
      | cons hpair _ =>
        unfold restRecords at hrest
        split at hrest
        · cases hrest
        · cases hrest
          exact (not_pair_of_ended.1 hpair).elim
    | cons line' lines' =>
      cases h with
      | cons hpair htail =>
        obtain ⟨hrest, hlines⟩ := ih htail
        refine ⟨hrest, .cons (fun hne => ?_) hlines⟩
        obtain heq | ⟨-, -, hbumped⟩ := hpair
        · exact (hne (Record.mk.inj heq).1).elim
        · exact hbumped

end

/-! ### The verdict -/

/-- Only a file that is in both trees, with one mode, has no forbidden line. -/
theorem modified_of_metadata {c : Change}
    (h : ∀ line ∈ (fileText c).metadata, ∀ what ∈ forbidden, what.isPrefixOf line = false) :
    c.kind = .modified ∧ c.old.mode = c.new.mode := by
  have hline : ∀ {w rest : Str}, w ∈ forbidden → 13 ∉ w → w ++ rest ∉ c.kindLines := by
    intro w rest hw hcr hmem
    have hmetadata : chomp (w ++ rest) ∈ (fileText c).metadata :=
      List.mem_map_of_mem (List.mem_append_left _ (List.mem_append_left _ hmem))
    have hfalse := h _ hmetadata w hw
    rw [chomp_append hcr, List.isPrefixOf_iff_prefix.mpr (List.prefix_append _ _)] at hfalse
    cases hfalse
  have hmodes : c.modeLines ⊆ c.kindLines → c.old.mode = c.new.mode := by
    intro hsub
    by_contra hne
    have hmem : lit "old mode " ++ c.old.mode.text ∈ c.modeLines := by
      rw [Change.modeLines, if_neg hne]
      exact List.mem_cons_self
    have hword : lit "old mode " = lit "old mode" ++ [32] := by decide
    have hkinds := hsub hmem
    rw [hword, List.append_assoc] at hkinds
    exact hline (by decide) (by decide) hkinds
  cases hkind : c.kind with
  | modified =>
    have hlines : c.kindLines = c.modeLines := by simp only [Change.kindLines, hkind]
    exact ⟨rfl, hmodes (hlines ▸ List.Subset.refl _)⟩
  | added =>
    have hmem : lit "new file mode " ++ c.new.mode.text ∈ c.kindLines := by
      simp only [Change.kindLines, hkind, List.mem_singleton]
    have hword : lit "new file mode " = lit "new file mode" ++ [32] := by decide
    rw [hword, List.append_assoc] at hmem
    exact (hline (by decide) (by decide) hmem).elim
  | deleted =>
    have hmem : lit "deleted file mode " ++ c.old.mode.text ∈ c.kindLines := by
      simp only [Change.kindLines, hkind, List.mem_singleton]
    have hword : lit "deleted file mode " = lit "deleted file mode" ++ [32] := by decide
    rw [hword, List.append_assoc] at hmem
    exact (hline (by decide) (by decide) hmem).elim
  | renamed source similarity =>
    have hmem : lit "similarity index " ++ similarity ∈ c.kindLines := by
      simp only [Change.kindLines, hkind]
      exact List.mem_append_right _ List.mem_cons_self
    have hword : lit "similarity index " = lit "similarity index" ++ [32] := by decide
    rw [hword, List.append_assoc] at hmem
    exact (hline (by decide) (by decide) hmem).elim

/-- What the script reports exempt is a bump of actions and nothing else, where no line of the diff
    holds another line break, and no changed path or upstream ref a blank that is stripped. -/
theorem exempt_sound (git : Git) (base head : Tree) (changes : List Change) (remote : Remote)
    (hreads : Reads git base head changes remote) (hclean : Clean git changes)
    (hexempt : (check_bump git).isExempt = true) : Sound base head remote := by
  obtain ⟨names, diff, hnames, hdiff, hworkflow, hfiles, hupstream⟩ := exempt_spec hexempt
  rw [hreads.names names hnames] at hworkflow
  have hread : readDiff (splitLines (universalNewlines diff)) = changes.map fileText := by
    rw [hreads.diff diff hdiff]
    exact readDiff_diffU0 hreads.correct.sound fun c hc =>
      unbroken_lines (hreads.correct.sound c hc) (hclean.headings c hc) (hclean.texts c hc)
  rw [hread] at hfiles hupstream
  have hresolves := resolve_upstream_eq_nil (fun b hb => by
    obtain ⟨fd, -, hb⟩ := List.mem_flatMap.mp hb
    exact clean_of_mem_checkFile hb) hupstream
  intro path hpath
  obtain ⟨c, hc, hmem⟩ := hreads.correct.complete path hpath
  obtain ⟨hmetadata, hhunks⟩ := checkFile_eq_nil (hfiles _ (List.mem_map_of_mem hc))
  obtain ⟨hkind, hmode⟩ := modified_of_metadata hmetadata
  have hcorrect := hreads.correct.sound c hc
  obtain rfl : path = c.path := by simpa [Change.paths, hkind] using hmem
  have htrees := hcorrect.kind
  rw [hkind] at htrees
  have hpairs : ∀ h ∈ c.hunks, List.Forall₂ (Pair remote) h.removed h.added := by
    intro h hh
    obtain ⟨hcheck, hbumps⟩ := hhunks (hunkText h) (List.mem_map_of_mem hh)
    refine pairs_of_checkHunk hreads hclean hc hh hcheck fun b hb => hresolves b ?_
    exact List.mem_flatMap.mpr ⟨fileText c, List.mem_map_of_mem hc, hbumps b hb⟩
  obtain ⟨hrest, hlines⟩ := lines_of_records (forall₂_of_edits (hcorrect.edits hkind) hpairs)
  exact ⟨c.old, c.new, htrees.1, htrees.2, path_isWorkflow hc hcorrect.path (hclean.paths c hc) hworkflow, hmode,
    hrest, hlines⟩

/-! ### A workflow with one action -/

def uses (sha tag : String) : Str := lit "  - uses: a/b@" ++ lit sha ++ lit " # " ++ lit tag

def oldUses : Str := uses "1111111111111111111111111111111111111111" "v1"

def newUses : Str := uses "2222222222222222222222222222222222222222" "v1.2"

/-- The new line ends in a carriage return, a file of its own with a hunk of the same bump, and a command. -/
def splitUses : Str :=
  newUses ++ lit "\rdiff --git x\r  - run: id\r@@\r-" ++ oldUses ++ lit "\r+" ++ newUses

def workflowFile (line : Str) (hline : 10 ∉ line) : File where
  mode := .regular
  lines := [lit "name: ci", line]
  rest := []
  lines_ended := List.forall_mem_cons.mpr ⟨by decide, List.forall_mem_singleton.mpr hline⟩
  rest_open := List.not_mem_nil

def workflowTree (line : Str) (hline : 10 ∉ line) : Tree := fun path =>
  if path = lit ".github/workflows/ci.yml" then some (workflowFile line hline) else none

def workflowHunk (line : Str) : Hunk := ⟨lit "2 +2 @@ name: ci", [⟨oldUses, true⟩], [⟨line, true⟩]⟩

def workflowChange (line : Str) (hline : 10 ∉ line) : Change where
  kind := .modified
  path := lit ".github/workflows/ci.yml"
  old := workflowFile oldUses (by decide)
  new := workflowFile line hline
  index := some (lit "1..2 100644")
  hunks := [workflowHunk line]

def upstream : Remote := fun _ _ name =>
  if name = tagRef (lit "v1.2") then some (lit "2222222222222222222222222222222222222222") else none

def workflowGit (change : Change) : Git where
  names := some (nameOnly [change])
  diff := some (diffU0 [change])
  ls_remote _ _ tag :=
    if tag = lit "v1.2" then .listed [⟨lit "2222222222222222222222222222222222222222", tagRef tag⟩] else .failed

theorem correct_workflow (line : Str) (hline : 10 ∉ line) :
    (workflowChange line hline).Correct (workflowTree oldUses (by decide)) (workflowTree line hline) where
  kind := ⟨rfl, rfl⟩
  edits _ := by
    have hrecords : ∀ (l : Str) (h : 10 ∉ l),
        (workflowFile l h).records = [⟨lit "name: ci", true⟩] ++ [⟨l, true⟩] ++ [] :=
      fun l h => by simp [File.records, workflowFile]
    rw [workflowChange, hrecords, hrecords]
    exact .hunk [⟨lit "name: ci", true⟩] (workflowHunk line) (.same [])
  headings h hh := by
    obtain rfl := List.mem_singleton.mp hh
    simp only [workflowHunk]
    decide
  texts h hh r hr := by
    obtain rfl := List.mem_singleton.mp hh
    obtain rfl | hr := List.mem_cons.mp hr
    · decide
    · obtain rfl := List.mem_singleton.mp hr
      exact hline
  index text htext := by
    obtain rfl := Option.some.inj htext
    decide
  similarity _ _ hkind := by cases hkind
  path := List.cons_ne_nil _ _

theorem reads_workflow (line : Str) (hline : 10 ∉ line) :
    Reads (workflowGit (workflowChange line hline)) (workflowTree oldUses (by decide)) (workflowTree line hline)
      [workflowChange line hline] upstream where
  correct :=
    { sound := List.forall_mem_singleton.mpr (correct_workflow line hline)
      complete := by
        intro path hpath
        refine ⟨_, List.mem_singleton_self _, List.mem_singleton.mpr ?_⟩
        by_contra hother
        have hnone : ∀ (l : Str) (h : 10 ∉ l), workflowTree l h path = none := fun l h => if_neg hother
        rw [hnone, hnone] at hpath
        exact hpath rfl }
  names := by
    rintro out ⟨⟩
    rfl
  diff := by
    rintro out ⟨⟩
    rfl
  ls_remote := by
    intro owner repo tag listed hlisted
    simp only [workflowGit] at hlisted
    split at hlisted
    · next htag =>
      subst htag
      cases hlisted
      refine ⟨by simp [upstream], ?_, by decide, by decide⟩
      rintro name (rfl | rfl) sha hsha
      · simp only [upstream, if_true, Option.mem_def, Option.some.injEq] at hsha
        rw [← hsha]
        exact List.mem_singleton_self _
      · simp [upstream, peeledRef_ne_tagRef] at hsha
    · cases hlisted

/-- A bump of one action is exempt, and is what an exemption should be. -/
theorem exempt_sound_workflow :
    Sound (workflowTree oldUses (by decide)) (workflowTree newUses (by decide)) upstream := by
  have hclean : Clean (workflowGit (workflowChange newUses (by decide))) [workflowChange newUses (by decide)] := by
    refine ⟨by decide, by decide, by decide, by decide, ?_⟩
    intro owner repo tag listed hlisted
    simp only [workflowGit] at hlisted
    split at hlisted
    · next htag =>
      subst htag
      cases hlisted
      decide
    · cases hlisted
  exact exempt_sound _ _ _ _ _ (reads_workflow newUses (by decide)) hclean (by decide +kernel)

/-- Carriage returns in a line make a file and a hunk for the script that are none for git. -/
theorem split_line_exempt :
    Reads (workflowGit (workflowChange splitUses (by decide))) (workflowTree oldUses (by decide))
        (workflowTree splitUses (by decide)) [workflowChange splitUses (by decide)] upstream ∧
      (check_bump (workflowGit (workflowChange splitUses (by decide)))).isExempt = true ∧
      ¬ Sound (workflowTree oldUses (by decide)) (workflowTree splitUses (by decide)) upstream := by
  refine ⟨reads_workflow splitUses (by decide), by decide +kernel, fun hsound => ?_⟩
  have hfiles : ∀ (l : Str) (h : 10 ∉ l),
      workflowTree l h (lit ".github/workflows/ci.yml") = some (workflowFile l h) := fun l h => if_pos rfl
  have hdiffer : workflowTree oldUses (by decide) (lit ".github/workflows/ci.yml") ≠
      workflowTree splitUses (by decide) (lit ".github/workflows/ci.yml") := by
    rw [hfiles, hfiles]
    decide
  obtain ⟨old, new, hold, hnew, -, -, -, hlines⟩ := hsound _ hdiffer
  rw [hfiles] at hold hnew
  cases hold
  cases hnew
  obtain ⟨r, a, -, ha, -⟩ := (List.forall₂_cons.mp (List.forall₂_cons.mp hlines).2).1 (by decide)
  have hnone : usesRe splitUses = none := by decide +kernel
  rw [hnone] at ha
  cases ha

end narwhal.action_bump
