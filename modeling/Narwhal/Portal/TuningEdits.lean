import Narwhal.Lib.Run
import Narwhal.Portal.TuningVerify

open jslib
open pylib (Allowed allowed_concat_iff)

namespace narwhal.portal.tuning_commands

/-! ### `grep -v` -/

/-- A basic regular expression in which only the dot is special matches at the beginning of the text. -/
def matchesHere : Text → Text → Bool
  | [], _ => true
  | _ :: _, [] => false
  | p :: pattern, c :: s => (p == '.' || p == c) && matchesHere pattern s

/-- It matches somewhere in the line. -/
def grepMatches (pattern line : Text) : Bool := line.tails.any (matchesHere pattern)

/-- No character of the pattern but the dot is special, and it is no option. -/
def isBasic (pattern : Text) : Bool :=
  pattern.head? ≠ some '-' && pattern.all fun c =>
    isLower c || isUpper c || isDigit c || c == '_' || c == '-' || c == '.' || c == ' '

/-- The lines that `grep -v` prints; for other patterns they are left to `grep`. -/
def grepV (grep : Text → List Text → List Text) (pattern : Text) (lines : List Text) : List Text :=
  if isBasic pattern then lines.filter fun line => !grepMatches pattern line else grep pattern lines

/-! ### The edit of a configuration file -/

/-- What the commands of a target do to a file: the lines that match the pattern go, and the text comes after the
    others. -/
structure Edit where
  file : Text
  pattern : Text
  text : Text
deriving DecidableEq, Repr

def ApplyTarget.edit : ApplyTarget → Option Edit
  | .kernelParam param value =>
    match sysctlFile param with
    | .ok file => some ⟨file, param, param ++ " = ".toList ++ value⟩
    | .error _ => none
  | .kernelModule module => some ⟨"/etc/modules-load.d/k8s.conf".toList, module, module⟩
  | .ulimit name scope value =>
    some ⟨"/etc/security/limits.d/k8s.conf".toList, scope ++ " ".toList ++ name ++ " ".toList,
      "* ".toList ++ scope ++ " ".toList ++ name ++ " ".toList ++ value⟩
  | _ => none

/-- The commands that edit the file, where its name is written as `word`. -/
def Edit.commands (e : Edit) (word : Text) : List Text :=
  ["grep -v ".toList ++ shellEscape e.pattern ++ " ".toList ++ word ++ " 2>/dev/null > ".toList ++ word ++
      ".tmp || true".toList,
    "echo ".toList ++ shellEscape e.text ++ " >> ".toList ++ word ++ ".tmp".toList,
    "mv ".toList ++ word ++ ".tmp ".toList ++ word]

/-- Text files by their names, as the lines that `grep` reads: of the characters of the host, without line feed and
    NUL. -/
abbrev Files := Text → List Text

/-- The three commands; a missing file counts as an empty one. -/
def Edit.apply (e : Edit) (grep : Text → List Text → List Text) (files : Files) : Files :=
  Function.update files e.file (grepV grep e.pattern (files e.file) ++ e.text.splitOn '\n')

/-- The commands of a target end with those that edit its file. -/
theorem buildCommands_edit {target : ApplyTarget} {commands : List Text} {e : Edit}
    (h : buildCommands target = .ok commands) (hedit : target.edit = some e) :
    ∃ before word, (word = e.file ∨ word = shellEscape e.file) ∧ commands = before ++ e.commands word := by
  cases target with
  | kernelParam param value =>
    simp only [ApplyTarget.edit] at hedit
    simp only [buildCommands] at h
    split at h
    · cases h
    split at h
    · cases h
    split at h
    · cases h
    next file hfile =>
    rw [hfile] at hedit
    obtain rfl := Option.some.inj hedit
    obtain rfl := Except.ok.inj h
    exact ⟨_ :: [_], shellEscape file, .inr rfl, rfl⟩
  | kernelModule module =>
    obtain rfl := Option.some.inj hedit
    simp only [buildCommands] at h
    split at h
    · cases h
    obtain rfl := Except.ok.inj h
    refine ⟨["modprobe ".toList ++ shellEscape module, "mkdir -p /etc/modules-load.d".toList], _, .inl rfl, ?_⟩
    simp only [Edit.commands, List.cons_append, List.nil_append, List.append_assoc]
    rfl
  | ulimit name scope value =>
    obtain rfl := Option.some.inj hedit
    simp only [buildCommands] at h
    split at h
    · cases h
    obtain rfl := Except.ok.inj h
    exact ⟨[_], _, .inr rfl, rfl⟩
  | package _ | swapOff | serviceEnable _ | ethtool _ _ _ | tuningScript _ => cases hedit

/-- The files of the targets of this kind. -/
def Kind.files : Kind → List Text
  | .kernelParam =>
    ["/etc/sysctl.d/k8s-network.conf".toList, "/etc/sysctl.d/k8s-disable-ipv6.conf".toList,
      "/etc/sysctl.d/99-k8s-tuning.conf".toList]
  | .kernelModule => ["/etc/modules-load.d/k8s.conf".toList]
  | .ulimit => ["/etc/security/limits.d/k8s.conf".toList]
  | _ => []

theorem sysctlFile_mem {param file : Text} (h : sysctlFile param = .ok file) : file ∈ Kind.kernelParam.files := by
  simp only [sysctlFile] at h
  split at h
  · next found hfound =>
    obtain ⟨before, after, hentries, -⟩ := List.lookup_eq_some_iff.mp hfound
    have hall : ∀ entry ∈ SYSCTL_FILE, entry.2.toList ∈ Kind.kernelParam.files := by decide
    obtain rfl := Except.ok.inj h
    exact hall (String.ofList param, found) (hentries ▸ by simp)
  · split at h
    · cases h
    · obtain rfl := Except.ok.inj h
      decide

theorem file_mem_files {target : ApplyTarget} {e : Edit} (h : target.edit = some e) : e.file ∈ target.kind.files := by
  cases target with
  | kernelParam param value =>
    simp only [ApplyTarget.edit] at h
    split at h
    · next file hfile =>
      obtain rfl := Option.some.inj h
      exact sysctlFile_mem hfile
    · cases h
  | kernelModule module =>
    obtain rfl := Option.some.inj h
    exact List.mem_singleton.mpr rfl
  | ulimit name scope value =>
    obtain rfl := Option.some.inj h
    exact List.mem_singleton.mpr rfl
  | package _ | swapOff | serviceEnable _ | ethtool _ _ _ | tuningScript _ => cases h

theorem not_mem_files {kind kind' : Kind} (hne : kind ≠ kind') {file : Text} (h : file ∈ kind.files) :
    file ∉ kind'.files := by
  revert file
  revert hne
  cases kind <;> cases kind' <;> decide

/-! ### Entries -/

/-- The parameter that a line of `sysctl.d` sets, with or without the dash that has errors ignored. -/
def sysctlKey (line : Text) : Option Text :=
  let key := trimText (line.takeWhile (· ≠ '='))
  if '=' ∉ line then none else if key.head? = some '-' then some (trimText key.tail) else some key

/-- The dots and slashes of a parameter are exchanged where a dot comes first. -/
def sysctlPath (key : Text) : Text :=
  if key.find? (fun c => c == '.' || c == '/') = some '.' then
    key.map fun c => if c = '.' then '/' else if c = '/' then '.' else c
  else key

/-- The name of a kernel module, in which dashes count as underscores. -/
def moduleName (module : Text) : Text := module.map fun c => if c = '-' then '_' else c

/-- What a line of the configuration file of this kind is an entry for. -/
def entryName : Kind → Text → Option (List Text)
  | .kernelParam, line => (sysctlKey line).map fun key => [sysctlPath key]
  | .kernelModule, line => some [moduleName (trimText line)]
  | .ulimit, line => (limitOf line).map fun limit => [limit.1, limit.2.1]
  | _, _ => none

/-- What tells the entry of a target from others of its kind. -/
def ApplyTarget.identity : ApplyTarget → List Text
  | .kernelParam param _ => [sysctlPath param]
  | .kernelModule module => [moduleName module]
  | .ulimit name scope _ => [scope, name]
  | _ => []

def IsEntry (target : ApplyTarget) (line : Text) : Prop := entryName target.kind line = some target.identity

instance (target : ApplyTarget) (line : Text) : Decidable (IsEntry target line) := inferInstanceAs (Decidable (_ = _))

/-- Only the entries of the target have changed: one is left, and it is the last line. -/
def OnlyEntry (target : ApplyTarget) (before after : List Text) : Prop :=
  ∃ line, IsEntry target line ∧ after = before.filter (fun line => ¬ IsEntry target line) ++ [line]

/-- The pattern takes out the entries of the target and nothing else, and what is written is one line, an entry. -/
structure Spares (grep : Text → List Text → List Text) (target : ApplyTarget) (e : Edit) (lines : List Text) : Prop where
  basic : isBasic e.pattern = true → ∀ line ∈ lines, grepMatches e.pattern line = true ↔ IsEntry target line
  other : isBasic e.pattern = false → grep e.pattern lines = lines.filter fun line => ¬ IsEntry target line
  line : '\n' ∉ e.text
  entry : IsEntry target e.text

instance (grep : Text → List Text → List Text) (target : ApplyTarget) (e : Edit) (lines : List Text) :
    Decidable (Spares grep target e lines) :=
  decidable_of_iff ((isBasic e.pattern = true → ∀ line ∈ lines, grepMatches e.pattern line = true ↔ IsEntry target line) ∧
      (isBasic e.pattern = false → grep e.pattern lines = lines.filter fun line => ¬ IsEntry target line) ∧
      '\n' ∉ e.text ∧ IsEntry target e.text)
    ⟨fun h => ⟨h.1, h.2.1, h.2.2.1, h.2.2.2⟩, fun h => ⟨h.basic, h.other, h.line, h.entry⟩⟩

/-! ### One target -/

section

variable {grep : Text → List Text → List Text} {target : ApplyTarget} {commands : List Text} {e : Edit}
  {lines : List Text}

theorem filter_eq_filter_iff {α : Type} {p q : α → Bool} {l : List α} :
    l.filter p = l.filter q ↔ ∀ a ∈ l, p a = q a := by
  constructor
  · intro h a ha
    have hp : p a = true ↔ q a = true := by
      have hmem : a ∈ l.filter p ↔ a ∈ l.filter q := by rw [h]
      simpa [ha] using hmem
    exact Bool.eq_iff_iff.mpr hp
  · exact List.filter_congr

/-- `grep -v` prints the other lines exactly where the pattern spares them. -/
theorem grepV_eq_iff : grepV grep e.pattern lines = lines.filter (fun line => ¬ IsEntry target line) ↔
    (isBasic e.pattern = true → ∀ line ∈ lines, grepMatches e.pattern line = true ↔ IsEntry target line) ∧
      (isBasic e.pattern = false → grep e.pattern lines = lines.filter fun line => ¬ IsEntry target line) := by
  unfold grepV
  cases isBasic e.pattern with
  | false => simp
  | true =>
    simp only [if_true, filter_eq_filter_iff, Bool.not_eq_eq_eq_not, true_implies, Bool.true_eq_false, false_implies,
      and_true]
    refine forall₂_congr fun line _ => ?_
    by_cases hentry : IsEntry target line
    · simp [hentry]
    · simp [hentry]

theorem splitOn_of_not_mem {s : Text} (h : '\n' ∉ s) : s.splitOn '\n' = [s] := by
  rw [List.splitOn_eq_splitOnP, List.splitOnP_eq_singleton]
  intro c hc
  simp only [beq_eq_false_iff_ne]
  rintro rfl
  exact h hc

/-- A text with a line feed ends with a line of its own. -/
theorem splitOn_of_mem {s : Text} (h : '\n' ∈ s) :
    ∃ front last, s = front ++ '\n' :: last ∧ s.splitOn '\n' = front.splitOn '\n' ++ [last] := by
  have hlast : ∃ front last, s = front ++ '\n' :: last ∧ '\n' ∉ last := by
    induction s with
    | nil => cases h
    | cons c s ih =>
      by_cases hs : '\n' ∈ s
      · obtain ⟨front, last, rfl, hlast⟩ := ih hs
        exact ⟨c :: front, last, rfl, hlast⟩
      · obtain rfl : '\n' = c := (List.mem_cons.mp h).resolve_right hs
        exact ⟨[], s, rfl, hs⟩
  obtain ⟨front, last, rfl, hlast⟩ := hlast
  refine ⟨front, last, rfl, ?_⟩
  rw [← splitOn_of_not_mem hlast]
  simp only [List.splitOn_eq_splitOnP]
  exact List.splitOnP_append_cons front last (beq_self_eq_true _)

theorem entryName_unique {kind : Kind} {line : Text} {name name' : List Text} (h : entryName kind line = some name)
    (h' : entryName kind line = some name') : name = name' := Option.some.inj (h.symm.trans h')

/-- What the last line of a text of several lines holds is no entry: such a text comes from a value. -/
theorem not_isEntry_last (haccepted : buildCommands target = .ok commands) (hedit : target.edit = some e)
    {front last : Text} (htext : e.text = front ++ '\n' :: last) : ¬ IsEntry target last := by
  intro hentry
  have hmem : '\n' ∈ e.text := by
    rw [htext]
    exact List.mem_append_right front List.mem_cons_self
  cases target with
  | kernelParam param value =>
    simp only [ApplyTarget.edit] at hedit
    simp only [buildCommands] at haccepted
    split at haccepted
    · cases haccepted
    next hparam =>
    split at haccepted
    · cases haccepted
    next hvalue =>
    split at haccepted
    · cases haccepted
    next file hfile =>
    rw [hfile] at hedit
    obtain rfl := Option.some.inj hedit
    have hlast : '=' ∈ last := by
      by_contra hnot
      simp [IsEntry, entryName, ApplyTarget.kind, sysctlKey, hnot] at hentry
    have hvalue : '=' ∉ value := by
      intro hmem
      rw [not_not, SAFE_VALUE, Bool.and_eq_true, List.all_eq_true] at hvalue
      exact absurd (hvalue.2 '=' hmem) (by decide)
    have hparam : '\n' ∉ param ++ " =".toList := by
      rw [not_not, SAFE_PARAM, Bool.and_eq_true, List.all_eq_true] at hparam
      rw [List.mem_append]
      rintro (hmem | hmem)
      · exact absurd (hparam.2 '\n' hmem) (by decide)
      · exact absurd hmem (by decide)
    have htext : (param ++ " =".toList) ++ (' ' :: value) = front ++ '\n' :: last := by
      rw [← htext]
      simp
    -- The line feed stands after the only equals sign of the text.
    rcases List.append_eq_append_iff.mp htext with ⟨middle, rfl, hrest⟩ | ⟨middle, hfront, hrest⟩
    · have hmem : '=' ∈ ' ' :: value := hrest ▸ by simp [hlast]
      exact hvalue ((List.mem_cons.mp hmem).resolve_left (by decide))
    · cases middle with
      | nil =>
        rw [List.nil_append, List.cons.injEq] at hrest
        exact absurd hrest.1 (by decide)
      | cons c middle =>
        rw [List.cons_append, List.cons.injEq] at hrest
        exact hparam (hfront ▸ by simp [← hrest.1])
  | kernelModule module =>
    obtain rfl := Option.some.inj hedit
    simp only [buildCommands] at haccepted
    split at haccepted
    · cases haccepted
    next hmodule =>
    have hnone : ∀ module ∈ ALLOWED_MODULES, '\n' ∉ module := by decide
    exact hnone module (not_not.mp hmodule) hmem
  | ulimit name scope value =>
    obtain rfl := Option.some.inj hedit
    simp only [buildCommands] at haccepted
    split at haccepted
    · cases haccepted
    next hvalue =>
    -- An entry has the scope and the name among its fields, so the line feed would stand in the value.
    have hfields : ∃ domain value', fields (last.takeWhile (· ≠ '#')) = [domain, scope, name, value'] := by
      simp only [IsEntry, entryName, ApplyTarget.kind, limitOf, ApplyTarget.identity, Option.map_eq_some_iff] at hentry
      obtain ⟨limit, hlimit, hname⟩ := hentry
      split at hlimit
      · next domain scope' name' value' hfields =>
        obtain rfl := Option.some.inj hlimit
        simp only [List.cons.injEq, and_true] at hname
        obtain ⟨rfl, rfl⟩ := hname
        exact ⟨_, _, hfields⟩
      · cases hlimit
    obtain ⟨domain, value', hfields⟩ := hfields
    have hscope : '\n' ∉ scope := fun hmem =>
      absurd (isSpace_of_mem_fields (by rw [hfields]; simp) '\n' hmem) (by decide)
    have hname : '\n' ∉ name := fun hmem =>
      absurd (isSpace_of_mem_fields (by rw [hfields]; simp) '\n' hmem) (by decide)
    have hvalue : '\n' ∉ value := by
      intro hmem
      simp only [ALLOWED_ULIMIT_VALUES, not_not, Bool.or_eq_true, Bool.and_eq_true, List.all_eq_true, beq_iff_eq] at hvalue
      rcases hvalue with ⟨-, hdigits⟩ | rfl
      · exact absurd (hdigits '\n' hmem) (by decide)
      · exact absurd hmem (by decide)
    simp [hscope, hname, hvalue] at hmem
  | package _ | swapOff | serviceEnable _ | ethtool _ _ _ | tuningScript _ => cases hedit

/-- The edit of a target changes only its entry exactly where the pattern spares the others and the text is an entry. -/
theorem onlyEntry_iff (haccepted : buildCommands target = .ok commands) (hedit : target.edit = some e) :
    OnlyEntry target lines (grepV grep e.pattern lines ++ e.text.splitOn '\n') ↔ Spares grep target e lines := by
  constructor
  · rintro ⟨line, hentry, hafter⟩
    have hline : '\n' ∉ e.text := by
      intro hmem
      obtain ⟨front, last, htext, hsplit⟩ := splitOn_of_mem hmem
      rw [hsplit, ← List.append_assoc] at hafter
      obtain rfl := (List.append_singleton_inj.mp hafter).2
      exact not_isEntry_last haccepted hedit htext hentry
    rw [splitOn_of_not_mem hline] at hafter
    obtain ⟨hgrep, rfl⟩ := List.append_singleton_inj.mp hafter
    obtain ⟨hbasic, hother⟩ := grepV_eq_iff.mp hgrep
    exact ⟨hbasic, hother, hline, hentry⟩
  · intro h
    refine ⟨e.text, h.entry, ?_⟩
    rw [splitOn_of_not_mem h.line, grepV_eq_iff.mpr ⟨h.basic, h.other⟩]

end

/-! ### Runs -/

/-- An accepted target whose commands edit a file. -/
structure PersistedTarget where
  target : ApplyTarget
  edit : Edit
  accepted : ∃ commands, buildCommands target = .ok commands
  edits : target.edit = some edit

namespace PersistedTarget

def Distinct (t t' : PersistedTarget) : Prop :=
  t.target.kind = t'.target.kind → t.target.identity ≠ t'.target.identity

def apply (grep : Text → List Text → List Text) (files : Files) (t : PersistedTarget) : Files := t.edit.apply grep files

/-- The edit spares the other lines of the file as it is now. -/
def Spares (grep : Text → List Text → List Text) (files : Files) (t : PersistedTarget) : Prop :=
  tuning_commands.Spares grep t.target t.edit (files t.edit.file)

def entries (files : Files) (t : PersistedTarget) : Nat := (files t.edit.file).countP (IsEntry t.target)

section

variable {grep : Text → List Text → List Text} {files : Files} {t t' : PersistedTarget} {targets : List PersistedTarget}

theorem onlyEntry_iff : OnlyEntry t.target (files t.edit.file) (t.apply grep files t.edit.file) ↔ t.Spares grep files := by
  obtain ⟨commands, haccepted⟩ := t.accepted
  rw [apply, Edit.apply, Function.update_self]
  exact tuning_commands.onlyEntry_iff haccepted t.edits

/-- The kinds of targets keep their entries in different files. -/
theorem kind_eq_of_file_eq (h : t.edit.file = t'.edit.file) : t.target.kind = t'.target.kind := by
  by_contra hne
  have hmem := file_mem_files t.edits
  rw [h] at hmem
  exact not_mem_files hne hmem (file_mem_files t'.edits)

theorem IsEntry.distinct {line : Text} (h : IsEntry t.target line) (h' : IsEntry t'.target line)
    (hkind : t.target.kind = t'.target.kind) : ¬ t.Distinct t' := by
  intro hdistinct
  rw [IsEntry, hkind] at h
  exact hdistinct hkind (entryName_unique h h')

theorem entries_apply_self (h : t.Spares grep files) : (t.entries (t.apply grep files)) = 1 := by
  obtain ⟨line, hentry, hafter⟩ := onlyEntry_iff.mpr h
  rw [entries, hafter, List.countP_append, List.countP_filter]
  simp [hentry]

/-- The edit of another target leaves the entries of this one. -/
theorem entries_apply (h : t'.Spares grep files) (hdistinct : t.Distinct t') :
    t.entries (t'.apply grep files) = t.entries files := by
  by_cases hfile : t.edit.file = t'.edit.file
  · have hkind := kind_eq_of_file_eq hfile
    obtain ⟨line, hentry, hafter⟩ := onlyEntry_iff.mpr h
    have hline : ¬ IsEntry t.target line := fun hown => IsEntry.distinct hown hentry hkind hdistinct
    rw [entries, hfile, hafter, entries, hfile, List.countP_append, List.countP_singleton, List.countP_filter]
    rw [if_neg (by simpa using hline), Nat.add_zero]
    refine List.countP_congr fun own _ => ?_
    simp only [Bool.and_eq_true, decide_eq_true_eq, and_iff_left_iff_imp]
    exact fun hown hother => IsEntry.distinct hown hother hkind hdistinct
  · rw [entries, apply, Edit.apply, Function.update_of_ne hfile, entries]

/-- After a run of edits that spare the other lines each target has one entry. -/
theorem entries_run (hdistinct : targets.Pairwise Distinct) (hrun : Allowed (apply grep) (Spares grep) files targets) :
    ∀ t ∈ targets, t.entries (targets.foldl (apply grep) files) = 1 := by
  induction targets using List.reverseRecOn with
  | nil => simp
  | append_singleton targets last ih =>
    obtain ⟨hbefore, hlast⟩ := allowed_concat_iff.mp hrun
    obtain ⟨hpairs, -, hothers⟩ := List.pairwise_append.mp hdistinct
    rw [List.foldl_append]
    intro t ht
    rcases List.mem_append.mp ht with ht | ht
    · have hone := ih hpairs hbefore t ht
      rw [← hone]
      exact entries_apply hlast (hothers t ht last (List.mem_singleton.mpr rfl))
    · obtain rfl := List.mem_singleton.mp ht
      exact entries_apply_self hlast

end

end PersistedTarget

/-- The commands of a target end with its edit; this changes only the entry of the target exactly where the pattern spares
    the other lines of the file, and runs of such edits leave one entry for each target. -/
theorem edits_own_entry_iff (grep : Text → List Text → List Text) :
    (∀ (t : PersistedTarget) (commands : List Text), buildCommands t.target = .ok commands →
      ∃ before word, (word = t.edit.file ∨ word = shellEscape t.edit.file) ∧ commands = before ++ t.edit.commands word) ∧
    (∀ (t : PersistedTarget) (files : Files),
      OnlyEntry t.target (files t.edit.file) (t.apply grep files t.edit.file) ↔ t.Spares grep files) ∧
    ∀ (targets : List PersistedTarget) (files : Files), targets.Pairwise PersistedTarget.Distinct →
      Allowed (PersistedTarget.apply grep) (PersistedTarget.Spares grep) files targets →
        ∀ t ∈ targets, t.entries (targets.foldl (PersistedTarget.apply grep) files) = 1 := by
  refine ⟨?_, ?_, ?_⟩
  · exact fun t commands hcommands => buildCommands_edit hcommands t.edits
  · exact fun t files => PersistedTarget.onlyEntry_iff
  · exact fun targets files => PersistedTarget.entries_run

/-- The module `ip_vs`, whose name is contained in others. -/
def ipVs : PersistedTarget :=
  ⟨.kernelModule "ip_vs".toList, ⟨"/etc/modules-load.d/k8s.conf".toList, "ip_vs".toList, "ip_vs".toList⟩,
    ⟨_, rfl⟩, rfl⟩

def ipVsRr : PersistedTarget :=
  ⟨.kernelModule "ip_vs_rr".toList, ⟨"/etc/modules-load.d/k8s.conf".toList, "ip_vs_rr".toList, "ip_vs_rr".toList⟩,
    ⟨_, rfl⟩, rfl⟩

def ipForward : PersistedTarget :=
  ⟨.kernelParam "net.ipv4.ip_forward".toList "1".toList,
    ⟨"/etc/sysctl.d/k8s-network.conf".toList, "net.ipv4.ip_forward".toList, "net.ipv4.ip_forward = 1".toList⟩,
    ⟨_, rfl⟩, rfl⟩

def softNofile : PersistedTarget :=
  ⟨.ulimit "nofile".toList "soft".toList "65536".toList,
    ⟨"/etc/security/limits.d/k8s.conf".toList, "soft nofile ".toList, "* soft nofile 65536".toList⟩, ⟨_, rfl⟩, rfl⟩

/-- Files with an older value of `net.ipv4.ip_forward`, the module `ip_vs` and another limit. -/
def sampleFiles (file : Text) : List Text :=
  if file = ipForward.edit.file then ["net.ipv4.ip_forward = 0".toList, "net.bridge.bridge-nf-call-iptables = 1".toList]
  else if file = ipVs.edit.file then ["ip_vs".toList, "br_netfilter".toList]
  else if file = softNofile.edit.file then ["* hard nofile 65536".toList]
  else []

/-- The module `ip_vs` comes before `ip_vs_rr`, so each of the targets is left with its entry. -/
theorem edits_own_entry_sample : ∀ t ∈ [ipForward, ipVs, softNofile, ipVsRr],
    t.entries ([ipForward, ipVs, softNofile, ipVsRr].foldl (PersistedTarget.apply fun _ lines => lines) sampleFiles) = 1 := by
  apply (edits_own_entry_iff fun _ lines => lines).2.2
  · unfold PersistedTarget.Distinct
    decide +kernel
  · simp only [Allowed, PersistedTarget.Spares]
    decide +kernel

/-- Loading `ip_vs` takes out the entry of `ip_vs_rr`. -/
theorem contained_module_deleted :
    ¬ OnlyEntry ipVs.target ["ip_vs_rr".toList]
      (ipVs.apply (fun _ lines => lines) (fun _ => ["ip_vs_rr".toList]) ipVs.edit.file) := by
  intro h
  have hspares := PersistedTarget.onlyEntry_iff.mp h
  have hentry := (hspares.basic (by decide) "ip_vs_rr".toList (by decide)).mp (by decide)
  exact absurd hentry (by decide)

end narwhal.portal.tuning_commands
