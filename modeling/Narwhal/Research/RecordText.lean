import Narwhal.Research.RunRecorded

open pylib narwhal.check_research_evidence

namespace narwhal.run_recorded

/-! No secret is found in the text of a record. -/

/-! ### The texts of a record -/

def SYSTEMS : List String := ["linux", "macos", "windows", "other"]

def MACHINES : List String := ["x64", "arm64", "other"]

def PLATFORMS : List Str := SYSTEMS.flatMap fun system => MACHINES.map fun machine => lit system ++ 47 :: lit machine

/-- The environments under a prefix. -/
def environments (begins : Str) : List Str :=
  SYSTEMS.flatMap fun system => ("unknown" :: MACHINES).map fun machine => begins ++ lit system ++ 45 :: lit machine

def ENVIRONMENTS : List Str := environments (lit "local/") ++ environments (lit "github-actions/")

/-- The strings that a record takes from lists. -/
def WORDS : List String :=
  "1.0" :: REPOSITORY :: (EVENT_TYPES ++ TASK_EVENTS.map Prod.fst ++ RESULTS ++ FAILURE_STAGES ++ RECOVERY_RESULTS)

/-- The letters of times, revisions and digests. -/
def PLAIN : Str := lit "0123456789abcdef-T:.Zsh"

/-- What the other strings of a record are made of. -/
def PIECES : List Str :=
  PLAIN.map (fun c => [c]) ++
    (["local/", "github-actions/", "local-", "github-actions-", "/", "unknown"] ++ SYSTEMS ++ MACHINES).map lit

/-- The keys of a record and of its metadata. -/
def KEYS : List Str := (requiredFields ++ metadataFields).map lit

/-- A string of a record. -/
def Written (s : Str) : Prop := s ∈ WORDS.map lit ∨ ∃ pieces : List Str, (∀ piece ∈ pieces, piece ∈ PIECES) ∧ s = pieces.flatten

/-- Times, revisions and digests are strings of a record. -/
theorem written_of_plain {s : Str} (h : ∀ c ∈ s, c ∈ PLAIN) : Written s := by
  refine .inr ⟨s.map fun c => [c], fun piece hpiece => ?_, ?_⟩
  · obtain ⟨c, hc, rfl⟩ := List.mem_map.mp hpiece
    exact List.mem_append_left _ (List.mem_map_of_mem (h c hc))
  · exact (List.flatMap_singleton' s).symm

theorem mem_pieces {name : String}
    (h : name ∈ ["local/", "github-actions/", "local-", "github-actions-", "/", "unknown"] ++ SYSTEMS ++ MACHINES) :
    lit name ∈ PIECES :=
  List.mem_append_right _ (List.mem_map_of_mem h)

/-- So are the environments under each of the prefixes, -/
theorem written_of_mem_environments {begins : String} {s : Str}
    (hbegins : begins ∈ ["local/", "github-actions/", "local-", "github-actions-"]) (h : s ∈ environments (lit begins)) :
    Written s := by
  obtain ⟨system, hsystem, hs⟩ := List.mem_flatMap.mp h
  obtain ⟨machine, hmachine, rfl⟩ := List.mem_map.mp hs
  refine .inr ⟨[lit begins, lit system, [45], lit machine], ?_, by simp⟩
  simp only [List.forall_mem_cons]
  refine ⟨mem_pieces ?_, mem_pieces ?_, List.mem_append_left _ (by decide), mem_pieces ?_, List.forall_mem_nil _⟩
  · exact List.mem_append_left _ (List.mem_append_left _ (List.mem_append_left ["/", "unknown"] hbegins))
  · exact List.mem_append_left _ (List.mem_append_right _ hsystem)
  · obtain rfl | hmachine := List.mem_cons.mp hmachine
    · decide
    · exact List.mem_append_right _ hmachine

/-- and the platforms. -/
theorem written_of_mem_platforms {s : Str} (h : s ∈ PLATFORMS) : Written s := by
  obtain ⟨system, hsystem, hs⟩ := List.mem_flatMap.mp h
  obtain ⟨machine, hmachine, rfl⟩ := List.mem_map.mp hs
  refine .inr ⟨[lit system, [47], lit machine], ?_, by simp⟩
  simp only [List.forall_mem_cons]
  refine ⟨mem_pieces ?_, @mem_pieces "/" (by decide), mem_pieces ?_, List.forall_mem_nil _⟩
  · exact List.mem_append_left _ (List.mem_append_right _ hsystem)
  · exact List.mem_append_right _ hmachine

/-- A name that is translated is one of the table, or the default. -/
theorem translate_mem {table : List (String × String)} {default : String} {names : List String}
    (h : default :: table.map Prod.snd ⊆ names) (key : Str) : translate table key default ∈ names := by
  apply h
  rw [translate]
  cases hfind : table.find? fun entry => lit entry.1 = key with
  | none => exact List.mem_cons_self
  | some entry => exact List.mem_cons_of_mem _ (List.mem_map_of_mem (List.mem_of_find?_eq_some hfind))

theorem mem_environments {begins : Str} {system machine : String} (hsystem : system ∈ SYSTEMS)
    (hmachine : machine ∈ "unknown" :: MACHINES) : begins ++ lit system ++ 45 :: lit machine ∈ environments begins :=
  List.mem_flatMap.mpr ⟨system, hsystem, List.mem_map_of_mem hmachine⟩

theorem written_of_mem_ENVIRONMENTS {s : Str} (h : s ∈ ENVIRONMENTS) : Written s := by
  obtain hlocal | hgithub := List.mem_append.mp h
  · exact @written_of_mem_environments "local/" s (by decide) hlocal
  · exact @written_of_mem_environments "github-actions/" s (by decide) hgithub

/-- The labels of a host are among those environments and platforms. -/
theorem environment_label_mem (host : Host) :
    (environment_label host).1 ∈ ENVIRONMENTS ∧ (environment_label host).2 ∈ PLATFORMS := by
  have hplatform : ∀ {system machine : String}, system ∈ SYSTEMS → machine ∈ MACHINES →
      lit system ++ 47 :: lit machine ∈ PLATFORMS := by
    intro system machine hsystem hmachine
    exact List.mem_flatMap.mpr ⟨system, hsystem, List.mem_map_of_mem hmachine⟩
  have hsystem := @translate_mem [("linux", "linux"), ("darwin", "macos"), ("windows", "windows")] "other" SYSTEMS (by decide)
  have hmachine := @translate_mem [("x86_64", "x64"), ("amd64", "x64"), ("aarch64", "arm64"), ("arm64", "arm64")] "other"
    MACHINES (by decide)
  rw [environment_label]
  dsimp only
  split_ifs
  · refine ⟨List.mem_append_right _ (mem_environments ?_ ?_), hplatform (hsystem _) (hmachine _)⟩
    · exact translate_mem (by decide) _
    · exact translate_mem (by decide) _
  · refine ⟨List.mem_append_left _ (mem_environments (hsystem _) ?_), hplatform (hsystem _) (hmachine _)⟩
    exact List.mem_cons_of_mem _ (hmachine _)

/-! ### What the patterns have begun to match -/

/-- What a search has begun to match after a text. -/
def begun (r : Regex CodeClass) (w : String) : List (Regex CodeClass) :=
  (lit w).foldl (fun ts c => Regex.next hasFolded (r :: ts) c) []

/-- What a search has begun to match between two pieces. -/
def withinPieces (r : Regex CodeClass) : List (Regex CodeClass) :=
  ["bea", "s", "se", "sec", "t", "-----", "-----b", "-----be"].flatMap (begun r)

/-- Up to a value the shared pattern may have matched the quoted name of a stage, which no colon follows. -/
def afterStage : List (Regex CodeClass) := begun check_research_evidence.SECRET_PATTERN "authorization\""

/-- The pattern of this script passes over the marks and constants of JSON. -/
theorem own_passes : Passes hasFolded SECRET_PATTERN [] (withinPieces SECRET_PATTERN) where
  out_subset := List.nil_subset _
  opening := by decide +kernel
  comma := by decide +kernel
  closing := by decide +kernel
  constant := by decide +kernel
  number := by decide +kernel
  ends := by decide +kernel

/-- The pattern of the shared check does so too, after the name of a stage as well. -/
theorem shared_passes : Passes hasFolded check_research_evidence.SECRET_PATTERN afterStage
    (afterStage ++ withinPieces check_research_evidence.SECRET_PATTERN) where
  out_subset := List.subset_append_left _ _
  opening := by decide +kernel
  comma := by decide +kernel
  closing := by decide +kernel
  constant := by decide +kernel
  number := by decide +kernel
  ends := by decide +kernel

section

variable {r : Regex CodeClass} {out done : List (Regex CodeClass)} {quoted : Str → Str}

/-- A string passes a search that passes over every word and every piece. -/
theorem quiet_written (hwords : ∀ s ∈ WORDS, r.quiet hasFolded out (quoted (lit s)) done = true)
    (hquoted : ∀ s, (∀ c ∈ s, c ∈ PIECES.flatten) → quoted s = 34 :: (s ++ [34]))
    (hbegin : r.quiet hasFolded out [34] (withinPieces r) = true)
    (hpieces : ∀ piece ∈ PIECES, r.quiet hasFolded (withinPieces r) piece (withinPieces r) = true)
    (hend : r.quiet hasFolded (withinPieces r) [34] done = true) {s : Str} (h : Written s) :
    r.quiet hasFolded out (quoted s) done = true := by
  obtain hword | ⟨pieces, hall, rfl⟩ := h
  · obtain ⟨s, hs, rfl⟩ := List.mem_map.mp hword
    exact hwords s hs
  · have hplain : ∀ c ∈ pieces.flatten, c ∈ PIECES.flatten := by
      intro c hc
      obtain ⟨piece, hpiece, hc⟩ := List.mem_flatten.mp hc
      exact List.mem_flatten.mpr ⟨piece, hall piece hpiece, hc⟩
    rw [hquoted _ hplain]
    exact Regex.quiet_append hbegin (Regex.quiet_append (Regex.quiet_flatten fun p hp => hpieces p (hall p hp)) hend)

end

/-- No character of a piece is escaped. -/
theorem quote_pieces {s : Str} (h : ∀ c ∈ s, c ∈ PIECES.flatten) :
    quote s = 34 :: (s ++ [34]) ∧ quoteAscii s = 34 :: (s ++ [34]) := by
  have hescape : ∀ c ∈ PIECES.flatten, escapeChar c = [c] ∧ escapeAscii c = [c] := by decide +kernel
  have hflat : ∀ {f : Nat → Str} {s : Str}, (∀ c ∈ s, f c = [c]) → s.flatMap f = s := by
    intro f s hf
    induction s with
    | nil => rfl
    | cons c s ih =>
      obtain ⟨hc, hs⟩ := List.forall_mem_cons.mp hf
      rw [List.flatMap_cons, hc, ih hs]
      rfl
  rw [quote, quoteAscii, hflat fun c hc => (hescape c (h c hc)).1, hflat fun c hc => (hescape c (h c hc)).2]
  exact ⟨rfl, rfl⟩

section

variable {good : String → Prop}

/-- The lists that the words come from, one by one. -/
theorem forall_mem_words (hversion : good "1.0") (hrepository : good REPOSITORY) (hevents : ∀ s ∈ EVENT_TYPES, good s)
    (htasks : ∀ s ∈ TASK_EVENTS.map Prod.fst, good s) (hresults : ∀ s ∈ RESULTS, good s)
    (hstages : ∀ s ∈ FAILURE_STAGES, good s) (hrecovery : ∀ s ∈ RECOVERY_RESULTS, good s) : ∀ s ∈ WORDS, good s := by
  simp only [WORDS, List.forall_mem_cons, List.forall_mem_append]
  exact ⟨hversion, hrepository, ⟨⟨⟨hevents, htasks⟩, hresults⟩, hstages⟩, hrecovery⟩

end

theorem forall_mem_keys {good : Str → Prop} (hrequired : ∀ s ∈ requiredFields, good (lit s))
    (hmetadata : ∀ s ∈ metadataFields, good (lit s)) : ∀ k ∈ KEYS, good k := by
  simp only [KEYS, List.forall_mem_map, List.forall_mem_append]
  exact ⟨hrequired, hmetadata⟩

/-- Neither pattern finds a secret in the text of a value made of the keys and the strings of records. -/
theorem no_secret {value : Json} (h : value.Made (· ∈ KEYS) Written) :
    searchFolded SECRET_PATTERN (spaced quoteAscii value) = false ∧
      searchFolded check_research_evidence.SECRET_PATTERN (spaced quote value) = false := by
  constructor
  · refine own_passes.finds_spaced_eq_false (forall_mem_keys ?_ ?_) (fun s hs => ?_) h
    · decide +kernel
    · decide +kernel
    · refine quiet_written ?_ (fun s hs => (quote_pieces hs).2) (by decide +kernel) (by decide +kernel) (by decide +kernel) hs
      apply forall_mem_words <;> decide +kernel
  · refine shared_passes.finds_spaced_eq_false (forall_mem_keys ?_ ?_) (fun s hs => ?_) h
    · decide +kernel
    · decide +kernel
    · refine quiet_written ?_ (fun s hs => (quote_pieces hs).1) (by decide +kernel) (by decide +kernel) (by decide +kernel) hs
      apply forall_mem_words <;> decide +kernel

end narwhal.run_recorded
