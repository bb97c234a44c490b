import Narwhal.Evidence.ChainWorld

open pylib

namespace narwhal.evidence

/-- The grant an append call consumes. -/
def AppendCall.grant : AppendCall → Option Str
  | .intent grant_id _ => some grant_id
  | .result .. => none

/-- The intent an append call settles. -/
def AppendCall.settles : AppendCall → Option Int
  | .intent .. => none
  | .result intent_seq _ _ => some intent_seq

/-- The file's last line has no line feed. -/
def EndsPartial (file : Bytes) : Prop := file ≠ [] ∧ ¬ [10] <:+ file

/-! ### What the tables remember -/

theorem Encodes.mem {lines : List Bytes} {entries : List Json} (h : Encodes lines entries) {line : Bytes}
    {entry : Json} (hmem : line ∈ lines) (hline : Parses line entry) : entry ∈ entries := by
  induction h with
  | nil => cases hmem
  | cons hfirst _ ih =>
    rcases List.mem_cons.mp hmem with rfl | hmem
    · rw [hline.unique hfirst]
      exact List.mem_cons_self
    · exact List.mem_cons_of_mem _ (ih hmem)

theorem mem_consumed_of_mem {s : ChainView} {entries : List Json} {entry : Json} (hmem : entry ∈ entries)
    (hkind : Json.get entry "kind" = some (.str (lit "intent"))) :
    Json.getStr entry "grant_id" [] ∈ (s.absorbAll entries).tables.consumed_grants := by
  induction entries using List.reverseRecOn with
  | nil => cases hmem
  | append_singleton entries last ih =>
    rw [ChainView.absorbAll_concat, ChainView.absorb, Tables.record]
    rcases List.mem_append.mp hmem with hold | hnew
    · split
      · exact List.mem_cons_of_mem _ (ih hold)
      · exact ih hold
    · obtain rfl := List.mem_singleton.mp hnew
      rw [if_pos hkind]
      exact List.mem_cons_self

theorem lookup_result_of_mem {s : ChainView} {entries : List Json} {entry : Json} (hmem : entry ∈ entries)
    (hkind : Json.get entry "kind" ≠ some (.str (lit "intent"))) :
    ((s.absorbAll entries).tables.results_by_intent.lookup (Json.getInt entry "intent_seq" 0)).isSome = true := by
  induction entries using List.reverseRecOn with
  | nil => cases hmem
  | append_singleton entries last ih =>
    rw [ChainView.absorbAll_concat, ChainView.absorb, Tables.record]
    rcases List.mem_append.mp hmem with hold | hnew
    · split
      · exact ih hold
      · rw [List.lookup_cons]
        split
        · rfl
        · exact ih hold
    · obtain rfl := List.mem_singleton.mp hnew
      rw [if_neg hkind]
      simp

/-! ### What the file remembers -/

/-- A line of the file shows the entry of a call that returned normally. -/
def Shows (file : Bytes) (call : AppendCall) : Prop :=
  ∃ line ∈ fileLines file, ∃ entry, Parses line entry ∧
    match call with
    | .intent grant_id _ =>
      Json.get entry "kind" = some (.str (lit "intent")) ∧ Json.getStr entry "grant_id" [] = grant_id
    | .result intent_seq _ _ =>
      Json.get entry "kind" ≠ some (.str (lit "intent")) ∧ Json.getInt entry "intent_seq" 0 = intent_seq

theorem Shows.mono {file : Bytes} {call : AppendCall} (h : Shows file call) {file' : Bytes} (hfile : file <+: file') :
    Shows file' call := by
  obtain ⟨line, hmem, entry, hline, hcall⟩ := h
  obtain ⟨more, rfl⟩ := hfile
  exact ⟨line, mem_fileLines_append hmem hline.isLine more, entry, hline, hcall⟩

/-- A successful call shows in the file it leaves. -/
theorem Drafts.shows {w : ChainWriter} {env : Env} {call : AppendCall} {rec : List (Str × Json)}
    (hdraft : Drafts w env call rec) {hash : Str} {sig line : Bytes} (hwritten : Written w rec hash sig line)
    {lines : List Bytes} (hlines : ∀ line ∈ lines, IsLine line) : Shows (lines.flatten ++ line) call := by
  have hfile : fileLines (lines.flatten ++ line) = lines ++ [line] := by
    have hall : ∀ l ∈ lines ++ [line], IsLine l := by
      simp only [List.mem_append, List.mem_singleton]
      rintro l (hl | rfl)
      · exact hlines l hl
      · exact hwritten.parses.isLine
    simpa using fileLines_flatten hall
  refine ⟨line, by simp [hfile], _, hwritten.parses, ?_⟩
  cases hdraft with
  | intent => simp [sealed_intent_record, Json.getStr]
  | result => simp [sealed_result_record, Json.getInt]

/-- A writer that has read the whole file drafts nothing the file already shows. -/
theorem Drafts.fresh {w : ChainWriter} {env : Env} {call : AppendCall} {rec : List (Str × Json)}
    (hdraft : Drafts w env call rec) {lines : List Bytes} {entries : List Json} (htracks : Tracks w lines entries)
    {other : AppendCall} (hother : Shows lines.flatten other) :
    (call.grant.isSome → other.grant ≠ call.grant) ∧ (call.settles.isSome → other.settles ≠ call.settles) := by
  obtain ⟨line, hmem, entry, hline, hshown⟩ := hother
  rw [fileLines_flatten htracks.encodes.isLine] at hmem
  have hentry := htracks.encodes.mem hmem hline
  have htables : w.tables = (ChainView.genesis.absorbAll entries).tables := congrArg ChainView.tables htracks.view
  cases hdraft with
  | intent hgrant hinv hfresh =>
    refine ⟨fun _ heq => ?_, fun h => by cases h⟩
    cases other with
    | result => cases heq
    | intent grant_id invocation_hash =>
      cases heq
      obtain ⟨hkind, rfl⟩ := hshown
      rw [htables] at hfresh
      exact hfresh (mem_consumed_of_mem hentry hkind)
  | result hseq houtcome hintent hresult =>
    refine ⟨(fun h => by cases h), fun _ heq => ?_⟩
    cases other with
    | intent => cases heq
    | result intent_seq outcome grant_id =>
      cases heq
      obtain ⟨hkind, rfl⟩ := hshown
      have hsome := lookup_result_of_mem (s := .genesis) hentry hkind
      rw [← htables, hresult] at hsome
      cases hsome

/-! ### Runs -/

/-- No property is asked of what a writer has read. -/
def anything : ChainWriter → List Json → Prop := fun _ _ => True

theorem keptBySync_anything : KeptBySync anything := fun _ _ _ _ _ _ _ _ _ _ => trivial

theorem Tracks.not_endsPartial {w : ChainWriter} {lines : List Bytes} {entries : List Json}
    (h : Tracks w lines entries) : ¬ EndsPartial lines.flatten := by
  rintro ⟨hne, hend⟩
  rcases List.eq_nil_or_concat lines with rfl | ⟨front, last, rfl⟩
  · exact hne rfl
  · obtain ⟨body, hbody, _⟩ := h.encodes.isLine last (by simp)
    refine hend ⟨front.flatten ++ body, ?_⟩
    simp [hbody]

/-- The writers are sane, the file shows every successful call, and no two of these
    consumed one grant or settled one intent. -/
structure Ledger (s : World) : Prop where
  sound : s.Sound anything
  shows : ∀ call ∈ s.log, Shows s.chain call
  grants : (s.log.filterMap AppendCall.grant).Nodup
  settled : (s.log.filterMap AppendCall.settles).Nodup

theorem Ledger.start (chain : Bytes) : Ledger (.start chain) :=
  ⟨by simp [World.Sound, World.start], by simp [World.start], by simp [World.start], by simp [World.start]⟩

private theorem nodup_filterMap_cons {α β : Type} {f : α → Option β} {a : α} {as : List α}
    (h : (as.filterMap f).Nodup) (hfresh : (f a).isSome → ∀ b ∈ as, f b ≠ f a) : ((a :: as).filterMap f).Nodup := by
  rw [List.filterMap_cons]
  cases hf : f a with
  | none => exact h
  | some x =>
    refine List.nodup_cons.mpr ⟨fun hmem => ?_, h⟩
    obtain ⟨b, hb, hfb⟩ := List.mem_filterMap.mp hmem
    exact hfresh (by simp [hf]) b hb (hfb.trans hf.symm)

/-- What one append call does to the file and the log of a world that keeps the ledger. -/
theorem Ledger.append {s : World} (h : Ledger s) {i : Nat} {call : AppendCall} {env : Env} {w : ChainWriter}
    (hw : s.writers[i]? = some w) :
    Ledger (s.step (.append i call env)) ∧
      (EndsPartial s.chain → (s.step (.append i call env)).chain = s.chain ∧
        (s.step (.append i call env)).log = s.log) := by
  have hsane := h.sound w (List.mem_of_getElem? hw)
  have hsound : (s.step (.append i call env)).Sound _ := h.sound.append keptBySync_anything
    fun _ _ _ _ _ _ _ _ _ _ _ _ _ _ _ _ => trivial
  have hcases := call.run_cases w env s.chain
  rw [World.step_append hw] at hsound ⊢
  generalize call.run w env s.chain = o at hcases hsound
  cases hcases with
  | refused e => exact ⟨⟨hsound, h.shows, h.grants, h.settled⟩, fun _ => ⟨rfl, rfl⟩⟩
  | unlocked e reason => exact ⟨⟨hsound, h.shows, h.grants, h.settled⟩, fun _ => ⟨rfl, rfl⟩⟩
  | unsynced e w' => exact ⟨⟨hsound, h.shows, h.grants, h.settled⟩, fun _ => ⟨rfl, rfl⟩⟩
  | declined e w' => exact ⟨⟨hsound, h.shows, h.grants, h.settled⟩, fun _ => ⟨rfl, rfl⟩⟩
  | torn w' rec hash sig line written hclean hsync =>
    obtain ⟨lines, entries, hfile, htracks, _⟩ := (hsane.sync keptBySync_anything hclean hsync).2 rfl
    refine ⟨⟨hsound, fun other hother => (h.shows other hother).mono (List.prefix_append _ _), h.grants, h.settled⟩,
      fun htorn => ?_⟩
    rw [hfile] at htorn
    exact absurd htorn htracks.not_endsPartial
  | appended w' rec hash sig line hclean hstate hsync hdraft hwritten =>
    obtain ⟨lines, entries, hfile, htracks, _⟩ := (hsane.sync keptBySync_anything hclean hsync).2 rfl
    have hfresh : ∀ other ∈ s.log, _ := fun other hother =>
      hdraft.fresh htracks (by rw [← hfile]; exact h.shows other hother)
    refine ⟨⟨hsound, ?_, ?_, ?_⟩, fun htorn => ?_⟩
    · intro other hother
      rcases List.mem_cons.mp hother with rfl | hold
      · have := hdraft.shows hwritten htracks.encodes.isLine
        rwa [← hfile] at this
      · exact (h.shows other hold).mono (List.prefix_append _ _)
    · exact nodup_filterMap_cons h.grants fun hsome other hother => (hfresh other hother).1 hsome
    · exact nodup_filterMap_cons h.settled fun hsome other hother => (hfresh other hother).2 hsome
    · rw [hfile] at htorn
      exact absurd htorn htracks.not_endsPartial

/-- One step keeps the ledger, and does nothing to a file that ends in a partial line. -/
theorem Ledger.step {s : World} (h : Ledger s) (op : Op) :
    Ledger (s.step op) ∧ (EndsPartial s.chain → (s.step op).chain = s.chain ∧ (s.step op).log = s.log) := by
  cases op with
  | open_writer instance_id epoch signer verifier stat =>
    have hsound : (s.step (.open_writer instance_id epoch signer verifier stat)).Sound _ :=
      h.sound.open_writer fun _ _ _ _ _ _ _ => trivial
    cases hinit : ChainWriter.init instance_id epoch signer verifier stat s.chain with
    | error e =>
      rw [World.step_open_error hinit]
      exact ⟨h, fun _ => ⟨rfl, rfl⟩⟩
    | ok w =>
      rw [World.step_open_ok hinit] at hsound ⊢
      exact ⟨⟨hsound, h.shows, h.grants, h.settled⟩, fun _ => ⟨rfl, rfl⟩⟩
  | append i call env =>
    cases hw : s.writers[i]? with
    | none =>
      rw [World.step_append_none hw]
      exact ⟨h, fun _ => ⟨rfl, rfl⟩⟩
    | some w => exact h.append hw
  | get_head i env =>
    have hsound : (s.step (.get_head i env)).Sound _ := h.sound.get_head keptBySync_anything
    cases hw : s.writers[i]? with
    | none =>
      rw [World.step_get_head_none hw]
      exact ⟨h, fun _ => ⟨rfl, rfl⟩⟩
    | some w =>
      have hfile := get_head_file w env s.chain
      rw [World.step_get_head hw] at hsound ⊢
      refine ⟨⟨hsound, ?_, h.grants, h.settled⟩, fun _ => ⟨hfile, rfl⟩⟩
      simp only [World.settle, hfile]
      exact h.shows

theorem Ledger.run {s : World} (h : Ledger s) (ops : List Op) : Ledger (s.run ops) :=
  (allowed_of_forall (fun _ _ => trivial) s ops : Allowed World.step (fun _ _ => True) s ops).invariant
    (fun _ op hs _ => (hs.step op).1) h

/-- A file that ends in a partial line stays as it is. -/
theorem Ledger.frozen {s : World} (h : Ledger s) (htorn : EndsPartial s.chain) (ops : List Op) :
    (s.run ops).log = s.log := by
  induction ops generalizing s with
  | nil => rfl
  | cons op ops ih =>
    obtain ⟨hnext, hsame⟩ := h.step op
    obtain ⟨hchain, hlog⟩ := hsame htorn
    have := ih hnext (by rw [hchain]; exact htorn)
    exact this.trans hlog

/-- Spend once, across writers, restarts and torn writes: whatever is done to a chain
    file through its writers, no grant is consumed twice, no intent gets two results,
    and no append succeeds once the file ends in a partial line. -/
theorem spend_once (chain : Bytes) (ops : List Op) :
    (((World.start chain).run ops).log.filterMap AppendCall.grant).Nodup ∧
      (((World.start chain).run ops).log.filterMap AppendCall.settles).Nodup ∧
      (EndsPartial ((World.start chain).run ops).chain →
        ∀ later, (((World.start chain).run ops).run later).log = ((World.start chain).run ops).log) := by
  have hledger := (Ledger.start chain).run ops
  exact ⟨hledger.grants, hledger.settled, hledger.frozen⟩

end narwhal.evidence
