import Narwhal.Lib.Fold
import Narwhal.Portal.CacheInvalidation

open jslib narwhal.portal.cache_keys narwhal.portal.valkey

namespace narwhal.portal.cache_invalidation

/-! ### Batches -/

/-- The slices of a batch have its keys. -/
theorem mem_slices {batch : List Text} {key : Text} : (∃ slice ∈ slices batch, key ∈ slice) ↔ key ∈ batch := by
  constructor
  · rintro ⟨slice, hslice, hkey⟩
    obtain ⟨i, -, rfl⟩ := List.mem_map.mp hslice
    exact List.mem_of_mem_drop (List.mem_of_mem_take hkey)
  · intro hkey
    obtain ⟨i, hi, rfl⟩ := List.getElem_of_mem hkey
    have hbound : i / 100 < (batch.length + 99) / 100 := by omega
    refine ⟨_, List.mem_map.mpr ⟨i / 100, List.mem_range.mpr hbound, rfl⟩, ?_⟩
    have hslice : i % 100 < ((batch.drop (i / 100 * 100)).take 100).length := by
      rw [List.length_take, List.length_drop]
      omega
    have hget : ((batch.drop (i / 100 * 100)).take 100)[i % 100] = batch[i] := by
      rw [List.getElem_take, List.getElem_drop]
      congr 1
      omega
    rw [← hget]
    exact List.getElem_mem hslice

/-- A key that a page takes along: it is on the page, or its value is. -/
def Purges (keys : List Text) (key : Text) : Prop := key ∈ keys ∨ ∃ k ∈ keys, ¬ META <:+ k ∧ key = metaKey k

/-- A batch has the keys that are scanned, with those of their metadata. -/
theorem mem_batchOf {keys : List Text} {key : Text} : key ∈ batchOf keys ↔ Purges keys key := by
  unfold batchOf Purges
  rw [mem_setOf, List.mem_flatMap]
  constructor
  · rintro ⟨k, hk, hmem⟩
    by_cases hmeta : META <:+ k
    · rw [if_pos (List.isSuffixOf_iff_suffix.mpr hmeta)] at hmem
      obtain rfl := List.mem_singleton.mp hmem
      exact .inl hk
    · rw [if_neg fun h => hmeta (List.isSuffixOf_iff_suffix.mp h)] at hmem
      obtain rfl | hmem := List.mem_cons.mp hmem
      · exact .inl hk
      · exact .inr ⟨k, hk, hmeta, List.mem_singleton.mp hmem⟩
  · rintro (hk | ⟨k, hk, hmeta, rfl⟩)
    · refine ⟨key, hk, ?_⟩
      split <;> exact List.mem_cons_self
    · refine ⟨k, hk, ?_⟩
      rw [if_neg fun h => hmeta (List.isSuffixOf_iff_suffix.mp h)]
      exact List.mem_cons_of_mem _ List.mem_cons_self

/-- What is left of the data after these keys were deleted. -/
structure Without (removed : Text → Prop) (before after : Data) : Prop where
  gone : ∀ key, removed key → after key = none
  kept : ∀ key, ¬ removed key → after key = before key

/-- Removing keys takes away what they hold and nothing else. -/
theorem without_remove (data : Data) (keys : List Text) : Without (· ∈ keys) data (data.remove keys) where
  gone _ h := if_pos (List.contains_iff_mem.mpr h)
  kept _ h := if_neg (mt List.contains_iff_mem.mp h)

/-- What goes in two steps is what goes in one or the other. -/
theorem Without.trans {p q : Text → Prop} {a b c : Data} (hab : Without p a b) (hbc : Without q b c) :
    Without (fun key => p key ∨ q key) a c where
  gone key h := by
    by_cases hq : q key
    · exact hbc.gone key hq
    · rw [hbc.kept key hq]
      exact hab.gone key (h.resolve_right hq)
  kept key h := by
    rw [hbc.kept key fun hq => h (.inr hq), hab.kept key fun hp => h (.inl hp)]

theorem Without.congr {p q : Text → Prop} {a b : Data} (h : Without p a b) (hpq : ∀ key, p key ↔ q key) :
    Without q a b where
  gone key hq := h.gone key ((hpq key).mpr hq)
  kept key hq := h.kept key fun hp => hq ((hpq key).mp hp)

/-- Where no `UNLINK` fails, the keys of all batches are gone and no others. -/
theorem unlinkAll_done {data data' : Data} {batches : List (List Text)} {answers : List Answer}
    (h : unlinkAll data batches answers = (false, data')) :
    Without (fun key => ∃ slice ∈ batches, key ∈ slice) data data' := by
  induction batches generalizing data answers with
  | nil =>
    obtain ⟨-, rfl⟩ := Prod.mk.inj h
    exact ⟨fun key hkey => (by obtain ⟨slice, hslice, -⟩ := hkey; cases hslice), fun _ _ => rfl⟩
  | cons slice batches ih =>
    rw [unlinkAll] at h
    cases hanswer : answers.headD .served with
    | failed applied =>
      simp only [hanswer, Prod.mk.injEq] at h
      cases h.1
    | served =>
      simp only [hanswer] at h
      refine ((without_remove data slice).trans (ih h)).congr fun key => ?_
      simp

/-! ### Scans -/

/-- The keys on the pages of a scan, up to the last. -/
def scannedKeys : List ScanAnswer → List Text
  | .page nextCursor keys _ :: answers => keys ++ if nextCursor ≠ ['0'] then scannedKeys answers else []
  | _ => []

theorem purges_append {xs ys : List Text} {key : Text} : Purges (xs ++ ys) key ↔ Purges xs key ∨ Purges ys key := by
  simp only [Purges, List.mem_append]
  constructor
  · rintro ((h | h) | ⟨k, hk | hk, hmeta⟩)
    · exact .inl (.inl h)
    · exact .inr (.inl h)
    · exact .inl (.inr ⟨k, hk, hmeta⟩)
    · exact .inr (.inr ⟨k, hk, hmeta⟩)
  · rintro ((h | ⟨k, hk, hmeta⟩) | (h | ⟨k, hk, hmeta⟩))
    · exact .inl (.inl h)
    · exact .inr ⟨k, .inl hk, hmeta⟩
    · exact .inl (.inr h)
    · exact .inr ⟨k, .inr hk, hmeta⟩

/-- The keys that were scanned are gone, and no others. -/
theorem deletePattern_done {data data' : Data} {answers : List ScanAnswer}
    (h : deletePattern data answers = some (false, data')) : Without (Purges (scannedKeys answers)) data data' := by
  induction answers generalizing data with
  | nil => cases h
  | cons answer answers ih =>
    cases answer with
    | failed => simp [deletePattern] at h
    | page nextCursor keys unlinks =>
      rw [deletePattern] at h
      cases hunlink : unlinkAll data (slices (batchOf keys)) unlinks with
      | mk threw middle =>
        cases threw with
        | true => simp [hunlink] at h
        | false =>
          have hpage : Without (Purges keys) data middle :=
            (unlinkAll_done hunlink).congr fun key => mem_slices.trans mem_batchOf
          simp only [hunlink] at h
          by_cases hlast : nextCursor = ['0']
          · rw [if_neg fun hne => hne hlast] at h
            obtain ⟨-, rfl⟩ := Prod.mk.inj (Option.some.inj h)
            refine hpage.congr fun key => ?_
            rw [scannedKeys, if_neg fun hne => hne hlast, List.append_nil]
          · rw [if_pos hlast] at h
            refine (hpage.trans (ih h)).congr fun key => ?_
            rw [scannedKeys, if_pos hlast, purges_append]

/-- What Valkey promises of a scan: it returns matches only, and each that is there throughout. -/
structure ScanCovers (pattern : Text) (answers : List ScanAnswer) (before after : Data) : Prop where
  sound : ∀ key ∈ scannedKeys answers, globMatch pattern key = true
  covers : ∀ key, globMatch pattern key = true → before key ≠ none → after key ≠ none → key ∈ scannedKeys answers

/-! ### One pattern -/

/-- What the turn of a pattern does to the data, where the client is connected or not. -/
structure Deals (pattern : Text) (connected : Bool) (before after : Data) : Prop where
  shrinks : ∀ key, after key ≠ none → after key = before key
  complete : (isLiteral pattern = true → connected = true) → ∀ key, globMatch pattern key = true → after key = none
  sibling : ∀ key, ¬ META <:+ key → before key ≠ none → after key = none → after (metaKey key) = none
  framed : ∀ key, (isLiteral pattern = true → connected = true → key ≠ pattern ∧ key ≠ metaKey pattern) →
    (isLiteral pattern = false → globMatch pattern key = false ∧ ∀ k, globMatch pattern k = true → key ≠ metaKey k) →
    after key = before key

theorem meta_suffix (key : Text) : META <:+ metaKey key := List.suffix_append _ _

/-- A pattern without a glob is dealt with by its two keys, -/
theorem Without.deals_literal {pattern : Text} {before after : Data} (hliteral : isLiteral pattern = true)
    (h : Without (· ∈ [pattern, metaKey pattern]) before after) : Deals pattern true before after where
  shrinks key hkey := h.kept key fun hmem => hkey (h.gone key hmem)
  complete _ key hmatch := by
    rw [globMatch_literal hliteral] at hmatch
    exact h.gone key (hmatch ▸ List.mem_cons_self)
  sibling key hmeta hbefore hafter := by
    by_cases hmem : key ∈ [pattern, metaKey pattern]
    · obtain rfl | hmem := List.mem_cons.mp hmem
      · exact h.gone _ (List.mem_cons_of_mem _ List.mem_cons_self)
      · rw [List.mem_singleton.mp hmem] at hmeta
        exact absurd (meta_suffix pattern) hmeta
    · rw [h.kept key hmem] at hafter
      exact absurd hafter hbefore
  framed key hother _ := by
    obtain ⟨hne, hnemeta⟩ := hother hliteral rfl
    exact h.kept key (by simp [hne, hnemeta])

/-- or left alone where there is no connection. -/
theorem deals_skipped {pattern : Text} (hliteral : isLiteral pattern = true) (data : Data) :
    Deals pattern false data data where
  shrinks _ _ := rfl
  complete h := absurd (h hliteral) Bool.false_ne_true
  sibling _ _ hbefore hafter := absurd hafter hbefore
  framed _ _ _ := rfl

/-- A glob is dealt with where the scan covers what was there. -/
theorem Without.deals_scan {pattern : Text} {connected : Bool} {answers : List ScanAnswer} {before after : Data}
    (hliteral : isLiteral pattern = false) (h : Without (Purges (scannedKeys answers)) before after)
    (hscan : ScanCovers pattern answers before after) : Deals pattern connected before after where
  shrinks key hkey := h.kept key fun hmem => hkey (h.gone key hmem)
  complete _ key hmatch := by
    by_contra hafter
    have hbefore : before key ≠ none := by
      rw [← h.kept key fun hmem => hafter (h.gone key hmem)]
      exact hafter
    exact hafter (h.gone key (.inl (hscan.covers key hmatch hbefore hafter)))
  sibling key hmeta hbefore hafter := by
    by_cases hpurges : Purges (scannedKeys answers) key
    · obtain hmem | ⟨k, -, -, rfl⟩ := hpurges
      · exact h.gone _ (.inr ⟨key, hmem, hmeta, rfl⟩)
      · exact absurd (meta_suffix k) hmeta
    · rw [h.kept key hpurges] at hafter
      exact absurd hafter hbefore
  framed key _ hother := by
    obtain ⟨hmatch, hmeta⟩ := hother hliteral
    apply h.kept
    rintro (hmem | ⟨k, hk, -, hkey⟩)
    · rw [hscan.sound key hmem] at hmatch
      cases hmatch
    · exact hmeta k (hscan.sound k hk) hkey

/-- Everything a turn can do that logs no failure. -/
theorem invalidatePattern_done {turn : Turn} {s s' : Cache} {pattern : Text}
    (h : invalidatePattern turn s pattern = some (s', false))
    (hscan : isLiteral pattern = false → ScanCovers pattern turn.scans s.data s'.data) :
    s'.isValkeyConnected = (turn.start s).isValkeyConnected ∧
      Deals pattern (turn.start s).isValkeyConnected s.data s'.data := by
  have hdata : (turn.start s).data = s.data := by
    unfold Turn.start
    split <;> rfl
  unfold invalidatePattern at h
  rw [← hdata] at hscan ⊢
  generalize turn.start s = started at h hscan ⊢
  cases hliteral : isLiteral pattern with
  | true =>
    simp only [hliteral, if_true, Option.some.injEq, Cache.cacheDel] at h
    cases hconnected : started.isValkeyConnected with
    | false =>
      simp only [hconnected, Bool.false_eq_true, not_false_eq_true, if_true] at h
      obtain ⟨rfl, -⟩ := Prod.mk.inj h
      exact ⟨hconnected, deals_skipped hliteral _⟩
    | true =>
      simp only [hconnected, not_true_eq_false, if_false] at h
      obtain ⟨rfl, hanswer⟩ := Prod.mk.inj h
      have hserved : turn.del = .served := by simpa using hanswer
      rw [hserved]
      exact ⟨rfl, (without_remove _ _).deals_literal hliteral⟩
  | false =>
    simp only [hliteral, Bool.false_eq_true, if_false] at h
    obtain ⟨⟨threw, data⟩, hdelete, heq⟩ := Option.map_eq_some_iff.mp h
    obtain ⟨rfl, rfl⟩ := Prod.mk.inj heq
    exact ⟨rfl, (deletePattern_done hdelete).deals_scan hliteral (hscan hliteral)⟩

/-! ### A run over the patterns of an event -/

/-- Every scan of the run is as Valkey promises. -/
def Scanned (turns : Text → Turn) (s : Cache) : List Text → Prop
  | [] => True
  | pattern :: patterns =>
    ∀ s' logged, invalidatePattern (turns pattern) s pattern = some (s', logged) →
      (isLiteral pattern = false → ScanCovers pattern (turns pattern).scans s.data s'.data) ∧ Scanned turns s' patterns

/-- Whether the client is connected when the pattern's turn comes: the last event before says so,
    or else the flag at the start. -/
def connectedAt (turns : Text → Turn) (connected : Bool) (pattern : Text) : List Text → Bool
  | [] => connected
  | p :: patterns =>
    let connected := (turns p).event.getD connected
    if p = pattern then connected else connectedAt turns connected pattern patterns

/-- What a run that logs no failure does to the data. -/
structure Invalidates (turns : Text → Turn) (patterns : List Text) (s s' : Cache) : Prop where
  shrinks : ∀ key, s'.data key ≠ none → s'.data key = s.data key
  complete : ∀ pattern ∈ patterns,
    (isLiteral pattern = true → connectedAt turns s.isValkeyConnected pattern patterns = true) →
    ∀ key, globMatch pattern key = true → s'.data key = none
  sibling : ∀ key, ¬ META <:+ key → s.data key ≠ none → s'.data key = none → s'.data (metaKey key) = none
  framed : ∀ key, (∀ pattern ∈ patterns,
      (isLiteral pattern = true → connectedAt turns s.isValkeyConnected pattern patterns = true →
        key ≠ pattern ∧ key ≠ metaKey pattern) ∧
      (isLiteral pattern = false → globMatch pattern key = false ∧ ∀ k, globMatch pattern k = true → key ≠ metaKey k)) →
    s'.data key = s.data key

theorem isValkeyConnected_start (turn : Turn) (s : Cache) :
    (turn.start s).isValkeyConnected = turn.event.getD s.isValkeyConnected := by
  unfold Turn.start
  cases turn.event <;> rfl

/-- An invalidation that reports no failure has dealt with each of its patterns. -/
theorem invalidateAll_done {turns : Text → Turn} {patterns : List Text} (hnodup : patterns.Nodup) {s s' : Cache}
    (h : invalidateAll turns s patterns = some (s', false)) (hscanned : Scanned turns s patterns) :
    Invalidates turns patterns s s' := by
  induction patterns generalizing s with
  | nil =>
    obtain ⟨rfl, -⟩ := Prod.mk.inj (Option.some.inj h)
    exact ⟨fun _ _ => rfl, fun _ hmem => (by cases hmem), fun _ _ hbefore hafter => absurd hafter hbefore, fun _ _ => rfl⟩
  | cons p patterns ih =>
    obtain ⟨hp, hnodup⟩ := List.nodup_cons.mp hnodup
    obtain ⟨⟨middle, logged⟩, hfirst, h⟩ := Option.bind_eq_some_iff.mp h
    obtain ⟨⟨last, loggedLater⟩, hrest, h⟩ := Option.bind_eq_some_iff.mp h
    obtain ⟨rfl, hlogged⟩ := Prod.mk.inj (Option.some.inj h)
    obtain ⟨rfl, rfl⟩ := Bool.or_eq_false_iff.mp hlogged
    obtain ⟨hcovers, hscanned⟩ := hscanned _ _ hfirst
    obtain ⟨hflag, hdeals⟩ := invalidatePattern_done hfirst hcovers
    have hrun := ih hnodup hrest hscanned
    rw [isValkeyConnected_start] at hflag hdeals
    have hhead : connectedAt turns s.isValkeyConnected p (p :: patterns) = (turns p).event.getD s.isValkeyConnected :=
      if_pos rfl
    have htail : ∀ q ∈ patterns, connectedAt turns s.isValkeyConnected q (p :: patterns) =
        connectedAt turns middle.isValkeyConnected q patterns := by
      intro q hq
      have hne : p ≠ q := fun heq => hp (heq ▸ hq)
      rw [hflag]
      exact if_neg hne
    refine ⟨fun key hkey => ?_, fun q hq hconnected key hmatch => ?_, fun key hmeta hbefore hafter => ?_,
      fun key hframe => ?_⟩
    · have hkept := hrun.shrinks key hkey
      rw [hkept]
      exact hdeals.shrinks key (hkept ▸ hkey)
    · obtain rfl | hq := List.mem_cons.mp hq
      · rw [hhead] at hconnected
        by_contra hafter
        have hgone := hdeals.complete hconnected key hmatch
        exact hafter ((hrun.shrinks key hafter).trans hgone)
      · rw [htail q hq] at hconnected
        exact hrun.complete q hq hconnected key hmatch
    · by_cases hmiddle : middle.data key = none
      · have hgone := hdeals.sibling key hmeta hbefore hmiddle
        by_contra hleft
        exact hleft ((hrun.shrinks _ hleft).trans hgone)
      · exact hrun.sibling key hmeta hmiddle hafter
    · have hfirstFrame := hframe p List.mem_cons_self
      rw [hhead] at hfirstFrame
      rw [hrun.framed key ?_, hdeals.framed key hfirstFrame.1 hfirstFrame.2]
      intro q hq
      have hrestFrame := hframe q (List.mem_cons_of_mem _ hq)
      rwa [htail q hq] at hrestFrame

end narwhal.portal.cache_invalidation
