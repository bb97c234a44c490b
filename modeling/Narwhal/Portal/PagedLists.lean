import Narwhal.Portal.InformerResync
import Narwhal.Portal.K8sList

open jslib

namespace narwhal.portal.informer

/-! ### The requests of a relist -/

/-- The items of a page and the cursor to the next one. -/
def PageAnswer.page : PageAnswer → Option (List K8sEvent × String)
  | .body response => response.check.map fun page => (page.1, page.2.2)
  | _ => none

/-- The page loop with its requests, each by its cursor and with its answer. -/
def resyncLoop (answers : Nat → PageAnswer) (cursors : List String) (cursor resourceVersion : String)
    (items : List K8sEvent) (log : List (String × PageAnswer)) :
    Nat → Except String Snapshot × List (String × PageAnswer)
  | 0 => (.error "resync events page limit exceeded", log)
  | left + 1 =>
    let answer := answers log.length
    let log := log ++ [(cursor, answer)]
    match answer with
    | .threw message => (.error message, log)
    | .status code => (.error ("resync events " ++ toString code), log)
    | .body body =>
      match body.check with
      | none => (.error "resync events invalid bounded list", log)
      | some (more, pageVersion, cursor) =>
        if resourceVersion ≠ "" ∧ resourceVersion ≠ pageVersion then (.error "resync events snapshot changed", log)
        else if cursor = "" then (.ok ⟨pageVersion, items ++ more⟩, log)
        else if cursor ∈ cursors then (.error "resync events repeated cursor", log)
        else resyncLoop answers (cursor :: cursors) cursor pageVersion (items ++ more) log left

/-- A relist with its requests. -/
def listEventsForResyncRequests (answers : Nat → PageAnswer) : Except String Snapshot × List (String × PageAnswer) :=
  resyncLoop answers [] "" "" [] [] MAX_PAGES

section

variable {answers : Nat → PageAnswer} {cursors : List String} {cursor resourceVersion : String} {items : List K8sEvent}
  {log : List (String × PageAnswer)} {left : Nat} {snapshot : Snapshot}

/-- The requests do not change what is returned. -/
theorem resyncLoop_fst (h : log.length + left = MAX_PAGES) :
    (resyncLoop answers cursors cursor resourceVersion items log left).1 =
      resyncPages answers cursors resourceVersion items left := by
  induction left generalizing cursors cursor resourceVersion items log with
  | zero => rfl
  | succ left ih =>
    have hpage : MAX_PAGES - (left + 1) = log.length := by omega
    simp only [resyncLoop, resyncPages, hpage]
    cases answers log.length with
    | threw message => rfl
    | status code => rfl
    | body body =>
      dsimp only
      cases body.check with
      | none => rfl
      | some page =>
        dsimp only
        split_ifs
        · rfl
        · rfl
        · rfl
        · apply ih
          rw [List.length_append, List.length_singleton]
          omega

theorem listEventsForResyncRequests_fst (answers : Nat → PageAnswer) :
    (listEventsForResyncRequests answers).1 = listEventsForResync answers :=
  resyncLoop_fst (Nat.zero_add _)

/-- The cursors of the requests so far, and what their pages held. -/
structure ResyncReads (answers : Nat → PageAnswer) (cursors : List String) (cursor resourceVersion : String)
    (items : List K8sEvent) (log : List (String × PageAnswer)) : Prop where
  logged : Logged answers log
  walked : Walk PageAnswer.page "" log items cursor
  followed : log ≠ [] → cursor ≠ "" ∧ cursor ∈ cursors
  version : ∀ entry ∈ log, ∃ body page, entry.2 = .body body ∧ body.check = some page ∧ page.2.1 = resourceVersion
  unset : log = [] → resourceVersion = "" ∧ cursor = ""
  known : ∀ entry ∈ log, entry.1 = "" ∨ entry.1 ∈ cursors
  fresh : cursor ∉ log.map Prod.fst
  nodup : (log.map Prod.fst).Nodup
  nonempty : "" ∉ cursors

/-- A relist that returned: all pages of one list, of one version, and no cursor sent twice. -/
structure CompleteWalk (answers : Nat → PageAnswer) (snapshot : Snapshot) (log : List (String × PageAnswer)) : Prop where
  logged : Logged answers log
  walked : Walk PageAnswer.page "" log snapshot.items ""
  nonempty : log ≠ []
  bounded : log.length ≤ MAX_PAGES
  version : ∀ entry ∈ log, ∃ body page, entry.2 = .body body ∧ body.check = some page ∧
    page.2.1 = snapshot.resourceVersion
  nodup : (log.map Prod.fst).Nodup

theorem resyncLoop_complete (h : ResyncReads answers cursors cursor resourceVersion items log) (hleft : log.length + left = MAX_PAGES)
    (hok : (resyncLoop answers cursors cursor resourceVersion items log left).1 = .ok snapshot) :
    CompleteWalk answers snapshot (resyncLoop answers cursors cursor resourceVersion items log left).2 := by
  induction left generalizing cursors cursor resourceVersion items log with
  | zero => cases hok
  | succ left ih =>
    unfold resyncLoop at hok ⊢
    have hlogged := h.logged.snoc cursor
    generalize answers log.length = answer at hok hlogged ⊢
    cases answer with
    | threw message => cases hok
    | status code => cases hok
    | body body =>
      dsimp only at hok ⊢
      cases hcheck : body.check with
      | none =>
        rw [hcheck] at hok
        cases hok
      | some page =>
        obtain ⟨more, pageVersion, next⟩ := page
        rw [hcheck] at hok
        dsimp only at hok ⊢
        have hpage : (PageAnswer.body body).page = some (more, next) := by simp [PageAnswer.page, hcheck]
        have hwalk := h.walked.snoc (fun hne => (h.followed hne).1) hpage
        have hnodup : ((log ++ [(cursor, PageAnswer.body body)]).map Prod.fst).Nodup := by
          rw [List.map_append, List.map_singleton]
          exact h.nodup.append (List.nodup_singleton _) (List.disjoint_singleton.mpr h.fresh)
        have hlength : (log ++ [(cursor, PageAnswer.body body)]).length + left = MAX_PAGES := by
          rw [List.length_append, List.length_singleton]
          omega
        have hversion : (¬ (resourceVersion ≠ "" ∧ resourceVersion ≠ pageVersion)) →
            ∀ entry ∈ log ++ [(cursor, PageAnswer.body body)], ∃ body page, entry.2 = .body body ∧
              body.check = some page ∧ page.2.1 = pageVersion := by
          intro hsame entry hentry
          rcases List.mem_append.mp hentry with hold | hnew
          · obtain ⟨body', page', hbody', hcheck', hversion'⟩ := h.version entry hold
            refine ⟨body', page', hbody', hcheck', ?_⟩
            have hset : resourceVersion ≠ "" := hversion' ▸ body'.check_version hcheck'
            by_contra hne
            exact hsame ⟨hset, fun heq => hne (hversion'.trans heq)⟩
          · rw [List.mem_singleton.mp hnew]
            exact ⟨body, _, rfl, hcheck, rfl⟩
        have hknown : ∀ entry ∈ log ++ [(cursor, PageAnswer.body body)], entry.1 = "" ∨ entry.1 ∈ cursors := by
          intro entry hentry
          rcases List.mem_append.mp hentry with hold | hnew
          · exact h.known entry hold
          · rw [List.mem_singleton.mp hnew]
            by_cases hlog : log = []
            · exact .inl (h.unset hlog).2
            · exact .inr (h.followed hlog).2
        split_ifs at hok ⊢ with hchanged hend hrepeated
        · rw [← Except.ok.inj hok]
          exact ⟨hlogged, hend ▸ hwalk, by simp, hlength ▸ Nat.le_add_right _ _, hversion hchanged, hnodup⟩
        · refine ih ⟨hlogged, hwalk, fun _ => ⟨hend, List.mem_cons_self⟩, hversion hchanged, by simp, ?_, ?_, hnodup, ?_⟩ hlength hok
          · exact fun entry hentry => (hknown entry hentry).imp_right (List.mem_cons_of_mem next)
          · intro hmem
            obtain ⟨entry, hentry, rfl⟩ := List.mem_map.mp hmem
            rcases hknown entry hentry with hempty | hcursor
            · exact hend hempty
            · exact hrepeated hcursor
          · exact fun hmem => (List.mem_cons.mp hmem).elim (fun heq => hend heq.symm) h.nonempty

/-- A relist that returns has walked through one whole list. -/
theorem listEventsForResync_walk (h : listEventsForResync answers = .ok snapshot) :
    CompleteWalk answers snapshot (listEventsForResyncRequests answers).2 := by
  have hstart : ResyncReads answers [] "" "" [] [] :=
    ⟨logged_nil answers, .nil "", fun hne => absurd rfl hne, by simp, fun _ => ⟨rfl, rfl⟩, by simp, by simp, List.nodup_nil, by simp⟩
  rw [← listEventsForResyncRequests_fst] at h
  exact resyncLoop_complete hstart (Nat.zero_add _) h

end

end narwhal.portal.informer

namespace narwhal.portal.k8s_client

/-- A bounded list is what one attempt read from its first page on: all of the list, or a part of it that says so.
    A relist is all of one list. -/
theorem paginated_lists_sound {α : Type} (answers : Nat → Answer α) (opts : ListBoundedOptions)
    (events : Nat → informer.PageAnswer) :
    Logged answers (listBounded answers opts).2 ∧
      (∀ error, bounds opts = .error error → listBounded answers opts = (.error error, [])) ∧
      (∀ limit maxPages, bounds opts = .ok (limit, maxPages) → ∃ earlier walk failed items last,
        Listed limit maxPages (listBounded answers opts).1 (listBounded answers opts).2 earlier walk failed items last) ∧
      (informer.listEventsForResyncRequests events).1 = informer.listEventsForResync events ∧
      ∀ snapshot, informer.listEventsForResync events = .ok snapshot →
        informer.CompleteWalk events snapshot (informer.listEventsForResyncRequests events).2 := by
  refine ⟨logged_listBounded answers opts, ?_, ?_, informer.listEventsForResyncRequests_fst events, ?_⟩
  · intro error herror
    rw [listBounded, herror]
  · intro limit maxPages hbounds
    exact listBounded_listed hbounds
  · intro snapshot hok
    exact informer.listEventsForResync_walk hok

end narwhal.portal.k8s_client
